/-
# Writing a value at the end of a path

A write goes by keys. Whatever stands in its way and is not an object becomes
one, so what was written is read again, and nothing beside its path is touched
as long as the way leads through objects. An array on the way loses all its
items, also the item that the path names. So a path that parts from the written
one reads something else afterwards exactly if it led somewhere and both go
through the same array.

Key definitions: `Json.Parts`, `Json.ShareArray`.
Key theorems: `Json.lookup_write_self`, `Json.lookup_write_of_shareArray`,
`Json.lookup_write_of_not_shareArray`, `Json.lookup_write_eq_iff`.
-/
import ViewMarkup.Proofs.Json.Replace

namespace ViewMarkup.Json

/-- Neither path goes on from the other. -/
def Parts (p q : List String) : Prop := ¬ p <+: q ∧ ¬ q <+: p

/-- An array stands in the value where both paths go through. -/
def ShareArray (v : Json) (p q : List String) : Prop :=
  ∃ r items, r <+: p ∧ r <+: q ∧ v.lookup r = some (array items)

theorem Parts.tail {s : String} {p q : List String} (h : Parts (s :: p) (s :: q)) : Parts p q :=
  ⟨fun hpq => h.1 ((List.prefix_cons_inj s).2 hpq), fun hqp => h.2 ((List.prefix_cons_inj s).2 hqp)⟩

/-! ### The place of an array -/

theorem shareArray_of_array (items : List Json) (p q : List String) :
    (array items).ShareArray p q :=
  ⟨[], items, List.nil_prefix, List.nil_prefix, rfl⟩

theorem ShareArray.below {v child : Json} {s : String} {p q : List String}
    (hs : v.step? s = some child) (h : child.ShareArray p q) :
    v.ShareArray (s :: p) (s :: q) := by
  obtain ⟨r, items, hp, hq, hr⟩ := h
  refine ⟨s :: r, items, (List.prefix_cons_inj s).2 hp, (List.prefix_cons_inj s).2 hq, ?_⟩
  rw [lookup_cons, hs]
  exact hr

/-- A shared array is the value itself, or paths that take the same step share
it below. -/
theorem ShareArray.cases {v : Json} {s t : String} {p q : List String}
    (h : v.ShareArray (s :: p) (t :: q)) :
    (∃ items, v = array items) ∨
      s = t ∧ ∃ child, v.step? s = some child ∧ child.ShareArray p q := by
  obtain ⟨r, items, hp, hq, hr⟩ := h
  cases r with
  | nil => exact Or.inl ⟨items, Option.some.inj hr⟩
  | cons u r =>
    obtain ⟨rfl, hrp⟩ := List.cons_prefix_cons.1 hp
    obtain ⟨rfl, hrq⟩ := List.cons_prefix_cons.1 hq
    obtain ⟨child, hu, hchild⟩ := Option.bind_eq_some_iff.1 hr
    exact Or.inr ⟨rfl, child, hu, r, items, hrp, hrq, hchild⟩

theorem not_shareArray_null (p q : List String) : ¬ null.ShareArray p q := by
  rintro ⟨_ | ⟨s, r⟩, items, -, -, hr⟩ <;> cases hr

/-! ### Members -/

/-- Apart from items of arrays, what stands below a value are its members. -/
theorem step?_eq_member? {v : Json} (hv : ∀ items, v ≠ array items) (segment : String) :
    v.step? segment = member? segment v.membersOf := by
  cases v with
  | array items => exact absurd rfl (hv items)
  | _ => rfl

theorem write_cons (value v : Json) (segment : String) (rest : List String) :
    write value (segment :: rest) v = object (setMember segment
      (write value rest ((member? segment v.membersOf).getD null)) v.membersOf) := rfl

/-- A path that takes the same first step goes on in what was written there. -/
theorem lookup_write_same (value v : Json) (s : String) (p q : List String) :
    (write value (s :: p) v).lookup (s :: q) =
      (write value p ((member? s v.membersOf).getD null)).lookup q := by
  rw [write_cons, lookup_cons, step?, member?_setMember_self, Option.bind_some]

/-- A path that takes another first step finds the member that was there. -/
theorem lookup_write_other (value v : Json) {s t : String} (hne : s ≠ t) (p q : List String) :
    (write value (s :: p) v).lookup (t :: q) = (member? t v.membersOf).bind (lookup · q) := by
  rw [write_cons, lookup_cons, step?, member?_setMember_ne hne]

/-! ### Reading what was written -/

theorem lookup_write_self (value : Json) : ∀ (p : List String) (v : Json),
    (write value p v).lookup p = some value
  | [], _ => rfl
  | s :: p, v => by rw [lookup_write_same, lookup_write_self value p]

/-! ### Reading elsewhere -/

/-- **The frame of a write.** A path that shares no array with the written one
reads what it read before. -/
theorem lookup_write_of_not_shareArray (value : Json) : ∀ {p q : List String} {v : Json},
    Parts p q → ¬ v.ShareArray p q → (write value p v).lookup q = v.lookup q
  | [], _, _, hparts, _ => absurd List.nil_prefix hparts.1
  | _ :: _, [], _, hparts, _ => absurd List.nil_prefix hparts.2
  | s :: p, t :: q, v, hparts, hshare => by
    have hv : ∀ items, v ≠ array items := fun items heq => by
      rw [heq] at hshare
      exact hshare (shareArray_of_array items _ _)
    rw [lookup_cons v, step?_eq_member? hv]
    by_cases hst : s = t
    · subst hst
      rw [lookup_write_same]
      cases hchild : member? s v.membersOf with
      | none =>
        -- The way is made of new objects, in which nothing else stands.
        rw [Option.getD_none, lookup_write_of_not_shareArray value hparts.tail
          (not_shareArray_null p q)]
        cases q with
        | nil => exact absurd List.nil_prefix hparts.tail.2
        | cons u q => rfl
      | some child =>
        rw [Option.getD_some, Option.bind_some]
        refine lookup_write_of_not_shareArray value hparts.tail fun hbelow => hshare ?_
        exact hbelow.below ((step?_eq_member? hv s).trans hchild)
    · rw [lookup_write_other value v hst]

/-- Nothing is left of an array that the path of the write goes through. -/
theorem lookup_write_of_shareArray (value : Json) : ∀ {p q : List String} {v : Json},
    Parts p q → v.ShareArray p q → (write value p v).lookup q = none
  | [], _, _, hparts, _ => absurd List.nil_prefix hparts.1
  | _ :: _, [], _, hparts, _ => absurd List.nil_prefix hparts.2
  | s :: p, t :: q, v, hparts, hshare => by
    by_cases hv : ∃ items, v = array items
    · -- An array has no members, so a write makes of it what it makes of null.
      obtain ⟨items, rfl⟩ := hv
      exact lookup_write_of_not_shareArray value hparts (not_shareArray_null _ _)
    · obtain ⟨rfl, child, hchild, hbelow⟩ := hshare.cases.resolve_left hv
      rw [not_exists] at hv
      rw [step?_eq_member? hv] at hchild
      rw [lookup_write_same, hchild, Option.getD_some]
      exact lookup_write_of_shareArray value hparts.tail hbelow

/-- A path that parts from the written one keeps what it reads, exactly if it
read nothing or shares no array with it. -/
theorem lookup_write_eq_iff (value : Json) {p q : List String} {v : Json} (hparts : Parts p q) :
    (write value p v).lookup q = v.lookup q ↔
      ((v.lookup q).isSome → ¬ v.ShareArray p q) := by
  constructor
  · intro heq hsome hshare
    rw [← heq, lookup_write_of_shareArray value hparts hshare] at hsome
    cases hsome
  · intro h
    by_cases hshare : v.ShareArray p q
    · rw [lookup_write_of_shareArray value hparts hshare]
      exact (Option.not_isSome_iff_eq_none.1 fun hsome => h hsome hshare).symm
    · exact lookup_write_of_not_shareArray value hparts hshare

end ViewMarkup.Json
