/-
# Replacing a value in place

The value at the end of a path is replaced and everything else is left as it is.
Another path reads what was replaced exactly if the two meet: as long as both go
on they take the same step, members by key and items by index, so that one of
the two ends at or above the other. Paths meet in the data, not in their
spelling: `0` and `00` are the same index.

Key definitions: `Json.replaceAt`, `Json.SameStep`, `Json.Meets`.
Key theorems: `Json.lookup_replaceAt_of_not_meets`,
`Json.lookup_replaceAt_of_le`, `Json.lookup_replaceAt_of_lt`,
`Json.length_le_of_lookup_replaceAt`, `Json.prefix_of_meets`.
-/
import Mathlib.Data.List.Induction
import Mathlib.Data.Nat.Digits.Defs
import ViewMarkup.Template.Data

namespace ViewMarkup.Json

/-! ### One step -/

/-- The value with another one in the place that a step leads to. -/
def setStep : Json → String → Json → Json
  | object members, segment, child => object (setMember segment child members)
  | array items, segment, child =>
    match arrayIndex? segment with
    | some i => array (items.set i child)
    | none => array items
  | v, _, _ => v

/-- Two segments lead to the same place in the value. -/
def SameStep : Json → String → String → Prop
  | object _, s, t => s = t
  | array _, s, t => arrayIndex? s = arrayIndex? t
  | _, _, _ => True

theorem member?_setMember_self (key : String) (v : Json) : ∀ members : List (String × Json),
    member? key (setMember key v members) = some v
  | [] => by simp [setMember, member?]
  | (k, w) :: members => by
    unfold setMember
    by_cases hk : k = key
    · rw [if_pos hk, member?, if_pos hk]
    · rw [if_neg hk, member?, if_neg hk]
      exact member?_setMember_self key v members

theorem member?_setMember_ne {key key' : String} (hne : key ≠ key') (v : Json) :
    ∀ members : List (String × Json),
      member? key' (setMember key v members) = member? key' members
  | [] => by simp [setMember, member?, hne]
  | (k, w) :: members => by
    unfold setMember
    by_cases hk : k = key
    · have hk' : k ≠ key' := fun heq => hne (hk.symm.trans heq)
      rw [if_pos hk, member?, if_neg hk', member?, if_neg hk']
    · rw [if_neg hk, member?, member?, member?_setMember_ne hne v members]

theorem step?_setStep_of_same {v old child : Json} {s t : String} (h : v.step? s = some old)
    (hst : v.SameStep s t) : (v.setStep s child).step? t = some child := by
  cases v with
  | object members =>
    obtain rfl : s = t := hst
    exact member?_setMember_self s child members
  | array items =>
    obtain ⟨i, hi, hold⟩ := Option.bind_eq_some_iff.1 h
    have ht : arrayIndex? t = some i := hst.symm.trans hi
    have hlt : i < items.length := (List.getElem?_eq_some_iff.1 hold).1
    simp only [setStep, hi, step?, ht, Option.bind_some]
    exact List.getElem?_set_self hlt
  | _ => cases h

theorem step?_setStep_of_not_same {v : Json} {s t : String} (child : Json)
    (hst : ¬ v.SameStep s t) : (v.setStep s child).step? t = v.step? t := by
  cases v with
  | object members => exact member?_setMember_ne hst child members
  | array items =>
    cases hi : arrayIndex? s with
    | none => simp only [setStep, hi]
    | some i =>
      simp only [setStep, hi, step?]
      cases ht : arrayIndex? t with
      | none => rfl
      | some j =>
        have hne : i ≠ j := fun heq => hst (by show arrayIndex? s = arrayIndex? t; rw [hi, ht, heq])
        exact List.getElem?_set_ne hne
  | _ => exact absurd trivial hst

theorem step?_of_same {v : Json} {s t : String} (hst : v.SameStep s t) : v.step? s = v.step? t := by
  cases v with
  | object members =>
    obtain rfl : s = t := hst
    rfl
  | array items =>
    show (arrayIndex? s).bind _ = (arrayIndex? t).bind _
    rw [show arrayIndex? s = arrayIndex? t from hst]
  | _ => rfl

/-! ### Whole paths -/

/-- The value with another one at the end of a path that leads somewhere. -/
def replaceAt (value : Json) : List String → Json → Json
  | [], _ => value
  | segment :: rest, v =>
    match v.step? segment with
    | some old => v.setStep segment (replaceAt value rest old)
    | none => v

/-- One of two paths ends at or above the other in the value. -/
def Meets : Json → List String → List String → Prop
  | v, s :: p, t :: q => v.SameStep s t ∧ ∃ child, v.step? s = some child ∧ child.Meets p q
  | _, _, _ => True
termination_by structural _ p => p

theorem lookup_cons (v : Json) (segment : String) (rest : List String) :
    v.lookup (segment :: rest) = (v.step? segment).bind (lookup · rest) := rfl

theorem exists_step_of_lookup {v : Json} {segment : String} {rest : List String}
    (h : (v.lookup (segment :: rest)).isSome) :
    ∃ child, v.step? segment = some child ∧ (child.lookup rest).isSome := by
  rw [lookup_cons] at h
  cases hs : v.step? segment with
  | none =>
    rw [hs] at h
    cases h
  | some child =>
    rw [hs] at h
    exact ⟨child, rfl, h⟩

theorem replaceAt_cons {v child : Json} {segment : String} (h : v.step? segment = some child)
    (value : Json) (rest : List String) : replaceAt value (segment :: rest) v =
      v.setStep segment (replaceAt value rest child) := by
  rw [replaceAt, h]

/-- **The frame of a replacement.** A path that does not meet the replaced one
reads what it read before. -/
theorem lookup_replaceAt_of_not_meets (value : Json) : ∀ {p q : List String} {v : Json},
    (v.lookup p).isSome → ¬ v.Meets p q → (replaceAt value p v).lookup q = v.lookup q
  | [], _, _, _, h => absurd trivial h
  | _ :: _, [], _, _, h => absurd trivial h
  | s :: p, t :: q, v, hp, h => by
    obtain ⟨child, hs, hp⟩ := exists_step_of_lookup hp
    rw [replaceAt_cons hs, lookup_cons, lookup_cons]
    by_cases hst : v.SameStep s t
    · rw [step?_setStep_of_same hs hst, ← step?_of_same hst, hs]
      have hchild : ¬ child.Meets p q := fun hm => h ⟨hst, child, hs, hm⟩
      exact lookup_replaceAt_of_not_meets value hp hchild
    · rw [step?_setStep_of_not_same _ hst]

/-- A path that goes on where the replaced one ends reads in the new value. -/
theorem lookup_replaceAt_of_le (value : Json) : ∀ {p q : List String} {v : Json},
    (v.lookup p).isSome → v.Meets p q → p.length ≤ q.length →
      (replaceAt value p v).lookup q = value.lookup (q.drop p.length)
  | [], _, _, _, _, _ => rfl
  | _ :: _, [], _, _, _, hle => absurd hle (Nat.not_succ_le_zero _)
  | s :: p, t :: q, v, hp, h, hle => by
    obtain ⟨child, hs, hp⟩ := exists_step_of_lookup hp
    obtain ⟨hst, child', hs', hm⟩ := h
    obtain rfl := Option.some.inj (hs.symm.trans hs')
    rw [replaceAt_cons hs, lookup_cons, step?_setStep_of_same hs hst]
    exact lookup_replaceAt_of_le value hp hm (Nat.le_of_succ_le_succ hle)

/-- A path that ends above the end of the replaced one reads the value it read
before, with the replacement made in it. -/
theorem lookup_replaceAt_of_lt (value : Json) : ∀ {p q : List String} {v : Json},
    (v.lookup p).isSome → v.Meets p q → q.length < p.length →
      ∃ u segment rest, (u.lookup (segment :: rest)).isSome ∧
        (replaceAt value p v).lookup q = some (replaceAt value (segment :: rest) u)
  | [], _, _, _, _, hlt => absurd hlt (Nat.not_lt_zero _)
  | s :: p, [], v, hp, _, _ => ⟨v, s, p, hp, rfl⟩
  | s :: p, t :: q, v, hp, h, hlt => by
    obtain ⟨child, hs, hp⟩ := exists_step_of_lookup hp
    obtain ⟨hst, child', hs', hm⟩ := h
    obtain rfl := Option.some.inj (hs.symm.trans hs')
    rw [replaceAt_cons hs, lookup_cons, step?_setStep_of_same hs hst]
    exact lookup_replaceAt_of_lt value hp hm (Nat.lt_of_succ_lt_succ hlt)

/-! ### Texts -/

theorem length_le_intercalate (separator : String) {text : String} : ∀ {texts : List String},
    text ∈ texts → text.length ≤ (separator.intercalate texts).length
  | [], h => absurd h List.not_mem_nil
  | [t], h => by
    rw [List.mem_singleton.1 h, String.intercalate_singleton]
  | t :: u :: rest, h => by
    rw [String.intercalate_cons_cons, String.length_append, String.length_append]
    rcases List.mem_cons.1 h with rfl | h
    · omega
    · have := length_le_intercalate separator h
      omega

theorem text_mem_itemTexts {v : Json} : ∀ {items : List Json}, v ∈ items → v.text ∈ itemTexts items
  | [], h => absurd h List.not_mem_nil
  | w :: items, h => by
    rw [itemTexts]
    rcases List.mem_cons.1 h with rfl | h
    · exact List.mem_cons_self
    · exact List.mem_cons_of_mem _ (text_mem_itemTexts h)

theorem memberText_mem_memberTexts {m : String × Json} : ∀ {members : List (String × Json)},
    m ∈ members → memberText m ∈ memberTexts members
  | [], h => absurd h List.not_mem_nil
  | n :: members, h => by
    rw [memberTexts]
    rcases List.mem_cons.1 h with rfl | h
    · exact List.mem_cons_self
    · exact List.mem_cons_of_mem _ (memberText_mem_memberTexts h)

theorem mem_setMember (key : String) (v : Json) : ∀ members : List (String × Json),
    ∃ k, (k, v) ∈ setMember key v members
  | [] => ⟨key, List.mem_singleton_self _⟩
  | (k, w) :: members => by
    unfold setMember
    by_cases hk : k = key
    · rw [if_pos hk]
      exact ⟨k, List.mem_cons_self⟩
    · rw [if_neg hk]
      obtain ⟨k', hmem⟩ := mem_setMember key v members
      exact ⟨k', List.mem_cons_of_mem _ hmem⟩

/-- A value is at least as long as what one step leads to. -/
theorem length_text_le_setStep {v old : Json} {segment : String} (child : Json)
    (h : v.step? segment = some old) :
    child.text.length ≤ (v.setStep segment child).text.length := by
  cases v with
  | object members =>
    obtain ⟨k, hmem⟩ := mem_setMember segment child members
    have hle := length_le_intercalate "," (memberText_mem_memberTexts hmem)
    rw [memberText, String.length_append, String.length_append] at hle
    rw [setStep, text, String.length_append, String.length_append]
    omega
  | array items =>
    obtain ⟨i, hi, hold⟩ := Option.bind_eq_some_iff.1 h
    have hlt : i < items.length := (List.getElem?_eq_some_iff.1 hold).1
    have hmem : child ∈ items.set i child := List.mem_set hlt child
    have hle := length_le_intercalate "," (text_mem_itemTexts hmem)
    simp only [setStep, hi]
    rw [text, String.length_append, String.length_append]
    omega
  | _ => cases h

theorem length_text_le_replaceAt (value : Json) : ∀ {p : List String} {v : Json},
    (v.lookup p).isSome → value.text.length ≤ (replaceAt value p v).text.length
  | [], _, _ => Nat.le_refl _
  | s :: p, v, hp => by
    obtain ⟨child, hs, hp⟩ := exists_step_of_lookup hp
    rw [replaceAt_cons hs]
    exact Nat.le_trans (length_text_le_replaceAt value hp) (length_text_le_setStep _ hs)

theorem length_escapeChar_pos (c : Char) : 0 < (escapeChar c).length := by
  unfold escapeChar
  split_ifs
  all_goals try decide
  · rw [String.length_append]
    exact Nat.add_pos_left (by decide) _
  · rw [Char.toString, String.length_singleton]
    exact Nat.one_pos

theorem length_le_length_join_escaped : ∀ cs : List Char,
    cs.length ≤ (String.join (cs.map escapeChar)).length
  | [] => Nat.zero_le _
  | c :: cs => by
    have hc := length_escapeChar_pos c
    have hcs := length_le_length_join_escaped cs
    rw [List.map_cons, String.join_cons, String.length_append, List.length_cons]
    omega

theorem length_inserted_le_text (v : Json) : v.inserted.length ≤ v.text.length := by
  cases v with
  | null => exact Nat.zero_le _
  | string s =>
    have hs := length_le_length_join_escaped s.toList
    rw [String.length_toList] at hs
    rw [inserted, text, stringText, String.length_append, String.length_append]
    omega
  | _ => exact Nat.le_refl _

/-- What has places in it is inserted as its text. -/
theorem inserted_setStep {v old : Json} {segment : String} (child : Json)
    (h : v.step? segment = some old) :
    (v.setStep segment child).inserted = (v.setStep segment child).text := by
  cases v with
  | object members => rfl
  | array items =>
    obtain ⟨i, hi, -⟩ := Option.bind_eq_some_iff.1 h
    simp only [setStep, hi]
    rfl
  | _ => cases h

/-- Whatever a path reads that meets the replaced one is as long as the string
that was put there. -/
theorem length_le_of_lookup_replaceAt {p q : List String} {v u : Json} {s : String}
    (hp : (v.lookup p).isSome) (hm : v.Meets p q)
    (hu : (replaceAt (string s) p v).lookup q = some u) : s.length ≤ u.inserted.length := by
  rcases Nat.lt_or_ge q.length p.length with hlt | hle
  · obtain ⟨w, segment, rest, hw, hread⟩ := lookup_replaceAt_of_lt (string s) hp hm hlt
    obtain ⟨child, hs, hchild⟩ := exists_step_of_lookup hw
    obtain rfl := Option.some.inj (hread.symm.trans hu)
    have hlength := Nat.le_trans (length_inserted_le_text (string s))
      (length_text_le_replaceAt (string s) hw)
    rw [replaceAt_cons hs] at hlength ⊢
    rw [inserted_setStep _ hs]
    exact hlength
  · rw [lookup_replaceAt_of_le (string s) hp hm hle] at hu
    -- Nothing lies below a string.
    cases hq : q.drop p.length with
    | nil =>
      rw [hq] at hu
      obtain rfl := Option.some.inj hu
      exact Nat.le_refl _
    | cons t rest =>
      rw [hq] at hu
      cases hu

/-! ### The spelling of indices -/

/-- The digit that a character stands for. -/
def digit (c : Char) : Nat := c.toNat - '0'.toNat

theorem digitsValue_eq_ofDigits (cs : List Char) :
    digitsValue cs = Nat.ofDigits 10 (cs.reverse.map digit) := by
  induction cs using List.reverseRecOn with
  | nil => rfl
  | append_singleton cs c ih =>
    have hlast : digitsValue (cs ++ [c]) = digitsValue cs * 10 + digit c := by
      rw [digitsValue, List.foldl_append]
      rfl
    rw [hlast, ih, List.reverse_append, List.reverse_singleton, List.singleton_append,
      List.map_cons, Nat.ofDigits_cons]
    exact (Nat.add_comm _ _).trans (congrArg _ (Nat.mul_comm _ _))

theorem digit_lt {c : Char} (h : c.isDigit = true) : digit c < 10 := by
  have hle : c.toNat ≤ 57 := (Char.isDigit_iff_toNat.1 h).2
  show c.toNat - 48 < 10
  omega

theorem digit_inj {c c' : Char} (h : c.isDigit = true) (h' : c'.isDigit = true)
    (heq : digit c = digit c') : c = c' := by
  have hle : 48 ≤ c.toNat := (Char.isDigit_iff_toNat.1 h).1
  have hle' : 48 ≤ c'.toNat := (Char.isDigit_iff_toNat.1 h').1
  have heq : c.toNat - 48 = c'.toNat - 48 := heq
  exact Char.toNat_inj.1 (by omega)

theorem eq_of_map_digit : ∀ {cs cs' : List Char}, cs.all Char.isDigit = true →
    cs'.all Char.isDigit = true → cs.map digit = cs'.map digit → cs = cs'
  | [], [], _, _, _ => rfl
  | [], _ :: _, _, _, h => by cases h
  | _ :: _, [], _, _, h => by cases h
  | c :: cs, c' :: cs', hd, hd', h => by
    rw [List.all_cons, Bool.and_eq_true] at hd hd'
    obtain ⟨hc, hcs⟩ := List.cons.inj h
    rw [digit_inj hd.1 hd'.1 hc, eq_of_map_digit hd.2 hd'.2 hcs]

/-- Digits that do not begin with a zero are those of their value. -/
theorem digits_digitsValue {cs : List Char} (hd : cs.all Char.isDigit = true)
    (hzero : cs.head? ≠ some '0') : Nat.digits 10 (digitsValue cs) = cs.reverse.map digit := by
  rw [digitsValue_eq_ofDigits]
  refine Nat.digits_ofDigits 10 (by decide) _ (fun n hn => ?_) (fun hne hlast => ?_)
  · obtain ⟨c, hc, rfl⟩ := List.mem_map.1 hn
    exact digit_lt (List.all_eq_true.1 hd c (List.mem_reverse.1 hc))
  · cases cs with
    | nil => exact hne rfl
    | cons c cs =>
      rw [List.getLast_map, List.getLast_reverse] at hlast
      have hc : c.isDigit = true := List.all_eq_true.1 hd c List.mem_cons_self
      exact hzero (congrArg some (digit_inj hc rfl hlast))

/-- The segment is no index with zeros in front. -/
def IsPlain (segment : String) : Prop := segment.toList.head? = some '0' → segment = "0"

theorem digits_of_arrayIndex? {s : String} {i : Nat} (h : arrayIndex? s = some i) :
    s.toList ≠ [] ∧ s.toList.all Char.isDigit = true ∧ digitsValue s.toList = i := by
  simp only [arrayIndex?] at h
  split at h
  · rename_i hs
    simp only [Bool.and_eq_true, Bool.not_eq_true', List.isEmpty_eq_false_iff] at hs
    exact ⟨hs.1.1, hs.1.2, Option.some.inj h⟩
  · cases h

theorem eq_zero_or_digits {s : String} {i : Nat} (hs : arrayIndex? s = some i)
    (hplain : IsPlain s) :
    s = "0" ∧ i = 0 ∨ i ≠ 0 ∧ Nat.digits 10 i = s.toList.reverse.map digit := by
  obtain ⟨hne, hd, hi⟩ := digits_of_arrayIndex? hs
  by_cases hzero : s.toList.head? = some '0'
  · have h0 := hplain hzero
    rw [h0] at hi
    exact Or.inl ⟨h0, hi.symm⟩
  · have hdigits := digits_digitsValue hd hzero
    rw [hi] at hdigits
    refine Or.inr ⟨fun h0 => ?_, hdigits⟩
    rw [h0, Nat.digits_zero] at hdigits
    simp [hne] at hdigits

theorem eq_of_arrayIndex? {s t : String} {i : Nat} (hs : arrayIndex? s = some i)
    (ht : arrayIndex? t = some i) (hps : IsPlain s) (hpt : IsPlain t) : s = t := by
  rcases eq_zero_or_digits hs hps with ⟨hs0, hi⟩ | ⟨hi, hsd⟩
  · rcases eq_zero_or_digits ht hpt with ⟨ht0, -⟩ | ⟨hi', -⟩
    · rw [hs0, ht0]
    · exact absurd hi hi'
  · rcases eq_zero_or_digits ht hpt with ⟨-, hi'⟩ | ⟨-, htd⟩
    · exact absurd hi' hi
    · have hmap := hsd.symm.trans htd
      rw [List.map_reverse, List.map_reverse] at hmap
      exact String.toList_inj.1 (eq_of_map_digit (digits_of_arrayIndex? hs).2.1
        (digits_of_arrayIndex? ht).2.1 (List.reverse_inj.1 hmap))

/-- Where indices have no zeros in front, paths that meet are spelled alike as
far as both go. -/
theorem prefix_of_meets : ∀ {p q : List String} {v : Json}, v.Meets p q → (∀ s ∈ p, IsPlain s) →
    (∀ t ∈ q, IsPlain t) → p <+: q ∨ q <+: p
  | [], _, _, _, _, _ => Or.inl List.nil_prefix
  | _ :: _, [], _, _, _, _ => Or.inr List.nil_prefix
  | s :: p, t :: q, v, h, hp, hq => by
    obtain ⟨hst, child, hs, hm⟩ := h
    have heq : s = t := by
      cases v with
      | object members => exact hst
      | array items =>
        obtain ⟨i, hi, -⟩ := Option.bind_eq_some_iff.1 hs
        exact eq_of_arrayIndex? hi (hst.symm.trans hi) (hp s List.mem_cons_self)
          (hq t List.mem_cons_self)
      | _ => cases hs
    rw [heq, List.prefix_cons_inj, List.prefix_cons_inj]
    exact prefix_of_meets hm (fun s hs => hp s (List.mem_cons_of_mem _ hs))
      (fun t ht => hq t (List.mem_cons_of_mem _ ht))

end ViewMarkup.Json
