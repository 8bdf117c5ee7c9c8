/-
# Setting properties of the standard views

A setter of a standard view reads a value and only then puts what it read into
one place of the view. So a refused value leaves the view as it was
(`Setter.Atomic`), to set a value again changes nothing (`Setter.Settled`), and to
set one property leaves alone what the view shows under another (`Setter.Apart`).
All three carry over from a part of a view to the view (`Setter.within`) and from
a narrow type of view to a wider one (`ViewClass.embedSetter`); a class all of
whose setters are so is `ViewClass.Orderly`, and the standard ones are.

Key definitions: `Setter.Atomic`, `Setter.Settled`, `Setter.Apart`,
`ViewClass.Orderly`, `ViewRegistry.Orderly`.
Key theorems: `ViewClass.Orderly.apply_refused`, `ViewClass.Orderly.apply_again`,
`ViewClass.Orderly.apply_apart`, `ViewRegistry.standard_orderly`.
-/
import Mathlib.Data.List.Pairwise
import ViewMarkup.Outcome
import ViewMarkup.View.Standard

namespace ViewMarkup

variable {V W α β : Type}

/-! ### Setters -/

/-- The answer of a setter, with the view put somewhere else. -/
theorem answered_eq_iff {result : Except PropertyError Unit × W} {f : W → V} {answer v} :
    (result.1, f result.2) = (answer, v) ↔ ∃ w, result = (answer, w) ∧ f w = v := by
  obtain ⟨answer', w⟩ := result
  simp [and_assoc]

namespace Setter

/-- A refused value leaves the view as it was. -/
def Atomic (s : Setter V) : Prop := ∀ ⦃v w x e⦄, s v x = (.error e, w) → w = v

/-- What was set can be set again, and changes nothing. -/
def Settled (s : Setter V) : Prop := ∀ ⦃v w x⦄, s v x = (.ok (), w) → s w x = (.ok (), w)

/-- A view that shows a value under `t` still does after `s` has set another. -/
def Apart (s t : Setter V) : Prop :=
  ∀ ⦃v w x y⦄, s v x = (.ok (), w) → t v y = (.ok (), v) → t w y = (.ok (), w)

/-- Setters of two different places. -/
structure Disjoint (s t : Setter V) : Prop where
  left : s.Apart t
  right : t.Apart s

instance : Std.Symm (Disjoint (V := V)) := ⟨fun _ _ h => ⟨h.right, h.left⟩⟩

section Of

variable {read : PropertyValue → Except PropertyError α} {put : V → α → V}

theorem of_eq_ok_iff {v w x} :
    Setter.of read put v x = (.ok (), w) ↔ ∃ a, read x = .ok a ∧ put v a = w := by
  unfold Setter.of
  cases read x <;> simp

theorem of_eq_error_iff {v w x e} :
    Setter.of read put v x = (.error e, w) ↔ read x = .error e ∧ v = w := by
  unfold Setter.of
  cases read x <;> simp

/-- Nothing is put into the view before the value is read. -/
theorem of_atomic : (Setter.of read put).Atomic := fun _ _ _ _ h => (of_eq_error_iff.1 h).2.symm

/-- A place that is overwritten by the same thing stays as it is. -/
theorem of_settled (again : ∀ v a, put (put v a) a = put v a) :
    (Setter.of read put).Settled := by
  intro v w x h
  obtain ⟨a, ha, rfl⟩ := of_eq_ok_iff.1 h
  exact of_eq_ok_iff.2 ⟨a, ha, again v a⟩

variable {read' : PropertyValue → Except PropertyError β} {put' : V → β → V}

/-- Setters of places that are filled in either order are apart. -/
theorem of_apart (comm : ∀ v a b, put' (put v a) b = put (put' v b) a) :
    (Setter.of read put).Apart (Setter.of read' put') := by
  intro v w x y hs ht
  obtain ⟨a, -, rfl⟩ := of_eq_ok_iff.1 hs
  obtain ⟨b, hb, hv⟩ := of_eq_ok_iff.1 ht
  refine of_eq_ok_iff.2 ⟨b, hb, ?_⟩
  rw [comm, hv]

theorem of_disjoint (comm : ∀ v a b, put' (put v a) b = put (put' v b) a) :
    (Setter.of read put).Disjoint (Setter.of read' put') :=
  ⟨of_apart comm, of_apart fun v a b => (comm v b a).symm⟩

end Of

/-! ### Setters of a part -/

/-- A part of a view that can be taken out and put back. -/
structure Part (get : V → W) (put : V → W → V) : Prop where
  get_put : ∀ v w, get (put v w) = w
  put_get : ∀ v, put v (get v) = v
  put_put : ∀ v w w', put (put v w) w' = put v w'

section Part

variable {get : V → W} {put : V → W → V}

theorem within_eq_iff {s : Setter W} {v v' x answer} :
    Setter.within get put s v x = (answer, v') ↔
      ∃ w, s (get v) x = (answer, w) ∧ put v w = v' := answered_eq_iff

/-- What a view shows in a part, the part shows itself. -/
theorem shown_of_within (part : Part get put) {s : Setter W} {v x}
    (h : Setter.within get put s v x = (.ok (), v)) : s (get v) x = (.ok (), get v) := by
  obtain ⟨w, hw, hv⟩ := within_eq_iff.1 h
  have hget : w = get v := by rw [← part.get_put v w, hv]
  rw [← hget]
  exact hget ▸ hw

theorem within_atomic (part : Part get put) {s : Setter W} (hs : s.Atomic) :
    (Setter.within get put s).Atomic := by
  intro v v' x e h
  obtain ⟨w, hw, rfl⟩ := within_eq_iff.1 h
  rw [hs hw, part.put_get]

theorem within_settled (part : Part get put) {s : Setter W} (hs : s.Settled) :
    (Setter.within get put s).Settled := by
  intro v v' x h
  obtain ⟨w, hw, rfl⟩ := within_eq_iff.1 h
  refine within_eq_iff.2 ⟨w, ?_, part.put_put v w w⟩
  rw [part.get_put]
  exact hs hw

theorem within_apart (part : Part get put) {s t : Setter W} (h : s.Apart t) :
    (Setter.within get put s).Apart (Setter.within get put t) := by
  intro v v' x y hs ht
  obtain ⟨w, hw, rfl⟩ := within_eq_iff.1 hs
  refine within_eq_iff.2 ⟨w, ?_, part.put_put v w w⟩
  rw [part.get_put]
  exact h hw (shown_of_within part ht)

theorem within_disjoint (part : Part get put) {s t : Setter W} (h : s.Disjoint t) :
    (Setter.within get put s).Disjoint (Setter.within get put t) :=
  ⟨within_apart part h.left, within_apart part h.right⟩

/-- A setter of a part and one of a place outside the part. -/
theorem within_disjoint_of (part : Part get put) {s : Setter W}
    {read : PropertyValue → Except PropertyError β} {put' : V → β → V}
    (outside : ∀ v b, get (put' v b) = get v)
    (comm : ∀ v w b, put' (put v w) b = put (put' v b) w) :
    (Setter.within get put s).Disjoint (Setter.of read put') := by
  constructor
  · intro v v' x y hs ht
    obtain ⟨w, -, rfl⟩ := within_eq_iff.1 hs
    obtain ⟨b, hb, hv⟩ := of_eq_ok_iff.1 ht
    refine of_eq_ok_iff.2 ⟨b, hb, ?_⟩
    rw [comm, hv]
  · intro v v' x y hs ht
    obtain ⟨b, -, rfl⟩ := of_eq_ok_iff.1 hs
    refine within_eq_iff.2 ⟨get v, ?_, ?_⟩
    · rw [outside]
      exact shown_of_within part ht
    · rw [← comm, part.put_get]

end Part

/-! ### Setters on a wider type of view -/

section Embed

variable {lift : W → V} {narrow? : V → Option W}

/-- On a view of the narrow type the setter does what it did there. -/
theorem embed_of_some {s : Setter W} {v w x} (hw : narrow? v = some w) :
    ViewClass.embedSetter lift narrow? s v x = ((s w x).1, lift (s w x).2) := by
  simp only [ViewClass.embedSetter, hw]

theorem embed_of_none {s : Setter W} {v x} (hv : narrow? v = none) :
    ViewClass.embedSetter lift narrow? s v x = (.error .wrongViewType, v) := by
  simp only [ViewClass.embedSetter, hv]

theorem embed_eq_ok_iff {s : Setter W} {v v' x} :
    ViewClass.embedSetter lift narrow? s v x = (.ok (), v') ↔
      ∃ w w', narrow? v = some w ∧ s w x = (.ok (), w') ∧ lift w' = v' := by
  cases hn : narrow? v with
  | none => simp [embed_of_none hn]
  | some w =>
    rw [embed_of_some hn, answered_eq_iff]
    simp

variable (hn : ∀ v w, narrow? v = some w ↔ lift w = v)
include hn

theorem embed_atomic {s : Setter W} (hs : s.Atomic) :
    Atomic (ViewClass.embedSetter lift narrow? s) := by
  intro v v' x e h
  cases hv : narrow? v with
  | none =>
    rw [embed_of_none hv] at h
    exact (congrArg Prod.snd h).symm
  | some w =>
    rw [embed_of_some hv] at h
    obtain ⟨w', hw', rfl⟩ := answered_eq_iff.1 h
    rw [hs hw', (hn v w).1 hv]

theorem embed_settled {s : Setter W} (hs : s.Settled) :
    Settled (ViewClass.embedSetter lift narrow? s) := by
  intro v v' x h
  obtain ⟨w, w', -, hw, rfl⟩ := embed_eq_ok_iff.1 h
  exact embed_eq_ok_iff.2 ⟨w', w', (hn _ _).2 rfl, hs hw, rfl⟩

theorem embed_apart {s t : Setter W} (h : s.Apart t) :
    Apart (ViewClass.embedSetter lift narrow? s) (ViewClass.embedSetter lift narrow? t) := by
  intro v v' x y hs ht
  obtain ⟨w, w', hw, hset, rfl⟩ := embed_eq_ok_iff.1 hs
  obtain ⟨u, u', hu, hshown, hv⟩ := embed_eq_ok_iff.1 ht
  -- the view shows `y`, so the narrow view that was read is the one that came back
  have huw : u = w := Option.some.inj (hu.symm.trans hw)
  have hu' : u' = w := Option.some.inj (((hn v u').2 hv).symm.trans hw)
  subst huw hu'
  exact embed_eq_ok_iff.2 ⟨w', w', (hn _ _).2 rfl, h hset hshown, rfl⟩

theorem embed_disjoint {s t : Setter W} (h : s.Disjoint t) :
    Disjoint (ViewClass.embedSetter lift narrow? s) (ViewClass.embedSetter lift narrow? t) :=
  ⟨embed_apart hn h.left, embed_apart hn h.right⟩

end Embed

end Setter

/-! ### Classes -/

/-- Setters each of which is atomic and settled, and every two of which are
disjoint. -/
structure OrderlySetters (setters : List (String × Setter V)) : Prop where
  atomic : ∀ s ∈ setters, s.2.Atomic
  settled : ∀ s ∈ setters, s.2.Settled
  disjoint : setters.Pairwise fun s t => s.2.Disjoint t.2

theorem OrderlySetters.map {setters : List (String × Setter W)} (h : OrderlySetters setters)
    {f : Setter W → Setter V} (atomic : ∀ s, s.Atomic → (f s).Atomic)
    (settled : ∀ s, s.Settled → (f s).Settled)
    (disjoint : ∀ s t, s.Disjoint t → (f s).Disjoint (f t)) :
    OrderlySetters (setters.map fun s => (s.1, f s.2)) where
  atomic := by
    intro _ hmem
    obtain ⟨s, hs, rfl⟩ := List.mem_map.1 hmem
    exact atomic _ (h.atomic s hs)
  settled := by
    intro _ hmem
    obtain ⟨s, hs, rfl⟩ := List.mem_map.1 hmem
    exact settled _ (h.settled s hs)
  disjoint := List.pairwise_map.2 (h.disjoint.imp fun hst => disjoint _ _ hst)

theorem OrderlySetters.append {ss ts : List (String × Setter V)} (hs : OrderlySetters ss)
    (ht : OrderlySetters ts) (h : ∀ s ∈ ss, ∀ t ∈ ts, s.2.Disjoint t.2) :
    OrderlySetters (ss ++ ts) where
  atomic := List.forall_mem_append.2 ⟨hs.atomic, ht.atomic⟩
  settled := List.forall_mem_append.2 ⟨hs.settled, ht.settled⟩
  disjoint := List.pairwise_append.2 ⟨hs.disjoint, ht.disjoint, h⟩

namespace ViewClass

/-- A class whose properties have places of their own: a value that is refused
changes nothing, nor does to set one again, and to set one leaves alone what the
view shows under the others. -/
structure Orderly (c : ViewClass V) : Prop where
  apply_refused : ∀ {v w name x e}, c.apply v name x = (some (.error e), w) → w = v
  apply_again : ∀ {v w name x}, c.apply v name x = (some (.ok ()), w) →
    c.apply w name x = (some (.ok ()), w)
  apply_apart : ∀ {v w name x name' y}, name ≠ name' → c.apply v name x = (some (.ok ()), w) →
    c.apply v name' y = (some (.ok ()), v) → c.apply w name' y = (some (.ok ()), w)

theorem apply_of_setter? {c : ViewClass V} {name : String} {s : Setter V}
    (h : c.setter? name = some s) (v : V) (x : PropertyValue) :
    c.apply v name x = (some (s v x).1, (s v x).2) := by
  rw [apply, h]

theorem apply_of_none {c : ViewClass V} {name : String} (h : c.setter? name = none) (v : V)
    (x : PropertyValue) : c.apply v name x = (none, v) := by
  rw [apply, h]

theorem apply_eq_some_iff {c : ViewClass V} {v w name x answer} :
    c.apply v name x = (some answer, w) ↔
      ∃ s, c.setter? name = some s ∧ s v x = (answer, w) := by
  cases h : c.setter? name with
  | none => simp [apply_of_none h]
  | some s => simp [apply_of_setter? h, Prod.ext_iff]

/-- Where there is no such property, nothing happens. -/
theorem eq_of_apply_none {c : ViewClass V} {v w name x} (h : c.apply v name x = (none, w)) :
    w = v := by
  cases hs : c.setter? name with
  | none =>
    rw [apply_of_none hs] at h
    exact (congrArg Prod.snd h).symm
  | some s =>
    rw [apply_of_setter? hs] at h
    cases h

theorem mem_of_setter? {c : ViewClass V} {name s} (h : c.setter? name = some s) :
    (name, s) ∈ c.setters := by
  obtain ⟨l₁, l₂, hl, -⟩ := List.lookup_eq_some_iff.1 h
  rw [hl]
  exact List.mem_append_right _ List.mem_cons_self

theorem orderly_of_setters {c : ViewClass V} (h : OrderlySetters c.setters) : c.Orderly where
  apply_refused := by
    intro v w name x e hx
    obtain ⟨s, hs, hw⟩ := apply_eq_some_iff.1 hx
    exact h.atomic _ (mem_of_setter? hs) hw
  apply_again := by
    intro v w name x hx
    obtain ⟨s, hs, hw⟩ := apply_eq_some_iff.1 hx
    exact apply_eq_some_iff.2 ⟨s, hs, h.settled _ (mem_of_setter? hs) hw⟩
  apply_apart := by
    intro v w name x name' y hne hx hy
    obtain ⟨s, hs, hw⟩ := apply_eq_some_iff.1 hx
    obtain ⟨t, ht, hv⟩ := apply_eq_some_iff.1 hy
    have hst : s.Disjoint t := h.disjoint.forall (mem_of_setter? hs) (mem_of_setter? ht)
      fun heq => hne (congrArg Prod.fst heq)
    exact apply_eq_some_iff.2 ⟨t, ht, hst.left hw hv⟩

theorem embed_orderly (lift : W → V) (narrow? : V → Option W)
    (hn : ∀ v w, narrow? v = some w ↔ lift w = v) {c : ViewClass W}
    (h : OrderlySetters c.setters) : (c.embed lift narrow?).Orderly :=
  orderly_of_setters (h.map (fun _ => Setter.embed_atomic hn) (fun _ => Setter.embed_settled hn)
    fun _ _ => Setter.embed_disjoint hn)

theorem setSetter_eq_append {name : String} {set : Setter V} :
    ∀ {l : List (String × Setter V)}, name ∉ l.map Prod.fst →
      setSetter name set l = l ++ [(name, set)]
  | [], _ => rfl
  | (n, s) :: l, h => by
    simp only [List.map_cons, List.mem_cons, not_or] at h
    rw [setSetter, if_neg (Ne.symm h.1), setSetter_eq_append h.2, List.cons_append]

/-- A class gets the setters it is given, in their order, if their names differ. -/
theorem withProperties_setters {l : List (String × Setter V)} : ∀ {c : ViewClass V},
    ((c.setters ++ l).map Prod.fst).Nodup → (c.withProperties l).setters = c.setters ++ l := by
  induction l with
  | nil =>
    intro c _
    simp [withProperties]
  | cons s l ih =>
    intro c h
    have hs : s.1 ∉ c.setters.map Prod.fst := by
      rw [List.map_append, List.nodup_append] at h
      exact fun hm => h.2.2 _ hm s.1 (by simp) rfl
    have hc : (c.withProperty s.1 s.2).setters = c.setters ++ [s] := setSetter_eq_append hs
    show ((c.withProperty s.1 s.2).withProperties l).setters = _
    rw [ih (by rw [hc, List.append_assoc]; exact h), hc, List.append_assoc]
    rfl

/-- Setters with names that differ make an orderly class if they are orderly. -/
theorem withProperties_orderly {kind : String} {create : V} {l : List (String × Setter V)}
    (names : (l.map Prod.fst).Nodup) (h : OrderlySetters l) :
    OrderlySetters ((ofKind kind create).withProperties l).setters := by
  have hl : ((ofKind kind create).withProperties l).setters = l := withProperties_setters names
  rw [hl]
  exact h

end ViewClass

/-! ### The standard classes -/

theorem ViewBase.setters_orderly : OrderlySetters ViewBase.setters where
  atomic := by
    simp only [setters, List.forall_mem_cons, List.not_mem_nil, false_imp_iff, implies_true,
      and_true]
    and_intros <;> exact Setter.of_atomic
  settled := by
    simp only [setters, List.forall_mem_cons, List.not_mem_nil, false_imp_iff, implies_true,
      and_true]
    and_intros <;> exact Setter.of_settled fun _ _ => rfl
  disjoint := by
    simp only [setters, List.pairwise_cons, List.forall_mem_cons, List.not_mem_nil, false_imp_iff,
      implies_true, and_true, List.Pairwise.nil]
    and_intros <;> exact Setter.of_disjoint fun _ _ _ => rfl

/-- The shared properties beside properties of a view's own: it is enough that
the own ones are orderly and put nothing into the base. -/
theorem ViewBase.settersWithin_append_orderly {get : V → ViewBase} {put : V → ViewBase → V}
    (part : Setter.Part get put) {own : List (String × Setter V)} (hown : OrderlySetters own)
    (outside : ∀ s : Setter ViewBase, ∀ t ∈ own, (Setter.within get put s).Disjoint t.2) :
    OrderlySetters (ViewBase.settersWithin get put ++ own) := by
  refine OrderlySetters.append ?_ hown ?_
  · exact ViewBase.setters_orderly.map (fun _ => Setter.within_atomic part)
      (fun _ => Setter.within_settled part)
      fun _ _ => Setter.within_disjoint part
  · intro s hs t ht
    obtain ⟨s, -, rfl⟩ := List.mem_map.1 hs
    exact outside _ t ht

theorem Label.base_part : Setter.Part Label.base fun l base => { l with base } :=
  ⟨fun _ _ => rfl, fun _ => rfl, fun _ _ _ => rfl⟩

theorem Label.setters_orderly : OrderlySetters Label.setters where
  atomic := by
    simp only [setters, List.forall_mem_cons, List.not_mem_nil, false_imp_iff, implies_true,
      and_true]
    and_intros <;> exact Setter.of_atomic
  settled := by
    simp only [setters, List.forall_mem_cons, List.not_mem_nil, false_imp_iff, implies_true,
      and_true]
    and_intros <;> exact Setter.of_settled fun _ _ => rfl
  disjoint := by
    simp only [setters, List.pairwise_cons, List.forall_mem_cons, List.not_mem_nil, false_imp_iff,
      implies_true, and_true, List.Pairwise.nil]
    and_intros <;> exact Setter.of_disjoint fun _ _ _ => rfl

theorem ImageView.base_part : Setter.Part ImageView.base fun v base => { v with base } :=
  ⟨fun _ _ => rfl, fun _ => rfl, fun _ _ _ => rfl⟩

theorem ImageView.setters_orderly : OrderlySetters ImageView.setters where
  atomic := by
    simp only [setters, List.forall_mem_cons, List.not_mem_nil, false_imp_iff, implies_true,
      and_true]
    and_intros <;> exact Setter.of_atomic
  settled := by
    simp only [setters, List.forall_mem_cons, List.not_mem_nil, false_imp_iff, implies_true,
      and_true]
    and_intros <;> exact Setter.of_settled fun _ _ => rfl
  disjoint := by
    simp only [setters, List.pairwise_cons, List.forall_mem_cons, List.not_mem_nil, false_imp_iff,
      implies_true, and_true, List.Pairwise.nil]
    exact Setter.of_disjoint fun _ _ _ => rfl

namespace StandardView

theorem plain?_eq_some_iff (v : StandardView) (base : ViewBase) :
    v.plain? = some base ↔ plain base = v := by
  cases v <;> simp [plain?, eq_comm]

theorem label?_eq_some_iff (v : StandardView) (l : Label) : v.label? = some l ↔ label l = v := by
  cases v <;> simp [label?, eq_comm]

theorem image?_eq_some_iff (v : StandardView) (i : ImageView) :
    v.image? = some i ↔ image i = v := by
  cases v <;> simp [image?, eq_comm]

theorem plainClass_orderly : plainClass.Orderly := by
  refine ViewClass.embed_orderly plain plain? plain?_eq_some_iff
    (ViewClass.withProperties_orderly ?_ ?_)
  · decide
  · exact ViewBase.setters_orderly

theorem labelClass_orderly : labelClass.Orderly := by
  refine ViewClass.embed_orderly label label? label?_eq_some_iff
    (ViewClass.withProperties_orderly ?_ ?_)
  · decide
  · refine ViewBase.settersWithin_append_orderly Label.base_part
      Label.setters_orderly fun s => ?_
    simp only [Label.setters, List.forall_mem_cons, List.not_mem_nil, false_imp_iff, implies_true,
      and_true]
    and_intros <;> exact Setter.within_disjoint_of Label.base_part (fun _ _ => rfl)
      fun _ _ _ => rfl

theorem imageClass_orderly : imageClass.Orderly := by
  refine ViewClass.embed_orderly image image? image?_eq_some_iff
    (ViewClass.withProperties_orderly ?_ ?_)
  · decide
  · refine ViewBase.settersWithin_append_orderly ImageView.base_part
      ImageView.setters_orderly fun s => ?_
    simp only [ImageView.setters, List.forall_mem_cons, List.not_mem_nil, false_imp_iff,
      implies_true, and_true]
    and_intros <;> exact Setter.within_disjoint_of ImageView.base_part (fun _ _ => rfl)
      fun _ _ _ => rfl

end StandardView

/-! ### Registries -/

namespace ViewRegistry

/-- A registry of orderly classes. -/
def Orderly (registry : ViewRegistry V) : Prop :=
  ∀ {kind c}, registry.class? kind = some c → c.Orderly

/-- The standard classes, in the order of their registration. -/
theorem standard_classes : standard.classes =
    [StandardView.plainClass, StandardView.labelClass, StandardView.imageClass] := rfl

theorem mem_classes_of_class? {registry : ViewRegistry V} {kind c}
    (h : registry.class? kind = some c) : c ∈ registry.classes :=
  List.mem_of_find?_eq_some h

theorem classes_orderly : ∀ c ∈ standard.classes, c.Orderly := by
  rw [standard_classes]
  simp only [List.forall_mem_cons, List.not_mem_nil, false_imp_iff, implies_true, and_true]
  exact ⟨StandardView.plainClass_orderly, StandardView.labelClass_orderly,
    StandardView.imageClass_orderly⟩

theorem standard_orderly : standard.Orderly :=
  fun h => classes_orderly _ (mem_classes_of_class? h)

end ViewRegistry

end ViewMarkup
