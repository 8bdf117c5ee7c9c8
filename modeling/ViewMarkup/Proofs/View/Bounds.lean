/-
# Views within their bounds

A call sets a property of a view through a standard class, which need not be the
class of the view. A setter gives the view back whatever it answers; those of the
standard classes give back the one they got when there is no such property or when
they refuse the value, and otherwise one that is changed under the name of the
property and nowhere else. Only a call through the class of the view changes
anything. Whatever is called, and with whatever values, a view keeps its kind and
stays within its bounds: what is not a number fails every comparison, so it passes
no check of a range.

Key definitions: `Binary.IsMagnitude`, `StandardView.InBounds`, `Setter.Keeps`,
`ViewClass.Keeps`, `StandardView.kind`, `ViewCall`, `StandardView.answer`,
`StandardView.called`.
Key theorems: `Binary.zero_le_iff`, `ViewClass.embed_keeps`,
`ViewRegistry.standard_keeps`, `ViewRegistry.standard_serves`,
`StandardView.called_in_bounds`.
-/
import ViewMarkup.Proofs.Numeric.Order
import ViewMarkup.Proofs.View.Legible

namespace ViewMarkup

variable {V W S α : Type}

/-! ### Numbers in a range -/

namespace Binary

/-- A number that is not negative, or positive infinity; never what is not a
number. Both zeros are not negative. -/
def IsMagnitude (x : Double) : Prop := x = .infinite false ∨ ∃ q, x.value? = some q ∧ 0 ≤ q

theorem zero_le_iff {x : Double} : Binary.le 0 x = true ↔ x.IsMagnitude := by
  have hzero : (0 : Double).value? = some 0 := by decide +kernel
  cases x with
  | nan => exact iff_of_false (by decide +kernel) (by rintro (h | ⟨q, h, -⟩) <;> cases h)
  | infinite negative =>
    cases negative with
    | false => exact iff_of_true (by decide +kernel) (.inl rfl)
    | true => exact iff_of_false (by decide +kernel) (by rintro (h | ⟨q, h, -⟩) <;> cases h)
  | finite x =>
    constructor
    · exact fun h => .inr ⟨x.value, rfl, (le_iff_value hzero rfl).1 h⟩
    · rintro (h | ⟨q, hq, h⟩)
      · cases h
      · exact (le_iff_value hzero hq).2 h

/-- A number that passes the check from 0 to 1 is finite and in that range. -/
theorem fraction_iff {x : Double} : (Binary.le 0 x && x.le 1) = true ↔
    ∃ q, x.value? = some q ∧ 0 ≤ q ∧ q ≤ 1 := by
  have hone : (1 : Double).value? = some 1 := by decide +kernel
  rw [Bool.and_eq_true, zero_le_iff]
  constructor
  · rintro ⟨rfl | ⟨q, hq, hpos⟩, hle⟩
    · exact absurd hle (by decide +kernel)
    · exact ⟨q, hq, hpos, (le_iff_value hq hone).1 hle⟩
  · rintro ⟨q, hq, hpos, hle⟩
    exact ⟨.inr ⟨q, hq, hpos⟩, (le_iff_value hq hone).2 hle⟩

end Binary

namespace PropertyValue

variable {value : PropertyValue}

theorem asFraction_in_bounds {x : Double} (h : value.asFraction = .ok x) :
    ∃ q, x.value? = some q ∧ 0 ≤ q ∧ q ≤ 1 := by
  obtain ⟨y, -, hy⟩ := bind_eq_ok_iff.1 h
  split at hy
  · rename_i hrange
    cases hy
    exact Binary.fraction_iff.1 hrange
  · cases hy

theorem asMagnitude_in_bounds {x : Double} (h : value.asMagnitude = .ok x) : x.IsMagnitude := by
  obtain ⟨y, -, hy⟩ := bind_eq_ok_iff.1 h
  split at hy
  · rename_i hrange
    cases hy
    exact Binary.zero_le_iff.1 hrange
  · cases hy

theorem asCount_in_bounds {n : Int} (h : value.asCount = .ok n) : 0 ≤ n := by
  obtain ⟨m, -, hm⟩ := bind_eq_ok_iff.1 h
  split at hm
  · cases hm
  · rename_i hneg
    cases hm
    exact Int.not_lt.1 hneg

end PropertyValue

/-! ### Bounds -/

/-- The bounded properties that all views share. -/
structure ViewBase.InBounds (v : ViewBase) : Prop where
  alpha : ∃ q, v.alpha.value? = some q ∧ 0 ≤ q ∧ q ≤ 1
  cornerRadius : v.cornerRadius.IsMagnitude

/-- The bounded properties of a label. -/
structure Label.InBounds (l : Label) : Prop where
  base : l.base.InBounds
  numberOfLines : 0 ≤ l.numberOfLines
  fontSize : l.fontSize.IsMagnitude

/-- Every bounded property of the view is within its bounds. -/
inductive StandardView.InBounds : StandardView → Prop
  | plain {base : ViewBase} (h : base.InBounds) : InBounds (plain base)
  | label {view : Label} (h : view.InBounds) : InBounds (label view)
  | image {view : ImageView} (h : view.base.InBounds) : InBounds (image view)

theorem ViewBase.inBounds_default : ViewBase.InBounds {} where
  alpha := ⟨1, by decide +kernel, by decide, by decide⟩
  cornerRadius := Binary.zero_le_iff.1 (by decide +kernel)

theorem Label.inBounds_default : Label.InBounds {} where
  base := ViewBase.inBounds_default
  numberOfLines := by decide
  fontSize := Binary.zero_le_iff.1 (by decide +kernel)

/-! ### What setters keep -/

/-- The setter leaves every view with the property a view with it, whatever it
answers. -/
def Setter.Keeps (P : V → Prop) (s : Setter V) : Prop := ∀ v x, P v → P (s v x).2

/-- So do all setters of the class. -/
def ViewClass.Keeps (P : V → Prop) (c : ViewClass V) : Prop :=
  ∀ v name x, P v → P (c.apply v name x).2

namespace Setter

theorem of_keeps {P : V → Prop} {read : PropertyValue → Except PropertyError α} {put : V → α → V}
    (h : ∀ v x a, P v → read x = .ok a → P (put v a)) : (Setter.of read put).Keeps P := by
  intro v x hv
  unfold Setter.of
  cases ha : read x with
  | ok a => exact h v x a hv ha
  | error e => exact hv

theorem within_keeps {P : V → Prop} {Q : W → Prop} {get : V → W} {put : V → W → V}
    (hget : ∀ v, P v → Q (get v)) (hput : ∀ v w, P v → Q w → P (put v w)) {s : Setter W}
    (hs : s.Keeps Q) : (Setter.within get put s).Keeps P :=
  fun v x hv => hput v _ hv (hs (get v) x (hget v hv))

end Setter

namespace ViewClass

/-- Every setter of an embedded class is one of the narrow class, embedded. -/
theorem exists_setter_of_embed {lift : W → V} {narrow? : V → Option W} {c : ViewClass W}
    {name : String} {s : Setter V} (h : (c.embed lift narrow?).setter? name = some s) :
    ∃ t, (name, t) ∈ c.setters ∧ s = embedSetter lift narrow? t := by
  obtain ⟨⟨n, t⟩, ht, heq⟩ := List.mem_map.1 (mem_of_setter? h)
  obtain ⟨rfl, rfl⟩ := Prod.mk.inj heq
  exact ⟨t, ht, rfl⟩

/-- A class for a wider type of view keeps of it what its setters keep of the
narrow type. -/
theorem embed_keeps {P : V → Prop} {Q : W → Prop} {lift : W → V} {narrow? : V → Option W}
    (hnarrow : ∀ v w, P v → narrow? v = some w → Q w) (hlift : ∀ w, Q w → P (lift w))
    {c : ViewClass W} (h : ∀ s ∈ c.setters, s.2.Keeps Q) : (c.embed lift narrow?).Keeps P := by
  intro v name x hv
  cases hs : (c.embed lift narrow?).setter? name with
  | none =>
    rw [apply_of_none hs]
    exact hv
  | some s =>
    obtain ⟨t, ht, rfl⟩ := exists_setter_of_embed hs
    rw [apply_of_setter? hs]
    cases hw : narrow? v with
    | none =>
      rw [Setter.embed_of_none hw]
      exact hv
    | some w =>
      rw [Setter.embed_of_some hw]
      exact hlift _ (h _ ht w x (hnarrow v w hv hw))

theorem withProperties_keeps {P : V → Prop} {kind : String} {create : V}
    {l : List (String × Setter V)} (names : (l.map Prod.fst).Nodup) (h : ∀ s ∈ l, s.2.Keeps P) :
    ∀ s ∈ ((ofKind kind create).withProperties l).setters, s.2.Keeps P := by
  have hl : ((ofKind kind create).withProperties l).setters = l := withProperties_setters names
  rw [hl]
  exact h

end ViewClass

theorem ViewBase.setters_keep : ∀ s ∈ ViewBase.setters, s.2.Keeps ViewBase.InBounds := by
  simp only [setters, List.forall_mem_cons, List.not_mem_nil, false_imp_iff, implies_true,
    and_true]
  refine ⟨?_, ?_, ?_, ?alpha, ?_, ?cornerRadius, ?_⟩
  case alpha =>
    exact Setter.of_keeps fun v x a hv ha => { hv with alpha := PropertyValue.asFraction_in_bounds ha }
  case cornerRadius =>
    exact Setter.of_keeps fun v x a hv ha =>
      { hv with cornerRadius := PropertyValue.asMagnitude_in_bounds ha }
  all_goals exact Setter.of_keeps fun v x a hv ha => { hv with }

theorem Label.setters_keep : ∀ s ∈ Label.setters, s.2.Keeps Label.InBounds := by
  simp only [setters, List.forall_mem_cons, List.not_mem_nil, false_imp_iff, implies_true,
    and_true]
  refine ⟨?_, ?_, ?_, ?numberOfLines, ?fontSize⟩
  case numberOfLines =>
    exact Setter.of_keeps fun v x a hv ha =>
      { hv with numberOfLines := PropertyValue.asCount_in_bounds ha }
  case fontSize =>
    exact Setter.of_keeps fun v x a hv ha =>
      { hv with fontSize := PropertyValue.asMagnitude_in_bounds ha }
  all_goals exact Setter.of_keeps fun v x a hv ha => { hv with }

theorem ImageView.setters_keep : ∀ s ∈ ImageView.setters,
    s.2.Keeps fun v => v.base.InBounds := by
  simp only [setters, List.forall_mem_cons, List.not_mem_nil, false_imp_iff, implies_true,
    and_true]
  and_intros <;> exact Setter.of_keeps fun v x a hv ha => hv

/-- The shared setters of views that have more than their base. -/
theorem ViewBase.settersWithin_keep {P : V → Prop} {get : V → ViewBase} {put : V → ViewBase → V}
    (hget : ∀ v, P v → (get v).InBounds) (hput : ∀ v w, P v → w.InBounds → P (put v w)) :
    ∀ s ∈ ViewBase.settersWithin get put, s.2.Keeps P := by
  intro s hs
  obtain ⟨s, hmem, rfl⟩ := List.mem_map.1 hs
  exact Setter.within_keeps hget hput (ViewBase.setters_keep s hmem)

namespace StandardView

theorem plainClass_keeps : plainClass.Keeps InBounds := by
  refine ViewClass.embed_keeps (fun v w hv hw => ?_) (fun w hw => .plain hw)
    (ViewClass.withProperties_keeps (by decide) ViewBase.setters_keep)
  cases hv <;> cases hw
  assumption

theorem labelClass_keeps : labelClass.Keeps InBounds := by
  have hsetters : ∀ s ∈ ViewBase.settersWithin Label.base (fun l base => { l with base }) ++
      Label.setters, s.2.Keeps Label.InBounds := List.forall_mem_append.2
    ⟨ViewBase.settersWithin_keep (fun _ => Label.InBounds.base)
      (fun v w hv hw => { hv with base := hw }), Label.setters_keep⟩
  refine ViewClass.embed_keeps (fun v w hv hw => ?_) (fun w hw => .label hw)
    (ViewClass.withProperties_keeps (by decide) hsetters)
  cases hv <;> cases hw
  assumption

theorem imageClass_keeps : imageClass.Keeps InBounds := by
  have hsetters : ∀ s ∈ ViewBase.settersWithin ImageView.base (fun v base => { v with base }) ++
      ImageView.setters, s.2.Keeps fun v => v.base.InBounds := List.forall_mem_append.2
    ⟨ViewBase.settersWithin_keep (fun _ hv => hv) (fun _ _ _ hw => hw), ImageView.setters_keep⟩
  refine ViewClass.embed_keeps (fun v w hv hw => ?_) (fun w hw => .image hw)
    (ViewClass.withProperties_keeps (by decide) hsetters)
  cases hv <;> cases hw
  assumption

end StandardView

theorem ViewRegistry.standard_keeps : ∀ c ∈ standard.classes, c.Keeps StandardView.InBounds := by
  rw [standard_classes]
  simp only [List.forall_mem_cons, List.not_mem_nil, false_imp_iff, implies_true, and_true]
  exact ⟨StandardView.plainClass_keeps, StandardView.labelClass_keeps,
    StandardView.imageClass_keeps⟩

theorem ViewRegistry.create_in_bounds : ∀ c ∈ standard.classes, c.create.InBounds := by
  rw [standard_classes]
  simp only [List.forall_mem_cons, List.not_mem_nil, false_imp_iff, implies_true, and_true]
  exact ⟨.plain ViewBase.inBounds_default, .label Label.inBounds_default,
    .image ViewBase.inBounds_default⟩

/-! ### Views of a class -/

/-- The kind of the class that makes such views. -/
def StandardView.kind : StandardView → String
  | plain _ => "UIView"
  | label _ => "UILabel"
  | image _ => "UIImageView"

/-- The class makes views of its kind, takes values for no others, and refuses every
property that it has on them. Views keep their kind. -/
structure ViewClass.Serves (kindOf : V → String) (c : ViewClass V) : Prop where
  create : kindOf c.create = c.kind
  own : ∀ {v w name x}, c.apply v name x = (some (.ok ()), w) → kindOf v = c.kind ∧ kindOf w = c.kind
  foreign : ∀ {v name x}, kindOf v ≠ c.kind →
    (c.apply v name x).1 = if c.hasProperty name then some (.error .wrongViewType) else none

theorem ViewClass.withProperties_kind (l : List (String × Setter V)) : ∀ c : ViewClass V,
    (c.withProperties l).kind = c.kind := by
  induction l with
  | nil => exact fun _ => rfl
  | cons s l ih => exact fun c => ih (c.withProperty s.1 s.2)

theorem ViewClass.embed_serves {kindOf : V → String} {lift : W → V} {narrow? : V → Option W}
    {c : ViewClass W} (hlift : ∀ w, kindOf (lift w) = c.kind)
    (hnarrow : ∀ v, kindOf v = c.kind ↔ (narrow? v).isSome) :
    (c.embed lift narrow?).Serves kindOf where
  create := hlift c.create
  own := by
    intro v w name x hx
    obtain ⟨s, hs, hx⟩ := apply_eq_some_iff.1 hx
    obtain ⟨t, -, rfl⟩ := exists_setter_of_embed hs
    obtain ⟨u, u', hu, -, rfl⟩ := Setter.embed_eq_ok_iff.1 hx
    exact ⟨(hnarrow v).2 (Option.isSome_of_eq_some hu), hlift u'⟩
  foreign := by
    intro v name x hv
    have hnone : narrow? v = none := by
      rw [← Option.not_isSome_iff_eq_none, ← hnarrow]
      exact hv
    rw [hasProperty]
    cases hs : (c.embed lift narrow?).setter? name with
    | none =>
      rw [apply_of_none hs]
      rfl
    | some s =>
      obtain ⟨t, -, rfl⟩ := exists_setter_of_embed hs
      rw [apply_of_setter? hs, Setter.embed_of_none hnone]
      rfl

theorem ViewRegistry.standard_serves :
    ∀ c ∈ standard.classes, c.Serves StandardView.kind := by
  rw [standard_classes]
  simp only [List.forall_mem_cons, List.not_mem_nil, false_imp_iff, implies_true, and_true]
  refine ⟨ViewClass.embed_serves (fun _ => rfl) fun v => ?_,
    ViewClass.embed_serves (fun _ => rfl) fun v => ?_,
    ViewClass.embed_serves (fun _ => rfl) fun v => ?_⟩
  all_goals
    rw [ViewClass.withProperties_kind]
    cases v <;> simp [StandardView.kind, ViewClass.ofKind, StandardView.plain?,
      StandardView.label?, StandardView.image?]

theorem ViewRegistry.classes_legible :
    ∀ c ∈ standard.classes, c.Legible StandardView.property? := by
  rw [standard_classes]
  simp only [List.forall_mem_cons, List.not_mem_nil, false_imp_iff, implies_true, and_true]
  exact ⟨StandardView.plainClass_legible, StandardView.labelClass_legible,
    StandardView.imageClass_legible⟩

/-! ### Calls -/

/-- A value to be set under a name, through one of the standard classes. -/
structure ViewCall where
  through : ViewClass StandardView
  standard : through ∈ ViewRegistry.standard.classes
  name : String
  value : PropertyValue

namespace StandardView

/-- What the call answers. There is no answer if there is no such property. -/
def answer (v : StandardView) (call : ViewCall) : Option (Except PropertyError Unit) :=
  (call.through.apply v call.name call.value).1

/-- The view as the call leaves it, whatever the answer. -/
def called (v : StandardView) (call : ViewCall) : StandardView :=
  (call.through.apply v call.name call.value).2

theorem apply_eq (v : StandardView) (call : ViewCall) :
    call.through.apply v call.name call.value = (v.answer call, v.called call) := rfl

/-- Calls one after the other keep what each of them keeps. -/
theorem foldl_called_keeps {P : StandardView → Prop} (h : ∀ v call, P v → P (v.called call)) :
    ∀ (calls : List ViewCall) {v : StandardView}, P v → P (calls.foldl called v)
  | [], _, hv => hv
  | call :: calls, v, hv => foldl_called_keeps h calls (h v call hv)

/-- What calls leave of a new view of the class. -/
def afterCalls (c : ViewClass StandardView) (calls : List ViewCall) : StandardView :=
  calls.foldl called c.create

/-- What a call does to a view: all or nothing. -/
structure CallEffect (v : StandardView) (call : ViewCall) : Prop where
  /-- There is no such property. -/
  unknown : v.answer call = none → v.called call = v
  refused : ∀ e, v.answer call = some (.error e) → v.called call = v
  /-- Every property of a class for other views is refused. -/
  foreign : call.through.kind ≠ v.kind → v.answer call =
    if call.through.hasProperty call.name then some (.error .wrongViewType) else none
  /-- What the view shows changes under the name of the property alone. -/
  taken : v.answer call = some (.ok ()) → (v.called call).kind = v.kind ∧
    ∀ name, name ≠ call.name → (v.called call).property? name = v.property? name

theorem call_effect (v : StandardView) (call : ViewCall) : CallEffect v call where
  unknown := by
    intro h
    have hnone : call.through.apply v call.name call.value = (none, v.called call) := by
      rw [apply_eq, h]
    exact ViewClass.eq_of_apply_none hnone
  refused := by
    intro e h
    have hset : call.through.apply v call.name call.value = (some (.error e), v.called call) := by
      rw [apply_eq, h]
    exact (ViewRegistry.classes_orderly _ call.standard).apply_refused hset
  foreign := fun h => (ViewRegistry.standard_serves _ call.standard).foreign (Ne.symm h)
  taken := by
    intro h
    have hset : call.through.apply v call.name call.value = (some (.ok ()), v.called call) := by
      rw [apply_eq, h]
    obtain ⟨hbefore, hafter⟩ := (ViewRegistry.standard_serves _ call.standard).own hset
    exact ⟨hafter.trans hbefore.symm, fun name hname =>
      (ViewRegistry.classes_legible _ call.standard).elsewhere hset hname⟩

/-- A call leaves a view of the kind it was. -/
theorem called_kind (v : StandardView) (call : ViewCall) : (v.called call).kind = v.kind := by
  have heffect := call_effect v call
  cases h : v.answer call with
  | none => rw [heffect.unknown h]
  | some answer =>
    cases answer with
    | error e => rw [heffect.refused e h]
    | ok _ => exact (heffect.taken h).1

/-- **Views stay within their bounds, and calls do all or nothing.** Whatever has been
called on a view that a standard class made, it is of the kind of that class and
within its bounds. A further call leaves it as it is if there is no such property
or if it is refused, as is every property of a class for other views; and one that
succeeds changes what the view shows under the name of its property alone. -/
theorem called_in_bounds {c : ViewClass StandardView}
    (hc : c ∈ ViewRegistry.standard.classes) (calls : List ViewCall) :
    (afterCalls c calls).InBounds ∧ (afterCalls c calls).kind = c.kind ∧
      ∀ call, CallEffect (afterCalls c calls) call := by
  refine ⟨?_, ?_, call_effect _⟩
  · exact foldl_called_keeps
      (fun v call hv => ViewRegistry.standard_keeps _ call.standard v call.name call.value hv) calls
      (ViewRegistry.create_in_bounds c hc)
  · exact foldl_called_keeps (P := fun v => v.kind = c.kind)
      (fun v call hv => (called_kind v call).trans hv) calls (ViewRegistry.standard_serves c hc).create

/-- Calls on a label with texts at the edge of what is a number, the last of them
through the class of another kind of view. -/
def edgeCalls : List ViewCall :=
  [⟨labelClass, by simp [ViewRegistry.standard_classes], "alpha", .text "nan"⟩,
    ⟨labelClass, by simp [ViewRegistry.standard_classes], "cornerRadius", .text "inf"⟩,
    ⟨labelClass, by simp [ViewRegistry.standard_classes], "fontSize", .text "-0"⟩,
    ⟨labelClass, by simp [ViewRegistry.standard_classes], "numberOfLines", .text "-1"⟩,
    ⟨imageClass, by simp [ViewRegistry.standard_classes], "alpha", .text "0.5"⟩]

theorem edgeCalls_in_bounds : labelClass ∈ ViewRegistry.standard.classes ∧
    afterCalls labelClass edgeCalls =
      label { base := { cornerRadius := .infinite false }, fontSize := .neg 0 } ∧
    (afterCalls labelClass edgeCalls).InBounds ∧
    ∀ call ∈ edgeCalls, CallEffect (afterCalls labelClass edgeCalls) call := by
  have hclass : labelClass ∈ ViewRegistry.standard.classes := by
    simp [ViewRegistry.standard_classes]
  obtain ⟨hbounds, -, heffect⟩ := called_in_bounds hclass edgeCalls
  exact ⟨hclass, by decide +kernel, hbounds, fun call _ => heffect call⟩

end StandardView

end ViewMarkup
