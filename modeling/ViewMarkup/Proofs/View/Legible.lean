/-
# What a view shows under a name

A standard view shows a state under the name of each of its properties, and
nothing else. A setter reads the value it is given and never the view, and what
it has read is seen under its own name and under no other. So a class refuses a
value for all its views or for none, and what a view shows under a name once a
value is set there depends on the value alone.

Key definitions: `PropertyState`, `StandardView.property?`, `Setter.Legible`,
`ViewClass.Fits`, `ViewClass.Legible`, `ViewRegistry.Legible`.
Key theorems: `ViewClass.embed_legible`, `StandardView.property?_injective`,
`ViewRegistry.standard_legible`.
-/
import ViewMarkup.Proofs.View.Setting

namespace ViewMarkup

variable {V W S α : Type}

/-! ### Setters -/

/-- What the setter does to a view is seen under one name and depends on the
value alone: it gives the same answer whatever the view, and shows a value as it
would in any other view. -/
structure Setter.Legible (look : V → String → Option S) (name : String) (s : Setter V) :
    Prop where
  answer : ∀ v v' x, (s v x).1 = (s v' x).1
  here : ∀ {v v' w w' x}, s v x = (.ok (), w) → s v' x = (.ok (), w') → look w name = look w' name
  elsewhere : ∀ {v w x n}, s v x = (.ok (), w) → n ≠ name → look w n = look v n

namespace Setter

variable {look : V → String → Option S} {name : String}

theorem of_legible {read : PropertyValue → Except PropertyError α} {put : V → α → V}
    (here : ∀ v v' a, look (put v a) name = look (put v' a) name)
    (elsewhere : ∀ v a n, (n == name) = false → look (put v a) n = look v n) :
    (Setter.of read put).Legible look name where
  answer := by
    intro v v' x
    unfold Setter.of
    cases read x <;> rfl
  here := by
    intro v v' w w' x h h'
    obtain ⟨a, ha, rfl⟩ := of_eq_ok_iff.1 h
    obtain ⟨a', ha', rfl⟩ := of_eq_ok_iff.1 h'
    obtain rfl := Except.ok.inj (ha.symm.trans ha')
    exact here v v' a
  elsewhere := by
    intro v w x n h hn
    obtain ⟨a, -, rfl⟩ := of_eq_ok_iff.1 h
    exact elsewhere v a n (beq_eq_false_iff_ne.2 hn)

/-- A setter of a part, where the view shows what the part shows and, under
other names, something of its own. -/
theorem within_legible {get : V → W} {put : V → W → V} (part : Part get put)
    {lookPart : W → String → Option S} {own : V → String → Option S} {s : Setter W}
    (hs : s.Legible lookPart name) (hname : ∀ w, (lookPart w name).isSome)
    (hlook : ∀ v n, look v n = (lookPart (get v) n).or (own v n))
    (hown : ∀ v w, own (put v w) = own v) : (Setter.within get put s).Legible look name where
  answer := fun v v' x => hs.answer (get v) (get v') x
  here := by
    intro v v' w w' x h h'
    obtain ⟨p, hp, rfl⟩ := within_eq_iff.1 h
    obtain ⟨p', hp', rfl⟩ := within_eq_iff.1 h'
    rw [hlook, hlook, part.get_put, part.get_put, Option.or_of_isSome (hname p),
      Option.or_of_isSome (hname p')]
    exact hs.here hp hp'
  elsewhere := by
    intro v w x n h hn
    obtain ⟨p, hp, rfl⟩ := within_eq_iff.1 h
    rw [hlook, hlook, part.get_put, hown, hs.elsewhere hp hn]

end Setter

/-! ### Classes -/

namespace ViewClass

/-- The views that the class has some use for. -/
def Fits (c : ViewClass V) (v : V) : Prop := ∃ name x w, c.apply v name x = (some (.ok ()), w)

/-- What is set on a view of the class is seen under the name of the property
and depends on the value alone. -/
structure Legible (c : ViewClass V) (look : V → String → Option S) : Prop where
  answer : ∀ {v v'} name x, c.Fits v → c.Fits v' → (c.apply v name x).1 = (c.apply v' name x).1
  here : ∀ {v v' w w' name x}, c.apply v name x = (some (.ok ()), w) →
    c.apply v' name x = (some (.ok ()), w') → look w name = look w' name
  elsewhere : ∀ {v w name x n}, c.apply v name x = (some (.ok ()), w) → n ≠ name →
    look w n = look v n

/-- A class for a wider type of view, where views of the narrow type look as they
are. -/
theorem embed_legible {lift : W → V} {narrow? : V → Option W}
    (hnarrow : ∀ v w, narrow? v = some w ↔ lift w = v) {lookNarrow : W → String → Option S}
    {look : V → String → Option S} (hlook : ∀ w, look (lift w) = lookNarrow w) {c : ViewClass W}
    (h : ∀ s ∈ c.setters, s.2.Legible lookNarrow s.1) :
    (c.embed lift narrow?).Legible look := by
  have hembedded : ∀ {name s}, (c.embed lift narrow?).setter? name = some s →
      ∃ t : Setter W, s = embedSetter lift narrow? t ∧ t.Legible lookNarrow name := by
    intro name s hs
    obtain ⟨⟨n, t⟩, ht, heq⟩ := List.mem_map.1 (mem_of_setter? hs)
    obtain ⟨rfl, rfl⟩ := Prod.mk.inj heq
    exact ⟨t, rfl, h _ ht⟩
  have hfits : ∀ {v}, (c.embed lift narrow?).Fits v → ∃ w, narrow? v = some w := by
    rintro v ⟨name, x, w, hw⟩
    obtain ⟨s, hs, hw⟩ := apply_eq_some_iff.1 hw
    obtain ⟨t, rfl, -⟩ := hembedded hs
    obtain ⟨n, -, hn, -⟩ := Setter.embed_eq_ok_iff.1 hw
    exact ⟨n, hn⟩
  constructor
  · intro v v' name x hv hv'
    obtain ⟨w, hw⟩ := hfits hv
    obtain ⟨w', hw'⟩ := hfits hv'
    cases hs : (c.embed lift narrow?).setter? name with
    | none => rw [apply_of_none hs, apply_of_none hs]
    | some s =>
      obtain ⟨t, rfl, ht⟩ := hembedded hs
      rw [apply_of_setter? hs, apply_of_setter? hs]
      simp only [embedSetter, hw, hw', ht.answer w w' x]
  · intro v v' w w' name x hx hx'
    obtain ⟨s, hs, hx⟩ := apply_eq_some_iff.1 hx
    obtain ⟨s', hs', hx'⟩ := apply_eq_some_iff.1 hx'
    obtain rfl := Option.some.inj (hs.symm.trans hs')
    obtain ⟨t, rfl, ht⟩ := hembedded hs
    obtain ⟨n, m, -, hm, rfl⟩ := Setter.embed_eq_ok_iff.1 hx
    obtain ⟨n', m', -, hm', rfl⟩ := Setter.embed_eq_ok_iff.1 hx'
    rw [hlook, hlook]
    exact ht.here hm hm'
  · intro v w name x n hx hn
    obtain ⟨s, hs, hx⟩ := apply_eq_some_iff.1 hx
    obtain ⟨t, rfl, ht⟩ := hembedded hs
    obtain ⟨p, m, hp, hm, rfl⟩ := Setter.embed_eq_ok_iff.1 hx
    rw [← (hnarrow v p).1 hp, hlook, hlook]
    exact ht.elsewhere hm hn

/-- Setters with names that differ are those of a class. -/
theorem withProperties_legible {look : V → String → Option S} {kind : String} {create : V}
    {l : List (String × Setter V)} (names : (l.map Prod.fst).Nodup)
    (h : ∀ s ∈ l, s.2.Legible look s.1) :
    ∀ s ∈ ((ofKind kind create).withProperties l).setters, s.2.Legible look s.1 := by
  have hl : ((ofKind kind create).withProperties l).setters = l := withProperties_setters names
  rw [hl]
  exact h

end ViewClass

/-- Classes that are legible, for views that differ in nothing but what they
show. -/
structure ViewRegistry.Legible (registry : ViewRegistry V) (look : V → String → Option S) :
    Prop where
  classes : ∀ {kind c}, registry.class? kind = some c → c.Legible look
  injective : Function.Injective look

/-! ### What the standard views show -/

/-- The state of a property. -/
inductive PropertyState
  | color (c : Option Color)
  | frame (r : Option Rect)
  | flag (b : Bool)
  | number (x : Double)
  | whole (n : Int)
  | text (s : String)
  | image (name : Option String)
  | alignment (a : TextAlignment)
  deriving DecidableEq

/-- What a view shows under a shared name. -/
def ViewBase.property? (v : ViewBase) (name : String) : Option PropertyState :=
  [("backgroundColor", .color v.backgroundColor), ("frame", .frame v.frame),
    ("hidden", .flag v.hidden), ("alpha", .number v.alpha), ("tag", .whole v.tag),
    ("cornerRadius", .number v.cornerRadius),
    ("translatesAutoresizingMaskIntoConstraints", .flag v.translatesAutoresizingMask)].lookup name

/-- What a label shows under a name of its own. -/
def Label.own? (l : Label) (name : String) : Option PropertyState :=
  [("text", .text l.text), ("textColor", .color l.textColor),
    ("textAlignment", .alignment l.textAlignment), ("numberOfLines", .whole l.numberOfLines),
    ("fontSize", .number l.fontSize)].lookup name

/-- What an image view shows under a name of its own. -/
def ImageView.own? (v : ImageView) (name : String) : Option PropertyState :=
  [("image", .image v.image), ("tintColor", .color v.tintColor)].lookup name

def Label.property? (l : Label) (name : String) : Option PropertyState :=
  (l.base.property? name).or (l.own? name)

def ImageView.property? (v : ImageView) (name : String) : Option PropertyState :=
  (v.base.property? name).or (v.own? name)

/-- What a view shows under a name, if it has the property. -/
def StandardView.property? : StandardView → String → Option PropertyState
  | plain base, name => base.property? name
  | label view, name => view.property? name
  | image view, name => view.property? name

/-! ### The standard classes -/

theorem ViewBase.setters_legible : ∀ s ∈ ViewBase.setters,
    s.2.Legible ViewBase.property? s.1 := by
  simp only [setters, List.forall_mem_cons, List.not_mem_nil, false_imp_iff, implies_true,
    and_true]
  and_intros <;> exact Setter.of_legible (fun _ _ _ => rfl) fun v a n hn => by
    simp only [property?, List.lookup_cons, hn]

/-- Every shared property is shown. -/
theorem ViewBase.isSome_property? : ∀ s ∈ ViewBase.setters,
    ∀ v : ViewBase, (v.property? s.1).isSome := by
  simp only [setters, List.forall_mem_cons, List.not_mem_nil, false_imp_iff, implies_true,
    and_true]
  and_intros <;> exact fun _ => rfl

/-- The shared properties of views that show, beside what they share, something
of their own, and the properties of their own. -/
theorem ViewBase.settersWithin_append_legible {get : V → ViewBase} {put : V → ViewBase → V}
    (part : Setter.Part get put) {look own : V → String → Option PropertyState}
    (hlook : ∀ v n, look v n = ((get v).property? n).or (own v n))
    (hown : ∀ v w, own (put v w) = own v) {setters : List (String × Setter V)}
    (h : ∀ s ∈ setters, s.2.Legible look s.1) :
    ∀ s ∈ ViewBase.settersWithin get put ++ setters, s.2.Legible look s.1 := by
  intro s hs
  rcases List.mem_append.1 hs with hs | hs
  · obtain ⟨s, hmem, rfl⟩ := List.mem_map.1 hs
    exact Setter.within_legible part (ViewBase.setters_legible s hmem)
      (ViewBase.isSome_property? s hmem) hlook hown
  · exact h s hs

theorem Label.setters_legible : ∀ s ∈ Label.setters, s.2.Legible Label.property? s.1 := by
  simp only [setters, List.forall_mem_cons, List.not_mem_nil, false_imp_iff, implies_true,
    and_true]
  and_intros <;> exact Setter.of_legible (fun _ _ _ => rfl) fun v a n hn => by
    simp only [property?, own?, List.lookup_cons, hn]

theorem ImageView.setters_legible : ∀ s ∈ ImageView.setters,
    s.2.Legible ImageView.property? s.1 := by
  simp only [setters, List.forall_mem_cons, List.not_mem_nil, false_imp_iff, implies_true,
    and_true]
  and_intros <;> exact Setter.of_legible (fun _ _ _ => rfl) fun v a n hn => by
    simp only [property?, own?, List.lookup_cons, hn]

/-- What a view shows under a shared name, whatever else it shows. -/
theorem ViewBase.property?_or {s : String × Setter ViewBase} (hs : s ∈ ViewBase.setters)
    (v : ViewBase) (own : Option PropertyState) :
    (v.property? s.1).or own = v.property? s.1 :=
  Option.or_of_isSome (ViewBase.isSome_property? s hs v)

/-- The shared properties are all that a base has. -/
theorem ViewBase.eq_of_property? {v w : ViewBase}
    (h : ∀ s ∈ ViewBase.setters, v.property? s.1 = w.property? s.1) : v = w := by
  simp only [setters, List.forall_mem_cons, List.not_mem_nil, false_imp_iff, implies_true,
    and_true] at h
  obtain ⟨hcolor, hframe, hhidden, halpha, htag, hradius, hmask⟩ := h
  cases v
  cases w
  cases hcolor
  cases hframe
  cases hhidden
  cases halpha
  cases htag
  cases hradius
  cases hmask
  rfl

theorem Label.eq_of_property? {l m : Label} (h : ∀ name, l.property? name = m.property? name) :
    l = m := by
  have hbase : l.base = m.base := ViewBase.eq_of_property? fun s hs => by
    rw [← ViewBase.property?_or hs l.base (l.own? s.1),
      ← ViewBase.property?_or hs m.base (m.own? s.1)]
    exact h s.1
  cases l
  cases m
  cases hbase
  cases h "text"
  cases h "textColor"
  cases h "textAlignment"
  cases h "numberOfLines"
  cases h "fontSize"
  rfl

theorem ImageView.eq_of_property? {v w : ImageView}
    (h : ∀ name, v.property? name = w.property? name) : v = w := by
  have hbase : v.base = w.base := ViewBase.eq_of_property? fun s hs => by
    rw [← ViewBase.property?_or hs v.base (v.own? s.1),
      ← ViewBase.property?_or hs w.base (w.own? s.1)]
    exact h s.1
  cases v
  cases w
  cases hbase
  cases h "image"
  cases h "tintColor"
  rfl

namespace StandardView

theorem plainClass_legible : plainClass.Legible property? := by
  refine ViewClass.embed_legible plain?_eq_some_iff (fun _ => rfl) ?_
  exact ViewClass.withProperties_legible (by decide) ViewBase.setters_legible

theorem labelClass_legible : labelClass.Legible property? := by
  refine ViewClass.embed_legible label?_eq_some_iff (fun _ => rfl) ?_
  exact ViewClass.withProperties_legible (by decide)
    (ViewBase.settersWithin_append_legible Label.base_part (fun _ _ => rfl) (fun _ _ => rfl)
      Label.setters_legible)

theorem imageClass_legible : imageClass.Legible property? := by
  refine ViewClass.embed_legible image?_eq_some_iff (fun _ => rfl) ?_
  exact ViewClass.withProperties_legible (by decide)
    (ViewBase.settersWithin_append_legible ImageView.base_part (fun _ _ => rfl)
      (fun _ _ => rfl) ImageView.setters_legible)

/-- Views that show the same under every name are the same. -/
theorem property?_injective : Function.Injective property? := by
  intro v w h
  cases v with
  | plain v =>
    cases w with
    | plain w => rw [ViewBase.eq_of_property? fun s _ => congrFun h s.1]
    | label w => cases congrFun h "text"
    | image w => cases congrFun h "image"
  | label v =>
    cases w with
    | plain w => cases congrFun h "text"
    | label w => rw [Label.eq_of_property? (congrFun h)]
    | image w => cases congrFun h "image"
  | image v =>
    cases w with
    | plain w => cases congrFun h "image"
    | label w => cases congrFun h "image"
    | image w => rw [ImageView.eq_of_property? (congrFun h)]

end StandardView

/-- The standard views are told apart by what they show. -/
theorem ViewRegistry.standard_legible : standard.Legible StandardView.property? where
  classes := by
    intro kind c h
    have hc := mem_classes_of_class? h
    rw [standard_classes] at hc
    simp only [List.mem_cons, List.not_mem_nil, or_false] at hc
    rcases hc with rfl | rfl | rfl
    · exact StandardView.plainClass_legible
    · exact StandardView.labelClass_legible
    · exact StandardView.imageClass_legible
  injective := StandardView.property?_injective

end ViewMarkup
