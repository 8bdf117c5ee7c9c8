/-
# A document fails at its first fault

A document that is not rendered is refused for the first of its parts that
cannot be taken up, and the error names the place of this part: a node, an
attribute or a constraint spec. What comes after it has no say: cut anywhere up
to there the document is rendered, and cut anywhere after it the document is
refused with the same error. Apart from attributes that are named like children, no
other part has this place.

Key theorems: `Builder.place?_of_takeUp`, `render_fails_at_first_fault`,
`render_fails_at_one_part`.
-/
import ViewMarkup.Proofs.Build.Parts
import ViewMarkup.Proofs.Document.KeyPath
import ViewMarkup.Proofs.Error.Place
import ViewMarkup.Proofs.Rendered.Mirror

namespace ViewMarkup

namespace Builder

variable {V : Type} {b : Builder V} {handle : NodePlace → Handle} {build : Build V}
  {ds : List Descriptor} {e : MarkupError}

/-! ### The place of an error -/

theorem place?_of_own {kind : String} {id : Option String} {parent : Handle} {place : NodePlace}
    (h : b.own kind id [] parent place build = .error e) : e.place? = some place.text := by
  have hplace := place.text_ne_empty
  unfold own at h
  split at h
  · cases h
    simp [MarkupError.place?, hplace]
  · rename_i c hc
    rcases bind_eq_error_iff.1 h with h | ⟨declared, -, h⟩
    · unfold Build.declare at h
      split at h
      · cases h
      · split at h
        · cases h
        · cases h
          simp [MarkupError.place?, hplace]
    · cases h

theorem place?_of_setAttribute {c : ViewClass V} {target : Handle} {place : NodePlace}
    {entry : String × Json} (h : b.setAttribute c target place build entry = .error e) :
    e.place? = some (place.property entry.1) := by
  have hproperty : place.property entry.1 ≠ "" := by
    simp [NodePlace.property, String.append_eq_empty_iff]
  unfold setAttribute at h
  dsimp only at h
  split at h
  · rcases bind_eq_error_iff.1 h with h | ⟨value, -, h⟩
    · exact place?_of_located (AttributeValue.resolve_placeless _ _) hproperty h
    · rcases bind_eq_error_iff.1 h with h | ⟨shown, -, h⟩
      · exact place?_of_located (AttributeValue.compose_placeless _ _ _) hproperty h
      · split at h
        · cases h
        · rcases bind_eq_error_iff.1 h with h | ⟨view, -, h⟩
          · unfold ViewClass.set at h
            split at h
            · cases h
            · cases h
              simp [MarkupError.place?, hproperty]
            · cases h
              simp [ViewClass.unknownProperty, MarkupError.place?, hproperty]
          · cases h
  · cases h
    simp [ViewClass.unknownProperty, MarkupError.place?, hproperty]

/-- **A part that is refused is named.** -/
theorem place?_of_takeUp {state : Build V × List Descriptor} {part : Part}
    (h : b.takeUp handle state part = .error e) : e.place? = some part.keyPath := by
  cases part with
  | node place kind id => exact place?_of_own (map_eq_error_iff.1 h)
  | property place kind name raw =>
    rw [takeUp] at h
    split at h
    · cases h
    · exact place?_of_setAttribute (map_eq_error_iff.1 h)
  | spec index spec =>
    exact place?_of_located (resolve_placeless _ _ _) (Part.keyPath_ne_empty (.spec index spec))
      (map_eq_error_iff.1 h)

end Builder

/-- **A document fails at its first fault.** Whatever the registry and the data, a
document that is refused has a part whose place the error names. Up to this part
and without it the document is rendered, wherever it is cut; with this part, it
is refused with the same error, wherever it is cut. The names of attributes being
distinct, another part can have the same key path only if an attribute is named like
a child, `@subviews[0]` for one (`render_fails_at_one_part`). -/
theorem render_fails_at_first_fault {V : Type} {registry : ViewRegistry V} {config : Config}
    {doc : Document} {data : DataSource} {e : MarkupError}
    (h : render registry config doc data = .error e) :
    ∃ k part, doc.parts[k]? = some part ∧ e.place? = some part.keyPath ∧ part.keyPath ≠ "" ∧
      (∀ j ≤ k, (doc.cut j).parts = doc.parts.take j ∧
        ∃ r, render registry config (doc.cut j) data = .ok r) ∧
      ∀ j, k < j → (doc.cut j).parts = doc.parts.take j ∧
        render registry config (doc.cut j) data = .error e := by
  rw [render_eq_takeUp registry config data doc.handleAt_nil (numbers_handleAt doc)] at h
  obtain ⟨k, part, state, hk, hpart, hbefore, hafter⟩ :=
    exists_step_of_foldlM_error (map_eq_error_iff.1 h)
  refine ⟨k, part, hk, Builder.place?_of_takeUp hpart, part.keyPath_ne_empty, fun j hj => ?_,
    fun j hj => ?_⟩
  · obtain ⟨state, hstate⟩ := hbefore j hj
    refine ⟨doc.parts_cut j, .ofBuild registry state, ?_⟩
    rw [render_cut, hstate]
    rfl
  · refine ⟨doc.parts_cut j, ?_⟩
    rw [render_cut, hafter j hj]
    rfl

/-- **The place of an error is that of one part alone**, if no attribute is named
like a child. -/
theorem render_fails_at_one_part {V : Type} {registry : ViewRegistry V} {config : Config}
    {doc : Document} {data : DataSource} {e : MarkupError} (hdistinct : doc.NamesDistinct)
    (hapart : doc.NamesApart) (h : render registry config doc data = .error e) :
    ∃! k : Nat, ∃ part, doc.parts[k]? = some part ∧ e.place? = some part.keyPath := by
  rw [render_eq_takeUp registry config data doc.handleAt_nil (numbers_handleAt doc)] at h
  obtain ⟨k, part, state, hk, hpart, -⟩ := exists_step_of_foldlM_error (map_eq_error_iff.1 h)
  have hplace := Builder.place?_of_takeUp hpart
  refine ⟨k, ⟨part, hk, hplace⟩, fun k' ⟨part', hk', hplace'⟩ => ?_⟩
  have hpath {i : Nat} {p : Part} (hp : doc.parts[i]? = some p)
      (hplace : e.place? = some p.keyPath) : (doc.parts.map Part.keyPath)[i]? = e.place? := by
    rw [List.getElem?_map, hp, hplace]
    rfl
  have hk' := hpath hk' hplace'
  obtain ⟨hlt, -⟩ := List.getElem?_eq_some_iff.1 (hk'.trans hplace)
  exact (List.getElem?_inj hlt (doc.nodup_keyPaths hdistinct hapart)).1
    (hk'.trans (hpath hk hplace).symm)

/-! ### A card with four faults -/

/-- A label below a label has a number that no label shows. The property after it
does not exist, the id further down is taken, and the format names no view. -/
def faultyCard : Document where
  layout :=
    [.mk "UIView" (some "card") [("alpha", .string "#{fade}")]
      [.mk "UILabel" (some "name") [("text", .string "#{@bind(user)}")]
        [.mk "UILabel" none [("numberOfLines", .string "#{user}"), ("textColour", .null)] []],
        .mk "UILabel" (some "card") [] []]]
  constraints := [⟨"H:|-[ghost]", [], []⟩]

def faultyCardData : DataSource :=
  Json.lookup (.object [("user", .string "Ada"), ("fade", .string "0.5")])

theorem faultyCard_fails : ∃ e, render .standard {} faultyCard faultyCardData = .error e ∧
    e.place? = some "@layout[0].@subviews[0].@subviews[0].numberOfLines" ∧
    ∃ k part, faultyCard.parts[k]? = some part ∧ e.place? = some part.keyPath ∧
      part.keyPath ≠ "" ∧
      (∀ j ≤ k, (faultyCard.cut j).parts = faultyCard.parts.take j ∧
        ∃ r, render .standard {} (faultyCard.cut j) faultyCardData = .ok r) ∧
      ∀ j, k < j → (faultyCard.cut j).parts = faultyCard.parts.take j ∧
        render .standard {} (faultyCard.cut j) faultyCardData = .error e := by
  have hrun : (render .standard {} faultyCard faultyCardData).map (fun _ => ()) =
      .error ⟨.unsupportedAttribute "UILabel" "numberOfLines"
        "expected an integer, found text \"Ada\"",
        "@layout[0].@subviews[0].@subviews[0].numberOfLines"⟩ := by decide +kernel
  have herror := map_eq_error_iff.1 hrun
  exact ⟨_, herror, by decide, render_fails_at_first_fault herror⟩

end ViewMarkup
