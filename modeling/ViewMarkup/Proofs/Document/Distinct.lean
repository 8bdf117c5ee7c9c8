/-
# The attributes of a node have different names

Attributes come as the members of an object and a name mentioned again takes the
place of the one before, so a node that was read names each attribute once, at
any depth, whatever it was read from (`Document.ofSource_namesDistinct`).

Key definitions: `Node.NamesDistinct`, `Document.NamesDistinct`.
Key theorems: `Document.ofText_namesDistinct`, `Document.ofJson_namesDistinct`.
-/
import ViewMarkup.Document.Reading
import ViewMarkup.Outcome

namespace ViewMarkup

/-! ### Members -/

namespace Json

theorem mem_keys_setMember {key k : String} {v : Json} : ∀ {members : List (String × Json)},
    k ∈ (setMember key v members).map Prod.fst → k = key ∨ k ∈ members.map Prod.fst
  | [], h => Or.inl (by simpa [setMember] using h)
  | (k', v') :: members, h => by
    unfold setMember at h
    split at h
    · exact Or.inr h
    · rw [List.map_cons, List.mem_cons] at h ⊢
      rcases h with h | h
      · exact Or.inr (Or.inl h)
      · exact (mem_keys_setMember h).imp id Or.inr

theorem nodup_keys_setMember {key : String} {v : Json} : ∀ {members : List (String × Json)},
    (members.map Prod.fst).Nodup → ((setMember key v members).map Prod.fst).Nodup
  | [], _ => by simp [setMember]
  | (k', v') :: members, h => by
    unfold setMember
    split
    · exact h
    · rename_i hk
      rw [List.map_cons, List.nodup_cons] at h ⊢
      refine ⟨fun hm => ?_, nodup_keys_setMember h.2⟩
      rcases mem_keys_setMember hm with hm | hm
      · exact hk hm
      · exact h.1 hm

end Json

/-! ### Nodes -/

namespace Node

mutual

/-- No node, this one or one below it, has two attributes of one name. -/
def NamesDistinct : Node → Prop
  | mk _ _ attributes children => (attributes.map Prod.fst).Nodup ∧ AllNamesDistinct children
termination_by structural n => n

def AllNamesDistinct : List Node → Prop
  | [] => True
  | n :: rest => n.NamesDistinct ∧ AllNamesDistinct rest
termination_by structural ns => ns

end

/-- The same of what has been read of a node. -/
structure Fields.NamesDistinct (fields : Fields) : Prop where
  attributes : (fields.attributes.map Prod.fst).Nodup
  children : ∀ children, fields.children = some children → AllNamesDistinct children

theorem Fields.namesDistinct_empty : ({} : Fields).NamesDistinct :=
  ⟨List.nodup_nil, fun _ h => by cases h⟩

theorem ofFields_namesDistinct {fields : Fields} {n : Node} (h : fields.NamesDistinct)
    (hn : ofFields fields = .ok n) : n.NamesDistinct := by
  obtain ⟨kind, -, hn⟩ := bind_eq_ok_iff.1 hn
  cases hn
  refine ⟨h.attributes, ?_⟩
  cases hc : fields.children with
  | none => exact trivial
  | some children => exact h.children children hc

mutual

theorem ofSource_namesDistinct : ∀ (s : Source) {n : Node}, ofSource s = .ok n → n.NamesDistinct
  | .mk _ _ members, n, h => by
    rw [ofSource] at h
    obtain ⟨_, -, h⟩ := bind_eq_ok_iff.1 h
    obtain ⟨fields, hf, h⟩ := bind_eq_ok_iff.1 h
    obtain ⟨_, -, h⟩ := bind_eq_ok_iff.1 h
    exact ofFields_namesDistinct (readFields_namesDistinct members Fields.namesDistinct_empty hf) h
termination_by structural s => s

theorem readFields_namesDistinct : ∀ (members : List (Except DocumentFault String × Source))
    {fields fields' : Fields}, fields.NamesDistinct → readFields members fields = .ok fields' →
      fields'.NamesDistinct
  | [], _, _, hf, h => by
    cases h
    exact hf
  | m :: rest, _, _, hf, h => by
    rw [readFields] at h
    obtain ⟨fields, hm, h⟩ := bind_eq_ok_iff.1 h
    exact readFields_namesDistinct rest (readField_namesDistinct m hf hm) h
termination_by structural members => members

theorem readField_namesDistinct : ∀ (m : Except DocumentFault String × Source)
    {fields fields' : Fields}, fields.NamesDistinct → readField m fields = .ok fields' →
      fields'.NamesDistinct
  | (.error _, _), _, _, _, h => by cases h
  | (.ok key, s), fields, _, hf, h => by
    rw [readField] at h
    split at h
    · obtain ⟨_, -, h⟩ := bind_eq_ok_iff.1 h
      obtain ⟨kind, -, h⟩ := bind_eq_ok_iff.1 h
      cases h
      exact ⟨hf.attributes, hf.children⟩
    · split at h
      · obtain ⟨_, -, h⟩ := bind_eq_ok_iff.1 h
        obtain ⟨id, -, h⟩ := bind_eq_ok_iff.1 h
        cases h
        exact ⟨hf.attributes, hf.children⟩
      · split at h
        · obtain ⟨_, -, h⟩ := bind_eq_ok_iff.1 h
          obtain ⟨children, hc, h⟩ := bind_eq_ok_iff.1 h
          cases h
          refine ⟨hf.attributes, fun ns hns => ?_⟩
          cases hns
          exact readChildren_namesDistinct s hc
        · obtain ⟨v, -, h⟩ := bind_eq_ok_iff.1 h
          cases h
          exact ⟨Json.nodup_keys_setMember hf.attributes, hf.children⟩
termination_by structural m => m

theorem readChildren_namesDistinct : ∀ (s : Source) {ns : List Node},
    readChildren s = .ok ns → AllNamesDistinct ns
  | .mk _ items _, ns, h => by
    rw [readChildren] at h
    obtain ⟨_, -, h⟩ := bind_eq_ok_iff.1 h
    obtain ⟨nodes, hn, h⟩ := bind_eq_ok_iff.1 h
    obtain ⟨_, -, h⟩ := bind_eq_ok_iff.1 h
    cases h
    exact readAll_namesDistinct items hn
termination_by structural s => s

theorem readAll_namesDistinct : ∀ (items : List Source) {ns : List Node},
    readAll items = .ok ns → AllNamesDistinct ns
  | [], _, h => by
    cases h
    exact trivial
  | s :: rest, _, h => by
    rw [readAll] at h
    obtain ⟨node, hs, h⟩ := bind_eq_ok_iff.1 h
    obtain ⟨nodes, hrest, h⟩ := bind_eq_ok_iff.1 h
    cases h
    exact ⟨ofSource_namesDistinct s hs, readAll_namesDistinct rest hrest⟩
termination_by structural items => items

end

end Node

/-! ### Documents -/

namespace Document

/-- Every node names each of its attributes once. -/
def NamesDistinct (doc : Document) : Prop := Node.AllNamesDistinct doc.layout

theorem readField_namesDistinct {fields fields' : Fields}
    (hf : ∀ ns, fields.layout = some ns → Node.AllNamesDistinct ns) :
    ∀ {m : Except DocumentFault String × Source}, readField fields m = .ok fields' →
      ∀ ns, fields'.layout = some ns → Node.AllNamesDistinct ns
  | (.error _, _), h => by cases h
  | (.ok key, s), h => by
    rw [readField] at h
    split at h
    · obtain ⟨_, -, h⟩ := bind_eq_ok_iff.1 h
      obtain ⟨layout, hl, h⟩ := bind_eq_ok_iff.1 h
      cases h
      intro ns hns
      cases hns
      exact Node.readChildren_namesDistinct s hl
    · split at h
      · obtain ⟨_, -, h⟩ := bind_eq_ok_iff.1 h
        obtain ⟨constraints, -, h⟩ := bind_eq_ok_iff.1 h
        cases h
        exact hf
      · obtain ⟨_, -, h⟩ := bind_eq_ok_iff.1 h
        cases h
        exact hf

theorem foldlM_readField_namesDistinct :
    ∀ {members : List (Except DocumentFault String × Source)} {fields fields' : Fields}, (∀ ns, fields.layout = some ns → Node.AllNamesDistinct ns) →
      members.foldlM readField fields = .ok fields' →
      ∀ ns, fields'.layout = some ns → Node.AllNamesDistinct ns
  | [], _, _, hf, h => by
    cases h
    exact hf
  | m :: members, _, _, hf, h => by
    rw [List.foldlM_cons] at h
    obtain ⟨fields, hm, h⟩ := bind_eq_ok_iff.1 h
    exact foldlM_readField_namesDistinct (readField_namesDistinct hf hm) h

theorem ofItems_namesDistinct : ∀ {items : List Source} {doc : Document},
    ofItems items = .ok doc → doc.NamesDistinct
  | [], _, h => by
    cases h
    exact trivial
  | [layout], _, h => by
    obtain ⟨ns, hns, h⟩ := bind_eq_ok_iff.1 h
    cases h
    exact Node.readChildren_namesDistinct layout hns
  | layout :: constraints :: _, _, h => by
    obtain ⟨ns, hns, h⟩ := bind_eq_ok_iff.1 h
    obtain ⟨specs, -, h⟩ := bind_eq_ok_iff.1 h
    cases h
    exact Node.readChildren_namesDistinct layout hns

theorem ofSource_namesDistinct {s : Source} {doc : Document} (h : ofSource s = .ok doc) :
    doc.NamesDistinct := by
  obtain ⟨form, -, h⟩ := bind_eq_ok_iff.1 h
  cases form with
  | members =>
    obtain ⟨fields, hf, h⟩ := bind_eq_ok_iff.1 h
    obtain ⟨_, -, h⟩ := bind_eq_ok_iff.1 h
    cases h
    have hl := foldlM_readField_namesDistinct (fun _ h => by cases h) hf
    show Node.AllNamesDistinct (fields.layout.getD [])
    cases hlayout : fields.layout with
    | none => exact trivial
    | some ns => exact hl ns hlayout
  | items =>
    obtain ⟨doc', hd, h⟩ := bind_eq_ok_iff.1 h
    obtain ⟨_, -, h⟩ := bind_eq_ok_iff.1 h
    cases h
    exact ofItems_namesDistinct hd

theorem ofJson_namesDistinct {v : Json} {doc : Document} (h : ofJson v = .ok doc) :
    doc.NamesDistinct := ofSource_namesDistinct h

theorem ofText_namesDistinct {text : String} {doc : Document} (h : ofText text = .ok doc) :
    doc.NamesDistinct := by
  obtain ⟨doc', hd, h⟩ := bind_eq_ok_iff.1 h
  obtain ⟨_, -, h⟩ := bind_eq_ok_iff.1 h
  cases h
  exact ofSource_namesDistinct hd

end Document

end ViewMarkup
