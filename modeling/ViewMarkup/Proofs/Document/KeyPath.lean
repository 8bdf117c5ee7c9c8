/-
# What a key path tells

The key path of a node spells the indices that lead to it, and that of an attribute
goes on with its name. An index ends at a bracket, so what is spelled can be read
back as long as no name is taken for an index: an attribute `@subviews[0]` of a node
has the key path of its first child. Apart from such names, no two parts of a
document have one key path.

Key definitions: `NamedLikeChild`, `Document.NamesApart`.
Key theorems: `NodePlace.text_cons`, `NodePlace.text_append_inj`,
`Document.nodup_keyPaths`.
-/
import Mathlib.Data.List.Nodup
import ViewMarkup.Proofs.Document.Distinct
import ViewMarkup.Proofs.Document.Parts

namespace ViewMarkup

/-! ### Indices -/

/-- An index can be read back, whatever comes after it. -/
theorem indexed_append_inj (key : String) {i j : Nat} {s t : String}
    (h : indexed key i ++ s = indexed key j ++ t) : i = j ∧ s = t := by
  have hread (n : Nat) (rest : List Char) :
      (n.repr.toList ++ ']' :: rest).takeWhile Char.isDigit = n.repr.toList := by
    have hdigits : ∀ c ∈ n.repr.toList, c.isDigit = true := by
      rw [Nat.toList_repr]
      exact fun c hc => Nat.isDigit_of_mem_toDigits (by decide) (by decide) hc
    rw [List.takeWhile_append_of_pos hdigits, List.takeWhile_cons_of_neg (by decide),
      List.append_nil]
  have hlists : i.repr.toList ++ ']' :: s.toList = j.repr.toList ++ ']' :: t.toList := by
    simpa [indexed, String.toList_append] using congrArg String.toList h
  have hdigits := congrArg (List.takeWhile Char.isDigit) hlists
  rw [hread, hread] at hdigits
  rw [hdigits] at hlists
  have hrest : s = t := String.toList_inj.1 (List.cons.inj (List.append_cancel_left hlists)).2
  rw [Nat.toList_repr, Nat.toList_repr] at hdigits
  exact ⟨by simpa using congrArg (Nat.ofDigitChars 10 · 0) hdigits, hrest⟩

/-! ### Nodes and attributes -/

/-- What leads from a node to its child. -/
theorem childStep_eq (j : Nat) :
    ".@subviews[" ++ toString j ++ "]" = "." ++ indexed Node.childrenKey j := by
  rw [indexed, Node.childrenKey, ← String.append_assoc, ← String.append_assoc]
  rfl

namespace NodePlace

theorem foldl_text (rest : NodePlace) : ∀ path : String,
    rest.foldl (fun path index => path ++ "." ++ indexed Node.childrenKey index) path =
      path ++ String.join (rest.map fun j => ".@subviews[" ++ toString j ++ "]") := by
  induction rest with
  | nil =>
    intro path
    simp
  | cons j rest ih =>
    intro path
    rw [List.foldl_cons, ih, List.map_cons, String.join_cons, childStep_eq]
    simp only [String.append_assoc]

/-- The key path of a place: the index among the outermost nodes, and then an
index among children for each further step. -/
theorem text_cons (i : Nat) (rest : NodePlace) :
    NodePlace.text (i :: rest) = "@layout[" ++ toString i ++ "]" ++
      String.join (rest.map fun j => ".@subviews[" ++ toString j ++ "]") :=
  foldl_text rest (indexed Document.layoutKey i)

theorem text_ne_empty (place : NodePlace) : place.text ≠ "" := by
  cases place with
  | nil => decide
  | cons i rest =>
    rw [text_cons]
    simp [String.append_eq_empty_iff]

end NodePlace

/-- The name begins like the key of a child. -/
def NamedLikeChild (name : String) : Prop := ∃ j rest, name = indexed Node.childrenKey j ++ rest

/-- What comes after the key path of a node does not lead on to a child. -/
def Ends (rest : String) : Prop :=
  ∀ (j : Nat) below, rest ≠ ".@subviews[" ++ toString j ++ "]" ++ below

theorem ends_empty : Ends "" := by
  intro j below h
  simp at h

theorem ends_name {name : String} (h : ¬ NamedLikeChild name) : Ends ("." ++ name) := by
  intro j below heq
  rw [childStep_eq, String.append_assoc] at heq
  exact h ⟨j, below, (String.append_right_inj ".").1 heq⟩

namespace NodePlace

theorem below_append_inj : ∀ {p q : NodePlace} {s t : String}, Ends s → Ends t →
    String.join (p.map fun j => ".@subviews[" ++ toString j ++ "]") ++ s =
      String.join (q.map fun j => ".@subviews[" ++ toString j ++ "]") ++ t → p = q ∧ s = t
  | [], [], s, t, _, _, h => ⟨rfl, by simpa using h⟩
  | [], j :: q, s, t, hs, _, h => by
    rw [List.map_cons, String.join_cons, String.append_assoc] at h
    exact absurd (by simpa using h) (hs j _)
  | i :: p, [], s, t, _, ht, h => by
    rw [List.map_cons, String.join_cons, String.append_assoc] at h
    exact absurd (by simpa using h.symm) (ht i _)
  | i :: p, j :: q, s, t, hs, ht, h => by
    rw [List.map_cons, List.map_cons, String.join_cons, String.join_cons, childStep_eq i,
      childStep_eq j] at h
    iterate 4 rw [String.append_assoc] at h
    obtain ⟨rfl, hrest⟩ := indexed_append_inj Node.childrenKey ((String.append_right_inj ".").1 h)
    obtain ⟨rfl, heq⟩ := below_append_inj hs ht hrest
    exact ⟨rfl, heq⟩

/-- Where a key path ends, it tells the place of a node and what comes after. -/
theorem text_append_inj {p q : NodePlace} {s t : String} (hp : p ≠ []) (hq : q ≠ []) (hs : Ends s)
    (ht : Ends t) (h : p.text ++ s = q.text ++ t) : p = q ∧ s = t := by
  obtain ⟨i, p, rfl⟩ := List.exists_cons_of_ne_nil hp
  obtain ⟨j, q, rfl⟩ := List.exists_cons_of_ne_nil hq
  have hfirst (i : Nat) : "@layout[" ++ toString i ++ "]" = indexed Document.layoutKey i := rfl
  rw [text_cons, text_cons, hfirst, hfirst, String.append_assoc, String.append_assoc] at h
  obtain ⟨rfl, hrest⟩ := indexed_append_inj Document.layoutKey h
  obtain ⟨rfl, heq⟩ := below_append_inj hs ht hrest
  exact ⟨rfl, heq⟩

end NodePlace

/-! ### Parts -/

theorem Part.keyPath_ne_empty (part : Part) : part.keyPath ≠ "" := by
  cases part with
  | node place kind id => exact place.text_ne_empty
  | property place kind name raw =>
    simp [keyPath, NodePlace.property, String.append_eq_empty_iff]
  | spec index spec => simp [keyPath, constraintPlace, indexed, String.append_eq_empty_iff]

theorem Part.keyPath_ofSpecs : ∀ (specs : List ConstraintSpec) (index : Nat),
    (ofSpecs index specs).map keyPath = (List.range' index specs.length).map constraintPlace
  | [], _ => rfl
  | _ :: rest, index => congrArg (constraintPlace index :: ·) (keyPath_ofSpecs rest (index + 1))

theorem constraintPlace_injective : Function.Injective constraintPlace := by
  intro i j h
  exact (indexed_append_inj Document.constraintsKey (congrArg (· ++ "") h)).1

/-- No node or attribute has the key path of a constraint spec. -/
theorem constraintPlace_ne {place : NodePlace} (hplace : place ≠ []) (s : String) (index : Nat) :
    constraintPlace index ≠ place.text ++ s := by
  obtain ⟨i, rest, rfl⟩ := List.exists_cons_of_ne_nil hplace
  intro h
  have hlists := congrArg (fun path => path.toList[1]?) h
  rw [NodePlace.text_cons] at hlists
  simp [constraintPlace, indexed, Document.constraintsKey] at hlists

namespace Node

theorem namesDistinct_of_mem {n : Node} : ∀ {ns : List Node}, AllNamesDistinct ns → n ∈ ns →
    n.NamesDistinct
  | m :: rest, h, hn => by
    rw [AllNamesDistinct] at h
    rcases List.mem_cons.1 hn with rfl | hn
    · exact h.1
    · exact namesDistinct_of_mem h.2 hn

theorem namesDistinct_of_follow {n : Node} : ∀ {place : NodePlace} {ns : List Node},
    AllNamesDistinct ns → follow ns place = some n → n.NamesDistinct
  | [], ns, _, h => by cases ns <;> cases h
  | [i], ns, hns, h => namesDistinct_of_mem hns (List.mem_of_getElem? h)
  | i :: j :: rest, ns, hns, h => by
    rw [follow] at h
    obtain ⟨m, hm, h⟩ := Option.bind_eq_some_iff.1 h
    obtain ⟨kind, id, attributes, children⟩ := m
    have hm := namesDistinct_of_mem hns (List.mem_of_getElem? hm)
    rw [NamesDistinct] at hm
    exact namesDistinct_of_follow hm.2 h

/-- What the key paths of a node and its attributes end with. -/
def pathEnds (n : Node) : List String := "" :: (n.attributes.map Prod.fst).map ("." ++ ·)

theorem keyPath_ownParts (place : NodePlace) (n : Node) :
    (ownParts (place, n)).map Part.keyPath = n.pathEnds.map (place.text ++ ·) := by
  simp [ownParts, pathEnds, Part.keyPath, NodePlace.property, String.append_assoc]

theorem nodup_pathEnds {n : Node} (h : (n.attributes.map Prod.fst).Nodup) : n.pathEnds.Nodup := by
  refine List.nodup_cons.2 ⟨fun hmem => ?_, h.map fun a b => (String.append_right_inj ".").1⟩
  obtain ⟨name, -, hname⟩ := List.mem_map.1 hmem
  simp at hname

end Node

namespace Document

variable {doc : Document}

/-- No attribute is named like a child. -/
def NamesApart (doc : Document) : Prop :=
  ∀ place n, doc.node? place = some n → ∀ a ∈ n.attributes, ¬ NamedLikeChild a.1

theorem NamesApart.ends (h : doc.NamesApart) {place : NodePlace} {n : Node}
    (hn : doc.node? place = some n) : ∀ s ∈ n.pathEnds, Ends s := by
  intro s hs
  rcases List.mem_cons.1 hs with rfl | hs
  · exact ends_empty
  · obtain ⟨name, hname, rfl⟩ := List.mem_map.1 hs
    obtain ⟨a, ha, rfl⟩ := List.mem_map.1 hname
    exact ends_name (h place n hn a ha)

theorem attributes_nodup (h : doc.NamesDistinct) {place : NodePlace} {n : Node}
    (hn : doc.node? place = some n) : (n.attributes.map Prod.fst).Nodup := by
  have hnode := Node.namesDistinct_of_follow h hn
  obtain ⟨kind, id, attributes, children⟩ := n
  rw [Node.NamesDistinct] at hnode
  exact hnode.1

theorem place_ne_nil {place : NodePlace} {n : Node} (hn : doc.node? place = some n) :
    place ≠ [] := by
  rintro rfl
  cases hn

/-- The nodes and their attributes have key paths of their own. -/
theorem nodup_layoutPaths (hdistinct : doc.NamesDistinct) (hapart : doc.NamesApart) :
    ((doc.listing.flatMap Node.ownParts).map Part.keyPath).Nodup := by
  rw [List.map_flatMap, List.nodup_flatMap]
  refine ⟨fun ⟨place, n⟩ hmem => ?_, ?_⟩
  · have hn := doc.mem_listing_iff.1 hmem
    rw [Node.keyPath_ownParts]
    exact (Node.nodup_pathEnds (attributes_nodup hdistinct hn)).map fun s t =>
      (String.append_right_inj place.text).1
  · refine (List.pairwise_map.1 doc.nodup_listing_places).imp_of_mem ?_
    rintro ⟨p, n⟩ ⟨q, m⟩ hp hq hne
    have hn := doc.mem_listing_iff.1 hp
    have hm := doc.mem_listing_iff.1 hq
    simp only [Function.onFun, Node.keyPath_ownParts]
    intro path hpath hpath'
    obtain ⟨s, hs, rfl⟩ := List.mem_map.1 hpath
    obtain ⟨t, ht, heq⟩ := List.mem_map.1 hpath'
    exact hne (NodePlace.text_append_inj (place_ne_nil hm) (place_ne_nil hn) (hapart.ends hm t ht)
      (hapart.ends hn s hs) heq).1.symm

/-- **No two parts have one key path.** The attributes of a node have to have names
of their own, and none may be named like a child. -/
theorem nodup_keyPaths (hdistinct : doc.NamesDistinct) (hapart : doc.NamesApart) :
    (doc.parts.map Part.keyPath).Nodup := by
  rw [parts, List.map_append, List.nodup_append]
  have hspecs : ((Part.ofSpecs 0 doc.constraints).map Part.keyPath).Nodup := by
    rw [Part.keyPath_ofSpecs]
    exact (List.nodup_range').map constraintPlace_injective
  refine ⟨nodup_layoutPaths hdistinct hapart, hspecs, fun path hpath path' hspec => ?_⟩
  rw [List.map_flatMap] at hpath
  obtain ⟨⟨place, n⟩, hmem, hpath⟩ := List.mem_flatMap.1 hpath
  rw [Node.keyPath_ownParts] at hpath
  obtain ⟨s, -, rfl⟩ := List.mem_map.1 hpath
  rw [Part.keyPath_ofSpecs] at hspec
  obtain ⟨index, -, rfl⟩ := List.mem_map.1 hspec
  exact (constraintPlace_ne (place_ne_nil (doc.mem_listing_iff.1 hmem)) s index).symm

/-- An attribute that is named like a child. -/
example : NodePlace.property [0] "@subviews[0]" = NodePlace.text [0, 0] := by decide

end Document

end ViewMarkup
