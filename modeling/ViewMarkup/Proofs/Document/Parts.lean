/-
# The parts of a document in order

A document is read part by part: each node by itself and then its attributes,
before the nodes below it; after all nodes the constraint specs. A document can
be cut after any number of parts. What is left is a document again: a node that
is cut off keeps the attributes before the cut, and those above it keep what
comes before it. Its parts are the first parts of the whole
(`Document.parts_cut`), with the same places.

Key definitions: `Part`, `Part.keyPath`, `Document.parts`, `Document.cut`.
Key theorems: `Document.parts_cut`, `Document.listing_places`,
`Document.property_mem_parts_iff`.
-/
import ViewMarkup.Proofs.Document.Listing

namespace ViewMarkup

/-- What a reader of a document comes to next. -/
inductive Part
  /-- A node by itself. -/
  | node (place : NodePlace) (kind : String) (id : Option String)
  /-- An attribute of a node of this kind. -/
  | property (place : NodePlace) (kind name : String) (raw : Json)
  | spec (index : Nat) (spec : ConstraintSpec)

namespace Part

/-- Where the part stands in the document. -/
def keyPath : Part → String
  | node place _ _ => place.text
  | property place _ name _ => place.property name
  | spec index _ => constraintPlace index

/-- The place of a node. -/
def nodePlace? : Part → Option NodePlace
  | node place _ _ => some place
  | _ => none

/-- The specs from the one at `index` on. -/
def ofSpecs (index : Nat) : List ConstraintSpec → List Part
  | [] => []
  | s :: rest => spec index s :: ofSpecs (index + 1) rest

theorem ofSpecs_take : ∀ (specs : List ConstraintSpec) (index count : Nat),
    ofSpecs index (specs.take count) = (ofSpecs index specs).take count
  | [], _, _ => by simp [ofSpecs]
  | _ :: _, _, 0 => rfl
  | s :: rest, index, count + 1 => by
    rw [List.take_succ_cons, ofSpecs, ofSpecs, List.take_succ_cons, ofSpecs_take rest]

theorem exists_of_mem_ofSpecs {part : Part} : ∀ {specs : List ConstraintSpec} {index : Nat},
    part ∈ ofSpecs index specs → ∃ i s, part = spec i s
  | s :: rest, index, h => by
    rcases List.mem_cons.1 h with rfl | h
    · exact ⟨index, s, rfl⟩
    · exact exists_of_mem_ofSpecs h

end Part

namespace Node

/-- A node by itself, and then its attributes. -/
def ownParts (entry : NodePlace × Node) : List Part :=
  .node entry.1 entry.2.kind entry.2.id ::
    entry.2.attributes.map fun a => .property entry.1 entry.2.kind a.1 a.2

mutual

/-- How many parts a node has, all below it included. -/
def partCount : Node → Nat
  | mk _ _ attributes children => 1 + attributes.length + partCountAll children
termination_by structural n => n

def partCountAll : List Node → Nat
  | [] => 0
  | n :: rest => n.partCount + partCountAll rest
termination_by structural ns => ns

end

mutual

/-- The node with no more than `count` of the parts that come after the node by
itself. -/
def cut : Node → Nat → Node
  | mk kind id attributes children, count =>
    mk kind id (attributes.take count) (cutAll children (count - attributes.length))
termination_by structural n => n

/-- The nodes with no more than `count` parts. -/
def cutAll : List Node → Nat → List Node
  | [], _ => []
  | _ :: _, 0 => []
  | n :: rest, count + 1 => n.cut count :: cutAll rest (count + 1 - n.partCount)
termination_by structural ns => ns

end

mutual

theorem length_parts : ∀ (n : Node) (place : NodePlace),
    ((n.listing place).flatMap ownParts).length = n.partCount
  | mk kind id attributes children, place => by
    rw [listing, List.flatMap_cons, List.length_append, length_partsAll children, partCount,
      ownParts, List.length_cons, List.length_map, Nat.add_comm 1]
    rfl
termination_by structural n => n

theorem length_partsAll : ∀ (ns : List Node) (place : NodePlace) (index : Nat),
    ((listingAll place index ns).flatMap ownParts).length = partCountAll ns
  | [], _, _ => rfl
  | n :: rest, place, index => by
    rw [listingAll, List.flatMap_append, List.length_append, length_parts n, length_partsAll rest,
      partCountAll]
termination_by structural ns => ns

end

mutual

theorem parts_cut : ∀ (n : Node) (place : NodePlace) (count : Nat),
    ((n.cut count).listing place).flatMap ownParts =
      ((n.listing place).flatMap ownParts).take (count + 1)
  | mk kind id attributes children, place, count => by
    rw [cut, listing, listing, List.flatMap_cons, List.flatMap_cons, partsAll_cutAll children,
      ownParts, ownParts, List.cons_append, List.cons_append, List.take_succ_cons,
      List.take_append, List.length_map]
    simp only [Node.kind, Node.id, Node.attributes, List.map_take]
termination_by structural n => n

theorem partsAll_cutAll : ∀ (ns : List Node) (place : NodePlace) (index count : Nat),
    (listingAll place index (cutAll ns count)).flatMap ownParts =
      ((listingAll place index ns).flatMap ownParts).take count
  | [], _, _, _ => by simp [cutAll, listingAll]
  | _ :: _, _, _, 0 => by simp [cutAll, listingAll]
  | n :: rest, place, index, count + 1 => by
    rw [cutAll, listingAll, listingAll, List.flatMap_append, List.flatMap_append, parts_cut n,
      partsAll_cutAll rest, List.take_append, length_parts n]
termination_by structural ns => ns

end

end Node

namespace Document

variable (doc : Document)

/-- The parts in document order. -/
def parts : List Part := doc.listing.flatMap Node.ownParts ++ Part.ofSpecs 0 doc.constraints

/-- The document up to a number of parts. -/
def cut (count : Nat) : Document where
  layout := Node.cutAll doc.layout count
  constraints := doc.constraints.take (count - Node.partCountAll doc.layout)

/-- **A cut document has the first parts of the whole.** -/
theorem parts_cut (count : Nat) : (doc.cut count).parts = doc.parts.take count := by
  have hlayout : (doc.cut count).listing.flatMap Node.ownParts =
      (doc.listing.flatMap Node.ownParts).take count := Node.partsAll_cutAll doc.layout [] 0 count
  have hlength : (doc.listing.flatMap Node.ownParts).length = Node.partCountAll doc.layout :=
    Node.length_partsAll doc.layout [] 0
  rw [parts, parts, List.take_append, hlayout, hlength, ← Part.ofSpecs_take]
  rfl

/-- The listed places are those of the nodes among the parts. -/
theorem listing_places : doc.listing.map Prod.fst = doc.parts.filterMap Part.nodePlace? := by
  have hspecs : (Part.ofSpecs 0 doc.constraints).filterMap Part.nodePlace? = [] :=
    List.filterMap_eq_nil_iff.2 fun part hpart => by
      obtain ⟨i, s, rfl⟩ := Part.exists_of_mem_ofSpecs hpart
      rfl
  have hown : ∀ entry, (Node.ownParts entry).filterMap Part.nodePlace? = [entry.1] := by
    intro entry
    simp [Node.ownParts, Part.nodePlace?, List.filterMap_map]
  rw [parts, List.filterMap_append, hspecs, List.append_nil, List.filterMap_flatMap]
  simp only [hown]
  exact (List.map_eq_flatMap).trans rfl

theorem property_mem_parts_iff {place : NodePlace} {kind name : String} {raw : Json} :
    .property place kind name raw ∈ doc.parts ↔
      ∃ n, doc.node? place = some n ∧ n.kind = kind ∧ (name, raw) ∈ n.attributes := by
  have hspecs : .property place kind name raw ∉ Part.ofSpecs 0 doc.constraints := by
    intro hmem
    obtain ⟨i, s, heq⟩ := Part.exists_of_mem_ofSpecs hmem
    cases heq
  rw [parts, List.mem_append, or_iff_left hspecs, List.mem_flatMap]
  constructor
  · rintro ⟨⟨P, n⟩, hmem, hown⟩
    rcases List.mem_cons.1 hown with heq | hown
    · cases heq
    · obtain ⟨a, ha, heq⟩ := List.mem_map.1 hown
      cases heq
      exact ⟨n, doc.mem_listing_iff.1 hmem, rfl, ha⟩
  · rintro ⟨n, hn, rfl, ha⟩
    exact ⟨(place, n), doc.mem_listing_iff.2 hn,
      List.mem_cons_of_mem _ (List.mem_map.2 ⟨_, ha, rfl⟩)⟩

end Document

end ViewMarkup
