/-
# Documents in JSON

A document is encoded as the object of its outermost nodes and its constraint specs.
A node is the object of its kind, its id and its children, each under a key of its
own, and of its attributes in their order; the node's own keys may stand anywhere
between them. What has nothing to say may be left out. Read as a value, every
encoding of a document gives the document back (`Document.encoded_read_back`).

Key definitions: `Node.Lists`, `Node.EncodedBy`, `ConstraintSpec.EncodedBy`,
`Document.EncodedBy`, `Document.Encodable`, `Document.encoded`, `Node.fieldsAfter`.
Key theorems: `foldlM_memberSources`, `Node.readField_fieldsAfter`,
`Node.ofSource_of_encodedBy`, `ConstraintSpec.ofSource_of_encodedBy`,
`Document.encoded_read_back`.
-/
import ViewMarkup.Document.Reading
import ViewMarkup.Proofs.Json.Reading
import ViewMarkup.Proofs.Outcome

namespace ViewMarkup

open Json (member? memberSource memberSources itemSources)

/-- The key has the value, or is left out because the value says nothing. -/
def Json.GivesOr (members : List (String × Json)) (key : String) (v : Json) (silent : Prop) :
    Prop :=
  member? key members = some v ∨ (silent ∧ member? key members = none)

theorem Json.GivesOr.eq_of_member? {members : List (String × Json)} {key : String} {v w : Json}
    {silent : Prop} (h : Json.GivesOr members key v silent) (hw : member? key members = some w) :
    w = v := by
  rcases h with h | ⟨-, h⟩
  · exact Option.some.inj (hw.symm.trans h)
  · cases hw.symm.trans h

/-- What is left out is what it is by default. -/
theorem Json.GivesOr.getD_map {α : Type} {members : List (String × Json)} {key : String} {v : Json}
    {silent : Prop} (h : Json.GivesOr members key v silent) {a fallback : α}
    (hsilent : silent → a = fallback) :
    ((member? key members).map fun _ => a).getD fallback = a := by
  rcases h with h | ⟨hs, h⟩
  · rw [h]
    rfl
  · rw [h]
    exact (hsilent hs).symm

/-! ### What encodes a document -/

namespace Node

/-- Whether the key belongs to the node itself, and not to an attribute. -/
def isOwnKey (key : String) : Bool := key = kindKey || key = idKey || key = childrenKey

/-- The members name the kind, the id, the children and the attributes of a node, each
once, and nothing else; the attributes are in order. -/
structure Lists (members : List (String × Json)) (kind : String) (id : Option String)
    (attributes : List (String × Json)) (children : List Json) : Prop where
  distinct : (members.map Prod.fst).Nodup
  kind : member? kindKey members = some (.string kind)
  id : Json.GivesOr members idKey (id.elim .null .string) (id = none)
  children : Json.GivesOr members childrenKey (.array children) (children = [])
  attributes : (members.filter fun m => !isOwnKey m.1) = attributes

mutual

/-- The value is an encoding of the node. -/
def EncodedBy : Node → Json → Prop
  | mk kind id attributes children, .object members =>
    ∃ items, Lists members kind id attributes items ∧ AllEncodedBy children items
  | _, _ => False
termination_by structural n => n

def AllEncodedBy : List Node → List Json → Prop
  | [], items => items = []
  | n :: rest, items => ∃ v others, items = v :: others ∧ n.EncodedBy v ∧ AllEncodedBy rest others
termination_by structural ns => ns

end

mutual

/-- The attributes of the node and of the nodes below it have different names, none of
them a key of the node itself, and no value of an attribute repeats a key. -/
def Encodable : Node → Prop
  | mk _ _ attributes children => (attributes.map Prod.fst).Nodup ∧
      (∀ a ∈ attributes, isOwnKey a.1 = false ∧ a.2.keysDistinct = true) ∧ AllEncodable children
termination_by structural n => n

def AllEncodable : List Node → Prop
  | [] => True
  | n :: rest => n.Encodable ∧ AllEncodable rest
termination_by structural ns => ns

end

end Node

namespace ConstraintSpec

/-- The members encode the numbers under their names. -/
def EncodesMetrics : List (String × Double) → List (String × Json) → Prop :=
  List.Forall₂ fun metric m => ∃ n : Json.Number, m = (metric.1, .number n) ∧ n.toDouble = metric.2

/-- The members name the fields of the spec, each at most once, and nothing else. -/
structure Lists (members : List (String × Json)) (spec : ConstraintSpec)
    (metrics : List (String × Json)) : Prop where
  distinct : (members.map Prod.fst).Nodup
  known : ∀ m ∈ members, m.1 ∈ fieldNames
  format : member? "format" members = some (.string spec.format)
  options : Json.GivesOr members "options" (.array (spec.options.map .string)) (spec.options = [])
  metrics : Json.GivesOr members "metrics" (.object metrics) (metrics = [])

/-- The value is an encoding of the spec. -/
def EncodedBy (spec : ConstraintSpec) : Json → Prop
  | .object members => ∃ metrics, Lists members spec metrics ∧ EncodesMetrics spec.metrics metrics
  | _ => False

/-- The numbers of the spec are finite and have different names. -/
def Encodable (spec : ConstraintSpec) : Prop :=
  (spec.metrics.map Prod.fst).Nodup ∧ ∀ m ∈ spec.metrics, m.2.isFinite = true

end ConstraintSpec

namespace Document

/-- The members name the nodes and the specs, each at most once, and nothing else. -/
structure Lists (members : List (String × Json)) (nodes specs : List Json) : Prop where
  distinct : (members.map Prod.fst).Nodup
  known : ∀ m ∈ members, m.1 = layoutKey ∨ m.1 = constraintsKey
  layout : Json.GivesOr members layoutKey (.array nodes) (nodes = [])
  constraints : Json.GivesOr members constraintsKey (.array specs) (specs = [])

/-- The value is an encoding of the document. -/
def EncodedBy (doc : Document) : Json → Prop
  | .object members => ∃ nodes specs, Lists members nodes specs ∧
      Node.AllEncodedBy doc.layout nodes ∧
      List.Forall₂ ConstraintSpec.EncodedBy doc.constraints specs
  | _ => False

/-- Each node and each spec can be encoded. -/
def Encodable (doc : Document) : Prop :=
  Node.AllEncodable doc.layout ∧ ∀ spec ∈ doc.constraints, spec.Encodable

end Document

/-! ### Reading members one after another -/

theorem Json.member?_snoc (key k : String) (v : Json) (before : List (String × Json)) :
    member? key (before ++ [(k, v)]) =
      (member? key before).or (if k = key then some v else none) :=
  member?_append key before [(k, v)]

/-- Where keys are distinct, a key is given by the member it stands at and by none before. -/
theorem Json.member?_of_distinct {members before after : List (String × Json)} {key : String}
    {v : Json} (h : (members.map Prod.fst).Nodup) (heq : members = before ++ (key, v) :: after) :
    member? key before = none ∧ member? key members = some v := by
  subst heq
  have hbefore : member? key before = none :=
    Json.member?_eq_none_iff.2 (Json.not_mem_keys_before h)
  refine ⟨hbefore, ?_⟩
  rw [Json.member?_append, hbefore, Option.none_or, member?, if_pos rfl]

/-- A state that each member takes to the state of one member more is, after all members,
the state of all of them. -/
theorem foldlM_memberSources {σ : Type}
    {step : σ → Except DocumentFault String × Source → Except DocumentFault σ}
    (state : List (String × Json) → σ) : ∀ before after : List (String × Json),
      (∀ first m rest, before ++ after = first ++ m :: rest →
        step (state first) (memberSource m) = .ok (state (first ++ [m]))) →
      (memberSources after).foldlM step (state before) = .ok (state (before ++ after))
  | before, [], _ => by
    rw [List.append_nil]
    rfl
  | before, m :: after, hstep => by
    have hnext := hstep before m after rfl
    rw [List.append_cons before m after] at hstep ⊢
    rw [memberSources, List.foldlM_cons, hnext]
    exact foldlM_memberSources state (before ++ [m]) after hstep

theorem Json.itemSources_eq_map : ∀ items : List Json, itemSources items = items.map source
  | [] => rfl
  | v :: rest => by rw [itemSources, List.map_cons, itemSources_eq_map rest]

theorem Json.length_memberSources : ∀ members : List (String × Json),
    (memberSources members).length = members.length
  | [] => rfl
  | m :: rest => by rw [memberSources, List.length_cons, length_memberSources rest, List.length_cons]

/-- An array is over after all its items. -/
theorem Json.answer_ended_items (items : List Json) :
    answer (array items) (.ended (itemSources items).length) = .ok () := by
  have hended : (array items).answer? (.ended (itemSources items).length) = some () :=
    if_pos (Nat.le_of_eq (by rw [itemSources_eq_map, List.length_map]))
  rw [answer, hended]

/-- An object is over after all its members. -/
theorem Json.answer_ended_members (members : List (String × Json)) :
    answer (object members) (.ended (memberSources members).length) = .ok () := by
  have hended : (object members).answer? (.ended (memberSources members).length) = some () :=
    if_pos (Nat.le_of_eq (length_memberSources members).symm)
  rw [answer, hended]

/-- A list is read item by item. -/
theorem asList_source {α : Type} {item : Source → Except DocumentFault α} {items : List Json}
    {values : List α} (h : List.Forall₂ (fun v a => item v.source = .ok a) items values) :
    (Json.array items).source.asList item = .ok values := by
  have hitems : (itemSources items).mapM item = .ok values := by
    rw [Json.itemSources_eq_map]
    exact mapM_eq_ok_iff.2 (List.forall₂_map_left_iff.2 h)
  refine bind_eq_ok_iff.2 ⟨(), rfl, bind_eq_ok_iff.2 ⟨values, hitems, ?_⟩⟩
  exact bind_eq_ok_iff.2 ⟨(), Json.answer_ended_items items, rfl⟩

/-! ### Nodes -/

namespace Node

variable {kind : String} {id : Option String} {attributes members : List (String × Json)}
  {children : List Node} {items : List Json}

/-- What has been read of the node after these members of an encoding. -/
def fieldsAfter (n : Node) (before : List (String × Json)) : Fields where
  kind := (member? kindKey before).map fun _ => n.kind
  id := (member? idKey before).map fun _ => n.id
  children := (member? childrenKey before).map fun _ => n.children
  attributes := before.filter fun m => !isOwnKey m.1

theorem readFields_eq_foldlM : ∀ (members : List (Except DocumentFault String × Source))
    (fields : Fields),
    readFields members fields = members.foldlM (fun fields m => readField m fields) fields
  | [], _ => rfl
  | m :: rest, fields => by
    rw [readFields, List.foldlM_cons]
    exact congrArg _ (funext fun fields => readFields_eq_foldlM rest fields)

theorem asOptionalString_source : ∀ id : Option String,
    (id.elim Json.null Json.string).source.asOptionalString = .ok id
  | none => rfl
  | some _ => rfl

theorem fieldsAfter_kind {n : Node} {before : List (String × Json)} {v : Json} :
    fieldsAfter n (before ++ [(kindKey, v)]) =
      { fieldsAfter n before with kind := some n.kind } := by
  simp [fieldsAfter, Json.member?_snoc, isOwnKey, kindKey, idKey, childrenKey]

theorem fieldsAfter_id {n : Node} {before : List (String × Json)} {v : Json} :
    fieldsAfter n (before ++ [(idKey, v)]) = { fieldsAfter n before with id := some n.id } := by
  simp [fieldsAfter, Json.member?_snoc, isOwnKey, kindKey, idKey, childrenKey]

theorem fieldsAfter_children {n : Node} {before : List (String × Json)} {v : Json} :
    fieldsAfter n (before ++ [(childrenKey, v)]) =
      { fieldsAfter n before with children := some n.children } := by
  simp [fieldsAfter, Json.member?_snoc, isOwnKey, kindKey, idKey, childrenKey]

theorem fieldsAfter_attribute {n : Node} {before : List (String × Json)} {key : String} {v : Json}
    (hkind : key ≠ kindKey) (hid : key ≠ idKey) (hchildren : key ≠ childrenKey) :
    fieldsAfter n (before ++ [(key, v)]) =
      { fieldsAfter n before with
        attributes := (fieldsAfter n before).attributes ++ [(key, v)] } := by
  simp [fieldsAfter, Json.member?_snoc, isOwnKey, hkind, hid, hchildren]

theorem readChildren_source (hitems : readAll (itemSources items) = .ok children) :
    readChildren (Json.array items).source = .ok children := by
  rw [Json.source, readChildren]
  refine bind_eq_ok_iff.2 ⟨(), rfl, bind_eq_ok_iff.2 ⟨children, hitems, ?_⟩⟩
  exact bind_eq_ok_iff.2 ⟨(), Json.answer_ended_items items, rfl⟩

/-- Each member of an encoding is taken up as what it says of the node. -/
theorem readField_fieldsAfter (h : Lists members kind id attributes items)
    (hitems : readAll (itemSources items) = .ok children) {before after : List (String × Json)}
    {m : String × Json} (heq : members = before ++ m :: after) :
    readField (memberSource m) (fieldsAfter (mk kind id attributes children) before) =
      .ok (fieldsAfter (mk kind id attributes children) (before ++ [m])) := by
  obtain ⟨key, v⟩ := m
  obtain ⟨hbefore, hv⟩ := Json.member?_of_distinct h.distinct heq
  rw [memberSource, readField]
  -- `hbefore` keeps a key of the node from coming twice, and an attribute from being replaced.
  by_cases hkind : key = kindKey
  · subst hkind
    obtain rfl : v = .string kind := Option.some.inj (hv.symm.trans h.kind)
    rw [if_pos rfl, fieldsAfter_kind]
    simp only [fieldsAfter, hbefore]
    rfl
  by_cases hid : key = idKey
  · subst hid
    obtain rfl := h.id.eq_of_member? hv
    rw [if_neg hkind, if_pos rfl, fieldsAfter_id, asOptionalString_source]
    simp only [fieldsAfter, hbefore]
    rfl
  by_cases hchildren : key = childrenKey
  · subst hchildren
    obtain rfl := h.children.eq_of_member? hv
    rw [if_neg hkind, if_neg hid, if_pos rfl, fieldsAfter_children, readChildren_source hitems]
    simp only [fieldsAfter, hbefore]
    rfl
  · have hnew : key ∉ ((fieldsAfter (mk kind id attributes children) before).attributes).map
        Prod.fst :=
      fun hmem => Json.member?_eq_none_iff.1 hbefore ((List.filter_sublist.map _).subset hmem)
    have hvalue : v.source.answer .value = .ok v := by cases v <;> rfl
    rw [if_neg hkind, if_neg hid, if_neg hchildren, fieldsAfter_attribute hkind hid hchildren,
      hvalue, ← Json.setMember_of_not_mem hnew]
    rfl

/-- A node is read from its members as soon as its children are read from their list. -/
theorem ofSource_of_lists (h : Lists members kind id attributes items)
    (hitems : readAll (itemSources items) = .ok children) :
    ofSource (Json.object members).source = .ok (mk kind id attributes children) := by
  have hfields : readFields (memberSources members) {} =
      .ok (fieldsAfter (mk kind id attributes children) members) := by
    rw [readFields_eq_foldlM]
    exact foldlM_memberSources (fieldsAfter (mk kind id attributes children)) [] members
      fun _ _ _ heq => readField_fieldsAfter h hitems heq
  have hkind : (fieldsAfter (mk kind id attributes children) members).kind = some kind := by
    rw [fieldsAfter, h.kind]
    rfl
  have hid : (fieldsAfter (mk kind id attributes children) members).id.getD none = id :=
    h.id.getD_map fun hnone => hnone
  have hchildren :
      (fieldsAfter (mk kind id attributes children) members).children.getD [] = children :=
    h.children.getD_map fun hnil => by
      subst hnil
      exact (Except.ok.inj hitems).symm
  have hattrs : (fieldsAfter (mk kind id attributes children) members).attributes = attributes :=
    h.attributes
  rw [Json.source, ofSource]
  refine bind_eq_ok_iff.2 ⟨(), rfl, bind_eq_ok_iff.2 ⟨_, hfields, ?_⟩⟩
  refine bind_eq_ok_iff.2 ⟨(), Json.answer_ended_members members, ?_⟩
  rw [ofFields, hkind, hid, hchildren, hattrs]
  rfl

mutual

/-- Every encoding of a node is read as the node. -/
theorem ofSource_of_encodedBy : ∀ {n : Node} {v : Json}, n.EncodedBy v →
    ofSource v.source = .ok n
  | mk _ _ _ _, .object _, hv => by
    obtain ⟨items, hlists, hitems⟩ := hv
    exact ofSource_of_lists hlists (readAll_of_allEncodedBy hitems)
termination_by structural n => n

theorem readAll_of_allEncodedBy : ∀ {ns : List Node} {items : List Json},
    AllEncodedBy ns items → readAll (itemSources items) = .ok ns
  | [], _, hitems => by
    cases hitems
    rfl
  | n :: rest, _, hitems => by
    obtain ⟨v, others, rfl, hv, hothers⟩ := hitems
    rw [itemSources, readAll, ofSource_of_encodedBy hv, readAll_of_allEncodedBy hothers]
    rfl
termination_by structural ns => ns

end

end Node

/-! ### Constraint specs -/

namespace ConstraintSpec

/-- What has been read of the spec after these members of an encoding. -/
def fieldsAfter (spec : ConstraintSpec) (before : List (String × Json)) : Fields where
  format := (member? "format" before).map fun _ => spec.format
  options := (member? "options" before).map fun _ => spec.options
  metrics := (member? "metrics" before).map fun _ => spec.metrics

theorem readOptions_source (options : List String) :
    readOptions (Json.array (options.map .string)).source = .ok options :=
  asList_source (List.forall₂_map_left_iff.2 (List.forall₂_same.2 fun _ _ => rfl))

/-- Numbers under different names are taken up one after the other. -/
theorem foldlM_addNumber : ∀ {metrics : List (String × Double)} {members : List (String × Json)}
    {numbers : List (String × Double)}, EncodesMetrics metrics members →
      ((numbers ++ metrics).map Prod.fst).Nodup →
      (memberSources members).foldlM Source.addNumber numbers = .ok (numbers ++ metrics)
  | [], _, numbers, .nil, _ => by
    rw [List.append_nil]
    rfl
  | (name, x) :: metrics, m :: members, numbers, .cons hm hmembers, h => by
    obtain ⟨n, rfl, rfl⟩ := hm
    have hname := Json.not_mem_keys_before h
    have hothers : numbers.filter (fun entry => entry.1 ≠ name) = numbers :=
      List.filter_eq_self.2 fun entry hentry => decide_eq_true fun heq =>
        hname (List.mem_map.2 ⟨entry, hentry, heq⟩)
    have hnumber : Source.addNumber numbers (memberSource (name, .number n)) =
        .ok (numbers ++ [(name, n.toDouble)]) := by
      show Except.ok (numbers.filter (fun entry => entry.1 ≠ name) ++ [(name, n.toDouble)]) = _
      rw [hothers]
    rw [List.append_cons] at h ⊢
    rw [memberSources, List.foldlM_cons, hnumber]
    exact foldlM_addNumber hmembers h

theorem asNumbers_source {metrics : List (String × Double)} {members : List (String × Json)}
    (hmembers : EncodesMetrics metrics members) (h : (metrics.map Prod.fst).Nodup) :
    (Json.object members).source.asNumbers = .ok metrics := by
  have hnumbers : (memberSources members).foldlM Source.addNumber [] = .ok metrics :=
    foldlM_addNumber hmembers h
  refine bind_eq_ok_iff.2 ⟨(), rfl, bind_eq_ok_iff.2 ⟨metrics, hnumbers, ?_⟩⟩
  exact bind_eq_ok_iff.2 ⟨(), Json.answer_ended_members members, rfl⟩

theorem fieldsAfter_format {spec : ConstraintSpec} {before : List (String × Json)} {v : Json} :
    fieldsAfter spec (before ++ [("format", v)]) =
      { fieldsAfter spec before with format := some spec.format } := by
  simp [fieldsAfter, Json.member?_snoc]

theorem fieldsAfter_options {spec : ConstraintSpec} {before : List (String × Json)} {v : Json} :
    fieldsAfter spec (before ++ [("options", v)]) =
      { fieldsAfter spec before with options := some spec.options } := by
  simp [fieldsAfter, Json.member?_snoc]

theorem fieldsAfter_metrics {spec : ConstraintSpec} {before : List (String × Json)} {v : Json} :
    fieldsAfter spec (before ++ [("metrics", v)]) =
      { fieldsAfter spec before with metrics := some spec.metrics } := by
  simp [fieldsAfter, Json.member?_snoc]

/-- Each member of an encoding is taken up as what it says of the spec. -/
theorem readField_fieldsAfter {spec : ConstraintSpec} {members metrics : List (String × Json)}
    (h : Lists members spec metrics)
    (hmetrics : (Json.object metrics).source.asNumbers = .ok spec.metrics)
    {before after : List (String × Json)} {m : String × Json} (heq : members = before ++ m :: after) :
    readField (fieldsAfter spec before) (memberSource m) =
      .ok (fieldsAfter spec (before ++ [m])) := by
  have hknown : m.1 ∈ fieldNames := by
    refine h.known m ?_
    rw [heq]
    exact List.mem_append_right _ List.mem_cons_self
  obtain ⟨key, v⟩ := m
  obtain ⟨hbefore, hv⟩ := Json.member?_of_distinct h.distinct heq
  rw [memberSource, readField]
  by_cases hformat : key = "format"
  · subst hformat
    obtain rfl : v = .string spec.format := Option.some.inj (hv.symm.trans h.format)
    rw [if_pos rfl, fieldsAfter_format]
    simp only [fieldsAfter, hbefore]
    rfl
  by_cases hoptions : key = "options"
  · subst hoptions
    obtain rfl := h.options.eq_of_member? hv
    rw [if_neg hformat, if_pos rfl, fieldsAfter_options, readOptions_source]
    simp only [fieldsAfter, hbefore]
    rfl
  by_cases hkey : key = "metrics"
  · subst hkey
    obtain rfl := h.metrics.eq_of_member? hv
    rw [if_neg hformat, if_neg hoptions, if_pos rfl, fieldsAfter_metrics, hmetrics]
    simp only [fieldsAfter, hbefore]
    rfl
  · simp [fieldNames, hformat, hoptions, hkey] at hknown

/-- Every encoding of a spec is read as the spec. -/
theorem ofSource_of_encodedBy {spec : ConstraintSpec} (h : spec.Encodable) : ∀ {v : Json},
    spec.EncodedBy v → ofSource v.source = .ok spec
  | .object members, ⟨metrics, hlists, hencodes⟩ => by
    have hmetrics := asNumbers_source hencodes h.1
    have hfields : (memberSources members).foldlM readField {} =
        .ok (fieldsAfter spec members) :=
      foldlM_memberSources (fieldsAfter spec) [] members
        fun _ _ _ heq => readField_fieldsAfter hlists hmetrics heq
    have hformat : (fieldsAfter spec members).format = some spec.format := by
      rw [fieldsAfter, hlists.format]
      rfl
    have hoptions : (fieldsAfter spec members).options.getD [] = spec.options :=
      hlists.options.getD_map fun hnil => hnil
    have hnumbers : (fieldsAfter spec members).metrics.getD [] = spec.metrics :=
      hlists.metrics.getD_map fun hnil => by
        subst hnil
        exact (Except.ok.inj hmetrics).symm
    refine bind_eq_ok_iff.2 ⟨.members, rfl, bind_eq_ok_iff.2 ⟨_, hfields, ?_⟩⟩
    refine bind_eq_ok_iff.2 ⟨(), Json.answer_ended_members members, ?_⟩
    rw [ofFields, hformat, hoptions, hnumbers]
    rfl

end ConstraintSpec

/-! ### Documents -/

namespace Document

/-- What has been read of the document after these members of an encoding. -/
def fieldsAfter (doc : Document) (before : List (String × Json)) : Fields where
  layout := (member? layoutKey before).map fun _ => doc.layout
  constraints := (member? constraintsKey before).map fun _ => doc.constraints

theorem fieldsAfter_layout {doc : Document} {before : List (String × Json)} {v : Json} :
    fieldsAfter doc (before ++ [(layoutKey, v)]) =
      { fieldsAfter doc before with layout := some doc.layout } := by
  simp [fieldsAfter, Json.member?_snoc, layoutKey, constraintsKey]

theorem fieldsAfter_constraints {doc : Document} {before : List (String × Json)} {v : Json} :
    fieldsAfter doc (before ++ [(constraintsKey, v)]) =
      { fieldsAfter doc before with constraints := some doc.constraints } := by
  simp [fieldsAfter, Json.member?_snoc, layoutKey, constraintsKey]

/-- Each member of an encoding is taken up as what it says of the document. -/
theorem readField_fieldsAfter {doc : Document} {members : List (String × Json)}
    {nodes specs : List Json} (h : Lists members nodes specs)
    (hnodes : Node.readAll (itemSources nodes) = .ok doc.layout)
    (hspecs : readConstraints (Json.array specs).source = .ok doc.constraints)
    {before after : List (String × Json)} {m : String × Json} (heq : members = before ++ m :: after) :
    readField (fieldsAfter doc before) (memberSource m) =
      .ok (fieldsAfter doc (before ++ [m])) := by
  have hknown : m.1 = layoutKey ∨ m.1 = constraintsKey := by
    refine h.known m ?_
    rw [heq]
    exact List.mem_append_right _ List.mem_cons_self
  obtain ⟨key, v⟩ := m
  obtain ⟨hbefore, hv⟩ := Json.member?_of_distinct h.distinct heq
  rw [memberSource, readField]
  rcases hknown with rfl | rfl
  · obtain rfl := h.layout.eq_of_member? hv
    rw [if_pos rfl, fieldsAfter_layout, Node.readChildren_source hnodes]
    simp only [fieldsAfter, hbefore]
    rfl
  · obtain rfl := h.constraints.eq_of_member? hv
    rw [if_neg (by decide), if_pos rfl, fieldsAfter_constraints, hspecs]
    simp only [fieldsAfter, hbefore]
    rfl

/-- Every encoding of a document is read as the document. -/
theorem ofJson_of_encodedBy {doc : Document} (h : doc.Encodable) : ∀ {v : Json},
    doc.EncodedBy v → ofJson v = .ok doc
  | .object members, ⟨nodes, specs, hlists, hnodes, hspecs⟩ => by
    have hnodes := Node.readAll_of_allEncodedBy hnodes
    have hspecs : readConstraints (Json.array specs).source = .ok doc.constraints := by
      have hread := (List.forall₂_and_left _ _).2 ⟨h.2, hspecs⟩
      exact asList_source (hread.imp fun _ _ hspec =>
        ConstraintSpec.ofSource_of_encodedBy hspec.1 hspec.2).flip
    have hfields : (memberSources members).foldlM readField {} =
        .ok (fieldsAfter doc members) :=
      foldlM_memberSources (fieldsAfter doc) [] members
        fun _ _ _ heq => readField_fieldsAfter hlists hnodes hspecs heq
    have hlayout : (fieldsAfter doc members).layout.getD [] = doc.layout :=
      hlists.layout.getD_map fun hnil => by
        subst hnil
        exact (Except.ok.inj hnodes).symm
    have hconstraints : (fieldsAfter doc members).constraints.getD [] = doc.constraints :=
      hlists.constraints.getD_map fun hnil => by
        subst hnil
        exact (Except.ok.inj hspecs).symm
    refine bind_eq_ok_iff.2 ⟨.members, rfl, bind_eq_ok_iff.2 ⟨_, hfields, ?_⟩⟩
    refine bind_eq_ok_iff.2 ⟨(), Json.answer_ended_members members, ?_⟩
    rw [hlayout, hconstraints]
    rfl

end Document

/-! ### Each document has an encoding -/

namespace Node

mutual

/-- The object of the node with all its own keys, and then its attributes. -/
def encoded : Node → Json
  | mk kind id attributes children =>
    .object ((kindKey, .string kind) :: (idKey, id.elim .null .string) ::
      (childrenKey, .array (encodedAll children)) :: attributes)
termination_by structural n => n

def encodedAll : List Node → List Json
  | [] => []
  | n :: rest => n.encoded :: encodedAll rest
termination_by structural ns => ns

end

theorem lists_encoded {kind : String} {id : Option String} {attributes : List (String × Json)}
    {items : List Json} (hnodup : (attributes.map Prod.fst).Nodup)
    (hown : ∀ a ∈ attributes, isOwnKey a.1 = false) :
    Lists ((kindKey, .string kind) :: (idKey, id.elim .null .string) ::
      (childrenKey, .array items) :: attributes) kind id attributes items where
  distinct := by
    have hkey : ∀ key, isOwnKey key = true → key ∉ attributes.map Prod.fst := by
      intro key hkey hmem
      obtain ⟨a, ha, rfl⟩ := List.mem_map.1 hmem
      exact Bool.false_ne_true ((hown a ha).symm.trans hkey)
    simp only [List.map_cons, List.nodup_cons, List.mem_cons, not_or]
    exact ⟨⟨by decide, by decide, hkey kindKey rfl⟩, ⟨by decide, hkey idKey rfl⟩,
      hkey childrenKey rfl, hnodup⟩
  kind := rfl
  id := .inl rfl
  children := .inl rfl
  attributes := by
    show attributes.filter (fun m => !isOwnKey m.1) = attributes
    exact List.filter_eq_self.2 fun a ha => by rw [hown a ha]; rfl

mutual

theorem encodedBy_encoded : ∀ {n : Node}, n.Encodable → n.EncodedBy n.encoded
  | mk _ _ _ children, h =>
    ⟨encodedAll children, lists_encoded h.1 fun a ha => (h.2.1 a ha).1,
      allEncodedBy_encodedAll h.2.2⟩
termination_by structural n => n

theorem allEncodedBy_encodedAll : ∀ {ns : List Node}, AllEncodable ns →
    AllEncodedBy ns (encodedAll ns)
  | [], _ => rfl
  | n :: rest, h =>
    ⟨n.encoded, encodedAll rest, rfl, encodedBy_encoded h.1, allEncodedBy_encodedAll h.2⟩
termination_by structural ns => ns

end

end Node

namespace ConstraintSpec

/-- A finite number as it is, and any other as null. -/
def encodedNumber : Double → Json
  | .finite x => .number (.float x)
  | _ => .null

/-- The object of all fields of the spec. -/
def encoded (spec : ConstraintSpec) : Json :=
  .object [("format", .string spec.format), ("options", .array (spec.options.map .string)),
    ("metrics", .object (spec.metrics.map fun m => (m.1, encodedNumber m.2)))]

theorem encodedBy_encoded {spec : ConstraintSpec} (h : spec.Encodable) :
    spec.EncodedBy spec.encoded := by
  refine ⟨_, ⟨by simp, by simp [fieldNames], rfl, .inl rfl, .inl rfl⟩, ?_⟩
  refine List.forall₂_map_right_iff.2 (List.forall₂_same.2 fun m hm => ?_)
  obtain ⟨name, x⟩ := m
  cases x with
  | finite x => exact ⟨.float x, rfl, rfl⟩
  | nan => cases h.2 _ hm
  | infinite negative => cases h.2 _ hm

end ConstraintSpec

namespace Document

/-- The object of the nodes and of the specs of the document. -/
def encoded (doc : Document) : Json :=
  .object [(layoutKey, .array (Node.encodedAll doc.layout)),
    (constraintsKey, .array (doc.constraints.map ConstraintSpec.encoded))]

theorem encodedBy_encoded {doc : Document} (h : doc.Encodable) : doc.EncodedBy doc.encoded := by
  refine ⟨_, _, ⟨by simp [layoutKey, constraintsKey], by simp, .inl rfl, .inl rfl⟩,
    Node.allEncodedBy_encodedAll h.1, ?_⟩
  exact List.forall₂_map_right_iff.2
    (List.forall₂_same.2 fun spec hspec => ConstraintSpec.encodedBy_encoded (h.2 spec hspec))

/-- **An encoded document is read back.** A document has an encoding, and every encoding of
it, wherever the keys of its nodes stand between the attributes and whatever is left out, is
read as the document with its attributes in their order. -/
theorem encoded_read_back {doc : Document} (h : doc.Encodable) :
    doc.EncodedBy doc.encoded ∧ ∀ v, doc.EncodedBy v → ofJson v = .ok doc :=
  ⟨encodedBy_encoded h, fun _ hv => ofJson_of_encodedBy h hv⟩

/-- A view with a label in it, and a constraint on its width. -/
def card : Document :=
  ⟨[.mk "UIView" (some "card")
      [("zeta", .number (.integer 1)), ("alpha", .object [("b", .null), ("a", .bool true)])]
      [.mk "UILabel" none [("text", .string "hi")] []]],
    [⟨"H:[card(w)]", [], [("w", .ofInt .double 50)]⟩]⟩

/-- The card in JSON, with the own keys of the nodes before, between and after their
attributes. -/
def cardJson : Json :=
  .object
    [("@constraints", .array [.object
        [("metrics", .object [("w", .number (.integer 50))]), ("format", .string "H:[card(w)]")]]),
      ("@layout", .array [.object
        [("@subviews", .array [.object [("text", .string "hi"), ("@isa", .string "UILabel")]]),
          ("zeta", .number (.integer 1)), ("@isa", .string "UIView"),
          ("alpha", .object [("b", .null), ("a", .bool true)]), ("@id", .string "card")]])]

theorem card_encodable : card.Encodable := by
  refine ⟨⟨⟨by decide, ?_, ⟨by decide, ?_, trivial⟩, trivial⟩, trivial⟩, ?_⟩
  · simp only [List.forall_mem_cons]
    exact ⟨by decide, by decide, nofun⟩
  · simp only [List.forall_mem_cons]
    exact ⟨by decide, nofun⟩
  · show ∀ spec ∈ card.constraints,
      (spec.metrics.map Prod.fst).Nodup ∧ ∀ m ∈ spec.metrics, m.2.isFinite = true
    decide +kernel

theorem cardJson_encodes : card.EncodedBy cardJson := by
  refine ⟨_, _, ⟨by decide, by simp [layoutKey, constraintsKey], .inl rfl, .inl rfl⟩,
    ⟨_, _, rfl, ⟨_, ⟨by decide, rfl, .inl rfl, .inl rfl, rfl⟩, ?_⟩, rfl⟩, ?_⟩
  · exact ⟨_, _, rfl, ⟨_, ⟨by decide, rfl, .inr ⟨rfl, rfl⟩, .inr ⟨rfl, rfl⟩, rfl⟩, rfl⟩, rfl⟩
  · refine .cons ⟨_, ⟨by decide, by simp [ConstraintSpec.fieldNames], rfl, .inr ⟨rfl, rfl⟩,
      .inl rfl⟩, ?_⟩ .nil
    exact .cons ⟨.integer 50, rfl, by simp only [Json.Number.toDouble]⟩ .nil

theorem card_read_back : card.Encodable ∧ card.EncodedBy cardJson ∧ ofJson cardJson = .ok card :=
  ⟨card_encodable, cardJson_encodes, (encoded_read_back card_encodable).2 _ cardJson_encodes⟩

end Document

end ViewMarkup
