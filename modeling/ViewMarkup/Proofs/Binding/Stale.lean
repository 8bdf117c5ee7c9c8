/-
# Which bindings go stale

The value at one path of the data is replaced by another and the change is
announced. A binding that the graph finds is recomposed or reported, so it can
go stale only if the graph leaves it out although one of its paths reads what
was replaced. The graph compares how paths are spelled, while the data reads an
index by its value: a binding that spells an index with zeros in front is left
out when the change spells it without them, and the other way round. Nothing
else goes stale.

Key definitions: `BindingGraph.IsCurrent`, `BindingGraph.Reports`,
`BindingGraph.UpToDate`, `BindingGraph.Notices`.
Key theorems: `BindingGraph.upToDate_iff_notices`,
`BindingGraph.notices_of_plain`.
-/
import ViewMarkup.Proofs.Binding.Graph
import ViewMarkup.Proofs.Json.Replace
import ViewMarkup.Proofs.Template.Compose

namespace ViewMarkup

namespace Template

/-! ### Compositions before and after -/

variable {t : Template} {d : Json} {p : List String} {root text : String}

/-- Replacing a value that no path of a template reads keeps its text. -/
theorem compose_replaceAt_of_not_meets (h : t.compose d.lookup root = .ok text)
    (hp : (d.lookup p).isSome) (hapart : ∀ e ∈ t.expressions, ¬ d.Meets p (e.path.relative root))
    (v : Json) : t.compose (Json.replaceAt v p d).lookup root = .ok text :=
  compose_of_agree h fun e he => Json.lookup_replaceAt_of_not_meets v hp (hapart e he)

/-- A value that a path of a template reads can be replaced by one that changes
its text: a string longer than the text. -/
theorem exists_compose_ne_of_meets (hp : (d.lookup p).isSome) {e : Expression}
    (he : e ∈ t.expressions) (hm : d.Meets p (e.path.relative root)) (text : String) :
    ∃ v, t.compose (Json.replaceAt v p d).lookup root ≠ .ok text := by
  let long := String.ofList (List.replicate (text.length + 1) 'a')
  have hlong : long.length = text.length + 1 := by
    rw [String.length_ofList, List.length_replicate]
  refine ⟨.string long, fun h => ?_⟩
  obtain ⟨u, hu, hle⟩ := exists_value_of_compose h he
  have hshown := Json.length_le_of_lookup_replaceAt hp hm hu
  omega

end Template

namespace BindingGraph

/-! ### Current bindings -/

/-- The binding has the text that it composes to. -/
def IsCurrent (graph : BindingGraph) (data : DataSource) (id : Nat) : Prop :=
  ∃ b, graph.binding? id = some b ∧ b.template.compose data graph.root = .ok b.composed

/-- Announcing a change at the path gives an error for the binding. -/
def Reports (graph : BindingGraph) (path : String) (data : DataSource) (id : Nat)
    (e : MarkupError) : Prop :=
  ∃ ids, graph.dependents path = .ok ids ∧
    (id, .error e) ∈ ids.zip (graph.invalidate path data).1

/-- Once a change at the path is announced, the binding is current or an error
was given for it. -/
def UpToDate (graph : BindingGraph) (path : String) (data : DataSource) (id : Nat) : Prop :=
  (graph.invalidate path data).2.IsCurrent data id ∨ ∃ e, graph.Reports path data id e

/-- If a path of the binding reads what stands at `p`, then one of them is
spelled like a part of `p` or goes on from it. -/
def Notices (graph : BindingGraph) (d : Json) (p : List String) (id : Nat) : Prop :=
  (∃ q ∈ graph.followed id, d.Meets p q) → ∃ q ∈ graph.followed id, related q p = true

variable {graph : BindingGraph} {root path : String} {p : Path} {id : Nat} {b : Binding}
  {data : DataSource} {d : Json}

theorem invalidate_root : (graph.invalidate path data).2.root = graph.root :=
  foldl_commitUpdate_root _ _

/-- What the graph finds is up to date afterwards. -/
theorem upToDate_of_mem (hp : Path.parse path = .ok p) (hb : graph.binding? id = some b)
    (hid : id ∈ graph.dependentsOn (p.relative graph.root)) : graph.UpToDate path data id := by
  cases hvalue : b.template.compose data graph.root with
  | ok value =>
    refine Or.inl ⟨_, invalidate_binding?_of_ok hp hb hid hvalue, ?_⟩
    rw [invalidate_root]
    exact hvalue
  | error e =>
    have hzip : (id, recomposeOne graph.root data id b) ∈ _ := mem_zip_recompose hp hb hid
    rw [recomposeOne, hvalue] at hzip
    exact Or.inr ⟨_, _, dependents_of_parse hp, hzip⟩

/-- What the graph leaves out is up to date only if its text is still right. -/
theorem upToDate_iff_of_not_mem (hp : Path.parse path = .ok p) (hb : graph.binding? id = some b)
    (hid : id ∉ graph.dependentsOn (p.relative graph.root)) :
    graph.UpToDate path data id ↔ b.template.compose data graph.root = .ok b.composed := by
  have hkept : (graph.invalidate path data).2.binding? id = some b :=
    invalidate_binding?_of_not hp hb (Or.inl hid)
  constructor
  · rintro (⟨b', hb', hcompose⟩ | ⟨e, ids, hids, hmem⟩)
    · obtain rfl := Option.some.inj (hkept.symm.trans hb')
      rw [invalidate_root] at hcompose
      exact hcompose
    · obtain rfl := Except.ok.inj ((dependents_of_parse hp).symm.trans hids)
      exact absurd (List.of_mem_zip hmem).1 hid
  · intro hcompose
    refine Or.inl ⟨b, hkept, ?_⟩
    rw [invalidate_root]
    exact hcompose

/-- A binding of explicit paths follows each of them. -/
theorem mem_followed_iff_of_explicit (hb : graph.binding? id = some b)
    (hexplicit : ∀ e ∈ b.template.expressions, e.isExplicit = true) {q : List String} :
    q ∈ graph.followed id ↔ ∃ e ∈ b.template.expressions, e.path.relative graph.root = q := by
  rw [followed_of_binding? hb, Template.livePaths, List.filter_eq_self.2 hexplicit, List.map_map]
  exact List.mem_map

/-- A binding is left out although its text may be wrong, exactly if it does not
notice the change. -/
theorem kept_iff_notices (hindexed : graph.Indexed) (hb : graph.binding? id = some b)
    (hexplicit : ∀ e ∈ b.template.expressions, e.isExplicit = true)
    (hcomposed : b.template.compose d.lookup graph.root = .ok b.composed) {q : List String}
    (hsome : (d.lookup q).isSome) :
    (id ∉ graph.dependentsOn q →
        ∀ v, b.template.compose (Json.replaceAt v q d).lookup graph.root = .ok b.composed) ↔
      graph.Notices d q id := by
  rw [mem_dependentsOn_iff hindexed]
  constructor
  · rintro hkept ⟨r, hr, hm⟩
    by_contra hnone
    obtain ⟨e, he, rfl⟩ := (mem_followed_iff_of_explicit hb hexplicit).1 hr
    obtain ⟨v, hv⟩ := Template.exists_compose_ne_of_meets hsome he hm b.composed
    exact hv (hkept hnone v)
  · intro hnotices hnone v
    refine Template.compose_replaceAt_of_not_meets hcomposed hsome (fun e he hm => ?_) v
    have hfollowed := (mem_followed_iff_of_explicit hb hexplicit).2 ⟨e, he, rfl⟩
    exact hnone (hnotices ⟨_, hfollowed, hm⟩)

/-- Where no index has zeros in front, every change is noticed. -/
theorem notices_of_plain {q : List String} (hq : ∀ s ∈ q, Json.IsPlain s)
    (hfollowed : ∀ r ∈ graph.followed id, ∀ s ∈ r, Json.IsPlain s) : graph.Notices d q id := by
  rintro ⟨r, hr, hm⟩
  refine ⟨r, hr, ?_⟩
  rw [related, Bool.or_eq_true, List.isPrefixOf_iff_prefix, List.isPrefixOf_iff_prefix]
  exact (Json.prefix_of_meets hm hq (hfollowed r hr)).symm

/-- **No stale binding, up to the spelling of indices.** Let a binding have
explicit paths only and the text that it composes to. Whatever replaces the
value at a path, announcing the change leaves the binding current or gives an
error for it, exactly if it notices changes at that path; and exactly then it
keeps its composition whenever the graph leaves it out. -/
theorem upToDate_iff_notices (hgraph : Reached root graph) (hb : graph.binding? id = some b)
    (hexplicit : ∀ e ∈ b.template.expressions, e.isExplicit = true)
    (hcomposed : b.template.compose d.lookup root = .ok b.composed)
    (hp : Path.parse path = .ok p) (hsome : (d.lookup (p.relative root)).isSome) :
    ((∀ v, graph.UpToDate path (Json.replaceAt v (p.relative root) d).lookup id) ↔
        graph.Notices d (p.relative root) id) ∧
      ((id ∉ graph.dependentsOn (p.relative root) → ∀ v,
          b.template.compose (Json.replaceAt v (p.relative root) d).lookup root =
            b.template.compose d.lookup root) ↔
        graph.Notices d (p.relative root) id) := by
  obtain rfl := hgraph.root_eq
  have hkept := kept_iff_notices hgraph.indexed hb hexplicit hcomposed hsome
  rw [hcomposed]
  refine ⟨?_, hkept⟩
  rw [← hkept]
  by_cases hid : id ∈ graph.dependentsOn (p.relative graph.root)
  · exact ⟨fun _ hnot => absurd hid hnot, fun _ v => upToDate_of_mem hp hb hid⟩
  · simp only [upToDate_iff_of_not_mem hp hb hid]
    exact ⟨fun h _ => h, fun h => h hid⟩

/-! ### Two spellings of an index -/

/-- A template that shows the item at an index. -/
def itemTemplate (index : String) : Template where
  source := "#\x7b@bind(object.items." ++ index ++ ")\x7d"
  segments := [.expression ⟨⟨["object", "items", index]⟩, .explicit, ⟨0, 23 + index.utf8ByteSize⟩⟩]

/-- One binding, to the item at an index. -/
def itemGraph (index : String) : BindingGraph :=
  ((empty "object").register ⟨1⟩ "text" (itemTemplate index) "a" "@layout[0].text").2

/-- The items of which there is one. -/
def oneItem : Json := .object [("items", .array [.string "a"])]

theorem itemGraph_reached (index : String) : Reached "object" (itemGraph index) :=
  .register .empty _ _ _ _ _

theorem itemGraph_binding? (index : String) : (itemGraph index).binding? 0 =
    some ⟨⟨1⟩, "text", itemTemplate index, "@layout[0].text", "a"⟩ := rfl

theorem itemTemplate_explicit (index : String) :
    ∀ e ∈ (itemTemplate index).expressions, e.isExplicit = true := by
  intro e he
  obtain rfl := List.mem_singleton.1 he
  rfl

/-- Whatever replaces the item at 0, the binding that spells its index the same
way is up to date once the change is announced. -/
theorem itemGraph_upToDate : (oneItem.lookup ["items", "0"]).isSome = true ∧
    ∀ v, (itemGraph "0").UpToDate "object.items.0"
      (Json.replaceAt v ["items", "0"] oneItem).lookup 0 := by
  have hsome : (oneItem.lookup ["items", "0"]).isSome = true := rfl
  have hsame := upToDate_iff_notices (itemGraph_reached "0") (itemGraph_binding? "0")
    (itemTemplate_explicit "0") (d := oneItem) rfl
    (show Path.parse "object.items.0" = .ok ⟨["object", "items", "0"]⟩ from rfl) hsome
  refine ⟨hsome, hsame.1.2 fun _ => ⟨["items", "0"], ?_, by decide⟩⟩
  exact List.mem_singleton.2 rfl

/-- The binding that spells the index with two zeros is left out, and keeps a
text that is no longer right. -/
theorem itemGraph_stale :
    (Template.parse (itemTemplate "00").source).toOption = some (itemTemplate "00") ∧
      (∀ e ∈ (itemTemplate "00").expressions, e.isExplicit = true) ∧
      Reached "object" (itemGraph "00") ∧ (itemGraph "00").IsCurrent oneItem.lookup 0 ∧
      (oneItem.lookup ["items", "0"]).isSome = true ∧
      ¬ (itemGraph "00").UpToDate "object.items.0"
        (Json.replaceAt (.string "b") ["items", "0"] oneItem).lookup 0 := by
  refine ⟨by decide +kernel, itemTemplate_explicit "00", itemGraph_reached "00",
    ⟨_, itemGraph_binding? "00", rfl⟩, rfl, fun h => ?_⟩
  have hparse : Path.parse "object.items.0" = .ok ⟨["object", "items", "0"]⟩ := rfl
  have hleft : 0 ∉ (itemGraph "00").dependentsOn ["items", "0"] := by decide
  have hkept := (upToDate_iff_of_not_mem hparse (itemGraph_binding? "00") hleft).1 h
  have hnew : (itemTemplate "00").compose
      (Json.replaceAt (.string "b") ["items", "0"] oneItem).lookup "object" = .ok "b" := rfl
  exact absurd (Except.ok.inj (hnew.symm.trans hkept)) (by decide)

end BindingGraph

end ViewMarkup
