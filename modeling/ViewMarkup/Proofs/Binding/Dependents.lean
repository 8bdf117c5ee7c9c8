/-
# What the index finds is what a full scan finds

A change at a path concerns the bindings one of whose followed paths is a part
of it, is the same, or goes on from it, segment by segment below the data
object. In every graph that can come about the index finds exactly these, in the
order of their registration and each once; what a template reads without
following it never counts.

An index may keep its paths as keys, joined with points, and compare keys as
texts: one is below another if it is the same or goes on from it with a point.
Since no segment holds a point, that finds the same bindings for templates that
were read.

Key definitions: `BindingGraph.keyBelow`, `BindingGraph.keysRelated`,
`BindingGraph.dependentsByKey`.
Key theorems: `BindingGraph.keysRelated_joined`,
`BindingGraph.dependentsByKey_eq_dependents`,
`BindingGraph.dependents_are_scanned`.
-/
import Mathlib.Data.List.Sort
import ViewMarkup.Proofs.Binding.Graph
import ViewMarkup.Proofs.Template.Spelling
import ViewMarkup.Proofs.Text.Order

namespace ViewMarkup

namespace BindingGraph

variable {graph : BindingGraph} {root path : String} {p : Path}

/-! ### The scan -/

theorem dependentsOn_increasing (path : List String) :
    (graph.dependentsOn path).Pairwise (· < ·) :=
  (List.pairwise_lt_range).filter _

theorem related_iff {a b : List String} : related a b = true ↔ a <+: b ∨ b <+: a := by
  rw [related, Bool.or_eq_true, List.isPrefixOf_iff_prefix, List.isPrefixOf_iff_prefix]

theorem mem_followed_iff {id : Nat} {q : List String} : q ∈ graph.followed id ↔
    ∃ b, graph.binding? id = some b ∧ ∃ e ∈ b.template.expressions, e.isExplicit = true ∧
      e.path.relative graph.root = q := by
  unfold followed
  cases graph.binding? id with
  | none => simp
  | some b => simp [Template.livePaths, and_assoc]

/-- The index finds the bindings that follow a path comparable to the changed
one. -/
theorem mem_dependentsOn_iff_scanned (h : graph.Indexed) {id : Nat} {path : List String} :
    id ∈ graph.dependentsOn path ↔ ∃ b, graph.binding? id = some b ∧
      ∃ e ∈ b.template.expressions, e.isExplicit = true ∧
        (e.path.relative graph.root <+: path ∨ path <+: e.path.relative graph.root) := by
  rw [mem_dependentsOn_iff h]
  constructor
  · rintro ⟨q, hq, hrelated⟩
    obtain ⟨b, hb, e, he, hexplicit, rfl⟩ := mem_followed_iff.1 hq
    exact ⟨b, hb, e, he, hexplicit, related_iff.1 hrelated⟩
  · rintro ⟨b, hb, e, he, hexplicit, hrelated⟩
    exact ⟨_, mem_followed_iff.2 ⟨b, hb, e, he, hexplicit, rfl⟩, related_iff.2 hrelated⟩

theorem lt_size_of_mem_edge (h : graph.Indexed) {edge : List String × List Nat}
    (hedge : edge ∈ graph.edges) {id : Nat} (hid : id ∈ edge.2) : id < graph.size := by
  obtain ⟨b, hb⟩ := binding?_of_mem_followed ((h edge.1 id).1 ⟨edge.2, hedge, hid⟩)
  exact (List.getElem?_eq_some_iff.1 hb).1

theorem dependents_eq_error_iff :
    (∃ e, graph.dependents path = .error e) ↔ ¬ ∃ segments, Path.Spells path segments := by
  rw [← Path.parse_eq_error_iff, dependents]
  cases Path.parse path with
  | ok p => simp [Except.map]
  | error e => simp [Except.map]

/-! ### Keys -/

/-- Whether a key is another one, or goes on from it with a point. -/
def keyBelow (key above : String) : Bool :=
  key = above || above.toList.isPrefixOf key.toList && key.toList[above.length]? = some '.'

/-- Whether one of two keys lies at or below the other. Everything lies below the
empty key, which is that of the data object. -/
def keysRelated (bound changed : String) : Bool :=
  changed = "" || bound = "" || keyBelow bound changed || keyBelow changed bound

/-- The numbers kept at the keys that are related to the changed one, in order
and each once. -/
def dependentsByKey (graph : BindingGraph) (path : String) : Except MarkupError (List Nat) :=
  (Path.parse path).map fun p =>
    let found := (graph.edges.filter fun edge =>
      keysRelated (Path.joined edge.1) (p.key graph.root)).flatMap Prod.snd
    dropRepeats (found.mergeSort fun a b => decide (a ≤ b))

theorem append_singleton_prefix_iff {l m : List Char} {c : Char} :
    l ++ [c] <+: m ↔ l <+: m ∧ m[l.length]? = some c := by
  constructor
  · rintro ⟨rest, rfl⟩
    refine ⟨⟨c :: rest, by simp⟩, by simp⟩
  · rintro ⟨⟨rest, rfl⟩, hc⟩
    rw [List.getElem?_append_right (Nat.le_refl _), Nat.sub_self] at hc
    cases rest with
    | nil => cases hc
    | cons d rest =>
      obtain rfl := Option.some.inj hc
      exact ⟨rest, by simp⟩

theorem keyBelow_joined {a b : List String} (ha : ∀ s ∈ a, Path.IsValid s)
    (hb : ∀ s ∈ b, Path.IsValid s) (hne : a ≠ []) :
    keyBelow (Path.joined b) (Path.joined a) = true ↔ a <+: b := by
  rw [Path.prefix_iff_joined ha hb hne, keyBelow, Bool.or_eq_true, decide_eq_true_eq,
    Bool.and_eq_true, decide_eq_true_eq, List.isPrefixOf_iff_prefix,
    append_singleton_prefix_iff, String.length_toList]

/-- Keys are related exactly if the paths are. -/
theorem keysRelated_joined {a b : List String} (ha : ∀ s ∈ a, Path.IsValid s)
    (hb : ∀ s ∈ b, Path.IsValid s) :
    keysRelated (Path.joined a) (Path.joined b) = related a b := by
  rw [Bool.eq_iff_iff, related_iff, keysRelated]
  simp only [Bool.or_eq_true, decide_eq_true_eq]
  by_cases hanil : a = []
  · simp [hanil, Path.joined]
  · by_cases hbnil : b = []
    · simp [hbnil, Path.joined]
    · rw [keyBelow_joined hb ha hbnil, keyBelow_joined ha hb hanil]
      simp only [Path.joined_ne_empty hanil ha, Path.joined_ne_empty hbnil hb, false_or]
      exact or_comm

theorem mem_found_iff (h : graph.Indexed) {id : Nat} (within : List String → Bool) :
    id ∈ (graph.edges.filter fun edge => within edge.1).flatMap Prod.snd ↔
      ∃ q ∈ graph.followed id, within q = true := by
  rw [List.mem_flatMap]
  constructor
  · rintro ⟨⟨q, ids⟩, hmem, hid⟩
    obtain ⟨hedge, hwithin⟩ := List.mem_filter.1 hmem
    exact ⟨q, (h q id).1 ⟨ids, hedge, hid⟩, hwithin⟩
  · rintro ⟨q, hq, hwithin⟩
    obtain ⟨ids, hedge, hid⟩ := (h q id).2 hq
    exact ⟨(q, ids), List.mem_filter.2 ⟨hedge, hwithin⟩, hid⟩

theorem followed_valid (h : ∀ b ∈ graph.bindings, b.template.PathsValid) {id : Nat}
    {q : List String} (hq : q ∈ graph.followed id) : ∀ s ∈ q, Path.IsValid s := by
  obtain ⟨b, hb, e, he, -, rfl⟩ := mem_followed_iff.1 hq
  exact Path.relative_valid (h b (List.mem_of_getElem? hb) e he) graph.root

/-- To compare keys finds the same bindings as to compare segments. -/
theorem dependentsByKey_eq_dependents (h : graph.Indexed)
    (hvalid : ∀ b ∈ graph.bindings, b.template.PathsValid) (path : String) :
    graph.dependentsByKey path = graph.dependents path := by
  rw [dependentsByKey, dependents]
  cases hparse : Path.parse path with
  | error e => rfl
  | ok p =>
    have hp : ∀ s ∈ p.relative graph.root, Path.IsValid s :=
      Path.relative_valid (Path.spells_of_parse hparse).valid graph.root
    refine congrArg Except.ok ?_
    refine List.Pairwise.eq_of_mem_iff
      (pairwise_lt_dropRepeats (List.pairwise_mergeSort' (· ≤ ·) _))
      (dependentsOn_increasing _) fun id => ?_
    rw [mem_dropRepeats_iff, List.mem_mergeSort, mem_dependentsOn_iff h,
      mem_found_iff h fun q => keysRelated (Path.joined q) (p.key graph.root)]
    refine exists_congr fun q => and_congr_right fun hq => ?_
    rw [Path.key, keysRelated_joined (followed_valid hvalid hq) hp]

/-! ### The index and the scan -/

/-- **The index agrees with a full scan.** In every graph that can come about,
the bindings that a change concerns are asked for in vain exactly if the text
spells no path. Otherwise they are the bindings with an explicit expression
whose path below the data object starts the changed one or goes on from it, each
once and in order. Whatever the edges hold is the number of a binding, and for
templates that were read a comparison of keys finds the same. -/
theorem dependents_are_scanned (hgraph : Reached root graph) (path : String) :
    ((∃ e, graph.dependents path = .error e) ↔ ¬ ∃ segments, Path.Spells path segments) ∧
      (∀ p : Path, Path.Spells path p.segments → ∃ ids, graph.dependents path = .ok ids ∧
        ids.Pairwise (· < ·) ∧
        ∀ id, id ∈ ids ↔ ∃ b, graph.binding? id = some b ∧
          ∃ e ∈ b.template.expressions, e.isExplicit = true ∧
            (e.path.relative root <+: p.relative root ∨
              p.relative root <+: e.path.relative root)) ∧
      (∀ edge ∈ graph.edges, ∀ id ∈ edge.2, id < graph.size) ∧
      ((∀ b ∈ graph.bindings, ∃ source, Template.parse source = .ok b.template) →
        graph.dependentsByKey path = graph.dependents path) := by
  obtain rfl := hgraph.root_eq
  have hindexed := hgraph.indexed
  refine ⟨dependents_eq_error_iff, fun p hp => ?_, fun edge hedge id hid => ?_, fun hread => ?_⟩
  · exact ⟨_, dependents_of_parse (Path.parse_of_spells hp), dependentsOn_increasing _,
      fun id => mem_dependentsOn_iff_scanned hindexed⟩
  · exact lt_size_of_mem_edge hindexed hedge hid
  · refine dependentsByKey_eq_dependents hindexed (fun b hb => ?_) path
    obtain ⟨source, hsource⟩ := hread b hb
    exact Template.parse_valid hsource

/-! ### Names that start alike -/

/-- The template that a text is read as. -/
def templateOf (source : String) : Template :=
  ((Template.parse source).toOption).getD (.ofLiteral "")

/-- A user and what is named like one: the same path twice, a name that starts
alike, an expression that is not followed, and the data object itself. -/
def userTemplates : List String :=
  ["#{@bind(user.name)} #{@bind(object.user.name)}", "#{@bind(username)}",
    "#{user.name} #{@bind(title)}", "#{@bind(object)}", "#{@bind(user)} #{@bind(user.age)}"]

/-- The graph of these templates, each bound to a view of its own. -/
def userGraph : BindingGraph := userTemplates.foldl
  (fun graph source => (graph.register ⟨graph.size⟩ "text" (templateOf source) "" "").2) (empty "object")

theorem userGraph_reached : Reached "object" userGraph :=
  .register (.register (.register (.register (.register .empty ..) ..) ..) ..) ..

theorem userGraph_scanned : Reached "object" userGraph ∧
    userGraph.bindings.map (fun b => b.template.source) = userTemplates ∧
    (userGraph.dependents "user.name").toOption = some [0, 3, 4] ∧
    userGraph.dependentsByKey "user.name" = userGraph.dependents "user.name" ∧
    ∃ ids, userGraph.dependents "user.name" = .ok ids ∧ ids.Pairwise (· < ·) ∧
      ∀ id, id ∈ ids ↔ ∃ b, userGraph.binding? id = some b ∧
        ∃ e ∈ b.template.expressions, e.isExplicit = true ∧
          (e.path.relative "object" <+: ["user", "name"] ∨
            ["user", "name"] <+: e.path.relative "object") := by
  have hparse : Path.parse "user.name" = .ok ⟨["user", "name"]⟩ := by decide +kernel
  have hread : ∀ b ∈ userGraph.bindings,
      (Template.parse b.template.source).toOption = some b.template := by decide +kernel
  obtain ⟨-, hscan, -, hkeys⟩ := dependents_are_scanned userGraph_reached "user.name"
  exact ⟨userGraph_reached, by decide +kernel, by decide +kernel,
    hkeys fun b hb => ⟨_, toOption_eq_some_iff.1 (hread b hb)⟩,
    hscan _ (Path.spells_of_parse hparse)⟩

end BindingGraph

end ViewMarkup
