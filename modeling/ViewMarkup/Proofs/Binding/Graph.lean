/-
# What the binding graph does to its bindings

The graphs that can come about are those that registrations, recorded texts and
announced changes lead to. In each of them the edges say of every binding which
paths it follows, no more and no less, so a change at a path concerns exactly
the bindings that follow a related one. Each of them gets a result of its own,
and its text is replaced if it composes.

Key definitions: `Binding.slot`, `BindingGraph.Reached`,
`BindingGraph.followed`, `BindingGraph.Indexed`.
Key theorems: `BindingGraph.Reached.indexed`,
`BindingGraph.mem_dependentsOn_iff`, `BindingGraph.recompose_results`,
`BindingGraph.invalidate_binding?_of_ok`.
-/
import ViewMarkup.Binding.Graph
import ViewMarkup.Proofs.Outcome

namespace ViewMarkup

/-- The view and the property that a binding is bound to. -/
def Binding.slot (b : Binding) : Handle × String := (b.target, b.property)

namespace BindingGraph

/-! ### Registering -/

section

variable (graph : BindingGraph) (target : Handle) (property : String) (t : Template)
  (composed keyPath : String)

theorem register_root :
    (graph.register target property t composed keyPath).2.root = graph.root := by
  unfold register
  split <;> rfl

theorem register_bindings : (graph.register target property t composed keyPath).2.bindings =
    graph.bindings ++ (if t.isLive then [⟨target, property, t, keyPath, composed⟩] else []) := by
  unfold register
  split <;> simp

end

/-! ### Recomposing -/

theorem recomposeOne_eq_ok_iff {root : String} {data : DataSource} {id : Nat} {b : Binding}
    {update : BindingUpdate} : recomposeOne root data id b = .ok update ↔
      ∃ value, b.template.compose data root = .ok value ∧
        update = ⟨id, b.target, b.property, value, value ≠ b.composed⟩ := by
  unfold recomposeOne
  split
  · rename_i value hvalue
    rw [hvalue]
    constructor
    · intro h
      cases h
      exact ⟨value, rfl, rfl⟩
    · rintro ⟨_, heq, rfl⟩
      cases heq
      rfl
  · rename_i e he
    simp [he]

/-- What was recomposed is a binding of the graph. -/
theorem ok_mem_recompose {graph : BindingGraph} {path : String} {data : DataSource}
    {update : BindingUpdate} (h : .ok update ∈ graph.recompose path data) :
    ∃ b, graph.binding? update.binding = some b ∧
      recomposeOne graph.root data update.binding b = .ok update := by
  unfold recompose at h
  split at h
  · exact absurd (List.mem_singleton.1 h) (by simp)
  · obtain ⟨id, -, hmem⟩ := List.mem_filterMap.1 h
    obtain ⟨b, hb, hone⟩ := Option.map_eq_some_iff.1 hmem
    obtain ⟨value, -, rfl⟩ := recomposeOne_eq_ok_iff.1 hone
    exact ⟨b, hb, hone⟩

/-! ### Recording -/

/-- Another text leaves a binding where it is. -/
theorem commit_slots (graph : BindingGraph) (id : Nat) (value : String) :
    (graph.commit id value).bindings.map Binding.slot = graph.bindings.map Binding.slot := by
  apply List.ext_getElem?
  intro i
  rw [commit, List.getElem?_map, List.getElem?_map]
  by_cases hi : id = i
  · rw [hi, List.getElem?_modify_eq]
    cases graph.bindings[i]? <;> rfl
  · rw [List.getElem?_modify_ne _ _ hi]

/-! ### Paths and the bindings that follow them -/

/-- The edges say that the binding follows the path. -/
def Follows (edges : List (List String × List Nat)) (path : List String) (id : Nat) : Prop :=
  ∃ ids, (path, ids) ∈ edges ∧ id ∈ ids

theorem follows_cons_iff {path q : List String} {ids : List Nat} {id : Nat}
    {edges : List (List String × List Nat)} :
    Follows ((path, ids) :: edges) q id ↔ q = path ∧ id ∈ ids ∨ Follows edges q id := by
  constructor
  · rintro ⟨ids', hmem, hid⟩
    rcases List.mem_cons.1 hmem with heq | hmem
    · obtain ⟨rfl, rfl⟩ := Prod.mk.inj heq
      exact Or.inl ⟨rfl, hid⟩
    · exact Or.inr ⟨ids', hmem, hid⟩
  · rintro (⟨rfl, hid⟩ | ⟨ids', hmem, hid⟩)
    · exact ⟨ids, List.mem_cons_self, hid⟩
    · exact ⟨ids', List.mem_cons_of_mem _ hmem, hid⟩

theorem follows_addEdge_iff {id j : Nat} {path q : List String} :
    ∀ {edges : List (List String × List Nat)},
      Follows (addEdge id path edges) q j ↔ Follows edges q j ∨ q = path ∧ j = id
  | [] => by
    rw [addEdge, follows_cons_iff, List.mem_singleton]
    exact or_comm
  | (p, ids) :: edges => by
    unfold addEdge
    by_cases hp : p = path
    · have hids : j ∈ (if ids.contains id then ids else ids ++ [id]) ↔ j ∈ ids ∨ j = id := by
        by_cases hid : ids.contains id = true
        · rw [if_pos hid]
          constructor
          · exact Or.inl
          · rintro (h | rfl)
            · exact h
            · exact List.contains_iff_mem.1 hid
        · rw [if_neg hid, List.mem_append, List.mem_singleton]
      rw [if_pos hp, follows_cons_iff, follows_cons_iff, hids, hp]
      tauto
    · rw [if_neg hp, follows_cons_iff, follows_cons_iff, follows_addEdge_iff, or_assoc]

theorem follows_addEdges_iff {id j : Nat} {q : List String} :
    ∀ {paths : List (List String)} {edges : List (List String × List Nat)},
      Follows (paths.foldl (fun edges path => addEdge id path edges) edges) q j ↔
        Follows edges q j ∨ q ∈ paths ∧ j = id
  | [], edges => by simp
  | path :: paths, edges => by
    rw [List.foldl_cons, follows_addEdges_iff, follows_addEdge_iff, List.mem_cons]
    tauto

/-- The paths that a binding follows, below the data object. -/
def followed (graph : BindingGraph) (id : Nat) : List (List String) :=
  match graph.binding? id with
  | some b => b.template.livePaths.map (Path.relative · graph.root)
  | none => []

/-- The edges say which paths each binding follows. -/
def Indexed (graph : BindingGraph) : Prop :=
  ∀ path id, Follows graph.edges path id ↔ path ∈ graph.followed id

theorem followed_of_binding? {graph : BindingGraph} {id : Nat} {b : Binding}
    (h : graph.binding? id = some b) :
    graph.followed id = b.template.livePaths.map (Path.relative · graph.root) := by
  rw [followed, h]

theorem indexed_empty (root : String) : (empty root).Indexed := by
  intro path id
  simp [Follows, followed, empty, binding?]

theorem indexed_register {graph : BindingGraph} (h : graph.Indexed) (target : Handle)
    (property : String) (t : Template) (composed keyPath : String) :
    (graph.register target property t composed keyPath).2.Indexed := by
  unfold register
  split
  · intro path id
    rw [follows_addEdges_iff, h path id]
    simp only [followed, binding?, size]
    rcases Nat.lt_trichotomy id graph.bindings.length with hlt | rfl | hgt
    · rw [List.getElem?_append_left hlt]
      simp [Nat.ne_of_lt hlt]
    · simp
    · rw [List.getElem?_eq_none (Nat.le_of_lt hgt), List.getElem?_eq_none (by simp; omega)]
      simp [Nat.ne_of_gt hgt]
  · exact h

theorem commit_binding? (graph : BindingGraph) (id : Nat) (value : String) (j : Nat) :
    (graph.commit id value).binding? j =
      (graph.binding? j).map fun b => if id = j then { b with composed := value } else b := by
  show (graph.bindings.modify id _)[j]? = graph.bindings[j]?.map _
  by_cases hj : id = j
  · rw [hj, List.getElem?_modify_eq]
    simp
  · rw [List.getElem?_modify_ne _ _ hj]
    simp [hj]

theorem commit_followed (graph : BindingGraph) (id : Nat) (value : String) (j : Nat) :
    (graph.commit id value).followed j = graph.followed j := by
  unfold followed
  rw [commit_binding?]
  cases graph.binding? j with
  | none => rfl
  | some b =>
    by_cases hj : id = j
    · simp [hj, commit]
    · simp [hj, commit]

theorem indexed_commit {graph : BindingGraph} (h : graph.Indexed) (id : Nat) (value : String) :
    (graph.commit id value).Indexed := by
  intro path j
  rw [commit_followed]
  exact h path j

theorem commitUpdate_indexed {graph : BindingGraph} (h : graph.Indexed)
    (result : Except MarkupError BindingUpdate) : (graph.commitUpdate result).Indexed := by
  cases result with
  | error e => exact h
  | ok update => exact indexed_commit h update.binding update.value

theorem foldl_commitUpdate_indexed : ∀ (results : List (Except MarkupError BindingUpdate))
    {graph : BindingGraph}, graph.Indexed → (results.foldl commitUpdate graph).Indexed
  | [], _, h => h
  | result :: results, _, h => foldl_commitUpdate_indexed results (commitUpdate_indexed h result)

theorem foldl_commitUpdate_root : ∀ (results : List (Except MarkupError BindingUpdate))
    (graph : BindingGraph), (results.foldl commitUpdate graph).root = graph.root
  | [], _ => rfl
  | .error _ :: results, graph => foldl_commitUpdate_root results graph
  | .ok update :: results, graph =>
    foldl_commitUpdate_root results (graph.commit update.binding update.value)

/-! ### Reachable graphs -/

/-- The graphs over a data object of this name that can come about. -/
inductive Reached (root : String) : BindingGraph → Prop
  | empty : Reached root (.empty root)
  | register {graph : BindingGraph} (h : Reached root graph) (target : Handle) (property : String)
    (t : Template) (composed keyPath : String) :
    Reached root (graph.register target property t composed keyPath).2
  | commit {graph : BindingGraph} (h : Reached root graph) (id : Nat) (value : String) :
    Reached root (graph.commit id value)
  | invalidate {graph : BindingGraph} (h : Reached root graph) (path : String)
    (data : DataSource) : Reached root (graph.invalidate path data).2

namespace Reached

variable {root : String} {graph : BindingGraph}

theorem root_eq (h : Reached root graph) : graph.root = root := by
  induction h with
  | empty => rfl
  | register _ target property t composed keyPath ih =>
    rw [register_root]
    exact ih
  | commit _ id value ih => exact ih
  | invalidate _ path data ih =>
    rw [BindingGraph.invalidate, foldl_commitUpdate_root]
    exact ih

/-- **The index is exact.** In every graph that can come about the edges say
which paths each binding follows. -/
theorem indexed (h : Reached root graph) : graph.Indexed := by
  induction h with
  | empty => exact indexed_empty root
  | register _ target property t composed keyPath ih =>
    exact indexed_register ih target property t composed keyPath
  | commit _ id value ih => exact indexed_commit ih id value
  | invalidate _ path data ih => exact foldl_commitUpdate_indexed _ ih

end Reached

/-! ### What a change concerns -/

theorem binding?_of_mem_followed {graph : BindingGraph} {id : Nat} {path : List String}
    (h : path ∈ graph.followed id) : ∃ b, graph.binding? id = some b := by
  unfold followed at h
  split at h
  · rename_i b hb
    exact ⟨b, hb⟩
  · exact absurd h List.not_mem_nil

theorem mem_dependentsOn_iff {graph : BindingGraph} (h : graph.Indexed) {path : List String}
    {id : Nat} :
    id ∈ graph.dependentsOn path ↔ ∃ q ∈ graph.followed id, related q path = true := by
  unfold dependentsOn
  rw [List.mem_filter, List.mem_range, List.any_eq_true]
  constructor
  · rintro ⟨-, ⟨q, ids⟩, hmem, hedge⟩
    rw [Bool.and_eq_true, List.contains_iff_mem] at hedge
    exact ⟨q, (h q id).1 ⟨ids, hmem, hedge.2⟩, hedge.1⟩
  · rintro ⟨q, hq, hrelated⟩
    obtain ⟨b, hb⟩ := binding?_of_mem_followed hq
    obtain ⟨ids, hmem, hid⟩ := (h q id).2 hq
    refine ⟨(List.getElem?_eq_some_iff.1 hb).1, ⟨q, ids⟩, hmem, ?_⟩
    rw [Bool.and_eq_true, List.contains_iff_mem]
    exact ⟨hrelated, hid⟩

/-! ### Results -/

section

variable {graph : BindingGraph} {data : DataSource}

theorem dependents_of_parse {path : String} {p : Path} (hp : Path.parse path = .ok p) :
    graph.dependents path = .ok (graph.dependentsOn (p.relative graph.root)) := by
  rw [dependents, hp]
  rfl

theorem binding?_of_mem_dependentsOn {path : List String} {id : Nat}
    (h : id ∈ graph.dependentsOn path) : ∃ b, graph.binding? id = some b := by
  have hlt : id < graph.bindings.length := List.mem_range.1 (List.mem_filter.1 h).1
  exact ⟨_, List.getElem?_eq_getElem hlt⟩

theorem results_of_bindings {α : Type} {f : Nat → Binding → α} : ∀ {ids : List Nat},
    (∀ id ∈ ids, ∃ b, graph.binding? id = some b) →
      List.Forall₂ (fun id result => ∃ b, graph.binding? id = some b ∧ result = f id b) ids
        (ids.filterMap fun id => (graph.binding? id).map (f id))
  | [], _ => .nil
  | id :: ids, h => by
    obtain ⟨b, hb⟩ := h id List.mem_cons_self
    rw [List.filterMap_cons, hb]
    exact .cons ⟨b, hb, rfl⟩
      (results_of_bindings fun id' hid' => h id' (List.mem_cons_of_mem _ hid'))

/-- Each binding that a change concerns has its result, in the same order. -/
theorem recompose_results {path : String} {p : Path} (hp : Path.parse path = .ok p) :
    List.Forall₂ (fun id result => ∃ b, graph.binding? id = some b ∧
        result = recomposeOne graph.root data id b)
      (graph.dependentsOn (p.relative graph.root)) (graph.recompose path data) := by
  rw [recompose, dependents_of_parse hp]
  exact results_of_bindings fun id => binding?_of_mem_dependentsOn

theorem mem_zip_recompose {path : String} {p : Path} (hp : Path.parse path = .ok p) {id : Nat}
    {b : Binding} (hb : graph.binding? id = some b)
    (hid : id ∈ graph.dependentsOn (p.relative graph.root)) :
    (id, recomposeOne graph.root data id b) ∈
      (graph.dependentsOn (p.relative graph.root)).zip (graph.recompose path data) := by
  obtain ⟨result, hmem, b', hb', rfl⟩ := exists_mem_zip (recompose_results hp) hid
  obtain rfl := Option.some.inj (hb.symm.trans hb')
  exact hmem

theorem commitUpdate_binding?_of_ne {result : Except MarkupError BindingUpdate} {id : Nat}
    (h : ∀ update, result = .ok update → update.binding ≠ id) :
    (graph.commitUpdate result).binding? id = graph.binding? id := by
  cases result with
  | error e => rfl
  | ok update =>
    rw [commitUpdate, commit_binding?]
    simp [h update rfl]

/-- A binding that no result is about keeps its text. -/
theorem foldl_commitUpdate_of_ne {id : Nat} : ∀ {results : List (Except MarkupError BindingUpdate)}
    {graph : BindingGraph}, (∀ update, .ok update ∈ results → update.binding ≠ id) →
      (results.foldl commitUpdate graph).binding? id = graph.binding? id
  | [], _, _ => rfl
  | result :: results, graph, h => by
    rw [List.foldl_cons,
      foldl_commitUpdate_of_ne fun update hmem => h update (List.mem_cons_of_mem _ hmem)]
    exact commitUpdate_binding?_of_ne fun update heq => h update (heq ▸ List.mem_cons_self)

/-- A binding has the text of the results about it, if these agree. -/
theorem foldl_commitUpdate_of_mem {id : Nat} (value : String) :
    ∀ {results : List (Except MarkupError BindingUpdate)} {graph : BindingGraph},
      (∀ update, .ok update ∈ results → update.binding = id → update.value = value) →
      (∃ update, .ok update ∈ results ∧ update.binding = id) →
        (results.foldl commitUpdate graph).binding? id =
          (graph.binding? id).map fun b => { b with composed := value }
  | [], _, _, h => by
    obtain ⟨_, hmem, -⟩ := h
    exact absurd hmem List.not_mem_nil
  | result :: results, graph, hvalue, h => by
    rw [List.foldl_cons]
    by_cases hlater : ∃ update, .ok update ∈ results ∧ update.binding = id
    · rw [foldl_commitUpdate_of_mem value
        (fun update hmem => hvalue update (List.mem_cons_of_mem _ hmem)) hlater]
      cases result with
      | error e => rfl
      | ok update =>
        rw [commitUpdate, commit_binding?, Option.map_map]
        refine congrArg (Option.map · _) (funext fun b => ?_)
        by_cases hid : update.binding = id
        · simp [hid]
        · simp [hid]
    · obtain ⟨update, hmem, hid⟩ := h
      rcases List.mem_cons.1 hmem with rfl | hmem
      · rw [foldl_commitUpdate_of_ne fun later hlater' heq => hlater ⟨later, hlater', heq⟩,
          commitUpdate, commit_binding?, hvalue update List.mem_cons_self hid]
        simp [hid]
      · exact absurd ⟨update, hmem, hid⟩ hlater

theorem ok_mem_recompose_value {path : String} {update : BindingUpdate} {b : Binding}
    (h : .ok update ∈ graph.recompose path data) (hb : graph.binding? update.binding = some b) :
    b.template.compose data graph.root = .ok update.value := by
  obtain ⟨b', hb', hone⟩ := ok_mem_recompose h
  obtain rfl := Option.some.inj (hb.symm.trans hb')
  obtain ⟨value, hvalue, heq⟩ := recomposeOne_eq_ok_iff.1 hone
  rw [heq]
  exact hvalue

theorem mem_dependentsOn_of_ok_mem {path : String} {p : Path} (hp : Path.parse path = .ok p)
    {update : BindingUpdate} (h : .ok update ∈ graph.recompose path data) :
    update.binding ∈ graph.dependentsOn (p.relative graph.root) := by
  rw [recompose, dependents_of_parse hp] at h
  obtain ⟨id, hid, hmem⟩ := List.mem_filterMap.1 h
  obtain ⟨b, -, hone⟩ := Option.map_eq_some_iff.1 hmem
  obtain ⟨value, -, rfl⟩ := recomposeOne_eq_ok_iff.1 hone
  exact hid

/-- A binding that a change does not concern, or that does not compose, keeps its
text. -/
theorem invalidate_binding?_of_not {path : String} {p : Path} (hp : Path.parse path = .ok p)
    {id : Nat} {b : Binding} (hb : graph.binding? id = some b)
    (h : id ∉ graph.dependentsOn (p.relative graph.root) ∨
      ∃ e, b.template.compose data graph.root = .error e) :
    (graph.invalidate path data).2.binding? id = some b := by
  rw [invalidate, foldl_commitUpdate_of_ne, hb]
  rintro update hmem rfl
  rcases h with hnot | ⟨e, he⟩
  · exact hnot (mem_dependentsOn_of_ok_mem hp hmem)
  · have hvalue := ok_mem_recompose_value hmem hb
    rw [he] at hvalue
    cases hvalue

/-- A binding that a change concerns and that composes has the new text. -/
theorem invalidate_binding?_of_ok {path : String} {p : Path} (hp : Path.parse path = .ok p)
    {id : Nat} {b : Binding} {value : String} (hb : graph.binding? id = some b)
    (hid : id ∈ graph.dependentsOn (p.relative graph.root))
    (hvalue : b.template.compose data graph.root = .ok value) :
    (graph.invalidate path data).2.binding? id = some { b with composed := value } := by
  have hzip : (id, recomposeOne graph.root data id b) ∈ _ := mem_zip_recompose hp hb hid
  have hresult := List.of_mem_zip hzip
  rw [recomposeOne_eq_ok_iff.2 ⟨value, hvalue, rfl⟩] at hresult
  rw [invalidate, foldl_commitUpdate_of_mem value, hb, Option.map_some]
  · rintro update hmem rfl
    exact Except.ok.inj ((ok_mem_recompose_value hmem hb).symm.trans hvalue)
  · exact ⟨_, hresult.2, rfl⟩

end

end BindingGraph

end ViewMarkup
