/-
# Changes left for later

Any number of holders leave paths with the owner of a document, each in an order
of its own and all of them in whatever order it happens. In between the owner
announces a change of its own or fetches, one after the other, the paths that
were left, and announces them once there are no more; the holders go on while it
fetches. Every path that was left is announced by the next announcement of what
was left, and by no other. Which of the paths come first does not matter for the
document, nor whether one was left more than once.

Key definitions: `Exchange`, `Exchange.Run`, `Exchange.Open`, `Exchange.Takes`,
`Exchange.Awaits`, `Rendered.Drains`.
Key theorems: `Inbox.mem_distinct_iff`, `Rendered.drains`,
`Exchange.run_processPending`, `Exchange.Run.awaits`,
`Exchange.pending_announced_once`.
-/
import ViewMarkup.Proofs.Rendered.Verdict

namespace ViewMarkup

/-! ### Each path once -/

namespace Inbox

theorem mem_addNew_iff {paths : List String} {path other : String} :
    other ∈ addNew paths path ↔ other ∈ paths ∨ other = path := by
  unfold addNew
  by_cases h : path ∈ paths
  · rw [if_pos (List.contains_iff_mem.2 h)]
    constructor
    · exact Or.inl
    · rintro (hother | rfl)
      · exact hother
      · exact h
  · rw [if_neg fun hc => h (List.contains_iff_mem.1 hc), List.mem_append, List.mem_singleton]

theorem nodup_addNew {paths : List String} (h : paths.Nodup) (path : String) :
    (addNew paths path).Nodup := by
  unfold addNew
  by_cases hpath : path ∈ paths
  · rw [if_pos (List.contains_iff_mem.2 hpath)]
    exact h
  · rw [if_neg fun hc => hpath (List.contains_iff_mem.1 hc)]
    refine List.nodup_append.2 ⟨h, by simp, fun a ha b hb hab => hpath ?_⟩
    rwa [← List.mem_singleton.1 hb, ← hab]

theorem mem_foldl_addNew_iff {other : String} : ∀ {paths seen : List String},
    other ∈ paths.foldl addNew seen ↔ other ∈ seen ∨ other ∈ paths
  | [], seen => by simp
  | path :: paths, seen => by
    rw [List.foldl_cons, mem_foldl_addNew_iff, mem_addNew_iff, List.mem_cons, or_assoc]

theorem nodup_foldl_addNew : ∀ {paths seen : List String}, seen.Nodup →
    (paths.foldl addNew seen).Nodup
  | [], _, h => h
  | path :: paths, seen, h => by
    rw [List.foldl_cons]
    exact nodup_foldl_addNew (nodup_addNew h path)

theorem mem_distinct_iff {inbox : Inbox} {path : String} :
    path ∈ inbox.distinct ↔ path ∈ inbox.paths := by
  rw [distinct, mem_foldl_addNew_iff]
  simp

theorem nodup_distinct (inbox : Inbox) : inbox.distinct.Nodup := nodup_foldl_addNew List.nodup_nil

end Inbox

/-! ### What was left -/

namespace Rendered

variable {V S : Type} {look : V → String → Option S} {registry : ViewRegistry V}
  {r r' : Rendered V} {data : DataSource}

/-- What is left for later has no part in what is announced now. -/
theorem Answered.withInbox (hlegible : registry.Legible look) (hr : r.StandsInStep registry)
    {ids : List Nat} (h : Answered look registry r data ids r') (inbox : Inbox) :
    Answered look registry { r with inbox } data ids { r' with inbox } where
  alike := ⟨h.alike.registry, h.alike.ids, h.alike.constraints, h.alike.root, h.alike.edges,
    h.alike.bindings, h.alike.skeleton, h.alike.unbound⟩
  inStep := h.inStep
  inbox := rfl
  told id := by
    have htold := h.told id
    show r'.bindings.binding? id = (r.bindings.binding? id).map _
    rw [htold]
    cases hb : r.bindings.binding? id with
    | none => rfl
    | some b =>
      have halike : Alike look r { r with inbox } := ⟨rfl, rfl, rfl, rfl, rfl, rfl, rfl, fun _ _ => rfl⟩
      have hverdict : ({ r with inbox } : Rendered V).verdict data id b = r.verdict data id b :=
        verdict_eq_of_alike hlegible halike hr hr data hb hb
      simp only [Option.map_some, retold, hverdict]

/-- The document with these paths left, and no others. -/
def queuing (r : Rendered V) (paths : List String) : Rendered V :=
  { r with inbox := { r.inbox with paths } }

/-- To announce what was left is to announce each of the paths once, and leaves
nothing. For the document it comes to the same as to announce the paths as they
were left, one by one, or in any other order. -/
structure Drains (r : Rendered V) (data : DataSource) : Prop where
  once : ∃ paths, paths.Nodup ∧ (∀ path, path ∈ paths ↔ path ∈ r.inbox.paths) ∧
    r.processPending data = { r with inbox := r.inbox.emptied }.invalidateAll data paths
  emptied : (r.processPending data).2.inbox = r.inbox.emptied
  announced : ∀ paths, paths.Perm r.inbox.paths →
    (r.processPending data).2 = { (r.invalidateAll data paths).2 with inbox := r.inbox.emptied }
  reordered : ∀ paths, paths.Perm r.inbox.paths →
    ((r.queuing paths).processPending data).2 = (r.processPending data).2

theorem drains (horderly : registry.Orderly) (hlegible : registry.Legible look)
    (hr : r.StandsInStep registry) (data : DataSource) : r.Drains data := by
  let quiet : Rendered V := { r with inbox := r.inbox.emptied }
  have hquiet : quiet.StandsInStep registry := hr
  have hanswered := invalidateAll_answered horderly hlegible r.inbox.distinct hquiet data
  refine ⟨⟨r.inbox.distinct, r.inbox.nodup_distinct, fun path => Inbox.mem_distinct_iff, rfl⟩,
    hanswered.inbox, fun paths hperm => ?_, fun paths hperm => ?_⟩
  · have hall := (invalidateAll_answered horderly hlegible paths hr data).withInbox hlegible hr
      r.inbox.emptied
    refine hanswered.unique hlegible hall fun id => ?_
    have hmem : ∀ path, path ∈ r.inbox.distinct ↔ path ∈ paths := fun path =>
      Inbox.mem_distinct_iff.trans hperm.mem_iff.symm
    simp only [List.mem_flatMap, hmem]
    rfl
  · refine invalidateAll_eq_of_mem_iff horderly hlegible hquiet (fun path => ?_) data
    rw [Inbox.mem_distinct_iff, Inbox.mem_distinct_iff]
    exact hperm.mem_iff

theorem processPending_queuing (hempty : r.inbox.paths = []) (data : DataSource)
    (paths : List String) :
    (r.queuing paths).processPending data = r.invalidateAll data (paths.foldl Inbox.addNew []) := by
  have hinbox : (r.queuing paths).inbox.emptied = r.inbox := by
    rw [Inbox.emptied, queuing, ← hempty]
  rw [processPending, hinbox]
  rfl

end Rendered

theorem render_inbox {V : Type} {registry : ViewRegistry V} {config : Config} {doc : Document}
    {data : DataSource} {r : Rendered V} (h : render registry config doc data = .ok r) :
    r.inbox = {} := by
  obtain ⟨build, -, h⟩ := bind_eq_ok_iff.1 h
  obtain ⟨constraints, -, h⟩ := bind_eq_ok_iff.1 h
  cases h
  rfl

/-! ### Holders and an owner -/

/-- The owner of a document, the paths that it has fetched to announce them, each
once, and those who leave paths with it, each with the paths it has still to
leave. -/
structure Exchange (V : Type) where
  owner : Rendered V
  fetched : List String
  holders : List (List String)

namespace Exchange

variable {V : Type} {start s t : Exchange V}

/-- What happens: a holder leaves its next path; the owner fetches the first of
the paths that were left, or announces those it has fetched, or a change of its
own. -/
inductive Act where
  | leave (holder : Nat) (path : String)
  | fetch
  | process (data : DataSource)
  | announce (path : String) (data : DataSource)

/-- The owner announces what it has fetched when there is nothing more to fetch,
and nothing else before. -/
inductive Step : Exchange V → Act → Exchange V → Prop
  | leave {r : Rendered V} {fetched : List String} {holders : List (List String)} {holder : Nat}
    {path : String} {rest : List String} (next : holders[holder]? = some (path :: rest)) :
    Step ⟨r, fetched, holders⟩ (.leave holder path)
      ⟨(r.post path).2, fetched, holders.set holder rest⟩
  | fetch {r : Rendered V} {fetched : List String} {holders : List (List String)} {path : String}
    {rest : List String} (next : r.inbox.paths = path :: rest) :
    Step ⟨r, fetched, holders⟩ .fetch ⟨r.queuing rest, Inbox.addNew fetched path, holders⟩
  | process {r : Rendered V} {fetched : List String} {holders : List (List String)}
    (empty : r.inbox.paths = []) (data : DataSource) :
    Step ⟨r, fetched, holders⟩ (.process data) ⟨(r.invalidateAll data fetched).2, [], holders⟩
  | announce (r : Rendered V) (holders : List (List String)) (path : String) (data : DataSource) :
    Step ⟨r, [], holders⟩ (.announce path data) ⟨(r.invalidate path data).2, [], holders⟩

/-- Acts, one after the other, in any order that the steps allow. -/
inductive Run (start : Exchange V) : List Act → Exchange V → Prop
  | nil : Run start [] start
  | snoc {acts : List Act} {act : Act} {s t : Exchange V} (run : Run start acts s)
    (step : Step s act t) : Run start (acts ++ [act]) t

theorem Run.eq_of_nil (h : Run start [] s) : s = start := by
  generalize hacts : ([] : List Act) = acts at h
  cases h with
  | nil => rfl
  | snoc run step => simp at hacts

theorem Run.cons {acts : List Act} {act : Act} (step : Step start act s) (run : Run s acts t) :
    Run start (act :: acts) t := by
  induction run with
  | nil => exact Run.nil.snoc step
  | snoc run last ih => exact ih.snoc last

/-- The paths that are left can be fetched, one after the other. -/
theorem run_fetch (r : Rendered V) (holders : List (List String)) : ∀ paths fetched : List String,
    Run ⟨r.queuing paths, fetched, holders⟩ (List.replicate paths.length .fetch)
      ⟨r.queuing [], paths.foldl Inbox.addNew fetched, holders⟩
  | [], _ => .nil
  | path :: rest, fetched => .cons (.fetch rfl) (run_fetch r holders rest (Inbox.addNew fetched path))

/-- What is announced at a stroke is announced in such steps. -/
theorem run_processPending (r : Rendered V) (holders : List (List String)) (data : DataSource) :
    Run ⟨r, [], holders⟩ (List.replicate r.inbox.paths.length .fetch ++ [.process data])
      ⟨(r.processPending data).2, [], holders⟩ :=
  (run_fetch r holders r.inbox.paths []).snoc (.process rfl data)

/-- A run up to an act, the act, and the rest of the run. -/
theorem Run.split {acts : List Act} (h : Run start acts s) {i : Nat} {act : Act}
    (hi : acts[i]? = some act) : ∃ before after, Run start (acts.take i) before ∧
      Step before act after ∧ Run after (acts.drop (i + 1)) s := by
  induction h with
  | nil => simp at hi
  | @snoc acts last s t run step ih =>
    have hle : i < acts.length ∨ i = acts.length := by
      have hlt := (List.getElem?_eq_some_iff.1 hi).1
      rw [List.length_append, List.length_singleton] at hlt
      omega
    rcases hle with hlt | rfl
    · rw [List.getElem?_append_left hlt] at hi
      obtain ⟨before, after, hbefore, hact, hafter⟩ := ih hi
      rw [List.take_append_of_le_length (Nat.le_of_lt hlt), List.drop_append_of_le_length hlt]
      exact ⟨before, after, hbefore, hact, hafter.snoc step⟩
    · rw [List.getElem?_concat_length] at hi
      obtain rfl := Option.some.inj hi
      rw [List.take_left, List.drop_eq_nil_of_le (by simp)]
      exact ⟨s, t, run, step, .nil⟩

/-! ### What is open -/

/-- At a position a path was left. -/
def Leaves (acts : List Act) (i : Nat) (path : String) : Prop :=
  ∃ holder, acts[i]? = some (.leave holder path)

/-- At a position what was left is announced. -/
def Announces (acts : List Act) (j : Nat) : Prop := ∃ data, acts[j]? = some (.process data)

/-- What was left at a position has not been announced since. -/
def Open (acts : List Act) (i : Nat) : Prop :=
  (∃ path, Leaves acts i path) ∧ ∀ j, i < j → ¬ Announces acts j

/-- What was left at `i` is announced at `j`, where for the first time after `i`
what was left is announced. -/
structure Takes (acts : List Act) (j i : Nat) : Prop where
  left : ∃ path, Leaves acts i path
  later : i < j
  announced : Announces acts j
  first : ∀ m, i < m → m < j → ¬ Announces acts m

variable {acts : List Act} {act : Act} {i j : Nat} {path : String}

theorem getElem?_concat_iff {a : Act} :
    (acts ++ [act])[i]? = some a ↔ acts[i]? = some a ∨ i = acts.length ∧ act = a := by
  rcases Nat.lt_trichotomy i acts.length with hlt | rfl | hgt
  · rw [List.getElem?_append_left hlt]
    simp [Nat.ne_of_lt hlt]
  · simp
  · have hnone : (acts ++ [act])[i]? = none := List.getElem?_eq_none (by simp; omega)
    have hnone' : acts[i]? = none := List.getElem?_eq_none (Nat.le_of_lt hgt)
    simp [hnone, hnone', Nat.ne_of_gt hgt]

theorem leaves_concat_iff : Leaves (acts ++ [act]) i path ↔
    Leaves acts i path ∨ i = acts.length ∧ ∃ holder, act = .leave holder path := by
  simp only [Leaves, getElem?_concat_iff, exists_or, exists_and_left]

theorem announces_concat_iff : Announces (acts ++ [act]) j ↔
    Announces acts j ∨ j = acts.length ∧ ∃ data, act = .process data := by
  simp only [Announces, getElem?_concat_iff, exists_or, exists_and_left]

theorem Leaves.lt (h : Leaves acts i path) : i < acts.length := by
  obtain ⟨holder, hi⟩ := h
  exact (List.getElem?_eq_some_iff.1 hi).1

/-- Once what was left is announced nothing is open. -/
theorem not_open_process (data : DataSource) : ¬ Open (acts ++ [.process data]) i := by
  rintro ⟨⟨path, hleaves⟩, hnone⟩
  have hlt : i < acts.length := by
    rcases leaves_concat_iff.1 hleaves with h | ⟨-, holder, h⟩
    · exact h.lt
    · cases h
  exact hnone acts.length hlt (announces_concat_iff.2 (Or.inr ⟨rfl, data, rfl⟩))

/-- Otherwise what is open stays so, and what is left now is open. -/
theorem open_concat_iff (hact : ∀ data, act ≠ .process data) : Open (acts ++ [act]) i ↔
    Open acts i ∨ i = acts.length ∧ ∃ holder path, act = .leave holder path := by
  have hannounces : ∀ j, Announces (acts ++ [act]) j ↔ Announces acts j := by
    intro j
    rw [announces_concat_iff]
    simp [hact]
  simp only [Open, hannounces, leaves_concat_iff]
  constructor
  · rintro ⟨⟨path, h | ⟨rfl, holder, rfl⟩⟩, hnone⟩
    · exact Or.inl ⟨⟨path, h⟩, hnone⟩
    · exact Or.inr ⟨rfl, holder, path, rfl⟩
  · rintro (⟨⟨path, h⟩, hnone⟩ | ⟨rfl, holder, path, rfl⟩)
    · exact ⟨⟨path, Or.inl h⟩, hnone⟩
    · refine ⟨⟨path, Or.inr ⟨rfl, holder, rfl⟩⟩, fun j hj hannounced => ?_⟩
      obtain ⟨data, hdata⟩ := hannounced
      exact absurd (List.getElem?_eq_some_iff.1 hdata).1 (Nat.not_lt_of_lt hj)

/-- What is taken is what was open until then. -/
theorem takes_iff_open : Takes acts j i ↔ Announces acts j ∧ Open (acts.take j) i := by
  have htake : ∀ {m : Nat} {a : Act}, (acts.take j)[m]? = some a ↔ m < j ∧ acts[m]? = some a := by
    intro m a
    rw [List.getElem?_take]
    by_cases hm : m < j
    · simp [hm]
    · simp [hm]
  simp only [Open, Leaves, Announces, htake, exists_and_left]
  constructor
  · rintro ⟨hleft, hlater, hannounced, hfirst⟩
    exact ⟨hannounced, ⟨hlater, hleft⟩, fun m hm ⟨hmj, h⟩ => hfirst m hm hmj h⟩
  · rintro ⟨hannounced, ⟨hlater, hleft⟩, hnone⟩
    exact ⟨hleft, hlater, hannounced, fun m hm hmj h => hnone m hm ⟨hmj, h⟩⟩

/-- What was left is open still, or is announced once. -/
theorem existsUnique_takes (hleaves : Leaves acts i path) (hopen : ¬ Open acts i) :
    ∃! j, Takes acts j i := by
  have hsome : ∃ j, i < j ∧ Announces acts j := by
    by_contra hnone
    exact hopen ⟨⟨path, hleaves⟩, fun j hj hannounced => hnone ⟨j, hj, hannounced⟩⟩
  classical
  refine ⟨Nat.find hsome, ⟨⟨path, hleaves⟩, (Nat.find_spec hsome).1, (Nat.find_spec hsome).2,
    fun m hm hlt hannounced => Nat.find_min hsome hlt ⟨hm, hannounced⟩⟩, fun j hj => ?_⟩
  rcases Nat.lt_trichotomy j (Nat.find hsome) with hlt | heq | hgt
  · exact absurd ⟨hj.later, hj.announced⟩ (Nat.find_min hsome hlt)
  · exact heq
  · exact absurd (Nat.find_spec hsome).2 (hj.first _ (Nat.find_spec hsome).1 hgt)

/-! ### The queue -/

/-- The queue is the paths left at these positions, in this order. -/
structure Queued (acts : List Act) (positions : List Nat) (paths : List String) : Prop where
  increasing : positions.Pairwise (· < ·)
  left : List.Forall₂ (Leaves acts) positions paths

namespace Queued

theorem nil (acts : List Act) : Queued acts [] [] := ⟨.nil, .nil⟩

theorem weaken {positions : List Nat} {paths : List String} (h : Queued acts positions paths) :
    Queued (acts ++ [act]) positions paths :=
  ⟨h.increasing, h.left.imp fun _ _ hleaves => leaves_concat_iff.2 (Or.inl hleaves)⟩

theorem snoc {positions : List Nat} {paths : List String} (h : Queued acts positions paths)
    (hlt : ∀ i ∈ positions, i < acts.length) (holder : Nat) (path : String) :
    Queued (acts ++ [.leave holder path]) (positions ++ [acts.length]) (paths ++ [path]) := by
  constructor
  · refine List.pairwise_append.2 ⟨h.increasing, List.pairwise_singleton _ _, fun i hi j hj => ?_⟩
    rw [List.mem_singleton.1 hj]
    exact hlt i hi
  · refine List.rel_append h.weaken.left (.cons ?_ .nil)
    exact leaves_concat_iff.2 (Or.inr ⟨rfl, holder, rfl⟩)

theorem of_take {positions : List Nat} {paths : List String}
    (h : Queued (acts.take j) positions paths) : Queued acts positions paths := by
  refine ⟨h.increasing, h.left.imp fun i path hleaves => ?_⟩
  obtain ⟨holder, hi⟩ := hleaves
  rw [List.getElem?_take] at hi
  by_cases hij : i < j
  · rw [if_pos hij] at hi
    exact ⟨holder, hi⟩
  · rw [if_neg hij] at hi
    cases hi

end Queued

/-- The paths that are open are those that were fetched since the last
announcement, and then the queue. -/
structure Awaits (acts : List Act) (s : Exchange V) (gone : List String) (positions : List Nat) :
    Prop where
  isOpen : s.owner.inbox.isOpen = true
  fetched : s.fetched = gone.foldl Inbox.addNew []
  queued : Queued acts positions (gone ++ s.owner.inbox.paths)
  mem_iff : ∀ i, i ∈ positions ↔ Open acts i

section

variable {registry : ViewRegistry V} {S : Type} {look : V → String → Option S}
  (horderly : registry.Orderly) (hlegible : registry.Legible look)
include horderly hlegible

theorem Step.inStep (hs : s.owner.StandsInStep registry) (step : Step s act t) :
    t.owner.StandsInStep registry := by
  cases step with
  | leave next => exact hs
  | fetch next => exact hs
  | @process r fetched holders empty data =>
    exact (Rendered.invalidateAll_answered horderly hlegible fetched hs data).inStep
  | announce r holders path data => exact Rendered.invalidate_inStep horderly path data hs

theorem Awaits.step {gone : List String} {positions : List Nat}
    (h : Awaits acts s gone positions) (hs : s.owner.StandsInStep registry) (step : Step s act t) :
    ∃ gone positions, Awaits (acts ++ [act]) t gone positions := by
  cases step with
  | @leave r fetched holders holder path rest next =>
    have hpost : r.post path = (true, r.queuing (r.inbox.paths ++ [path])) := by
      rw [Rendered.post, Inbox.post, if_pos h.isOpen]
      rfl
    have hlt : ∀ i ∈ positions, i < acts.length := by
      intro i hi
      obtain ⟨⟨path, hleaves⟩, -⟩ := (h.mem_iff i).1 hi
      exact hleaves.lt
    rw [hpost]
    refine ⟨gone, positions ++ [acts.length], h.isOpen, h.fetched, ?_, fun i => ?_⟩
    · have hsnoc := h.queued.snoc hlt holder path
      rwa [List.append_assoc] at hsnoc
    · rw [open_concat_iff (by simp), List.mem_append, h.mem_iff, List.mem_singleton]
      simp
  | @fetch r fetched holders path rest next =>
    refine ⟨gone ++ [path], positions, h.isOpen, ?_, ?_, fun i => ?_⟩
    · rw [List.foldl_append, ← h.fetched]
      rfl
    · have hqueued : Queued (acts ++ [.fetch]) positions (gone ++ r.inbox.paths) :=
        h.queued.weaken
      rw [next] at hqueued
      rwa [List.append_assoc]
    · rw [open_concat_iff (by simp), h.mem_iff]
      simp
  | @process r fetched holders empty data =>
    have hinbox := (Rendered.invalidateAll_answered horderly hlegible fetched hs data).inbox
    refine ⟨[], [], ?_, rfl, ?_, fun i => ?_⟩
    · rw [hinbox]
      exact h.isOpen
    · rw [hinbox, empty]
      exact .nil _
    · simp [not_open_process]
  | announce r holders path data =>
    have hinbox := (Rendered.invalidate_answered horderly hlegible hs path data).inbox
    refine ⟨gone, positions, ?_, h.fetched, ?_, fun i => ?_⟩
    · rw [hinbox]
      exact h.isOpen
    · rw [hinbox]
      exact h.queued.weaken
    · rw [open_concat_iff (by simp), h.mem_iff]
      simp

variable (hstart : start.owner.StandsInStep registry)
include hstart

theorem Run.inStep (h : Run start acts s) : s.owner.StandsInStep registry := by
  induction h with
  | nil => exact hstart
  | snoc run step ih => exact step.inStep horderly hlegible ih

/-- At every moment the inbox is open, and what is open waits for the owner. -/
theorem Run.awaits (hinbox : start.owner.inbox = {}) (hfetched : start.fetched = [])
    (h : Run start acts s) : ∃ gone positions, Awaits acts s gone positions := by
  induction h with
  | nil =>
    refine ⟨[], [], by rw [hinbox], hfetched, ?_, fun i => ?_⟩
    · rw [hinbox]
      exact .nil _
    · simp [Open, Leaves]
  | snoc run step ih =>
    obtain ⟨gone, positions, h⟩ := ih
    exact h.step horderly hlegible (run.inStep horderly hlegible hstart) step

end

/-- **What is left is announced once, in whatever order.** Any number of holders
leave paths with the owner of a document with the standard views, and whatever
happens in whatever order: every path is taken, and it is open until it is
announced the next time that what was left is, and never again. Whenever what was
left is announced, that comes to the same as to announce it at a stroke, from a
queue of the paths that were left since the last time, in the order in which they
were, and this queue is announced in the sense of `Drains`. -/
theorem pending_announced_once {config : Config} {doc : Document} {data₀ : DataSource}
    {r : Rendered StandardView} {holders : List (List String)} {acts : List Act}
    {s : Exchange StandardView} (hdoc : doc.NamesDistinct)
    (hrender : render .standard config doc data₀ = .ok r) (h : Run ⟨r, [], holders⟩ acts s) :
    (∀ i path, Leaves acts i path →
      (∃ before, Run ⟨r, [], holders⟩ (acts.take i) before ∧
        (before.owner.post path).1 = true) ∧
      (¬ Open acts i → ∃! j, Takes acts j i)) ∧
    (∀ j data, acts[j]? = some (.process data) → ∃ before after positions paths,
      Run ⟨r, [], holders⟩ (acts.take j) before ∧ Run after (acts.drop (j + 1)) s ∧
      (∀ i, i ∈ positions ↔ Takes acts j i) ∧ Queued acts positions paths ∧
      after.owner = ((before.owner.queuing paths).processPending data).2 ∧
      (before.owner.queuing paths).Drains data) ∧
    ∃ gone positions, Awaits acts s gone positions := by
  have horderly : ViewRegistry.standard.Orderly := ViewRegistry.standard_orderly
  have hlegible := ViewRegistry.standard_legible
  have hstart := render_inStep horderly hdoc hrender
  have hinbox := render_inbox hrender
  refine ⟨fun i path hleaves => ?_, fun j data hj => ?_,
    h.awaits horderly hlegible hstart hinbox rfl⟩
  · obtain ⟨holder, hi⟩ := hleaves
    obtain ⟨before, after, hbefore, -, -⟩ := h.split hi
    obtain ⟨gone, positions, hawaits⟩ := hbefore.awaits horderly hlegible hstart hinbox rfl
    refine ⟨⟨before, hbefore, ?_⟩, existsUnique_takes ⟨holder, hi⟩⟩
    rw [Rendered.post, Inbox.post, if_pos hawaits.isOpen]
  · obtain ⟨before, after, hbefore, hstep, hafter⟩ := h.split hj
    obtain ⟨gone, positions, hawaits⟩ := hbefore.awaits horderly hlegible hstart hinbox rfl
    have hs := hbefore.inStep horderly hlegible hstart
    cases hstep with
    | @process r fetched holders empty _ =>
      refine ⟨_, _, positions, gone, hbefore, hafter, fun i => ?_, ?_, ?_,
        Rendered.drains (r := r.queuing gone) horderly hlegible hs data⟩
      · rw [hawaits.mem_iff, takes_iff_open]
        simp [Announces, hj]
      · have hqueued := hawaits.queued.of_take
        rwa [empty, List.append_nil] at hqueued
      · rw [Rendered.processPending_queuing empty, ← hawaits.fetched]

/-! ### Two holders -/

/-- Two holders whose paths reach the same bindings in different spellings. -/
def taskHolders : List (List String) := [["task.side", "task.state"], ["object.task", "task.side"]]

/-- The last path is left when the first has been fetched already. -/
def taskActs : List Act :=
  [.leave 0 "task.side", .leave 1 "object.task", .fetch, .leave 0 "task.state", .fetch, .fetch,
    .process (taskData "now" "right")]

def taskFetched : List String := ["task.side", "object.task", "task.state"]

theorem taskActs_run {r : Rendered StandardView} (hinbox : r.inbox = {}) :
    ∃ s, Run ⟨r, [], taskHolders⟩ taskActs s ∧
      s.owner = (r.invalidateAll (taskData "now" "right") taskFetched).2 := by
  have hfetched : taskFetched = Inbox.addNew (Inbox.addNew (Inbox.addNew [] "task.side")
      "object.task") "task.state" := by decide
  have hleft : ∀ {s}, Run ⟨r, taskFetched, [[], ["task.side"]]⟩
      [.process (taskData "now" "right")] s → Run ⟨r, [], taskHolders⟩ taskActs s := by
    intro s hprocess
    obtain ⟨registry, tree, ids, constraints, bindings, inbox⟩ := r
    cases hinbox
    rw [hfetched] at hprocess
    exact .cons (.leave rfl) (.cons (.leave rfl) (.cons (.fetch rfl) (.cons (.leave rfl)
      (.cons (.fetch rfl) (.cons (.fetch rfl) hprocess)))))
  have hempty : r.inbox.paths = [] := by
    rw [hinbox]
  exact ⟨_, hleft (.cons (.process hempty _) .nil), by simp only⟩

theorem taskHolders_announced : ∃ (r : Rendered StandardView) (s : Exchange StandardView),
    render .standard {} taskLabel (taskData "today" "left") = .ok r ∧
    Run ⟨r, [], taskHolders⟩ taskActs s ∧ (∃! j, Takes taskActs j 3) ∧
    (∃ (before : Rendered StandardView) (positions : List Nat) (paths : List String),
      (∀ i, i ∈ positions ↔ Takes taskActs 6 i) ∧ Queued taskActs positions paths ∧
      (before.queuing paths).Drains (taskData "now" "right") ∧
      s.owner = ((before.queuing paths).processPending (taskData "now" "right")).2) ∧
    s.owner.bindings.bindings.map Binding.composed = ["now open", "right"] := by
  have hdoc : taskLabel.NamesDistinct := ⟨⟨by decide, trivial⟩, trivial⟩
  have hrun : ((render .standard {} taskLabel (taskData "today" "left")).map fun r =>
      (r.invalidateAll (taskData "now" "right") taskFetched).2.bindings.bindings.map
        Binding.composed).toOption = some ["now open", "right"] := by decide +kernel
  obtain ⟨r, hr, hcomposed⟩ := map_eq_ok_iff.1 (toOption_eq_some_iff.1 hrun)
  obtain ⟨s, hs, hinvalidated⟩ := taskActs_run (render_inbox hr)
  obtain ⟨hleft, hprocessed, -⟩ := pending_announced_once hdoc hr hs
  obtain ⟨before, after, positions, paths, -, hafter, htakes, hqueued, howner, hdrains⟩ :=
    hprocessed 6 (taskData "now" "right") rfl
  have hclosed : ¬ Open taskActs 3 := fun hopen => hopen.2 6 (by decide) ⟨_, rfl⟩
  refine ⟨r, s, hr, hs, (hleft 3 "task.state" ⟨0, rfl⟩).2 hclosed,
    ⟨before.owner, positions, paths, htakes, hqueued, hdrains, ?_⟩, ?_⟩
  · rw [Run.eq_of_nil hafter, howner]
  · rw [hinvalidated]
    exact hcomposed

end Exchange

end ViewMarkup
