/-
# What is suggested for a mistyped name

The candidates are ranked by their distance from the target, those at the same
distance in their own order; neighbours that are the same name are taken together,
and the first three are suggested. So each suggestion is a candidate near enough, they
come closest first, and who is left out is no closer than any of three that are not.

A candidate that comes again after another one at the same distance is no neighbour
of its first mention, and is ranked twice. Among the first three that happens exactly
if it happens to the closest candidate (`similarNames_distinct_iff`).

Key definitions: `IsNear`, `closest`, `FirstComesAgain`, `ranked`.
Key theorems: `similarNames_eq`, `ranked_eq_append`, `nodup_take_dropRepeats_iff`,
`similarNames_distinct_iff`.
-/
import ViewMarkup.Constraint.Resolve
import ViewMarkup.Proofs.Text.Order
import ViewMarkup.Text.Distance

namespace ViewMarkup

/-- A name near enough to be suggested: another one than the target, within the
limit, and with something in common with the target. -/
def IsNear (target : String) (limit : Nat) (name : String) : Prop :=
  1 ≤ editDistance name target ∧ editDistance name target ≤ limit ∧
    editDistance name target < target.length

instance (target : String) (limit : Nat) : DecidablePred (IsNear target limit) := fun _ =>
  inferInstanceAs (Decidable (_ ∧ _))

section

variable (candidates : List String) (target : String) (limit : Nat)

/-- The candidates that are near enough and that no other such is closer than. -/
def closest : List String :=
  candidates.filter fun name => IsNear target limit name ∧ ∀ other ∈ candidates,
    IsNear target limit other → editDistance name target ≤ editDistance other target

/-- The candidates near enough, closest first and otherwise in their order. -/
def ranked : List String :=
  (List.range limit).flatMap fun d =>
    candidates.filter fun name => editDistance name target = d + 1 && d + 1 < target.length

end

variable {candidates : List String} {target name : String} {limit : Nat}

/-! ### Ranked candidates -/

theorem similarNames_eq (candidates : List String) (target : String) (limit : Nat) :
    similarNames candidates target limit =
      (dropRepeats (ranked candidates target limit)).take suggestionLimit := by
  have hscored : Function.Injective fun name => (name, editDistance name target) :=
    fun _ _ h => (Prod.mk.inj h).1
  have hnear : ((List.range limit).flatMap fun d =>
      (candidates.map fun name => (name, editDistance name target)).filter fun s =>
        s.2 = d + 1 && d + 1 < target.length) =
      (ranked candidates target limit).map fun name => (name, editDistance name target) := by
    simp only [ranked, List.map_flatMap, List.filter_map]
    rfl
  unfold similarNames
  dsimp only
  rw [hnear, dropRepeats_map hscored, List.map_map]
  exact congrArg _ (List.map_id _)

theorem mem_ranked_iff :
    name ∈ ranked candidates target limit ↔ name ∈ candidates ∧ IsNear target limit name := by
  simp only [ranked, List.mem_flatMap, List.mem_range, List.mem_filter, Bool.and_eq_true,
    decide_eq_true_eq, IsNear]
  constructor
  · rintro ⟨d, hd, hname, hdistance, hlength⟩
    exact ⟨hname, by omega⟩
  · rintro ⟨hname, hnear⟩
    exact ⟨editDistance name target - 1, by omega, hname, by omega, by omega⟩

theorem pairwise_ranked (candidates : List String) (target : String) (limit : Nat) :
    (ranked candidates target limit).Pairwise fun a b =>
      editDistance a target ≤ editDistance b target := by
  refine List.pairwise_flatMap.2 ⟨fun d _ => ?_, ?_⟩
  · refine List.pairwise_of_forall_mem_list fun a ha b hb => ?_
    simp only [List.mem_filter, Bool.and_eq_true, decide_eq_true_eq] at ha hb
    omega
  · refine List.pairwise_lt_range.imp fun hde a ha b hb => ?_
    simp only [List.mem_filter, Bool.and_eq_true, decide_eq_true_eq] at ha hb
    omega

theorem mem_closest_iff : name ∈ closest candidates target limit ↔
    name ∈ ranked candidates target limit ∧ ∀ other ∈ ranked candidates target limit,
      editDistance name target ≤ editDistance other target := by
  simp only [closest, List.mem_filter, decide_eq_true_eq, mem_ranked_iff, and_imp, and_assoc]

/-- The closest candidates are ranked first. -/
theorem ranked_eq_append (candidates : List String) (target : String) (limit : Nat) :
    ∃ farther, ranked candidates target limit = closest candidates target limit ++ farther ∧
      ∀ name ∈ closest candidates target limit, name ∉ farther := by
  by_cases hnone : closest candidates target limit = []
  · exact ⟨_, by rw [hnone]; rfl, by simp [hnone]⟩
  · obtain ⟨name, hname⟩ := List.exists_mem_of_ne_nil _ hnone
    obtain ⟨hranked, hleast⟩ := mem_closest_iff.1 hname
    obtain ⟨-, hpos, hlimit, hlength⟩ := mem_ranked_iff.1 hranked
    obtain ⟨d, hd⟩ : ∃ d, editDistance name target = d + 1 := ⟨_, (Nat.sub_add_cancel hpos).symm⟩
    obtain ⟨k, rfl⟩ : ∃ k, limit = d + (k + 1) := ⟨limit - (d + 1), by omega⟩
    let row (e : Nat) : List String :=
      candidates.filter fun name => editDistance name target = e + 1 && e + 1 < target.length
    have hbefore : (List.range d).flatMap row = [] := by
      refine List.flatMap_eq_nil_iff.2 fun e he => List.filter_eq_nil_iff.2 fun other hother => ?_
      rw [List.mem_range] at he
      simp only [Bool.and_eq_true, decide_eq_true_eq, not_and]
      intro hdistance hshort
      have hle := hleast other (mem_ranked_iff.2 ⟨hother, by omega, by omega, by omega⟩)
      omega
    have hrow : row d = closest candidates target (d + (k + 1)) := by
      refine List.filter_congr fun other hother => ?_
      rw [Bool.eq_iff_iff]
      simp only [Bool.and_eq_true, decide_eq_true_eq]
      constructor
      · rintro ⟨hdistance, hshort⟩
        refine ⟨⟨by omega, by omega, by omega⟩, fun third hthird hnear => ?_⟩
        have hle := hleast third (mem_ranked_iff.2 ⟨hthird, hnear⟩)
        omega
      · rintro ⟨hnear, hleast'⟩
        have hle := hleast other (mem_ranked_iff.2 ⟨hother, hnear⟩)
        have hge := hleast' name (mem_ranked_iff.1 hranked).1 (mem_ranked_iff.1 hranked).2
        omega
    refine ⟨((List.range k).map fun e => d + (e + 1)).flatMap row, ?_, fun other hclosest => ?_⟩
    · have hrange : List.range (d + (k + 1)) =
          List.range d ++ d :: (List.range k).map fun e => d + (e + 1) := by
        rw [List.range_add, List.range_succ_eq_map, List.map_cons, List.map_map]
        rfl
      show (List.range (d + (k + 1))).flatMap row = _
      rw [hrange, List.flatMap_append, List.flatMap_cons, hbefore, hrow, List.nil_append]
    · intro hfarther
      have hle := (mem_closest_iff.1 hclosest).2 name hranked
      simp only [List.mem_flatMap, List.mem_map, List.mem_range] at hfarther
      obtain ⟨e, ⟨f, -, rfl⟩, hother⟩ := hfarther
      have hdistance := (List.mem_filter.1 hother).2
      simp only [Bool.and_eq_true, decide_eq_true_eq] at hdistance
      omega

/-- The closest candidates decide whether the first one comes again. -/
theorem firstComesAgain_ranked_iff : FirstComesAgain (ranked candidates target limit) ↔
    FirstComesAgain (closest candidates target limit) := by
  obtain ⟨farther, heq, hapart⟩ := ranked_eq_append candidates target limit
  rw [heq]
  constructor
  · rintro ⟨x, y, i, j, rest, hxy, hsplit⟩
    have hsorted := pairwise_ranked candidates target limit
    rw [heq, hsplit, List.replicate_succ, List.cons_append, List.pairwise_cons] at hsorted
    have hx : x ∈ closest candidates target limit := by
      rw [mem_closest_iff, heq, hsplit, List.replicate_succ, List.cons_append]
      exact ⟨List.mem_cons_self, List.forall_mem_cons.2 ⟨le_rfl, hsorted.1⟩⟩
    rw [← List.append_assoc, List.append_eq_append_iff] at hsplit
    rcases hsplit with ⟨between, -, hfarther⟩ | ⟨between, hclosest, hrest⟩
    · exact absurd (by simp [hfarther]) (hapart x hx)
    · cases between with
      | nil =>
        rw [List.nil_append] at hrest
        exact absurd (by simp [← hrest]) (hapart x hx)
      | cons z between =>
        obtain ⟨rfl, -⟩ := List.cons.inj hrest
        exact ⟨x, y, i, j, between, hxy, by rw [hclosest, List.append_assoc]⟩
  · rintro ⟨x, y, i, j, rest, hxy, hclosest⟩
    refine ⟨x, y, i, j, rest ++ farther, hxy, ?_⟩
    simp [hclosest]

/-! ### Suggestions -/

/-- **Suggestions are near, closest first, and none closer is left out; no name comes
twice unless the closest one does.** At most three names are suggested. Each is a
candidate near enough, and they stand in order of their distance. If a candidate near
enough is left out, there are three, and none is farther from the target. No name is
suggested twice, except where among the candidates at the least distance the first
comes again after another one. -/
theorem similarNames_distinct_iff (candidates : List String) (target : String) (limit : Nat) :
    let names := similarNames candidates target limit
    names.length ≤ 3 ∧
      (∀ name ∈ names, name ∈ candidates ∧ IsNear target limit name) ∧
      names.Pairwise (fun a b => editDistance a target ≤ editDistance b target) ∧
      (∀ name ∈ candidates, IsNear target limit name → name ∉ names →
        names.length = 3 ∧ ∀ other ∈ names, editDistance other target ≤ editDistance name target) ∧
      (names.Nodup ↔ ¬ FirstComesAgain (closest candidates target limit)) := by
  dsimp only
  rw [similarNames_eq]
  have hsorted : (dropRepeats (ranked candidates target limit)).Pairwise fun a b =>
      editDistance a target ≤ editDistance b target :=
    (pairwise_ranked candidates target limit).sublist (dropRepeats_sublist _)
  refine ⟨List.length_take_le _ _, fun name hname => ?_, hsorted.take, ?_, ?_⟩
  · exact mem_ranked_iff.1 (mem_dropRepeats_iff.1 (List.mem_of_mem_take hname))
  · intro name hname hnear hout
    have hmem := mem_dropRepeats_iff.2 (mem_ranked_iff.2 ⟨hname, hnear⟩)
    rw [← List.take_append_drop suggestionLimit (dropRepeats _)] at hmem hsorted
    have hdrop := (List.mem_append.1 hmem).resolve_left hout
    have hlength := List.length_pos_of_mem hdrop
    rw [List.length_drop] at hlength
    refine ⟨?_, fun other hother => ?_⟩
    · rw [List.length_take]
      exact Nat.min_eq_left (Nat.lt_of_sub_pos hlength).le
    · exact (List.pairwise_append.1 hsorted).2.2 other hother name hdrop
  · rw [← firstComesAgain_ranked_iff]
    exact nodup_take_dropRepeats_iff

/-! ### A metric and a view of one name -/

/-- Two views, of which the second shares its name with a metric. -/
def sharedNameIds : IdTable :=
  ⟨[("ab1", ⟨⟨1⟩, ⟨0⟩, "@layout[0]"⟩), ("ab2", ⟨⟨2⟩, ⟨0⟩, "@layout[1]"⟩)]⟩

def sharedNameSpec : ConstraintSpec := ⟨"[ab1(ab3)]", [], [("ab2", 5)]⟩

/-- Metrics come before views among the candidates, so the shared name is suggested
before the other view and after it. -/
theorem sharedName_suggested_twice :
    similarNames ["ab2", "ab1", "ab2"] "ab3" 2 = ["ab2", "ab1", "ab2"] ∧
      resolve sharedNameSpec sharedNameIds .standard = .error
        ((MarkupError.ofFormat "[ab1(ab3)]" ⟨5, 8⟩ "'ab3' is neither a metric nor a view").suggesting
          ["ab2", "ab1", "ab2"]) ∧
      ¬ (similarNames ["ab2", "ab1", "ab2"] "ab3" 2).Nodup := by
  have hnames : similarNames ["ab2", "ab1", "ab2"] "ab3" 2 = ["ab2", "ab1", "ab2"] := by
    decide +kernel
  refine ⟨hnames, by decide +kernel, ?_⟩
  rw [hnames]
  decide

end ViewMarkup
