/-
# Lists without repeats

Dropping neighbours that repeat the one before keeps every member, and of numbers
in order it keeps each once. In general it does not: a member may come again after
another one. Among the first three that are left, one does exactly if the first of
the list does.

Key definitions: `FirstComesAgain`.
Key theorems: `mem_dropRepeats_iff`, `pairwise_lt_dropRepeats`,
`nodup_take_dropRepeats_iff`.
-/
import Mathlib.Data.List.Sort
import ViewMarkup.Text.Order

namespace ViewMarkup

variable {α : Type} {x y : α} {l t : List α}

theorem mem_dropRepeats_iff {α : Type} [DecidableEq α] {a : α} :
    ∀ {l : List α}, a ∈ dropRepeats l ↔ a ∈ l
  | [] => Iff.rfl
  | [x] => Iff.rfl
  | x :: y :: rest => by
    rw [dropRepeats]
    split
    · rename_i hxy
      rw [mem_dropRepeats_iff, hxy]
      simp
    · rw [List.mem_cons, mem_dropRepeats_iff, List.mem_cons (b := x)]

theorem dropRepeats_sublist [DecidableEq α] : ∀ l : List α, (dropRepeats l).Sublist l
  | [] => .slnil
  | [x] => .refl _
  | x :: y :: rest => by
    have ih := dropRepeats_sublist (y :: rest)
    rw [dropRepeats]
    split
    · exact ih.cons x
    · exact ih.cons_cons x

theorem pairwise_lt_dropRepeats : ∀ {l : List Nat}, l.Pairwise (· ≤ ·) →
    (dropRepeats l).Pairwise (· < ·)
  | [], _ => .nil
  | [x], _ => List.pairwise_singleton _ x
  | x :: y :: rest, h => by
    obtain ⟨hx, hrest⟩ := List.pairwise_cons.1 h
    rw [dropRepeats]
    split
    · exact pairwise_lt_dropRepeats hrest
    · rename_i hne
      refine List.pairwise_cons.2 ⟨fun z hz => ?_, pairwise_lt_dropRepeats hrest⟩
      -- what follows is at least the neighbour, and the neighbour is another number
      have hxy : x < y := Nat.lt_of_le_of_ne (hx y List.mem_cons_self) hne
      rcases List.mem_cons.1 (mem_dropRepeats_iff.1 hz) with rfl | hz
      · exact hxy
      · exact Nat.lt_of_lt_of_le hxy ((List.pairwise_cons.1 hrest).1 z hz)

/-! ### Names that come again -/

/-- After the first member and another one, the first comes again. -/
def FirstComesAgain (l : List α) : Prop :=
  ∃ x y i j rest, x ≠ y ∧
    l = List.replicate (i + 1) x ++ (List.replicate (j + 1) y ++ x :: rest)

variable [DecidableEq α]

theorem dropRepeats_map {β : Type} [DecidableEq β] {f : α → β}
    (hf : Function.Injective f) : ∀ l : List α, dropRepeats (l.map f) = (dropRepeats l).map f
  | [] => rfl
  | [x] => rfl
  | x :: y :: rest => by
    have ih := dropRepeats_map hf (y :: rest)
    rw [List.map_cons] at ih
    rw [List.map_cons, List.map_cons, dropRepeats, dropRepeats, ih]
    by_cases hxy : x = y
    · rw [if_pos hxy, if_pos (congrArg f hxy)]
    · rw [if_neg hxy, if_neg fun h => hxy (hf h), List.map_cons]

theorem dropRepeats_replicate_append {rest : List α} (h : rest.head? ≠ some x) : ∀ i : Nat,
    dropRepeats (List.replicate (i + 1) x ++ rest) = x :: dropRepeats rest
  | 0 => by
    cases rest with
    | nil => rfl
    | cons y rest =>
      have hxy : x ≠ y := fun heq => h (congrArg some heq.symm)
      show dropRepeats (x :: y :: rest) = x :: dropRepeats (y :: rest)
      rw [dropRepeats, if_neg hxy]
  | i + 1 => by
    have ih := dropRepeats_replicate_append h i
    rw [List.replicate_succ, List.cons_append] at ih
    rw [List.replicate_succ, List.replicate_succ, List.cons_append, List.cons_append, dropRepeats,
      if_pos rfl, ih]

theorem exists_of_dropRepeats_eq_cons : ∀ {l : List α}, dropRepeats l = x :: t →
    ∃ i rest, l = List.replicate (i + 1) x ++ rest ∧ rest.head? ≠ some x ∧ dropRepeats rest = t
  | [a], h => by
    cases h
    exact ⟨0, [], rfl, nofun, rfl⟩
  | a :: b :: l, h => by
    rw [dropRepeats] at h
    by_cases hab : a = b
    · rw [if_pos hab] at h
      obtain ⟨i, rest, hl, hhead, ht⟩ := exists_of_dropRepeats_eq_cons h
      obtain rfl : b = x := (List.cons.inj hl).1
      exact ⟨i + 1, rest, by rw [hl, hab]; rfl, hhead, ht⟩
    · rw [if_neg hab] at h
      cases h
      exact ⟨0, b :: l, rfl, fun heq => hab (Option.some.inj heq).symm, rfl⟩

theorem exists_dropRepeats_cons (x : α) : ∀ rest : List α, ∃ t, dropRepeats (x :: rest) = x :: t
  | [] => ⟨[], rfl⟩
  | y :: rest => by
    obtain ⟨t, ht⟩ := exists_dropRepeats_cons y rest
    rw [dropRepeats]
    by_cases hxy : x = y
    · exact ⟨t, by rw [if_pos hxy, ht, hxy]⟩
    · exact ⟨_, if_neg hxy⟩

/-- What is left has no neighbours that are the same. -/
theorem ne_of_dropRepeats_eq (h : dropRepeats l = x :: y :: t) : x ≠ y := by
  obtain ⟨i, rest, -, hhead, hrest⟩ := exists_of_dropRepeats_eq_cons h
  obtain ⟨j, rest', rfl, -, -⟩ := exists_of_dropRepeats_eq_cons hrest
  rintro rfl
  exact hhead rfl

theorem firstComesAgain_iff : FirstComesAgain l ↔ ∃ x y t, dropRepeats l = x :: y :: x :: t := by
  constructor
  · rintro ⟨x, y, i, j, rest, hxy, rfl⟩
    obtain ⟨t, ht⟩ := exists_dropRepeats_cons x rest
    have hx : (List.replicate (j + 1) y ++ x :: rest).head? ≠ some x := by
      simp [List.replicate_succ, Ne.symm hxy]
    have hy : (x :: rest).head? ≠ some y := by simp [hxy]
    exact ⟨x, y, t, by rw [dropRepeats_replicate_append hx, dropRepeats_replicate_append hy, ht]⟩
  · rintro ⟨x, y, t, h⟩
    obtain ⟨i, rest, rfl, -, hrest⟩ := exists_of_dropRepeats_eq_cons h
    obtain ⟨j, rest, rfl, -, hrest'⟩ := exists_of_dropRepeats_eq_cons hrest
    obtain ⟨k, rest, rfl, -, -⟩ := exists_of_dropRepeats_eq_cons hrest'
    exact ⟨x, y, i, j, List.replicate k x ++ rest, ne_of_dropRepeats_eq h, rfl⟩

/-- **Of the first three left, one comes again exactly if the first of all does.** -/
theorem nodup_take_dropRepeats_iff : ((dropRepeats l).take 3).Nodup ↔ ¬ FirstComesAgain l := by
  rw [firstComesAgain_iff]
  cases hl : dropRepeats l with
  | nil => simp
  | cons x t =>
    obtain ⟨i, rest, -, -, hrest⟩ := exists_of_dropRepeats_eq_cons hl
    match t with
    | [] => simp
    | [y] => simp [ne_of_dropRepeats_eq hl]
    | y :: z :: t => simp [ne_of_dropRepeats_eq hl, ne_of_dropRepeats_eq hrest, eq_comm]

end ViewMarkup
