/-
# Lists of outcomes

A list of steps succeeds exactly when each of them does, and then each has a
result of its own; it fails with the error of the first that fails. Steps that hand on a
state fail at the first one that cannot go on from where the others have come;
what each of them preserves, they preserve together. What can be said of the
errors of all steps can be said of the error of the whole.

Key definitions: `FailsWith`.
Key theorems: `mapM_eq_ok_iff`, `mapM_eq_error_iff`, `exists_mem_zip`,
`exists_step_of_foldlM_error`, `foldlM_preserves`, `FailsWith.bind`.
-/
import Mathlib.Data.List.Forall2
import ViewMarkup.Outcome

namespace ViewMarkup

/-- A list of steps succeeds exactly when each of them does. -/
theorem mapM_eq_ok_iff {ε α β : Type} {f : α → Except ε β} : ∀ {xs : List α} {ys : List β},
    xs.mapM f = .ok ys ↔ List.Forall₂ (fun x y => f x = .ok y) xs ys
  | [], ys => by
    rw [List.mapM_nil, pure_eq_ok_iff, List.forall₂_nil_left_iff]
    exact eq_comm
  | x :: xs, ys => by
    rw [List.mapM_cons, List.forall₂_cons_left_iff]
    simp only [bind_eq_ok_iff, pure_eq_ok_iff, mapM_eq_ok_iff]
    constructor
    · rintro ⟨y, hy, rest, hrest, rfl⟩
      exact ⟨y, rest, hy, hrest, rfl⟩
    · rintro ⟨y, rest, hy, hrest, rfl⟩
      exact ⟨y, hy, rest, hrest, rfl⟩

/-- A list of steps fails exactly with the error of the first that fails. -/
theorem mapM_eq_error_iff {ε α β : Type} {f : α → Except ε β} {e : ε} : ∀ {xs : List α},
    xs.mapM f = .error e ↔ ∃ before x after, xs = before ++ x :: after ∧
      (∀ y ∈ before, ∃ z, f y = .ok z) ∧ f x = .error e
  | [] => by
    constructor
    · nofun
    · rintro ⟨before, x, after, heq, -⟩
      cases before <;> cases heq
  | x :: xs => by
    rw [List.mapM_cons]
    simp only [bind_eq_error_iff, mapM_eq_error_iff]
    constructor
    · rintro (h | ⟨y, hy, ⟨before, x', after, rfl, hbefore, h⟩ | ⟨ys, -, h⟩⟩)
      · exact ⟨[], x, xs, rfl, nofun, h⟩
      · exact ⟨x :: before, x', after, rfl, List.forall_mem_cons.2 ⟨⟨y, hy⟩, hbefore⟩, h⟩
      · cases h
    · rintro ⟨before, x', after, heq, hbefore, h⟩
      cases before with
      | nil =>
        cases heq
        exact .inl h
      | cons b before =>
        cases heq
        obtain ⟨⟨y, hy⟩, hbefore⟩ := List.forall_mem_cons.1 hbefore
        exact .inr ⟨y, hy, .inl ⟨before, x', after, rfl, hbefore, h⟩⟩

/-- A list of steps fails with the error of one of them. -/
theorem exists_error_of_mapM {ε α β : Type} {f : α → Except ε β} {e : ε} {xs : List α}
    (h : xs.mapM f = .error e) : ∃ x ∈ xs, f x = .error e := by
  obtain ⟨before, x, after, rfl, -, hx⟩ := mapM_eq_error_iff.1 h
  exact ⟨x, List.mem_append_right _ List.mem_cons_self, hx⟩

/-- Steps from a state to the next that fail do so at one of them: up to there
all succeed, and from there on all fail in the same way. -/
theorem exists_step_of_foldlM_error {ε σ α : Type} {f : σ → α → Except ε σ} {e : ε} :
    ∀ {xs : List α} {s : σ}, xs.foldlM f s = .error e →
      ∃ k x t, xs[k]? = some x ∧ f t x = .error e ∧
        (∀ j ≤ k, ∃ t, (xs.take j).foldlM f s = .ok t) ∧
        ∀ j, k < j → (xs.take j).foldlM f s = .error e
  | [], _, h => by cases h
  | x :: xs, s, h => by
    rw [List.foldlM_cons, bind_eq_error_iff] at h
    rcases h with h | ⟨next, hnext, h⟩
    · refine ⟨0, x, s, rfl, h, fun j hj => ?_, fun j hj => ?_⟩
      · obtain rfl := Nat.le_zero.1 hj
        exact ⟨s, rfl⟩
      · obtain ⟨i, rfl⟩ := Nat.exists_eq_succ_of_ne_zero (Nat.ne_of_gt hj)
        rw [List.take_succ_cons, List.foldlM_cons, h]
        rfl
    · obtain ⟨k, y, t, hk, hy, hbefore, hafter⟩ := exists_step_of_foldlM_error h
      have hshift : ∀ j, ((x :: xs).take (j + 1)).foldlM f s = (xs.take j).foldlM f next := by
        intro j
        rw [List.take_succ_cons, List.foldlM_cons, hnext]
        rfl
      refine ⟨k + 1, y, t, hk, hy, fun j hj => ?_, fun j hj => ?_⟩
      · cases j with
        | zero => exact ⟨s, rfl⟩
        | succ j =>
          rw [hshift]
          exact hbefore j (Nat.le_of_succ_le_succ hj)
      · cases j with
        | zero => exact absurd hj (Nat.not_lt_zero _)
        | succ j =>
          rw [hshift]
          exact hafter j (Nat.lt_of_succ_lt_succ hj)

/-- What every step preserves holds in the end. -/
theorem foldlM_preserves {ε σ α : Type} {f : σ → α → Except ε σ} {P : σ → Prop} :
    ∀ {xs : List α} {s s' : σ}, (∀ x ∈ xs, ∀ {t t'}, P t → f t x = .ok t' → P t') → P s →
      xs.foldlM f s = .ok s' → P s'
  | [], _, _, _, hs, h => by
    cases h
    exact hs
  | x :: xs, _, _, hstep, hs, h => by
    rw [List.foldlM_cons] at h
    obtain ⟨next, hnext, h⟩ := bind_eq_ok_iff.1 h
    exact foldlM_preserves (fun x hx => hstep x (List.mem_cons_of_mem _ hx))
      (hstep x List.mem_cons_self hs hnext) h

/-- Where two lists correspond, each member of the one has its own in the other. -/
theorem exists_mem_zip {α β : Type} {R : α → β → Prop} : ∀ {xs : List α} {ys : List β},
    List.Forall₂ R xs ys → ∀ {x}, x ∈ xs → ∃ y, (x, y) ∈ xs.zip ys ∧ R x y
  | _, _, .nil, _, hx => absurd hx List.not_mem_nil
  | x :: xs, y :: ys, .cons hxy h, x', hx => by
    rw [List.zip_cons_cons]
    rcases List.mem_cons.1 hx with rfl | hx
    · exact ⟨y, List.mem_cons_self, hxy⟩
    · obtain ⟨y', hmem, hR⟩ := exists_mem_zip h hx
      exact ⟨y', List.mem_cons_of_mem _ hmem, hR⟩

/-! ### What all errors have in common -/

/-- Whatever error the outcome is, it is one of these. -/
def FailsWith {ε α : Type} (P : ε → Prop) (r : Except ε α) : Prop := ∀ e, r = .error e → P e

namespace FailsWith

variable {ε α β σ : Type} {P : ε → Prop}

theorem ok (a : α) : FailsWith P (.ok a) := nofun

theorem error {e : ε} (h : P e) : FailsWith P (.error e : Except ε α) := by
  intro e' heq
  cases heq
  exact h

theorem bind {x : Except ε α} {f : α → Except ε β} (hx : FailsWith P x)
    (hf : ∀ a, FailsWith P (f a)) : FailsWith P (x >>= f) := by
  intro e he
  rcases bind_eq_error_iff.1 he with he | ⟨a, -, he⟩
  · exact hx e he
  · exact hf a e he

theorem map {x : Except ε α} (hx : FailsWith P x) (f : α → β) : FailsWith P (x.map f) :=
  fun e he => hx e (map_eq_error_iff.1 he)

theorem mapM {f : α → Except ε β} {xs : List α} (hf : ∀ x ∈ xs, FailsWith P (f x)) :
    FailsWith P (xs.mapM f) := by
  intro e he
  obtain ⟨x, hx, he⟩ := exists_error_of_mapM he
  exact hf x hx e he

theorem foldlM {f : σ → α → Except ε σ} {xs : List α} (hf : ∀ x ∈ xs, ∀ s, FailsWith P (f s x))
    (s : σ) : FailsWith P (xs.foldlM f s) := by
  intro e he
  obtain ⟨k, x, t, hk, hx, -⟩ := exists_step_of_foldlM_error he
  exact hf x (List.mem_of_getElem? hk) t e hx

end FailsWith

end ViewMarkup
