import Riff.Lib.Transition
import Mathlib.Order.WellFounded

set_option autoImplicit false

namespace Transition.Machine

variable {π σ α : Type*} (m : Machine π σ)

/-- The infinite run in which party `turn k` has turn `k`. A party without a move passes. -/
def run (turn : ℕ → π) : ℕ → σ
  | 0 => m.start
  | k + 1 => (m.move (turn k) (run turn k)).getD (run turn k)

/-- Every party has another turn, however late it is. -/
def Fair (turn : ℕ → π) : Prop := ∀ p k, ∃ l, k ≤ l ∧ turn l = p

/-- In every state short of the goal there is a party whose next turn brings the goal
nearer, whatever the other parties do until then. -/
structure Progress [LT α] (Goal : σ → Prop) (rank : σ → α) (helper : σ → π) : Prop where
  keeps : ∀ s t p, m.system.Reachable s → ¬ Goal s → m.move p s = some t →
    rank t < rank s ∨ rank t = rank s ∧ helper t = helper s
  helps : ∀ s, m.system.Reachable s → ¬ Goal s → ∃ t, m.move (helper s) s = some t ∧
    rank t < rank s

variable {m} {turn : ℕ → π}

theorem run_succ_of_move {k : ℕ} {t : σ} (moved : m.move (turn k) (m.run turn k) = some t) :
    m.run turn (k + 1) = t := by
  rw [run, moved]
  rfl

theorem run_succ_of_pass {k : ℕ} (passes : m.move (turn k) (m.run turn k) = none) :
    m.run turn (k + 1) = m.run turn k := by
  rw [run, passes]
  rfl

theorem run_reachable (turn : ℕ → π) (k : ℕ) : m.system.Reachable (m.run turn k) := by
  induction k with
  | zero => exact .start
  | succ k ih =>
      cases moved : m.move (turn k) (m.run turn k) with
      | none =>
          rw [run_succ_of_pass moved]
          exact ih
      | some t =>
          rw [run_succ_of_move moved]
          exact ih.tail ⟨turn k, moved⟩

/-- Nothing happens once no party has a move. -/
theorem run_of_stuck {k : ℕ} (stuck : m.Stuck (m.run turn k)) {l : ℕ} (later : k ≤ l) :
    m.run turn l = m.run turn k := by
  induction l, later using Nat.le_induction with
  | base => rfl
  | succ l later ih =>
      rw [run_succ_of_pass, ih]
      rw [ih]
      exact stuck (turn l)

section Progress

variable [Preorder α] {Goal : σ → Prop} {rank : σ → α} {helper : σ → π}

/-- Up to the helper's turn, the rank has gone down or nothing has changed for the helper. -/
theorem Progress.until (progress : m.Progress Goal rank helper)
    (never : ∀ k, ¬ Goal (m.run turn k)) {k l : ℕ} (later : k ≤ l) :
    (∃ j, rank (m.run turn j) < rank (m.run turn k)) ∨
      rank (m.run turn l) = rank (m.run turn k) ∧
        helper (m.run turn l) = helper (m.run turn k) := by
  induction l, later using Nat.le_induction with
  | base => exact .inr ⟨rfl, rfl⟩
  | succ l later ih =>
      rcases ih with lower | ⟨rank_eq, helper_eq⟩
      · exact .inl lower
      · cases moved : m.move (turn l) (m.run turn l) with
        | none =>
            rw [run_succ_of_pass moved]
            exact .inr ⟨rank_eq, helper_eq⟩
        | some t =>
            have reachable := run_reachable (m := m) turn l
            rcases progress.keeps _ t _ reachable (never l) moved with lower | ⟨same, still⟩
            · refine .inl ⟨l + 1, ?_⟩
              rw [run_succ_of_move moved, ← rank_eq]
              exact lower
            · rw [run_succ_of_move moved]
              exact .inr ⟨same.trans rank_eq, still.trans helper_eq⟩

/-- The rule for termination: every fair run reaches the goal. -/
theorem Progress.eventually [WellFoundedLT α] (progress : m.Progress Goal rank helper)
    (fair : Fair turn) : ∃ k, Goal (m.run turn k) := by
  by_contra none
  have never : ∀ k, ¬ Goal (m.run turn k) := not_exists.mp none
  -- The rank of a state that the run reaches would go down for ever.
  have falls : ∀ r k, rank (m.run turn k) = r → False := by
    intro r
    induction r using WellFoundedLT.induction with
    | ind r ih =>
        intro k here
        obtain ⟨l, later, mine⟩ := fair (helper (m.run turn k)) k
        have descends : ∃ j, rank (m.run turn j) < rank (m.run turn k) := by
          rcases progress.until never later with lower | ⟨rank_eq, helper_eq⟩
          · exact lower
          · obtain ⟨t, moved, lower⟩ := progress.helps _ (run_reachable turn l) (never l)
            rw [helper_eq, ← mine] at moved
            refine ⟨l + 1, ?_⟩
            rw [run_succ_of_move moved, ← rank_eq]
            exact lower
        obtain ⟨j, lower⟩ := descends
        exact ih _ (here ▸ lower) j rfl
  exact falls _ 0 rfl

end Progress

end Transition.Machine
