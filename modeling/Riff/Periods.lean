import Riff.Window
import Mathlib.Algebra.Order.BigOperators.Group.List

set_option autoImplicit false

namespace Riff

open Exact

/-- The times of the iterations come in order, the given `begin()` last. -/
def Ordered : List Pair → ℕ → Prop
  | [], _ => True
  | p :: rest, next =>
      p.beginTime ≤ p.endTime ∧ p.endTime ≤ firstBegin rest next ∧ Ordered rest next

/-- From each `begin()` to the one after it. -/
def periods : List Pair → ℕ → List ℕ
  | [], _ => []
  | p :: rest, next => (firstBegin rest next - p.beginTime) :: periods rest next

/-- The elapsed time as the code estimates it: the iteration recorded last stands for its
whole group. -/
def extrapolated : List Group → ℕ → ℕ
  | [], _ => 0
  | g :: rest, next =>
      g.length * (firstBegin (rest.flatMap Group.pairs) next - g.recorded.beginTime) +
        extrapolated rest next

theorem firstBegin_append (first second : List Pair) (next : ℕ) :
    firstBegin (first ++ second) next = firstBegin first (firstBegin second next) := by
  cases first <;> rfl

theorem ordered_append {first second : List Pair} {next : ℕ} :
    Ordered (first ++ second) next ↔
      Ordered first (firstBegin second next) ∧ Ordered second next := by
  induction first with
  | nil => simp [Ordered]
  | cons p rest ih =>
      simp only [List.cons_append, Ordered, ih, firstBegin_append, and_assoc]

theorem periods_append (first second : List Pair) (next : ℕ) :
    periods (first ++ second) next =
      periods first (firstBegin second next) ++ periods second next := by
  induction first with
  | nil => rfl
  | cons p rest ih =>
      simp only [List.cons_append, periods, ih, firstBegin_append]

theorem length_periods (pairs : List Pair) (next : ℕ) :
    (periods pairs next).length = pairs.length := by
  induction pairs with
  | nil => rfl
  | cons p rest ih => rw [periods, List.length_cons, ih, List.length_cons]

/-- The periods make up the time from the first `begin()` on. -/
theorem Ordered.sum_periods {pairs : List Pair} {next : ℕ} (ordered : Ordered pairs next) :
    firstBegin pairs next + (periods pairs next).sum = next := by
  induction pairs with
  | nil => exact Nat.add_zero next
  | cons p rest ih =>
      obtain ⟨ends, begins, later⟩ := ordered
      have total := ih later
      rw [periods, List.sum_cons]
      change p.beginTime + _ = next
      omega

theorem Group.start_eq (g : Group) (next : ℕ) : g.start = firstBegin g.pairs next :=
  (firstBegin_snoc g.skipped g.recorded next).symm

theorem idleOf_cons (g : Group) (rest : List Group) (next : ℕ) :
    idleOf (g :: rest) next =
      g.idle (firstBegin (rest.flatMap Group.pairs) next) + idleOf rest next := by
  cases rest with
  | nil => simp [idleOf, firstBegin]
  | cons h rest =>
      rw [idleOf, List.flatMap_cons, firstBegin_append, ← h.start_eq]

theorem Group.recorded_ordered {g : Group} {next : ℕ} (ordered : Ordered g.pairs next) :
    g.recorded.beginTime ≤ g.recorded.endTime ∧ g.recorded.endTime ≤ next := by
  obtain ⟨_, ends, begins, _⟩ := ordered_append.mp ordered
  exact ⟨ends, begins⟩

/-- Latency and idle time add up to the extrapolated time. -/
theorem latency_add_idleOf {groups : List Group} {next : ℕ}
    (ordered : Ordered (groups.flatMap Group.pairs) next) :
    (groups.map Group.latency).sum + idleOf groups next = extrapolated groups next := by
  induction groups with
  | nil => rfl
  | cons g rest ih =>
      rw [List.flatMap_cons, ordered_append] at ordered
      have total := ih ordered.2
      obtain ⟨ends, begins⟩ := g.recorded_ordered ordered.1
      rw [List.map_cons, List.sum_cons, idleOf_cons, extrapolated, ← total, Group.latency,
        Group.idle, ullSub_of_le _ _ ends, ullSub_of_le _ _ begins]
      have split : firstBegin (rest.flatMap Group.pairs) next - g.recorded.beginTime =
          (g.recorded.endTime - g.recorded.beginTime) +
            (firstBegin (rest.flatMap Group.pairs) next - g.recorded.endTime) := by
        omega
      rw [split, Nat.mul_add]
      omega

/-- The period that stands for its group is one of the window's periods. -/
theorem Group.period_mem (g : Group) (next : ℕ) :
    next - g.recorded.beginTime ∈ periods g.pairs next := by
  rw [Group.pairs, periods_append]
  exact List.mem_append_right _ (.head _)

theorem extrapolated_bounds {groups : List Group} {next : ℕ} {lo hi : ℚ}
    (bounded : ∀ period ∈ periods (groups.flatMap Group.pairs) next, lo ≤ period ∧ period ≤ hi) :
    lo * ((groups.map Group.length).sum : ℕ) ≤ (extrapolated groups next : ℚ) ∧
      (extrapolated groups next : ℚ) ≤ hi * ((groups.map Group.length).sum : ℕ) := by
  induction groups with
  | nil => simp [extrapolated]
  | cons g rest ih =>
      rw [List.flatMap_cons, periods_append] at bounded
      obtain ⟨below, above⟩ := ih fun period member => bounded period (List.mem_append_right _ member)
      obtain ⟨least, greatest⟩ := bounded _ (List.mem_append_left _ (g.period_mem _))
      have length : (0 : ℚ) ≤ g.length := Nat.cast_nonneg _
      simp only [List.map_cons, List.sum_cons, extrapolated, Nat.cast_add, Nat.cast_mul, mul_add]
      constructor
      · have scaled := mul_le_mul_of_nonneg_left least length
        linarith
      · have scaled := mul_le_mul_of_nonneg_left greatest length
        linarith

theorem sum_periods_bounds {pairs : List Pair} {next : ℕ} {lo hi : ℚ}
    (bounded : ∀ period ∈ periods pairs next, lo ≤ period ∧ period ≤ hi) :
    lo * (pairs.length : ℕ) ≤ ((periods pairs next).sum : ℚ) ∧
      ((periods pairs next).sum : ℚ) ≤ hi * (pairs.length : ℕ) := by
  induction pairs with
  | nil => simp [periods]
  | cons p rest ih =>
      rw [periods] at bounded ⊢
      obtain ⟨below, above⟩ := ih fun period member => bounded period (.tail _ member)
      obtain ⟨least, greatest⟩ := bounded _ (.head _)
      rw [List.sum_cons, List.length_cons, Nat.cast_add, Nat.cast_add, Nat.cast_one]
      constructor <;> linarith

/-! The times of the window that an observer notes. -/

/-- The iterations of the window, up to a `begin()` that follows them. -/
def Window.OrderedTo (w : Window) (next : ℕ) : Prop :=
  Ordered w.pairs next ∧ firstBegin w.pairs next = w.start

structure Timed (p : Phase) (last : ℕ) (w : Window) : Prop where
  started : w.start ≤ last
  inside : p = .inside → w.opened ≤ last ∧ w.OrderedTo w.opened
  outside : p = .outside → ∀ next, last ≤ next → w.OrderedTo next

variable {build : Build} {configuration : ApplicationConfiguration}

theorem Timed.fresh (now : ℕ) : Timed .inside now { start := now, opened := now } where
  started := le_rfl
  inside _ := ⟨le_rfl, trivial, rfl⟩
  outside outside := by cases outside

theorem Timed.beginAt {last now : ℕ} {w : Window} (later : last ≤ now)
    (timed : Timed .outside last w) : Timed .inside now { w with opened := now } where
  started := timed.started.trans later
  inside _ := ⟨le_rfl, timed.outside rfl now later⟩
  outside outside := by cases outside

theorem Timed.endAt {last now : ℕ} {w : Window} (length : ℕ) (later : last ≤ now)
    (timed : Timed .inside last w) :
    Timed .outside now { w with pairs := w.pairs ++ [⟨w.opened, now, length⟩] } where
  started := timed.started.trans later
  inside inside := by cases inside
  outside _ next after := by
    obtain ⟨opened, ordered, first⟩ := timed.inside rfl
    refine ⟨ordered_append.mpr ⟨ordered, opened.trans later, after, trivial⟩, ?_⟩
    rw [firstBegin_append]
    exact first

theorem runCaught_timed (build : Build) (configuration : ApplicationConfiguration)
    {calls : List Call} {q : Phase} (phases : phaseAfter calls .outside = some q)
    (ticks : (0 :: times calls).IsChain Ticks) {w : Window}
    (window : windowAfter build configuration calls (ThreadData.initial build) none = some w) :
    Timed q (lastTime calls) w := by
  revert window
  refine @runCaught_invariant build configuration (fun _ => True) Ticks (fun p last past _ => ∀ w,
    windowAfter build configuration past (ThreadData.initial build) none = some w →
      Timed p last w) (ThreadData.initial build) ?_ ?_ ?_ calls q phases
    (fun c _ => by cases c <;> trivial) ticks (fun _ none => by cases none) w
  · intro now last past t reached tick timed w window
    rw [windowAfter_snoc, reached] at window
    cases earlier : windowAfter build configuration past (ThreadData.initial build) none with
    | none =>
        rw [earlier] at window
        cases window
        exact .fresh now
    | some v =>
        rw [earlier] at window
        simp only [observe] at window
        split at window
        · cases window
          exact .fresh now
        · cases window
          exact (timed v earlier).beginAt tick.1
  · intro now weight last past t reached tick _ timed w window
    rw [windowAfter_snoc, reached] at window
    cases earlier : windowAfter build configuration past (ThreadData.initial build) none with
    | none =>
        rw [earlier] at window
        cases window
    | some v =>
        rw [earlier] at window
        cases window
        exact (timed v earlier).endAt t.samplingLength tick.1
  · intro c p last past t u reached step timed w window
    obtain ⟨quiet, _⟩ := step
    rw [windowAfter_snoc] at window
    apply timed w
    rw [← window]
    generalize windowAfter build configuration past (ThreadData.initial build) none = before
    cases c with
    | beginAt now => cases quiet
    | endAt now weight => cases quiet
    | _ => cases before <;> rfl

end Riff
