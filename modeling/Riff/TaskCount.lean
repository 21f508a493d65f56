import Riff.Application
import Riff.Cycle

set_option autoImplicit false

namespace Riff

open Exact

def Call.isEnd : Call → Bool
  | .endAt _ _ => true
  | _ => false

/-- The number of `end()` calls. -/
def endCalls (calls : List Call) : ℕ := calls.countP Call.isEnd

@[simp] theorem endCalls_snoc (calls : List Call) (c : Call) :
    endCalls (calls ++ [c]) = endCalls calls + if c.isEnd then 1 else 0 := by
  simp [endCalls, List.countP_append, List.countP_cons]

variable {build : Build} {configuration : ApplicationConfiguration}

/-- Each iteration outstanding will be credited with the weight of an `end()`. -/
structure Counted (weight : ℕ) (p : Phase) (past : List Call) (t : ThreadData) : Prop where
  cycle : Cycle t
  count : t.totalTasks + weight * outstanding p t = weight * p.begun (endCalls past)

variable {weight : ℕ}

theorem Counted.initial (weight : ℕ) (build : Build) :
    Counted weight .outside [] (ThreadData.initial build) :=
  ⟨Cycle.initial build, Nat.zero_add _⟩

theorem Counted.beginAt {past : List Call} {t : ThreadData} (now : ℕ)
    (sampling : 0 ≤ configuration.samplingLengthMs) (inv : Counted weight .outside past t) :
    Counted weight .inside (past ++ [.beginAt now])
      (beginCall build configuration now t).record := by
  obtain ⟨cycle, count⟩ := inv
  have grown := beginCall_samplingLength_pos build now sampling cycle.positive
  refine ⟨cycle.beginCall build now grown, ?_⟩
  obtain ⟨u, reached, total, _⟩ := beginCall_cycle build now cycle grown
  have credit := beginCall_outstanding build now cycle grown
  rw [reached] at credit ⊢
  rw [credit, total, Nat.mul_add, ← Nat.add_assoc, count]
  simp [Phase.begun, Call.isEnd, Nat.mul_add]

theorem Counted.endAt {past : List Call} {t : ThreadData} (now : ℕ)
    (inv : Counted weight .inside past t) :
    Counted weight .outside (past ++ [.endAt now weight]) (endCall now weight t) := by
  obtain ⟨cycle, count⟩ := inv
  refine ⟨cycle.endCall now weight, ?_⟩
  simp only [outstanding, Phase.begun] at count
  by_cases recorded : t.currentSample = 0
  · rw [endCall_recorded recorded]
    simp only [recorded, ↓reduceIte] at count
    simp only [outstanding, Phase.begun, endCalls_snoc, Call.isEnd, recorded,
      Nat.mul_comm t.samplingLength weight]
    simpa using count
  · rw [endCall_skipped recorded]
    simp only [recorded, ↓reduceIte] at count
    simpa [outstanding, Phase.begun, Call.isEnd] using count

/-- The remaining calls write none of the counters. -/
theorem Counted.neutral {c : Call} {p : Phase} {past : List Call} {t u : ThreadData}
    (step : Neutral build configuration c t u) (inv : Counted weight p past t) :
    Counted weight p (past ++ [c]) u := by
  obtain ⟨quiet, _, fields, stored, asked, rfl⟩ := step
  have other : c.isEnd = false := by
    cases c with
    | endAt now weight => cases quiet
    | _ => rfl
  obtain ⟨cycle, count⟩ := inv
  refine ⟨cycle.congr rfl rfl, ?_⟩
  cases p <;> simpa [outstanding, other] using count

theorem runCaught_counted (build : Build) (sampling : 0 ≤ configuration.samplingLengthMs)
    {calls : List Call} {q : Phase} (phases : phaseAfter calls .outside = some q)
    (same : Weighted (· = weight) calls) :
    Counted weight q calls (runCaught build configuration calls (ThreadData.initial build)) := by
  exact runCaught_invariant (· = weight) (fun _ _ => True)
    (fun p _ past t => Counted weight p past t) (ThreadData.initial build)
    (fun now _ _ _ _ _ inv => inv.beginAt now sampling)
    (fun now _ _ _ _ _ _ own inv => by
      subst own
      exact inv.endAt now)
    (fun _ _ _ _ _ _ _ step inv => inv.neutral step)
    calls phases same (isChain_of_forall 0 fun _ _ => trivial) (Counted.initial weight build)

/-- What `terminate()` adds for each skipped call is short of the weight by this much. -/
theorem totalsAfter_counted {n : ℕ} (h : History n)
    (sampling : 0 ≤ configuration.samplingLengthMs) (positive : 0 < weight)
    (alternates : ∀ i, phaseAfter (callsOf h i) .outside = some .outside)
    (same : ∀ i, Weighted (· = weight) (callsOf h i)) :
    (totalsAfter build configuration h).totalTasks + (weight - 1) * ∑ i,
        (threadDataAfter build configuration h (fun _ => ThreadData.initial build) i).currentSample =
      weight * h.countP fun entry => entry.2.isEnd := by
  rw [totalsAfter, terminateTotals_totalTasks, List.map_ofFn, List.sum_ofFn, ← sum_countP_callsOf,
    Finset.mul_sum, Finset.mul_sum, ← Finset.sum_add_distrib]
  apply Finset.sum_congr rfl
  intro i _
  have counted := (runCaught_counted build sampling (alternates i) (same i)).count
  rw [← threadDataAfter_apply h (fun _ => ThreadData.initial build) i] at counted
  simp only [outstanding, Phase.begun, endCalls] at counted
  rw [← counted, Function.comp_apply]
  obtain ⟨surplus, rfl⟩ := Nat.exists_eq_succ_of_ne_zero (Nat.ne_of_gt positive)
  rw [Nat.succ_sub_one, Nat.succ_mul]
  omega

/-- The total that `terminate()` computes is the number of `end()` calls, wherever
each thread stops in its sampling cycle and however its length has changed. -/
theorem terminate_totalTasks_exact {n : ℕ} (h : History n)
    (sampling : 0 ≤ configuration.samplingLengthMs)
    (alternates : ∀ i, phaseAfter (callsOf h i) .outside = some .outside)
    (unit : ∀ i, Weighted (· = 1) (callsOf h i)) :
    (totalsAfter build configuration h).totalTasks = h.countP fun entry => entry.2.isEnd := by
  have counted := @totalsAfter_counted build configuration 1 n h sampling Nat.one_pos alternates unit
  rwa [Nat.sub_self, Nat.zero_mul, Nat.add_zero, Nat.one_mul] at counted

/-- Two threads. The first, very short iteration of thread 0 makes it skip the `end()`
of its second one. -/
theorem terminate_totalTasks_skipped_end :
    (totalsAfter {} {} ([(0, .beginAt 1), (0, .endAt 2 1), (1, .beginAt 3), (0, .beginAt 4),
      (0, .endAt 5 1), (1, .endAt 6 1)] : History 2)).totalTasks = 3 :=
  (terminate_totalTasks_exact _ (by decide) (by decide) (by decide)).trans (by decide)

end Riff
