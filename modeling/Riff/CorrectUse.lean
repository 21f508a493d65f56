import Riff.Cycle
import Riff.Unsampled

set_option autoImplicit false

namespace Riff

open Exact

variable {build : Build} {configuration : ApplicationConfiguration}

/-! Sampling: the window that the next `begin()` evaluates holds a task. -/

structure Stocked (p : Phase) (t : ThreadData) : Prop where
  cycle : Cycle t
  begun : p = .inside ∨ t.currentSample ≠ 0 → t.computeStart ≠ 0
  tasks : ∃ k : ℕ, t.sample.numTasks = k ∧
    (p = .outside → t.computeStart ≠ 0 → t.currentSample = 0 → 0 < k)

theorem Stocked.initial (build : Build) : Stocked .outside (ThreadData.initial build) := by
  refine ⟨Cycle.initial build, ?_, 0, rfl, ?_⟩
  · rintro (inside | started)
    · cases inside
    · exact absurd rfl started
  · intro _ begun _
    exact absurd rfl begun

/-- With a task in the window and sampling switched on, `begin()` returns. -/
theorem Stocked.beginCall {t : ThreadData} {now : ℕ} (build : Build)
    (sampling : 0 < configuration.samplingLengthMs) (reading : 0 < now)
    (inv : Stocked .outside t) :
    ∃ u, beginCall build configuration now t = .returned u ∧ Stocked .inside u := by
  obtain ⟨cycle, begun, k, tasks, stocked⟩ := inv
  have nextCycle := cycle.beginCall build now
    (beginCall_samplingLength_pos build now (le_of_lt sampling) cycle.positive)
  have cases := beginCall_begins build configuration now t
  generalize Riff.beginCall build configuration now t = outcome at cases nextCycle ⊢
  cases cases with
  | skipped far =>
      refine ⟨_, rfl, nextCycle, ?_, k, tasks, by simp⟩
      intro _
      refine begun (Or.inr ?_)
      intro first
      rw [advance_currentSample, first] at far
      split_ifs at far <;> omega
  | quiet near idle =>
      exact ⟨_, rfl, nextCycle, fun _ => Nat.ne_of_gt reading, k, tasks, by simp⟩
  | @noTasks error near evaluates failed =>
      obtain ⟨started, first, _⟩ := cycle.evaluates now evaluates
      have positive := stocked rfl started first
      simp only [newSamplingLength, updateSamplingLength, ne_of_gt sampling,
        measure_sample_numTasks, stamp_sample, advance_sample, tasks,
        Double.toUnsigned_natCast, Nat.ne_of_gt positive, ne_eq, not_false_eq_true,
        ↓reduceIte] at failed
      split at failed <;> cases failed
  | kept near evaluates chosen unasked =>
      exact ⟨_, rfl, nextCycle, fun _ => Nat.ne_of_gt reading, k, tasks, by simp⟩
  | rejected near evaluates chosen asked failed =>
      simp only [storeConsolidated, ne_of_gt sampling, false_and, ↓reduceIte] at failed
      split at failed <;> cases failed
  | consolidated near evaluates chosen asked stored =>
      exact ⟨_, rfl, nextCycle, fun _ => Nat.ne_of_gt reading, 0, rfl, by simp⟩

theorem Stocked.endCall {t : ThreadData} {now weight : ℕ} (heavy : 1 ≤ weight)
    (inv : Stocked .inside t) : Stocked .outside (endCall now weight t) := by
  obtain ⟨cycle, begun, k, tasks, _⟩ := inv
  have started := begun (Or.inl rfl)
  refine ⟨cycle.endCall now weight, ?_, ?_⟩
  · intro _
    by_cases recorded : t.currentSample = 0
    · rw [endCall_recorded recorded]
      exact started
    · rw [endCall_skipped recorded]
      exact started
  · by_cases recorded : t.currentSample = 0
    · rw [endCall_recorded recorded]
      refine ⟨k + t.samplingLength * weight, ?_, ?_⟩
      · simp only [tasks, Nat.cast_add]
      · intro _ _ _
        have credit := Nat.mul_pos cycle.positive heavy
        omega
    · rw [endCall_skipped recorded]
      exact ⟨k, tasks, fun _ _ first => absurd first recorded⟩

theorem Stocked.neutral {c : Call} {p : Phase} {t u : ThreadData}
    (step : Neutral build configuration c t u) (inv : Stocked p t) : Stocked p u := by
  obtain ⟨_, _, fields, stored, asked, rfl⟩ := step
  exact ⟨inv.cycle.congr rfl rfl, inv.begun, inv.tasks⟩

theorem runCaught_stocked (build : Build) (sampling : 0 < configuration.samplingLengthMs)
    {calls : List Call} {q : Phase} (phases : phaseAfter calls .outside = some q)
    (heavy : Weighted (1 ≤ ·) calls) (ticks : (0 :: times calls).IsChain Ticks) :
    Stocked q (runCaught build configuration calls (ThreadData.initial build)) := by
  exact runCaught_invariant (1 ≤ ·) Ticks (fun p _ _ t => Stocked p t)
    (ThreadData.initial build)
    (fun now _ _ t _ tick inv => by
      obtain ⟨u, returned, stocked⟩ := inv.beginCall build sampling tick.2
      rw [returned]
      exact stocked)
    (fun _ _ _ _ _ _ _ heavy inv => inv.endCall heavy)
    (fun _ _ _ _ _ _ _ step inv => inv.neutral step)
    calls phases heavy ticks (Stocked.initial build)

/-! No sampling: for weight 1 the two accumulators account for all the time. -/

def Accounted (p : Phase) (last : ℕ) (t : ThreadData) : Prop :=
  ∃ s : Tally, s.weighted = s.plain ∧ Tallied p last s t

theorem Accounted.estimate {last now : ℕ} {t : ThreadData} (tick : Ticks last now)
    (inv : Accounted .outside last t) :
    (accumulated now t).sample.latency + ((accumulated now t).idleTime : Double) =
      ((now - (accumulated now t).sampleStartTime : ℕ) : Double) := by
  obtain ⟨s, equal, tallied⟩ := inv
  obtain ⟨_, account⟩ := tallied.spans tick
  rw [tallied.accumulated_latency, ← Nat.cast_add]
  congr 1
  omega

/-- The estimate of the elapsed time is exact, so no gap is ever too wide. -/
theorem Tallied.close {last now : ℕ} {s : Tally} {t : ThreadData} (tick : Ticks last now)
    (tolerant : 0 ≤ configuration.consistencyThreshold) (equal : s.weighted = s.plain)
    (inv : Tallied .outside last s t) :
    gapTooWide configuration now (accumulated now t) = false := by
  rw [inv.gap tick]
  simp only [equal, Nat.sub_self, ne_eq, not_true_eq_false, decide_false, Nat.cast_zero,
    mul_zero]
  split
  · rfl
  · rw [decide_eq_false_iff_not, not_lt]
    positivity

theorem Accounted.beginCall {last now : ℕ} {t : ThreadData}
    (unsampled : configuration.samplingLengthMs = 0)
    (default : build.riffDefaultSamplingLength = 1)
    (tolerant : 0 ≤ configuration.consistencyThreshold) (tick : Ticks last now)
    (inv : Accounted .outside last t) :
    ∃ u, beginCall build configuration now t = .returned u ∧ Accounted .inside now u := by
  obtain ⟨s, equal, tallied⟩ := inv
  have stays : (s.next (.beginAt now)).weighted = (s.next (.beginAt now)).plain :=
    Tally.next_unit trivial equal
  have ways := tallied.beginAt unsampled default tick
  generalize Riff.beginCall build configuration now t = outcome at ways ⊢
  cases ways with
  | unasked none same inv => exact ⟨_, rfl, _, stays, inv⟩
  | served some start close answered load consistent inv => exact ⟨_, rfl, _, stays, inv⟩
  | refused some wide =>
      rw [tallied.close tick tolerant equal] at wide
      cases wide

end Riff
