import Riff.ThreadRun

set_option autoImplicit false

namespace Riff

open Exact

/-- The counter stays inside a cycle of positive length. -/
structure Cycle (t : ThreadData) : Prop where
  positive : 0 < t.samplingLength
  inside : t.currentSample < t.samplingLength

variable {build : Build} {configuration : ApplicationConfiguration}

theorem Cycle.initial (build : Build) : Cycle (ThreadData.initial build) :=
  ⟨build.positive, build.positive⟩

theorem Cycle.congr {t u : ThreadData} (cycle : Cycle t)
    (length : u.samplingLength = t.samplingLength) (counter : u.currentSample = t.currentSample) :
    Cycle u := by
  obtain ⟨positive, inside⟩ := cycle
  constructor <;> omega

theorem Cycle.advanced {t : ThreadData} (cycle : Cycle t) : Cycle (advance t) := by
  obtain ⟨positive, inside⟩ := cycle
  refine ⟨positive, ?_⟩
  rw [advance_currentSample, advance_samplingLength]
  split <;> omega

theorem Cycle.starts {t : ThreadData} (cycle : Cycle t) (evaluates : Evaluates t) :
    (t.samplingLength = 1 ∧ t.currentSample = 0) ∨
      (1 < t.samplingLength ∧ t.currentSample = 1) := by
  obtain ⟨positive, inside⟩ := cycle
  obtain ⟨_, first⟩ := evaluates
  omega

theorem Cycle.resized {t : ThreadData} {length : ℕ} (grown : 0 < length)
    (starts : (t.samplingLength = 1 ∧ t.currentSample = 0) ∨
      (1 < t.samplingLength ∧ t.currentSample = 1)) : Cycle (resize length t) := by
  refine ⟨grown, ?_⟩
  rw [resize_starts_cycle grown starts, resize_samplingLength]
  split <;> omega

/-- A `begin()` that evaluates finds the counter at zero: it directly follows the
recorded iteration of the cycle. -/
theorem Cycle.evaluates {t : ThreadData} (cycle : Cycle t) (now : ℕ)
    (evaluates : Evaluates (stamp now (advance t))) :
    t.computeStart ≠ 0 ∧ t.currentSample = 0 ∧
      ((t.samplingLength = 1 ∧ (advance t).currentSample = 0) ∨
        (1 < t.samplingLength ∧ (advance t).currentSample = 1)) := by
  have starts := cycle.advanced.starts evaluates
  have inside := cycle.inside
  refine ⟨by simpa using evaluates.1, ?_, starts⟩
  rw [advance_currentSample, advance_samplingLength] at starts
  split at starts <;> omega

/-- A length of zero needs a negative configured length. -/
theorem beginCall_samplingLength_pos (build : Build) (now : ℕ) {t : ThreadData}
    (sampling : 0 ≤ configuration.samplingLengthMs) (positive : 0 < t.samplingLength) :
    0 < (beginCall build configuration now t).record.samplingLength := by
  have cases := beginCall_begins build configuration now t
  generalize beginCall build configuration now t = outcome at cases ⊢
  cases cases with
  | skipped far => exact positive
  | quiet near idle => exact positive
  | noTasks near evaluates failed => exact positive
  | kept near evaluates chosen unasked =>
      exact newSamplingLength_pos sampling (by simpa using positive) chosen
  | rejected near evaluates chosen asked failed =>
      rw [record_threw, storeConsolidated_threw failed]
      exact positive
  | consolidated near evaluates chosen asked stored =>
      exact newSamplingLength_pos sampling (by simpa using positive) chosen

/-- What `begin()` does to the cycle: it advances the counter, and where it
evaluates it may also change the length, which starts a cycle of that length. -/
theorem beginCall_cycle (build : Build) (now : ℕ) {t : ThreadData} (cycle : Cycle t)
    (grown : 0 < (beginCall build configuration now t).record.samplingLength) :
    ∃ u, (beginCall build configuration now t).record = u ∧ u.totalTasks = t.totalTasks ∧
      ((u.samplingLength = t.samplingLength ∧ u.currentSample = (advance t).currentSample) ∨
        (t.currentSample = 0 ∧ 0 < u.samplingLength ∧
          u.currentSample = if u.samplingLength = 1 then 0 else 1)) := by
  refine ⟨_, rfl, ?_⟩
  have cases := beginCall_begins build configuration now t
  generalize beginCall build configuration now t = outcome at cases grown ⊢
  cases cases with
  | skipped far => simp
  | quiet near idle => simp
  | noTasks near evaluates failed => simp
  | @kept length near evaluates chosen unasked =>
      obtain ⟨_, first, starts⟩ := cycle.evaluates now evaluates
      have restarted := resize_starts_cycle
        (t := measure now (stamp now (advance t))) grown (by simpa using starts)
      exact ⟨by simp, Or.inr ⟨first, grown,
        by simpa only [record_returned, restart_currentSample, restart_samplingLength,
          resize_samplingLength] using restarted⟩⟩
  | @rejected length error u near evaluates chosen asked failed =>
      rw [storeConsolidated_threw failed]
      simp
  | @consolidated length u near evaluates chosen asked stored =>
      obtain ⟨_, first, starts⟩ := cycle.evaluates now evaluates
      have written := storeConsolidated_returned stored
      have restarted := resize_starts_cycle (t := publish now u) grown
        (by rw [written]; simpa using starts)
      refine ⟨?_, Or.inr ⟨first, grown, ?_⟩⟩
      · rw [written]
        simp
      · simpa only [record_returned, restart_currentSample, restart_samplingLength,
          resize_samplingLength] using restarted

theorem Cycle.beginCall {t : ThreadData} (cycle : Cycle t) (build : Build) (now : ℕ)
    (grown : 0 < (beginCall build configuration now t).record.samplingLength) :
    Cycle (beginCall build configuration now t).record := by
  obtain ⟨u, reached, _, kept | restarted⟩ := beginCall_cycle build now cycle grown
  · rw [reached]
    obtain ⟨length, counter⟩ := kept
    exact cycle.advanced.congr length counter
  · rw [reached]
    obtain ⟨_, grown, counter⟩ := restarted
    constructor
    · exact grown
    · rw [counter]
      split_ifs <;> omega

/-- The iterations of the current cycle that no recorded `end()` has covered yet.
Inside an iteration whose `end()` will be recorded, that is the whole cycle. -/
def outstanding : Phase → ThreadData → ℕ
  | .outside, t => t.currentSample
  | .inside, t => if t.currentSample = 0 then t.samplingLength else t.currentSample

/-- The `begin()` calls made so far, given the `end()` calls. -/
def Phase.begun : Phase → ℕ → ℕ
  | .outside, ended => ended
  | .inside, ended => ended + 1

/-- Whatever `begin()` does to the length, it makes one more iteration outstanding. -/
theorem beginCall_outstanding (build : Build) (now : ℕ) {t : ThreadData} (cycle : Cycle t)
    (grown : 0 < (beginCall build configuration now t).record.samplingLength) :
    outstanding .inside (beginCall build configuration now t).record =
      outstanding .outside t + 1 := by
  obtain ⟨u, reached, _, kept | restarted⟩ := beginCall_cycle build now cycle grown
  · rw [reached]
    obtain ⟨positive, inside⟩ := cycle
    obtain ⟨length, counter⟩ := kept
    rw [advance_currentSample] at counter
    simp only [outstanding, length, counter]
    split_ifs at * <;> omega
  · rw [reached]
    obtain ⟨evaluated, grown, counter⟩ := restarted
    simp only [outstanding, counter, evaluated]
    split_ifs at * <;> omega

theorem Cycle.endCall {t : ThreadData} (cycle : Cycle t) (now weight : ℕ) :
    Cycle (endCall now weight t) := by
  by_cases recorded : t.currentSample = 0
  · rw [endCall_recorded recorded]
    exact ⟨cycle.positive, cycle.inside⟩
  · rw [endCall_skipped recorded]
    exact cycle

end Riff
