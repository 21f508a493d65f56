import Riff.Cycle
import Riff.SamplingLength

set_option autoImplicit false

namespace Riff

open Exact

variable {build : Build} {configuration : ApplicationConfiguration}

theorem updateSamplingLength_le {numTasks sampleTime length : ℕ}
    (sampling : 0 ≤ configuration.samplingLengthMs)
    (chosen : updateSamplingLength build configuration numTasks sampleTime = .ok length) :
    length ≤ max build.riffDefaultSamplingLength ⌈configuration.samplingLengthMs * 1000000⌉₊ := by
  rcases Nat.eq_zero_or_pos numTasks with rfl | some
  · cases chosen
  rcases Nat.lt_or_ge sampleTime numTasks with fast | slow
  · rw [updateSamplingLength_fast fast] at chosen
    cases chosen
    exact Nat.le_max_left _ _
  · rw [updateSamplingLength_slow some slow] at chosen
    cases chosen
    refine le_max_of_le_right (Nat.ceil_le_ceil ?_)
    apply div_le_self (by positivity)
    exact_mod_cast Nat.div_pos slow some

theorem newSamplingLength_le {now length most : ℕ} {t : ThreadData}
    (sampling : 0 ≤ configuration.samplingLengthMs)
    (bound : max build.riffDefaultSamplingLength ⌈configuration.samplingLengthMs * 1000000⌉₊ ≤ most)
    (small : t.samplingLength ≤ most)
    (chosen : newSamplingLength build configuration now t = .ok length) : length ≤ most := by
  unfold newSamplingLength at chosen
  split at chosen
  · exact (updateSamplingLength_le sampling chosen).trans bound
  · cases chosen
    exact small

/-- No run gets past the larger of the default length and the configured one. -/
theorem runCaught_samplingLength_le (build : Build)
    (sampling : 0 ≤ configuration.samplingLengthMs) (calls : List Call) :
    (runCaught build configuration calls (ThreadData.initial build)).samplingLength ≤
      max build.riffDefaultSamplingLength ⌈configuration.samplingLengthMs * 1000000⌉₊ := by
  apply runCaught_induction (fun _ t => t.samplingLength ≤
    max build.riffDefaultSamplingLength ⌈configuration.samplingLengthMs * 1000000⌉₊)
    (ThreadData.initial build)
  · intro now _ t _ small
    have cases := beginCall_begins build configuration now t
    generalize beginCall build configuration now t = outcome at cases ⊢
    cases cases with
    | skipped far => exact small
    | quiet near idle => exact small
    | noTasks near evaluates failed => exact small
    | kept near evaluates chosen unasked =>
        exact newSamplingLength_le sampling le_rfl (by simpa using small) chosen
    | rejected near evaluates chosen asked failed =>
        rw [record_threw, storeConsolidated_threw failed]
        exact small
    | consolidated near evaluates chosen asked stored =>
        exact newSamplingLength_le sampling le_rfl (by simpa using small) chosen
  · intro now weight _ t _ small
    by_cases recorded : t.currentSample = 0
    · rw [endCall_recorded recorded]
      exact small
    · rw [endCall_skipped recorded]
      exact small
  · intro c _ t u _ step small
    obtain ⟨_, _, fields, stored, asked, rfl⟩ := step
    exact small
  · exact Nat.le_max_left _ _

end Riff
