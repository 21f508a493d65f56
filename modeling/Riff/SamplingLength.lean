import Riff.ThreadCalls
import Mathlib.Data.Nat.Cast.Order.Field

set_option autoImplicit false

namespace Riff

open Exact

variable {build : Build} {configuration : ApplicationConfiguration}

/-- Below one nanosecond a task the truncated average is zero, and the default comes back. -/
theorem updateSamplingLength_fast {numTasks sampleTime : ℕ} (fast : sampleTime < numTasks) :
    updateSamplingLength build configuration numTasks sampleTime =
      .ok build.riffDefaultSamplingLength := by
  have some : numTasks ≠ 0 := by omega
  have zero : ¬ (((sampleTime / numTasks : ℕ) : Double) / ((1000000 : ℕ) : Double)).truthy := by
    rw [Nat.div_eq_of_lt fast, Double.natCast_div _ _ (by decide)]
    simp
  simp only [updateSamplingLength, some, zero, ne_eq, not_false_eq_true, ↓reduceIte,
    Bool.false_eq_true]

theorem updateSamplingLength_slow {numTasks sampleTime : ℕ} (some : 0 < numTasks)
    (slow : numTasks ≤ sampleTime) :
    updateSamplingLength build configuration numTasks sampleTime =
      .ok ⌈configuration.samplingLengthMs * 1000000 / (sampleTime / numTasks : ℕ)⌉₊ := by
  have average : (0 : ℚ) < (sampleTime / numTasks : ℕ) := by
    exact_mod_cast Nat.div_pos slow some
  have nonzero : ((sampleTime / numTasks : ℕ) : ℚ) / ((1000000 : ℕ) : ℚ) ≠ 0 := by
    positivity
  have scaled : configuration.samplingLengthMs /
      (((sampleTime / numTasks : ℕ) : ℚ) / ((1000000 : ℕ) : ℚ)) =
        configuration.samplingLengthMs * 1000000 / (sampleTime / numTasks : ℕ) := by
    rw [div_div_eq_mul_div]
    norm_num
  simp only [updateSamplingLength, Nat.ne_of_gt some, ne_eq, not_false_eq_true, ↓reduceIte]
  rw [Double.natCast_div _ _ (by decide), Double.truthy_finite, if_pos (decide_eq_true nonzero),
    Double.finite_div _ _ nonzero, Double.ceil_finite, Double.toUnsigned_finite, scaled,
    ← Int.floor_toNat, Int.floor_intCast, Int.ceil_toNat]

theorem updateSamplingLength_returns (build : Build) (configuration : ApplicationConfiguration)
    {numTasks : ℕ} (sampleTime : ℕ) (some : 0 < numTasks) :
    ∃ length, updateSamplingLength build configuration numTasks sampleTime = .ok length := by
  rcases Nat.lt_or_ge sampleTime numTasks with fast | slow
  · exact ⟨_, updateSamplingLength_fast fast⟩
  · exact ⟨_, updateSamplingLength_slow some slow⟩

/-- A window without a task is the only reason to throw here. -/
theorem newSamplingLength_error_iff {t : ThreadData} {now k : ℕ} {error : RuntimeError}
    (tasks : t.sample.numTasks = k) :
    newSamplingLength build configuration now t = .error error ↔
      configuration.samplingLengthMs ≠ 0 ∧ k = 0 ∧ error = .noTasksStored := by
  rw [newSamplingLength, tasks, Double.toUnsigned_natCast]
  by_cases unsampled : configuration.samplingLengthMs = 0
  · simp [unsampled]
  · rcases Nat.eq_zero_or_pos k with rfl | some
    · simp [unsampled, updateSamplingLength, eq_comm]
    · obtain ⟨length, chosen⟩ := updateSamplingLength_returns build configuration
        (sampleTime now t) some
      simp [unsampled, chosen, Nat.ne_of_gt some]

end Riff
