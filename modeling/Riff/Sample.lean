import Riff.Lib.Double

set_option autoImplicit false

namespace Riff

open Exact

/-- `RIFF_MAX_CUSTOM_FIELDS`. -/
abbrev riffMaxCustomFields : ℕ := 8

/-- The macro a build may override. -/
structure Build where
  riffDefaultSamplingLength : ℕ := 1
  positive : 0 < riffDefaultSamplingLength := by first | exact Nat.one_pos | decide

/-- The two numeric parameters are finite doubles. -/
structure ApplicationConfiguration where
  samplingLengthMs : ℚ := 10
  adjustThroughput : Bool := true
  consistencyThreshold : ℚ := 5
  deriving DecidableEq

structure ApplicationSample where
  inconsistent : Bool := false
  loadPercentage : Double := 0
  throughput : Double := 0
  latency : Double := 0
  numTasks : Double := 0
  customFields : Fin riffMaxCustomFields → Double := fun _ => 0
  deriving DecidableEq

/-- The `std::runtime_error`s thrown on the application's side. -/
inductive RuntimeError where
  | inconsistencyWithoutSampling
  | noTasksStored
  | wrongThreadId
  | customIndexOutOfBound
  | notSupportStop
  deriving DecidableEq, Repr

def RuntimeError.what : RuntimeError → String
  | .inconsistencyWithoutSampling =>
      "FATAL ERROR: it is not possible to have inconsistency if sampling is not applied."
  | .noTasksStored =>
      "updateSamplingLength called with no tasks stored. You probably called " ++
        "begin() twice in a row without calling end() after begin()."
  | .wrongThreadId => "Wrong threadId specified (greater than number of threads)."
  | .customIndexOutOfBound =>
      "Custom value index out of bound. Please increase RIFF_MAX_CUSTOM_FIELDS macro value."
  | .notSupportStop => "FATAL ERROR: !_supportStop"

/-- Unsigned 64-bit subtraction. It differs from truncated subtraction only
where the machine wraps around. -/
def ullSub (x y : ℕ) : ℕ := if y ≤ x then x - y else 2 ^ 64 - (y - x)

theorem ullSub_of_le (x y : ℕ) (ordered : y ≤ x) : ullSub x y = x - y := by
  simp only [ullSub, ordered, ↓reduceIte]

def absDiff (x y : ℕ) : ℕ := if y < x then ullSub x y else ullSub y x

theorem absDiff_cast (x y : ℕ) : ((absDiff x y : ℕ) : ℚ) = |(x : ℚ) - y| := by
  unfold absDiff
  split
  · rename_i less
    rw [ullSub_of_le _ _ less.le, Nat.cast_sub less.le, abs_of_pos]
    exact sub_pos.mpr (Nat.cast_lt.mpr less)
  · rename_i more
    have ordered := Nat.le_of_not_lt more
    rw [ullSub_of_le _ _ ordered, Nat.cast_sub ordered, abs_sub_comm, abs_of_nonneg]
    exact sub_nonneg.mpr (Nat.cast_le.mpr ordered)

end Riff
