import Riff.ThreadData
import Mathlib.Tactic.SplitIfs
import Mathlib.Data.List.Chain

set_option autoImplicit false

namespace Riff

open Exact

/-- Everything one `begin()` can do, with the guards under which it does it. -/
inductive Begins (build : Build) (configuration : ApplicationConfiguration)
    (now : ℕ) (t : ThreadData) : Outcome → Prop
  | skipped (far : 1 < (advance t).currentSample) :
      Begins build configuration now t (.returned (advance t))
  | quiet (near : (advance t).currentSample ≤ 1)
      (idle : ¬ Evaluates (stamp now (advance t))) :
      Begins build configuration now t (.returned (restart now (stamp now (advance t))))
  | noTasks {error : RuntimeError} (near : (advance t).currentSample ≤ 1)
      (evaluates : Evaluates (stamp now (advance t)))
      (failed : newSamplingLength build configuration now
        (measure now (stamp now (advance t))) = .error error) :
      Begins build configuration now t (.threw error (measure now (stamp now (advance t))))
  | kept {length : ℕ} (near : (advance t).currentSample ≤ 1)
      (evaluates : Evaluates (stamp now (advance t)))
      (chosen : newSamplingLength build configuration now
        (measure now (stamp now (advance t))) = .ok length)
      (unasked : t.consolidate = false) :
      Begins build configuration now t
        (.returned (restart now (resize length (measure now (stamp now (advance t))))))
  | rejected {length : ℕ} {error : RuntimeError} {u : ThreadData}
      (near : (advance t).currentSample ≤ 1)
      (evaluates : Evaluates (stamp now (advance t)))
      (chosen : newSamplingLength build configuration now
        (measure now (stamp now (advance t))) = .ok length)
      (asked : t.consolidate = true)
      (failed : storeConsolidated build configuration now
        (measure now (stamp now (advance t))) = .threw error u) :
      Begins build configuration now t (.threw error u)
  | consolidated {length : ℕ} {u : ThreadData} (near : (advance t).currentSample ≤ 1)
      (evaluates : Evaluates (stamp now (advance t)))
      (chosen : newSamplingLength build configuration now
        (measure now (stamp now (advance t))) = .ok length)
      (asked : t.consolidate = true)
      (stored : storeConsolidated build configuration now
        (measure now (stamp now (advance t))) = .returned u) :
      Begins build configuration now t (.returned (restart now (resize length (publish now u))))

theorem beginCall_begins (build : Build) (configuration : ApplicationConfiguration)
    (now : ℕ) (t : ThreadData) :
    Begins build configuration now t (beginCall build configuration now t) := by
  unfold beginCall
  split
  · rename_i far
    exact .skipped far
  · rename_i near
    have near : (advance t).currentSample ≤ 1 := Nat.le_of_not_lt near
    dsimp only
    split
    · rename_i evaluates
      split
      · rename_i failed
        exact .noTasks near evaluates failed
      · rename_i length chosen
        split
        · rename_i asked
          split
          · rename_i failed
            exact .rejected near evaluates chosen asked failed
          · rename_i stored
            exact .consolidated near evaluates chosen asked stored
        · rename_i unasked
          exact .kept near evaluates chosen (Bool.eq_false_iff.mpr unasked)
    · rename_i idle
      exact .quiet near idle

theorem advance_near {t : ThreadData} (first : t.currentSample = 0) :
    (advance t).currentSample ≤ 1 := by
  rw [advance_currentSample, first]
  split <;> omega

theorem endCall_currentSample (now weight : ℕ) (t : ThreadData) :
    (endCall now weight t).currentSample = t.currentSample := by
  unfold endCall
  split <;> rfl

theorem storeCustomValue_currentSample (index : ℕ) (value : Double) (t : ThreadData) :
    (storeCustomValue index value t).record.currentSample = t.currentSample := by
  unfold storeCustomValue
  split <;> rfl

/-- A record without a start time skips the whole sampled part. -/
theorem beginCall_first {build : Build} {configuration : ApplicationConfiguration}
    {t : ThreadData} (now : ℕ) (unset : t.computeStart = 0)
    (near : (advance t).currentSample ≤ 1) :
    beginCall build configuration now t = .returned (restart now (stamp now (advance t))) := by
  have quiet : ¬ Evaluates (stamp now (advance t)) := fun evaluates => evaluates.1 (by simpa)
  simp only [beginCall, Nat.not_lt.mpr near, quiet, ↓reduceIte]

/-- The write of the consolidated sample touches nothing else. -/
theorem storeConsolidated_threw {build : Build} {configuration : ApplicationConfiguration}
    {now : ℕ} {t u : ThreadData} {error : RuntimeError}
    (failed : storeConsolidated build configuration now t = .threw error u) :
    u = { t with consolidatedSample := t.sample } := by
  unfold storeConsolidated at failed
  split at failed
  · split at failed
    · cases failed
      rfl
    · cases failed
  · cases failed

theorem storeConsolidated_returned {build : Build} {configuration : ApplicationConfiguration}
    {now : ℕ} {t u : ThreadData}
    (stored : storeConsolidated build configuration now t = .returned u) :
    u = { t with consolidatedSample := { t.sample with
      inconsistent := gapTooWide configuration now t || t.sample.inconsistent } } := by
  unfold storeConsolidated at stored
  split at stored
  · rename_i wide
    split at stored
    · cases stored
    · cases stored
      simp only [wide, Bool.true_or]
  · rename_i close
    cases stored
    simp only [close, Bool.false_or]

theorem storeConsolidated_threw_wide {build : Build} {configuration : ApplicationConfiguration}
    {now : ℕ} {t u : ThreadData} {error : RuntimeError}
    (failed : storeConsolidated build configuration now t = .threw error u) :
    gapTooWide configuration now t = true := by
  unfold storeConsolidated at failed
  split at failed
  · assumption
  · cases failed

/-- Without sampling, a gap that is too wide is fatal. -/
theorem storeConsolidated_returned_close {build : Build}
    {configuration : ApplicationConfiguration} {now : ℕ} {t u : ThreadData}
    (unsampled : configuration.samplingLengthMs = 0)
    (default : build.riffDefaultSamplingLength = 1)
    (stored : storeConsolidated build configuration now t = .returned u) :
    gapTooWide configuration now t = false := by
  unfold storeConsolidated at stored
  split at stored
  · rw [if_pos ⟨unsampled, default⟩] at stored
    cases stored
  · rename_i close
    exact Bool.eq_false_iff.mpr close

/-- The counter starts a cycle of the new length at the call that evaluates. -/
theorem resize_starts_cycle {length : ℕ} {t : ThreadData} (grown : 0 < length)
    (starts : (t.samplingLength = 1 ∧ t.currentSample = 0) ∨
      (1 < t.samplingLength ∧ t.currentSample = 1)) :
    (resize length t).currentSample = if length = 1 then 0 else 1 := by
  rw [resize_currentSample]
  rcases starts with ⟨one, counter⟩ | ⟨many, counter⟩
  · split_ifs <;> omega
  · split_ifs <;> omega

theorem endCall_skipped {now weight : ℕ} {t : ThreadData} (skipped : t.currentSample ≠ 0) :
    endCall now weight t = t := by
  simp only [endCall, ne_eq, skipped, not_false_eq_true, ↓reduceIte]

theorem endCall_recorded {now weight : ℕ} {t : ThreadData} (recorded : t.currentSample = 0) :
    endCall now weight t = { t with
      rcvStart := now
      sample := { t.sample with
        latency := t.sample.latency + (ullSub now t.computeStart : Double) *
          (t.samplingLength : Double) * (weight : Double)
        numTasks := t.sample.numTasks + ((t.samplingLength * weight : ℕ) : Double) }
      totalTasks := t.totalTasks + t.samplingLength * weight
      lastEnd := now } := by
  simp only [endCall, recorded, ne_eq, not_true_eq_false, ↓reduceIte]

/-- A chosen length is never zero: the ratio of two positive doubles rounds up
to at least one, and the default is positive. -/
theorem updateSamplingLength_pos {build : Build} {configuration : ApplicationConfiguration}
    {numTasks sampleTime length : ℕ} (sampling : 0 < configuration.samplingLengthMs)
    (chosen : updateSamplingLength build configuration numTasks sampleTime = .ok length) :
    0 < length := by
  unfold updateSamplingLength at chosen
  split at chosen
  · dsimp only at chosen
    split at chosen
    · rename_i nonzero
      rw [Double.natCast_div _ _ (by decide), Double.truthy_finite, decide_eq_true_eq] at nonzero
      rw [Double.natCast_div _ _ (by decide), Double.finite_div _ _ nonzero] at chosen
      have latency : (0 : ℚ) < ((sampleTime / numTasks : ℕ) : ℚ) / ((1000000 : ℕ) : ℚ) :=
        lt_of_le_of_ne (by positivity) (Ne.symm nonzero)
      have quotient := div_pos sampling latency
      have rounded := Int.ceil_pos.mpr quotient
      cases chosen
      rw [Double.ceil_finite, Double.toUnsigned_finite, ← Int.floor_toNat, Int.floor_intCast]
      omega
    · cases chosen
      exact build.positive
  · cases chosen

theorem newSamplingLength_pos {build : Build} {configuration : ApplicationConfiguration}
    {now length : ℕ} {t : ThreadData} (sampling : 0 ≤ configuration.samplingLengthMs)
    (positive : 0 < t.samplingLength)
    (chosen : newSamplingLength build configuration now t = .ok length) : 0 < length := by
  unfold newSamplingLength at chosen
  split at chosen
  · rename_i nonzero
    exact updateSamplingLength_pos (lt_of_le_of_ne sampling (Ne.symm nonzero)) chosen
  · cases chosen
    exact positive

end Riff
