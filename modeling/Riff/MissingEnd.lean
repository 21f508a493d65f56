import Riff.CorrectUse
import Riff.SamplingLength

set_option autoImplicit false

namespace Riff

open Exact

variable {build : Build} {configuration : ApplicationConfiguration}

/-- With sampling switched on, `begin()` throws exactly if it evaluates a sample without
a task. -/
theorem beginCall_threw_iff {t : ThreadData} {now k : ℕ} (build : Build)
    (sampling : 0 < configuration.samplingLengthMs) (tasks : t.sample.numTasks = k) :
    (∃ u, beginCall build configuration now t = .threw .noTasksStored u) ↔
      (advance t).currentSample ≤ 1 ∧ Evaluates (stamp now (advance t)) ∧ k = 0 := by
  have reason : ∀ error, newSamplingLength build configuration now
      (measure now (stamp now (advance t))) = .error error ↔ k = 0 ∧ error = .noTasksStored := by
    intro error
    have failed := @newSamplingLength_error_iff build configuration
      (measure now (stamp now (advance t))) now k error (by simpa using tasks)
    rwa [and_iff_right (ne_of_gt sampling)] at failed
  have cases := beginCall_begins build configuration now t
  generalize beginCall build configuration now t = outcome at cases ⊢
  cases cases with
  | skipped far => simp [Nat.not_le.mpr far, -advance_currentSample]
  | quiet near idle => simp [idle]
  | noTasks near evaluates failed =>
      obtain ⟨empty, rfl⟩ := (reason _).mp failed
      exact iff_of_true ⟨_, rfl⟩ ⟨near, evaluates, empty⟩
  | kept near evaluates chosen unasked =>
      refine iff_of_false ?_ ?_
      · rintro ⟨_, threw⟩
        cases threw
      · rintro ⟨_, _, empty⟩
        rw [(reason .noTasksStored).mpr ⟨empty, rfl⟩] at chosen
        cases chosen
  | rejected near evaluates chosen asked failed =>
      simp only [storeConsolidated, ne_of_gt sampling, false_and, ↓reduceIte] at failed
      split at failed <;> cases failed
  | consolidated near evaluates chosen asked stored =>
      refine iff_of_false ?_ ?_
      · rintro ⟨_, threw⟩
        cases threw
      · rintro ⟨_, _, empty⟩
        rw [(reason .noTasksStored).mpr ⟨empty, rfl⟩] at chosen
        cases chosen

end Riff
