import Riff.Estimate

set_option autoImplicit false

namespace Riff

open Exact

variable {build : Build} {configuration : ApplicationConfiguration}

/-! The same calls on a machine that keeps the idle time in an unsigned 64-bit word. -/

def measure64 (now : ℕ) (t : ThreadData) : ThreadData :=
  { measure now t with
    idleTime := (t.idleTime + ullSub now t.rcvStart * t.samplingLength) % 2 ^ 64 }

def beginCall64 (build : Build) (configuration : ApplicationConfiguration)
    (now : ℕ) (t : ThreadData) : Outcome :=
  if 1 < (advance t).currentSample then
    .returned (advance t)
  else
    let t := stamp now (advance t)
    if Evaluates t then
      let t := measure64 now t
      match newSamplingLength build configuration now t with
      | .error e => .threw e t
      | .ok length =>
          if t.consolidate then
            match storeConsolidated build configuration now t with
            | .threw e t => .threw e t
            | .returned t => .returned (restart now (resize length (publish now t)))
          else
            .returned (restart now (resize length t))
    else
      .returned (restart now t)

/-- The machine's record is the exact one, but for the word and the verdict on the
consolidated sample, which is all that the idle time bears on. -/
def Wraps (t u : ThreadData) : Prop :=
  ∃ verdict : Bool, u = { t with
    idleTime := t.idleTime % 2 ^ 64
    consolidatedSample := { t.consolidatedSample with inconsistent := verdict } }

theorem storeConsolidated_sampling (build : Build) (sampling : configuration.samplingLengthMs ≠ 0)
    (now : ℕ) (t : ThreadData) :
    storeConsolidated build configuration now t = .returned { t with
      consolidatedSample := { t.sample with
        inconsistent := gapTooWide configuration now t || t.sample.inconsistent } } := by
  cases stored : storeConsolidated build configuration now t with
  | returned u => rw [storeConsolidated_returned stored]
  | threw error u =>
      simp only [storeConsolidated, sampling, false_and, ↓reduceIte] at stored
      split at stored <;> cases stored

theorem Wraps.measured {t u : ThreadData} (wraps : Wraps t u) (now : ℕ) :
    Wraps (measure now (stamp now (advance t))) (measure64 now (stamp now (advance u))) := by
  obtain ⟨verdict, rfl⟩ := wraps
  refine ⟨verdict, ?_⟩
  simp only [measure64, measure, stamp, advance, sampleTime, Nat.mod_add_mod]
  rfl

theorem Wraps.resized {t u : ThreadData} (wraps : Wraps t u) (now length : ℕ) :
    Wraps (restart now (resize length t)) (restart now (resize length u)) := by
  obtain ⟨verdict, rfl⟩ := wraps
  exact ⟨verdict, rfl⟩

theorem Wraps.published {t u v w : ThreadData} (wraps : Wraps t u) (now : ℕ)
    {first second : Bool}
    (stored : v = { t with consolidatedSample := { t.sample with inconsistent := first } })
    (stored64 : w = { u with consolidatedSample := { u.sample with inconsistent := second } }) :
    Wraps (publish now v) (publish now w) := by
  obtain ⟨verdict, rfl⟩ := wraps
  subst stored stored64
  exact ⟨second, rfl⟩

theorem Wraps.beginCall (build : Build) (sampling : configuration.samplingLengthMs ≠ 0) (now : ℕ)
    {t u : ThreadData} (wraps : Wraps t u) :
    Wraps (beginCall build configuration now t).record
      (beginCall64 build configuration now u).record := by
  have measured := wraps.measured now
  obtain ⟨verdict, same⟩ := wraps
  -- The branches taken do not depend on the word.
  have counter : (advance u).currentSample = (advance t).currentSample := by rw [same]; rfl
  have evaluation : Evaluates (stamp now (advance u)) ↔ Evaluates (stamp now (advance t)) := by
    rw [same]; rfl
  have length : newSamplingLength build configuration now (measure64 now (stamp now (advance u))) =
      newSamplingLength build configuration now (measure now (stamp now (advance t))) := by
    rw [same]; rfl
  have flag : (measure64 now (stamp now (advance u))).consolidate = t.consolidate := by
    rw [same]; rfl
  have cases := beginCall_begins build configuration now t
  generalize Riff.beginCall build configuration now t = outcome at cases ⊢
  unfold beginCall64
  dsimp only
  rw [counter, if_congr evaluation rfl rfl, length, flag]
  cases cases with
  | skipped far =>
      rw [if_pos far, same]
      exact ⟨verdict, rfl⟩
  | quiet near idle =>
      rw [if_neg (Nat.not_lt.mpr near), if_neg idle, same]
      exact ⟨verdict, rfl⟩
  | noTasks near evaluates failed =>
      rw [if_neg (Nat.not_lt.mpr near), if_pos evaluates, failed]
      exact measured
  | kept near evaluates chosen unasked =>
      rw [if_neg (Nat.not_lt.mpr near), if_pos evaluates, chosen, unasked]
      exact measured.resized now _
  | rejected near evaluates chosen asked failed =>
      rw [storeConsolidated_sampling build sampling] at failed
      cases failed
  | consolidated near evaluates chosen asked stored =>
      rw [if_neg (Nat.not_lt.mpr near), if_pos evaluates, chosen, asked,
        storeConsolidated_sampling build sampling]
      exact (measured.published now (storeConsolidated_returned stored) rfl).resized now _

theorem Wraps.initial (build : Build) : Wraps (ThreadData.initial build) (ThreadData.initial build) :=
  ⟨false, rfl⟩

/-! When the word holds the exact sum. -/

end Riff
