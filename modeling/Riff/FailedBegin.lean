import Riff.MissingEnd

set_option autoImplicit false

namespace Riff

open Exact

variable {build : Build} {configuration : ApplicationConfiguration}

/-- What nothing is of a time: zero, or NaN if the time is zero too. -/
def nothingOver (time : ℕ) : Double := if time = 0 then .nan else 0

theorem zero_div_natCast (time : ℕ) : (0 : Double) / (time : Double) = nothingOver time := by
  unfold nothingOver
  split
  · rename_i none
    rw [none]
    rfl
  · rename_i some
    rw [← Nat.cast_zero, Double.natCast_div _ _ (Nat.pos_of_ne_zero some), Nat.cast_zero, zero_div]
    rfl

theorem nothingOver_eq_nan {time : ℕ} : nothingOver time = .nan ↔ time = 0 := by
  unfold nothingOver
  split
  · rename_i none
    exact iff_of_true rfl none
  · rename_i some
    exact iff_of_false Double.noConfusion some

theorem nothingOver_congr {time other : ℕ} (same : time = 0 ↔ other = 0) :
    nothingOver time = nothingOver other := by
  unfold nothingOver
  simp only [same]

/-- A sample without tasks, which has seen no time either. -/
structure Empty (sample : ApplicationSample) : Prop where
  tasks : sample.numTasks = 0
  latency : sample.latency = 0

theorem measure_empty {t : ThreadData} (now : ℕ) (empty : Empty t.sample) :
    (measure now t).sample = { t.sample with
      throughput := nothingOver (sampleTime now t)
      loadPercentage := nothingOver (sampleTime now t) } := by
  have rate : (0 : Double) / ((sampleTime now t : Double) / ((1000000000 : ℕ) : Double)) =
      nothingOver (sampleTime now t) := by
    rw [← zero_div_natCast, ← Nat.cast_zero, Double.natCast_div_div _ _ _ (by decide), Nat.zero_mul]
  have share : nothingOver (sampleTime now t) * ((100 : ℕ) : Double) =
      nothingOver (sampleTime now t) := by
    unfold nothingOver
    split
    · rfl
    · exact congrArg Double.finite (zero_mul _)
  simp only [measure, empty.tasks, empty.latency, rate, zero_div_natCast, share]

theorem sample_with_rates {sample : ApplicationSample} {rate : Double}
    (throughput : sample.throughput = rate) (load : sample.loadPercentage = rate) :
    { sample with throughput := rate, loadPercentage := rate } = sample := by
  cases sample
  simp_all

/-- The record of a thread, whatever it calls: a sample without tasks is empty, except
that dividing by a time of zero may have left NaN in two fields. -/
structure Filled (t : ThreadData) : Prop where
  cycle : Cycle t
  stamped : t.computeStart ≠ 0 → t.sampleStartTime ≠ 0 ∧ t.firstBegin ≠ 0
  whole : ∃ k : ℕ, t.sample.numTasks = k
  empty : t.sample.numTasks = 0 → Empty t.sample
  rates : t.sample.numTasks = 0 → ∃ time, t.sample.throughput = nothingOver time ∧
    t.sample.loadPercentage = nothingOver time

theorem Filled.initial (build : Build) : Filled (ThreadData.initial build) where
  cycle := Cycle.initial build
  stamped started := absurd rfl started
  whole := ⟨0, Nat.cast_zero.symm⟩
  empty _ := ⟨rfl, rfl⟩
  rates _ := ⟨1, rfl, rfl⟩

theorem stamp_nonzero {t : ThreadData} {now : ℕ}
    (stamped : t.sampleStartTime ≠ 0 ∧ t.firstBegin ≠ 0 ∨ now ≠ 0) :
    (stamp now t).sampleStartTime ≠ 0 ∧ (stamp now t).firstBegin ≠ 0 := by
  simp only [stamp_sampleStartTime, stamp_firstBegin]
  constructor
  · split <;> omega
  · split <;> omega

/-- Up to where `begin()` restarts the timer, only the rates of the sample change. -/
theorem Filled.measured {t : ThreadData} (now : ℕ) (filled : Filled t) :
    let sample := (measure now (stamp now (advance t))).sample
    (∃ k : ℕ, sample.numTasks = k) ∧ (sample.numTasks = 0 → Empty sample) ∧
      (sample.numTasks = 0 → ∃ time, sample.throughput = nothingOver time ∧
        sample.loadPercentage = nothingOver time) := by
  refine ⟨filled.whole, ?_, ?_⟩
  · intro none
    exact ⟨none, (filled.empty none).latency⟩
  · intro none
    have same := measure_empty (t := stamp now (advance t)) now (filled.empty none)
    exact ⟨_, by rw [same], by rw [same]⟩

theorem Filled.beginAt {t : ThreadData} (now : ℕ) (build : Build)
    (sampling : 0 < configuration.samplingLengthMs) (filled : Filled t) :
    Filled (beginCall build configuration now t).record := by
  have cycle := filled.cycle.beginCall build now
    (beginCall_samplingLength_pos build now sampling.le filled.cycle.positive)
  have stamps := @stamp_nonzero (advance t) now
  obtain ⟨whole, empty, rates⟩ := filled.measured now
  have cases := beginCall_begins build configuration now t
  generalize beginCall build configuration now t = outcome at cases cycle ⊢
  cases cases with
  | skipped far => exact ⟨cycle, filled.stamped, filled.whole, filled.empty, filled.rates⟩
  | quiet near idle =>
      exact ⟨cycle, fun started => stamps (.inr started), filled.whole, filled.empty, filled.rates⟩
  | noTasks near evaluates failed =>
      exact ⟨cycle, fun started => stamps (.inl (filled.stamped started)), whole, empty, rates⟩
  | kept near evaluates chosen unasked =>
      exact ⟨cycle, fun started => stamps (.inr started), whole, empty, rates⟩
  | rejected near evaluates chosen asked failed =>
      simp only [storeConsolidated, ne_of_gt sampling, false_and, ↓reduceIte] at failed
      split at failed <;> cases failed
  | consolidated near evaluates chosen asked stored =>
      refine ⟨cycle, fun started => ⟨started, ?_⟩, ⟨0, rfl⟩, fun _ => ⟨rfl, rfl⟩,
        fun _ => ⟨1, rfl, rfl⟩⟩
      rw [storeConsolidated_returned stored]
      exact (stamps (.inr started)).2

theorem Filled.endAt {t : ThreadData} (now weight : ℕ) (filled : Filled t) :
    Filled (endCall now weight t) := by
  have cycle := filled.cycle.endCall now weight
  by_cases recorded : t.currentSample = 0
  · obtain ⟨k, whole⟩ := filled.whole
    rw [endCall_recorded recorded] at cycle ⊢
    have tasks : t.sample.numTasks + ((t.samplingLength * weight : ℕ) : Double) =
        ((k + t.samplingLength * weight : ℕ) : Double) := by rw [whole, Nat.cast_add]
    have still : ∀ none : ((k + t.samplingLength * weight : ℕ) : Double) = 0,
        weight = 0 ∧ t.sample.numTasks = 0 := by
      intro none
      have sum := Double.natCast_injective _ 0 none
      have positive := filled.cycle.positive
      have light : weight = 0 := by
        by_contra heavy
        have credit := Nat.mul_pos positive (Nat.pos_of_ne_zero heavy)
        omega
      have before : k = 0 := by omega
      rw [before] at whole
      exact ⟨light, whole⟩
    refine ⟨cycle, filled.stamped, ⟨_, tasks⟩, fun none => ⟨none, ?_⟩, ?_⟩
    · obtain ⟨light, earlier⟩ := still (tasks.symm.trans none)
      change t.sample.latency + _ = 0
      rw [light, (filled.empty earlier).latency, ← Double.natCast_mul, ← Double.natCast_mul,
        Nat.mul_zero, Nat.cast_zero, add_zero]
    · intro none
      exact filled.rates (still (tasks.symm.trans none)).2
  · rw [endCall_skipped recorded]
    exact filled

theorem Filled.neutral {c : Call} {t u : ThreadData} (step : Neutral build configuration c t u)
    (filled : Filled t) : Filled u := by
  obtain ⟨_, _, fields, stored, asked, rfl⟩ := step
  exact ⟨filled.cycle.congr rfl rfl, filled.stamped, filled.whole,
    fun none => ⟨none, (filled.empty none).latency⟩, filled.rates⟩

theorem runCaught_filled (build : Build) (sampling : 0 < configuration.samplingLengthMs)
    (calls : List Call) :
    Filled (runCaught build configuration calls (ThreadData.initial build)) :=
  runCaught_induction (fun _ t => Filled t) (ThreadData.initial build)
    (fun now _ _ _ filled => filled.beginAt now build sampling)
    (fun now weight _ _ _ filled => filled.endAt now weight)
    (fun _ _ _ _ _ step filled => filled.neutral step) calls (Filled.initial build)

/-- Where `begin()` finds no task, it throws with the record measured. -/
theorem beginCall_threw {t v : ThreadData} {now : ℕ}
    (sampling : 0 < configuration.samplingLengthMs)
    (threw : beginCall build configuration now t = .threw .noTasksStored v) :
    Evaluates (stamp now (advance t)) ∧ v = measure now (stamp now (advance t)) := by
  have cases := beginCall_begins build configuration now t
  rw [threw] at cases
  cases cases with
  | noTasks near evaluates failed => exact ⟨evaluates, rfl⟩
  | rejected near evaluates chosen asked failed =>
      simp only [storeConsolidated, ne_of_gt sampling, false_and, ↓reduceIte] at failed
      split at failed <;> cases failed

/-- A `begin()` that throws for want of a task leaves the record as it was exactly if
every call is recorded, no time has passed since the latest recorded `end()`, and the
rates are what they would be set to. Then nothing later tells that it was made. -/
theorem failed_begin_unnoticed_iff {calls : List Call} {now : ℕ} {t v : ThreadData}
    (sampling : 0 < configuration.samplingLengthMs)
    (reached : runCaught build configuration calls (ThreadData.initial build) = t)
    (threw : beginCall build configuration now t = .threw .noTasksStored v) :
    (v = t ∧ ∀ later, runCaught build configuration later v =
        runCaught build configuration later t) ↔
      t.samplingLength = 1 ∧ ullSub now t.rcvStart = 0 ∧
        (t.sample.throughput = .nan ↔ sampleTime now t = 0) := by
  have filled := runCaught_filled build sampling calls
  rw [reached] at filled
  obtain ⟨evaluates, rfl⟩ := beginCall_threw sampling threw
  obtain ⟨started, first, starts⟩ := filled.cycle.evaluates now evaluates
  have none : t.sample.numTasks = 0 := by
    obtain ⟨k, tasks⟩ := filled.whole
    obtain ⟨_, _, empty⟩ := (beginCall_threw_iff build sampling tasks).mp ⟨_, threw⟩
    rw [tasks, empty]
    rfl
  obtain ⟨set, begun⟩ := filled.stamped started
  have stamped : stamp now (advance t) = advance t := by
    simp [stamp, advance, set, begun]
  rw [stamped]
  constructor
  · rintro ⟨same, _⟩
    have counter : (measure now (advance t)).currentSample = t.currentSample :=
      congrArg ThreadData.currentSample same
    rw [measure_currentSample] at counter
    obtain ⟨one, _⟩ | ⟨_, next⟩ := starts
    · have gap : t.idleTime + ullSub now t.rcvStart * t.samplingLength = t.idleTime :=
        congrArg ThreadData.idleTime same
      have rate : nothingOver (sampleTime now t) = t.sample.throughput := by
        rw [← congrArg (fun u => u.sample.throughput) same,
          measure_empty (t := advance t) now (filled.empty none)]
        rfl
      rw [one] at gap
      refine ⟨one, by omega, ?_⟩
      rw [← rate, nothingOver_eq_nan]
    · omega
  · rintro ⟨one, gap, rate⟩
    have still : advance t = t := by
      cases t
      simp_all [advance]
    have same : measure now (advance t) = t := by
      obtain ⟨time, throughput, load⟩ := filled.rates none
      rw [throughput, nothingOver_eq_nan] at rate
      have sample : (measure now t).sample = t.sample := by
        rw [measure_empty now (filled.empty none), nothingOver_congr rate.symm]
        exact sample_with_rates throughput load
      rw [still]
      calc measure now t
          = { t with
              idleTime := t.idleTime + ullSub now t.rcvStart * t.samplingLength
              sample := (measure now t).sample } := rfl
        _ = t := by rw [sample, gap, Nat.zero_mul, Nat.add_zero]
    rw [same]
    exact ⟨rfl, fun _ => rfl⟩

/-- An `end()` of weight zero leaves the sample without a task. -/
def weightless : ThreadData :=
  runCaught {} {} [.beginAt 1, .endAt 5 0] (ThreadData.initial {})

theorem failed_begin_unnoticed_weightless :
    ∃ v, beginCall {} {} 5 weightless = .threw .noTasksStored v ∧ v = weightless := by
  have none : weightless.sample.numTasks = (0 : ℕ) := by decide +kernel
  obtain ⟨v, threw⟩ := (@beginCall_threw_iff {} weightless 5 0 {} (by decide) none).mpr
    ⟨by decide +kernel, by decide +kernel, rfl⟩
  refine ⟨v, threw, ?_⟩
  exact ((failed_begin_unnoticed_iff (by decide) rfl threw).mpr
    ⟨by decide +kernel, by decide +kernel, by decide +kernel⟩).1

/-- One `begin()`, and how its caller goes on. -/
def onceBegun : ThreadData := runCaught {} {} [.beginAt 1] (ThreadData.initial {})

def goingOn : List Call := [.endAt 3 1, .request, .beginAt 5]

/-- The `begin()` that throws makes the next sample inconsistent. -/
theorem failed_begin_noticed :
    ∃ v, beginCall {} {} 2 onceBegun = .threw .noTasksStored v ∧
      v.idleTime = 2 ∧ onceBegun.idleTime = 0 ∧
      (runCaught {} {} goingOn v).consolidatedSample.inconsistent = true ∧
      (runCaught {} {} goingOn onceBegun).consolidatedSample.inconsistent = false := by
  have none : onceBegun.sample.numTasks = (0 : ℕ) := by decide +kernel
  obtain ⟨v, threw⟩ := (@beginCall_threw_iff {} onceBegun 2 0 {} (by decide) none).mpr
    ⟨by decide +kernel, by decide +kernel, rfl⟩
  refine ⟨v, threw, ?_⟩
  obtain ⟨_, rfl⟩ := beginCall_threw (by decide) threw
  refine ⟨by decide +kernel, by decide +kernel, by decide +kernel, by decide +kernel⟩

end Riff
