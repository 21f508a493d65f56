import Riff.CorrectUse
import Riff.Periods

set_option autoImplicit false

namespace Riff

open Exact

variable {build : Build} {configuration : ApplicationConfiguration}

/-- This `begin()` serves a request with the given sample. -/
def Consolidates (build : Build) (configuration : ApplicationConfiguration) (now : ℕ)
    (t : ThreadData) (sample : ApplicationSample) : Prop :=
  ∃ u, beginCall build configuration now t = .returned u ∧ t.consolidate = true ∧
    u.consolidate = false ∧ u.consolidatedSample = sample

theorem Consolidates.stored {now : ℕ} {t : ThreadData} {sample : ApplicationSample}
    (consolidates : Consolidates build configuration now t sample) :
    Evaluates (stamp now (advance t)) ∧
      sample = { (measure now (stamp now (advance t))).sample with
        inconsistent := gapTooWide configuration now (measure now (stamp now (advance t))) ||
          t.sample.inconsistent } := by
  obtain ⟨u, returned, asked, served, rfl⟩ := consolidates
  have cases := beginCall_begins build configuration now t
  rw [returned] at cases
  cases cases with
  | skipped far => exact absurd (served.symm.trans asked) Bool.false_ne_true
  | quiet near idle => exact absurd (served.symm.trans asked) Bool.false_ne_true
  | kept near evaluates chosen unasked =>
      exact absurd (unasked.symm.trans asked) Bool.false_ne_true
  | consolidated near evaluates chosen asked stored =>
      refine ⟨evaluates, ?_⟩
      rw [storeConsolidated_returned stored]
      rfl

/-- Only the consolidated sample is ever marked. -/
theorem runCaught_unmarked (build : Build) (configuration : ApplicationConfiguration)
    (calls : List Call) :
    (runCaught build configuration calls (ThreadData.initial build)).sample.inconsistent =
      false := by
  refine runCaught_induction (fun _ t => t.sample.inconsistent = false)
    (ThreadData.initial build) ?_ ?_ ?_ calls rfl
  · intro now past t _ unmarked
    have cases := beginCall_begins build configuration now t
    generalize beginCall build configuration now t = outcome at cases ⊢
    cases cases with
    | rejected near evaluates chosen asked failed =>
        rw [record_threw, storeConsolidated_threw failed]
        exact unmarked
    | consolidated near evaluates chosen asked stored => rfl
    | _ => exact unmarked
  · intro now weight past t _ unmarked
    unfold endCall
    split <;> exact unmarked
  · intro c past t u _ step unmarked
    obtain ⟨_, _, fields, stored, asked, rfl⟩ := step
    exact unmarked

/-- With sampling, correct use throws no exception that would blur the window. -/
theorem runCaught_observed (build : Build) (sampling : 0 < configuration.samplingLengthMs)
    {calls : List Call} {q : Phase} (phases : phaseAfter calls .outside = some q)
    (unit : Weighted (· = 1) calls) (ticks : (0 :: times calls).IsChain Ticks) :
    Observed q (runCaught build configuration calls (ThreadData.initial build))
      (windowAfter build configuration calls (ThreadData.initial build) none) := by
  refine (@runCaught_invariant build configuration (· = 1) Ticks (fun p _ past t => Stocked p t ∧
    Observed p t (windowAfter build configuration past (ThreadData.initial build) none))
    (ThreadData.initial build) ?_ ?_ ?_ calls q phases unit ticks
    ⟨Stocked.initial build, Observed.initial build⟩).2
  · rintro now last past t reached tick ⟨stocked, observed⟩
    obtain ⟨u, returned, inside⟩ := stocked.beginCall build sampling tick.2
    rw [windowAfter_snoc, reached, returned]
    exact ⟨inside, observed.beginAt tick.2 returned⟩
  · rintro now weight last past t reached tick one ⟨stocked, observed⟩
    subst one
    rw [windowAfter_snoc, reached]
    exact ⟨stocked.endCall le_rfl, observed.endAt⟩
  · rintro c p last past t u reached step ⟨stocked, observed⟩
    rw [windowAfter_snoc, reached]
    exact ⟨stocked.neutral step, observed.neutral step⟩

/-! A window at the `begin()` that evaluates it, with the times in order. -/

section

variable {now : ℕ} {w : Window} {groups : List Group} {t : ThreadData}

theorem Window.OrderedTo.elapsed (ordered : w.OrderedTo now) :
    w.start + (periods w.pairs now).sum = now := by
  rw [← ordered.2]
  exact ordered.1.sum_periods

theorem Evaluated.sampleTime_eq (evaluated : Evaluated now w groups t)
    (ordered : w.OrderedTo now) :
    sampleTime now (stamp now (advance t)) = (periods w.pairs now).sum := by
  have elapsed := ordered.elapsed
  have start : (stamp now (advance t)).sampleStartTime = w.start := by
    simp [evaluated.start, evaluated.set]
  rw [sampleTime, start, ullSub_of_le _ _ (by omega)]
  omega

theorem Evaluated.estimate_eq (evaluated : Evaluated now w groups t) (ordered : w.OrderedTo now) :
    sampleTimeEstimated (measure now (stamp now (advance t))) = extrapolated groups now := by
  have times := ordered.1
  rw [evaluated.pairs] at times
  have idle : (measure now (stamp now (advance t))).idleTime = idleOf groups now := evaluated.idle
  have latency : (measure now (stamp now (advance t))).sample.latency = _ := evaluated.latency
  rw [sampleTimeEstimated_eq latency, idle, latency_add_idleOf times]

/-- Estimated and elapsed time both lie between the shortest and the longest period times
the number of iterations. -/
theorem Evaluated.close (evaluated : Evaluated now w groups t) (ordered : w.OrderedTo now)
    (tolerant : 0 ≤ configuration.consistencyThreshold) {period : ℚ}
    (even : ∀ x ∈ periods w.pairs now,
      period ≤ x ∧ x ≤ period * (1 + configuration.consistencyThreshold / 100)) :
    gapTooWide configuration now (measure now (stamp now (advance t))) = false := by
  have elapsed := sum_periods_bounds even
  obtain ⟨below, above⟩ := extrapolated_bounds fun x member =>
    even x (evaluated.pairs ▸ member)
  rw [← sum_length evaluated.pairs] at below above
  have gap : 100 * |((periods w.pairs now).sum : ℚ) - extrapolated groups now| ≤
      configuration.consistencyThreshold * (periods w.pairs now).sum := by
    have spread : |((periods w.pairs now).sum : ℚ) - extrapolated groups now| ≤
        period * (configuration.consistencyThreshold / 100) * (w.pairs.length : ℕ) := by
      rw [abs_le]
      constructor <;> linarith
    have share := mul_le_mul_of_nonneg_left elapsed.1 tolerant
    linarith
  have time := evaluated.sampleTime_eq ordered
  rw [gapTooWide, evaluated.estimate_eq ordered]
  change Double.exceeds ((absDiff (sampleTime now (stamp now (advance t))) _ : Double) /
    (sampleTime now (stamp now (advance t)) : Double) * _) _ = _
  rw [time, Double.exceeds_percentage]
  rw [← absDiff_cast] at gap
  split
  · rename_i none
    rw [none, Nat.cast_zero, mul_zero] at gap
    have exact : absDiff 0 (extrapolated groups now) = 0 := by
      have nonpositive : ((absDiff 0 (extrapolated groups now) : ℕ) : ℚ) ≤ 0 := by linarith
      exact Nat.le_zero.mp (by exact_mod_cast nonpositive)
    rw [none, exact]
    rfl
  · rw [decide_eq_false_iff_not, not_lt]
    exact gap

/-- The recorded latencies, each counted for its group, average out between their bounds. -/
theorem Evaluated.latency_bounds (evaluated : Evaluated now w groups t)
    (ordered : w.OrderedTo now) {lo hi : ℕ}
    (bounded : ∀ q ∈ w.pairs, lo ≤ q.endTime - q.beginTime ∧ q.endTime - q.beginTime ≤ hi) :
    lo * w.pairs.length ≤ (groups.map Group.latency).sum ∧
      (groups.map Group.latency).sum ≤ hi * w.pairs.length := by
  have times := ordered.1
  rw [sum_length evaluated.pairs]
  rw [evaluated.pairs] at times bounded
  clear evaluated ordered
  induction groups with
  | nil => simp
  | cons g rest ih =>
      rw [List.flatMap_cons] at times bounded
      obtain ⟨own, later⟩ := ordered_append.mp times
      obtain ⟨least, greatest⟩ := ih
        (fun q member => bounded q (List.mem_append_right _ member)) later
      obtain ⟨below, above⟩ := bounded g.recorded (by simp [Group.pairs])
      simp only [List.map_cons, List.sum_cons, Group.latency,
        ullSub_of_le _ _ (g.recorded_ordered own).1]
      have lower := Nat.mul_le_mul_left g.length below
      have upper := Nat.mul_le_mul_left g.length above
      constructor <;> linarith

end

/-- For every consolidated sample of an alternating thread: the reported latency per task
lies between those of the window's iterations, and even periods raise no alarm. Where
latency and period are constant, the sample is what it would be without sampling. -/
theorem consolidated_sample_estimates {calls : List Call} {now : ℕ} {sample : ApplicationSample}
    (sampling : 0 < configuration.samplingLengthMs)
    (tolerant : 0 ≤ configuration.consistencyThreshold)
    (alternates : phaseAfter calls .outside = some .outside) (unit : Weighted (· = 1) calls)
    (clock : (0 :: times (calls ++ [.beginAt now])).IsChain (· < ·))
    (consolidates : Consolidates build configuration now
      (runCaught build configuration calls (ThreadData.initial build)) sample) :
    ∃ w, windowAfter build configuration calls (ThreadData.initial build) none = some w ∧
      (∃ average : ℚ, sample.latency / sample.numTasks = .finite average ∧
        ∀ lo hi : ℕ,
          (∀ q ∈ w.pairs, lo ≤ q.endTime - q.beginTime ∧ q.endTime - q.beginTime ≤ hi) →
          lo ≤ average ∧ average ≤ hi) ∧
      (∀ period : ℚ, (∀ x ∈ periods w.pairs now,
          period ≤ x ∧ x ≤ period * (1 + configuration.consistencyThreshold / 100)) →
        sample.inconsistent = false) ∧
      (∀ latency period : ℕ, (∀ q ∈ w.pairs, q.endTime - q.beginTime = latency) →
        (∀ x ∈ periods w.pairs now, x = period) →
        sample.latency / sample.numTasks = .finite latency ∧
          sample.loadPercentage = .finite (100 * latency / period) ∧
          sample.throughput = .finite (1000000000 / period) ∧ sample.inconsistent = false) := by
  obtain ⟨phases, whole⟩ := then_begin now alternates unit
  obtain ⟨_, _, ticks, tick⟩ := before_begin phases whole (ticks_of_increasing clock)
  obtain ⟨_, _, _, later⟩ := before_begin phases whole clock
  have observed := runCaught_observed build sampling alternates unit ticks
  have stocked := runCaught_stocked build sampling alternates
    (unit.mono fun _ one => Nat.le_of_eq one.symm) ticks
  obtain ⟨evaluates, shape⟩ := consolidates.stored
  obtain ⟨w, groups, window, evaluated⟩ := observed.evaluated evaluates
  have timed := runCaught_timed build configuration alternates ticks window
  have ordered := timed.outside rfl now tick.1
  have unmarked := runCaught_unmarked build configuration calls
  rw [unmarked, Bool.or_false] at shape
  generalize runCaught build configuration calls (ThreadData.initial build) = t at *
  have some : 0 < w.pairs.length := by
    obtain ⟨started, first, _⟩ := stocked.cycle.evaluates now evaluates
    obtain ⟨k, tasks, positive⟩ := stocked.tasks
    rw [Double.natCast_injective _ _ (evaluated.tasks.symm.trans tasks)]
    exact positive rfl started first
  have elapsed : 0 < (periods w.pairs now).sum := by
    have sum := ordered.elapsed
    have started := timed.started
    omega
  have latency : sample.latency = ((groups.map Group.latency).sum : ℕ) := by
    rw [shape]
    exact evaluated.latency
  have tasks : sample.numTasks = (w.pairs.length : ℕ) := by
    rw [shape]
    exact evaluated.tasks
  have average : sample.latency / sample.numTasks =
      .finite (((groups.map Group.latency).sum : ℕ) / (w.pairs.length : ℕ)) := by
    rw [latency, tasks, Double.natCast_div _ _ some]
  have count : (0 : ℚ) < (w.pairs.length : ℕ) := by exact_mod_cast some
  refine ⟨w, window, ⟨_, average, ?_⟩, ?_, ?_⟩
  · intro lo hi bounded
    obtain ⟨below, above⟩ := evaluated.latency_bounds ordered bounded
    rw [le_div_iff₀ count, div_le_iff₀ count]
    exact ⟨by exact_mod_cast below, by exact_mod_cast above⟩
  · intro period even
    rw [shape]
    exact evaluated.close ordered tolerant even
  · intro busy period steady even
    have total : (groups.map Group.latency).sum = busy * w.pairs.length := by
      obtain ⟨below, above⟩ : busy * _ ≤ _ ∧ _ ≤ busy * _ := evaluated.latency_bounds ordered
        fun q member => ⟨(steady q member).ge, (steady q member).le⟩
      exact Nat.le_antisymm above below
    have time : (periods w.pairs now).sum = w.pairs.length * period := by
      rw [List.sum_eq_card_nsmul _ period even, length_periods, nsmul_eq_mul, Nat.cast_id]
    have positive : (0 : ℚ) < period := by
      have nonzero : 0 < w.pairs.length * period := time ▸ elapsed
      exact_mod_cast Nat.pos_of_mul_pos_left nonzero
    have spent := evaluated.sampleTime_eq ordered
    rw [time] at spent
    refine ⟨?_, ?_, ?_, ?_⟩
    · rw [average, total, Nat.cast_mul, mul_div_cancel_right₀ _ count.ne']
    · rw [shape, measure_sample_loadPercentage, spent, stamp_sample, advance_sample,
        evaluated.latency, total, Double.natCast_div _ _ (time ▸ elapsed), Double.natCast_def,
        Double.finite_mul]
      push_cast
      field_simp
    · rw [shape, measure_sample_throughput, spent, stamp_sample, advance_sample,
        evaluated.tasks, Double.natCast_div_div _ _ _ (by decide),
        Double.natCast_div _ _ (time ▸ elapsed)]
      push_cast
      field_simp
    · rw [shape]
      have share : (period : ℚ) ≤ period * (1 + configuration.consistencyThreshold / 100) := by
        have more := mul_nonneg positive.le tolerant
        linarith
      have within : ∀ x ∈ periods w.pairs now, (period : ℚ) ≤ x ∧
          x ≤ period * (1 + configuration.consistencyThreshold / 100) := by
        intro x member
        rw [even x member]
        exact ⟨le_rfl, share⟩
      exact evaluated.close ordered tolerant within

/-- The record after one iteration of 3 ns, at the consolidating `begin()` 5 ns later. -/
def consolidatedOnce : ThreadData :=
  (beginCall {} {} 9
    (runCaught {} {} [.beginAt 1, .endAt 4 1, .request] (ThreadData.initial {}))).record

theorem consolidated_sample_estimates_once :
    consolidatedOnce.consolidatedSample.latency / consolidatedOnce.consolidatedSample.numTasks =
        .finite (3 : ℕ) ∧
      consolidatedOnce.consolidatedSample.loadPercentage = .finite (100 * (3 : ℕ) / (8 : ℕ)) ∧
      consolidatedOnce.consolidatedSample.throughput = .finite (1000000000 / (8 : ℕ)) ∧
      consolidatedOnce.consolidatedSample.inconsistent = false := by
  obtain ⟨u, returned, _⟩ := @Stocked.beginCall {} _ 9 {} (by decide) (by decide)
    (@runCaught_stocked {} {} (by decide) [.beginAt 1, .endAt 4 1, .request] .outside
      (by decide) (by decide) (ClockReadings.ticks ⟨by decide, by decide⟩))
  have reached : consolidatedOnce = u := congrArg Outcome.record returned
  subst reached
  obtain ⟨w, window, _, _, constant⟩ := @consolidated_sample_estimates {} {}
    [.beginAt 1, .endAt 4 1, .request] 9 consolidatedOnce.consolidatedSample (by decide)
    (by decide) (by decide) (by decide) (by decide)
    ⟨_, returned, rfl, by decide +kernel, rfl⟩
  have pairs : some ({ start := 1, opened := 1, pairs := [⟨1, 4, 1⟩] } : Window) = some w := window
  cases pairs
  exact constant 3 8 (by simp) (by simp [periods, firstBegin])

end Riff
