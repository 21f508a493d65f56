import Riff.ThreadRun

set_option autoImplicit false

namespace Riff

open Exact

/-- A window in which a consolidation request is served. -/
structure Served where
  start : ℕ
  close : ℕ
  weighted : ℕ
  plain : ℕ

/-- The time between `begin()` and `end()` that is counted more than once is more
than the tolerated share of the window. -/
def Served.Overweight (threshold : ℚ) (v : Served) : Prop :=
  threshold * ((v.close - v.start : ℕ) : ℚ) < 100 * ((v.weighted - v.plain : ℕ) : ℚ)

instance (threshold : ℚ) (v : Served) : Decidable (v.Overweight threshold) :=
  inferInstanceAs (Decidable (_ < _))

/-- What can be told of an unsampled thread from its calls alone: whether a request
is pending, the start of the window, the latest `begin()`, and the time spent between
`begin()` and `end()` since the start, with and without the weights. -/
structure Tally where
  asked : Bool := false
  start : Option ℕ := none
  opened : ℕ := 0
  weighted : ℕ := 0
  plain : ℕ := 0

/-- The window that a call closes. -/
def Tally.serves (s : Tally) : Call → Option Served
  | .beginAt now =>
      match s.start with
      | some start => if s.asked then some ⟨start, now, s.weighted, s.plain⟩ else none
      | none => none
  | _ => none

def Tally.next (s : Tally) : Call → Tally
  | .beginAt now =>
      match s.start with
      | none => { s with start := some now, opened := now }
      | some _ =>
          if s.asked then { start := some now, opened := now } else { s with opened := now }
  | .endAt now weight =>
      { s with
        weighted := s.weighted + (now - s.opened) * weight
        plain := s.plain + (now - s.opened) }
  | .request => { s with asked := true }
  | .storeCustomValue _ _ => s
  | .collect => s

variable {build : Build} {configuration : ApplicationConfiguration}

/-- The time up to which a phase has accumulated. -/
def Phase.mark : Phase → ThreadData → ℕ
  | .outside, t => t.rcvStart
  | .inside, t => t.computeStart

/-- Between two calls the unweighted time and the idle time account for all the time
of the window. -/
inductive Elapsed (p : Phase) (last : ℕ) (s : Tally) (t : ThreadData) : Prop
  | fresh (outside : p = .outside) (unset : s.start = none) (weighted : s.weighted = 0)
      (plain : s.plain = 0) (begun : t.computeStart = 0) (idle : t.idleTime = 0)
      (start : t.sampleStartTime = 0)
  | running (since : s.start = some t.sampleStartTime) (positive : t.sampleStartTime ≠ 0)
      (begun : t.computeStart ≠ 0) (opened : p = .inside → t.computeStart = s.opened)
      (account : t.sampleStartTime + s.plain + t.idleTime = p.mark t) (past : p.mark t ≤ last)

/-- The record of an unsampled thread, as far as its tally determines it. -/
structure Tallied (p : Phase) (last : ℕ) (s : Tally) (t : ThreadData) : Prop where
  length : t.samplingLength = 1
  counter : t.currentSample = 0
  asked : t.consolidate = s.asked
  consistent : t.sample.inconsistent = false
  latency : t.sample.latency = (s.weighted : ℕ)
  surplus : s.plain ≤ s.weighted
  elapsed : Elapsed p last s t

theorem Tallied.initial (unsampled : build.riffDefaultSamplingLength = 1) :
    Tallied .outside 0 {} (ThreadData.initial build) :=
  ⟨unsampled, rfl, rfl, rfl, rfl, Nat.le_refl 0, .fresh rfl rfl rfl rfl rfl rfl rfl⟩

theorem Tallied.advance {p : Phase} {last : ℕ} {s : Tally} {t : ThreadData}
    (inv : Tallied p last s t) : advance t = t := by
  obtain ⟨length, counter, _⟩ := inv
  cases t
  simp_all [Riff.advance]

/-- The record at the point of `begin()` where the idle time has been added. -/
def accumulated (now : ℕ) (t : ThreadData) : ThreadData :=
  if Evaluates (stamp now (advance t)) then measure now (stamp now (advance t))
  else stamp now (advance t)

/-- At every `begin()` the unweighted and the idle time add up to the time since the
start of the sample. -/
theorem Tallied.spans {last now : ℕ} {s : Tally} {t : ThreadData} (tick : Ticks last now)
    (inv : Tallied .outside last s t) :
    (accumulated now t).sampleStartTime ≠ 0 ∧
      (accumulated now t).sampleStartTime + s.plain + (accumulated now t).idleTime = now := by
  obtain ⟨ordered, positive⟩ := tick
  unfold accumulated
  rw [inv.advance]
  cases inv.elapsed with
  | fresh _ unset weighted plain begun idle start =>
      have quiet : ¬ Evaluates (stamp now t) := fun evaluates => evaluates.1 (by simpa using begun)
      rw [if_neg quiet]
      simp [start, plain, idle, Nat.ne_of_gt positive]
  | running since positive begun opened account past =>
      have evaluates : Evaluates (stamp now t) := ⟨by simpa using begun, Or.inr inv.length⟩
      rw [if_pos evaluates]
      simp only [Phase.mark] at account past
      have gap := ullSub_of_le now t.rcvStart (Nat.le_trans past ordered)
      simp only [measure_sampleStartTime, measure_idleTime, stamp_sampleStartTime, stamp_idleTime,
        stamp_rcvStart, stamp_samplingLength, positive, ↓reduceIte, inv.length, gap, Nat.mul_one]
      omega

theorem Tallied.accumulated_latency {last now : ℕ} {s : Tally} {t : ThreadData}
    (inv : Tallied .outside last s t) :
    (accumulated now t).sample.latency = (s.weighted : ℕ) := by
  unfold accumulated
  split <;> exact inv.latency

/-- The estimate is off by the weighted surplus alone. -/
theorem Tallied.gap {last now : ℕ} {s : Tally} {t : ThreadData} (tick : Ticks last now)
    (inv : Tallied .outside last s t) :
    let elapsed := now - (accumulated now t).sampleStartTime
    let surplus := s.weighted - s.plain
    gapTooWide configuration now (accumulated now t) =
      if elapsed = 0 then decide (surplus ≠ 0)
      else decide (configuration.consistencyThreshold * elapsed < 100 * surplus) := by
  obtain ⟨_, account⟩ := inv.spans tick
  have elapsed : sampleTime now (accumulated now t) =
      now - (accumulated now t).sampleStartTime :=
    ullSub_of_le _ _ (by omega)
  have estimated : sampleTimeEstimated (accumulated now t) =
      s.weighted + (accumulated now t).idleTime :=
    sampleTimeEstimated_eq inv.accumulated_latency
  have surplus : absDiff (sampleTime now (accumulated now t))
      (sampleTimeEstimated (accumulated now t)) = s.weighted - s.plain := by
    have more := inv.surplus
    rw [elapsed, estimated, absDiff, if_neg (by omega), ullSub_of_le _ _ (by omega)]
    omega
  rw [gapTooWide, surplus, elapsed, Double.exceeds_percentage]

/-- The share of the window that the record reports as load. -/
def Served.load (v : Served) : Double :=
  ((v.weighted : ℕ) : Double) / ((v.close - v.start : ℕ) : Double) * ((100 : ℕ) : Double)

/-- What the three ways out of an unsampled `begin()` are. -/
inductive Unsampled (build : Build) (configuration : ApplicationConfiguration) (now : ℕ)
    (s : Tally) (t : ThreadData) : Outcome → Prop
  | unasked {u : ThreadData} (none : s.serves (.beginAt now) = none)
      (same : u.consolidate = t.consolidate)
      (inv : Tallied .inside now (s.next (.beginAt now)) u) :
      Unsampled build configuration now s t (.returned u)
  | served {v : Served} {u : ThreadData} (some : s.serves (.beginAt now) = some v)
      (start : t.sampleStartTime = v.start)
      (close : gapTooWide configuration now (accumulated now t) = false)
      (answered : t.consolidate = true ∧ u.consolidate = false)
      (load : u.consolidatedSample.loadPercentage = v.load)
      (consistent : u.consolidatedSample.inconsistent = false)
      (inv : Tallied .inside now (s.next (.beginAt now)) u) :
      Unsampled build configuration now s t (.returned u)
  | refused {v : Served} {error : RuntimeError} {u : ThreadData}
      (some : s.serves (.beginAt now) = some v)
      (wide : gapTooWide configuration now (accumulated now t) = true) :
      Unsampled build configuration now s t (.threw error u)

theorem Tallied.beginAt {last now : ℕ} {s : Tally} {t : ThreadData}
    (unsampled : configuration.samplingLengthMs = 0)
    (default : build.riffDefaultSamplingLength = 1) (tick : Ticks last now)
    (inv : Tallied .outside last s t) :
    Unsampled build configuration now s t (beginCall build configuration now t) := by
  obtain ⟨start, account⟩ := inv.spans tick
  have stays := inv.advance
  have positive := Nat.ne_of_gt tick.2
  have cases := beginCall_begins build configuration now t
  generalize beginCall build configuration now t = outcome at cases ⊢
  have latency := inv.latency
  have estimate := @Tallied.accumulated_latency last now s t inv
  obtain ⟨length, counter, asked, consistent, _, surplus, elapsed⟩ := inv
  cases cases with
  | skipped far =>
      rw [stays, counter] at far
      omega
  | quiet near idle =>
      unfold accumulated at start account
      rw [if_neg idle] at start account
      cases elapsed with
      | fresh outside unset weighted plain begun noIdle noStart =>
          refine .unasked (by simp [Tally.serves, unset]) rfl ?_
          refine ⟨by simpa using length, by simpa [stays] using counter, ?_, ?_, ?_, ?_,
            .running ?_ start positive ?_ ?_ (Nat.le_refl now)⟩
          all_goals simp [Tally.next, unset, asked, consistent, latency, stays, noStart,
            Phase.mark, noIdle, plain]
      | running since set begun opened past bounded =>
          exact absurd ⟨by simpa using begun, Or.inr (by simpa using length)⟩ idle
  | noTasks near evaluates failed =>
      simp only [newSamplingLength, unsampled, ne_eq, not_true_eq_false, ↓reduceIte] at failed
      cases failed
  | @kept chosenLength near evaluates chosen unasked =>
      simp only [newSamplingLength, unsampled, ne_eq, not_true_eq_false, ↓reduceIte] at chosen
      cases chosen
      unfold accumulated at start account
      rw [if_pos evaluates] at start account
      have quiet : s.asked = false := asked.symm.trans unasked
      cases elapsed with
      | fresh outside unset weighted plain begun noIdle noStart =>
          exact absurd begun (by simpa using evaluates.1)
      | running since set begun opened past bounded =>
          refine .unasked (by simp [Tally.serves, since, quiet]) rfl ?_
          refine ⟨by simpa using length, by simp [stays, length, counter], ?_, ?_, ?_, ?_,
            .running ?_ start positive ?_ ?_ (Nat.le_refl now)⟩
          all_goals simp [Tally.next, since, quiet, unasked, consistent, latency, surplus, stays,
            set, Phase.mark]
          simpa [set, stays] using account
  | @rejected chosenLength error u near evaluates chosen wanted failed =>
      cases elapsed with
      | fresh outside unset weighted plain begun noIdle noStart =>
          exact absurd begun (by simpa using evaluates.1)
      | running since set begun opened past bounded =>
          refine .refused (v := ⟨t.sampleStartTime, now, s.weighted, s.plain⟩) ?_ ?_
          · simp [Tally.serves, since, ← asked, show t.consolidate = true from wanted]
          · unfold accumulated
            rw [if_pos evaluates]
            exact storeConsolidated_threw_wide failed
  | @consolidated chosenLength u near evaluates chosen wanted stored =>
      simp only [newSamplingLength, unsampled, ne_eq, not_true_eq_false, ↓reduceIte] at chosen
      cases chosen
      unfold accumulated at start account
      rw [if_pos evaluates] at start account
      cases elapsed with
      | fresh outside unset weighted plain begun noIdle noStart =>
          exact absurd begun (by simpa using evaluates.1)
      | running since set begun opened past bounded =>
          have loud : s.asked = true := asked.symm.trans wanted
          have close := storeConsolidated_returned_close unsampled default stored
          have written := storeConsolidated_returned stored
          refine .served (v := ⟨t.sampleStartTime, now, s.weighted, s.plain⟩)
            (by simp [Tally.serves, since, loud]) rfl ?_ ⟨wanted, rfl⟩ ?_ ?_ ?_
          · unfold accumulated
            rw [if_pos evaluates]
            exact close
          · have span : ullSub now t.sampleStartTime = now - t.sampleStartTime :=
              ullSub_of_le _ _ (by simp [stays, set] at account; omega)
            simp [written, stays, latency, Served.load, sampleTime, set, span]
          · simp [written, close, consistent]
          · refine ⟨by simpa [written] using length, by simp [written, stays, length, counter], ?_, rfl, ?_, ?_,
              .running ?_ ?_ positive ?_ ?_ (Nat.le_refl now)⟩
            all_goals simp [Tally.next, since, loud, Phase.mark, positive]

theorem Tallied.endAt {last now weight : ℕ} {s : Tally} {t : ThreadData} (tick : Ticks last now)
    (heavy : 1 ≤ weight) (inv : Tallied .inside last s t) :
    Tallied .outside now (s.next (.endAt now weight)) (endCall now weight t) := by
  obtain ⟨length, counter, asked, consistent, latency, surplus, elapsed⟩ := inv
  rw [endCall_recorded counter]
  cases elapsed with
  | fresh outside => cases outside
  | running since positive begun opened account past =>
      simp only [Phase.mark] at account past
      have latest := opened rfl
      rw [latest] at account past begun ⊢
      have gap := ullSub_of_le now s.opened (Nat.le_trans past tick.1)
      have ordered := tick.1
      refine ⟨length, counter, asked, consistent, ?_, ?_,
        .running since positive begun (fun inside => by cases inside) ?_ (Nat.le_refl now)⟩
      · simp only [latency, gap, length, Tally.next, Nat.cast_add, ← Double.natCast_mul,
          Nat.mul_one]
      · exact Nat.add_le_add surplus (Nat.le_mul_of_pos_right _ heavy)
      · simp only [Phase.mark, Tally.next]
        omega

theorem Tallied.neutral {c : Call} {p : Phase} {last : ℕ} {s : Tally} {t u : ThreadData}
    (step : Neutral build configuration c t u) (inv : Tallied p last s t) :
    Tallied p last (s.next c) u := by
  obtain ⟨length, counter, asked, consistent, latency, surplus, elapsed⟩ := inv
  have flag : u.consolidate = (s.next c).asked := by
    rw [← step.reached]
    cases c with
    | beginAt now => cases step.quiet
    | endAt now weight => cases step.quiet
    | storeCustomValue index value =>
        simp only [call, Riff.storeCustomValue]
        split <;> exact asked
    | request => rfl
    | collect => exact asked
  have same : (s.next c).start = s.start ∧ (s.next c).opened = s.opened ∧
      (s.next c).weighted = s.weighted ∧ (s.next c).plain = s.plain := by
    cases c with
    | beginAt now => cases step.quiet
    | endAt now weight => cases step.quiet
    | _ => exact ⟨rfl, rfl, rfl, rfl⟩
  obtain ⟨start, opened, weighted, plain⟩ := same
  obtain ⟨_, _, fields, stored, wanted, rfl⟩ := step
  refine ⟨length, counter, flag, consistent, ?_, ?_, ?_⟩
  · rw [weighted]
    exact latency
  · omega
  · cases elapsed with
    | fresh outside unset noWeight noPlain begun idle noStart =>
        exact .fresh outside (start.trans unset) (weighted.trans noWeight) (plain.trans noPlain)
          begun idle noStart
    | running since positive begun atOpen account past =>
        refine .running (start.trans since) positive begun ?_ ?_ ?_
        · rw [opened]
          exact atOpen
        · rw [plain]
          cases p <;> exact account
        · cases p <;> exact past

/-- For weight 1 both tallies stay equal. -/
theorem Tally.next_unit {c : Call} {s : Tally} (unit : c.Weighted (· = 1))
    (equal : s.weighted = s.plain) : (s.next c).weighted = (s.next c).plain := by
  cases c with
  | beginAt now =>
      simp only [Tally.next]
      split
      · exact equal
      · split
        · rfl
        · exact equal
  | endAt now weight =>
      change weight = 1 at unit
      simp only [Tally.next, unit, Nat.mul_one, equal]
  | _ => exact equal

end Riff
