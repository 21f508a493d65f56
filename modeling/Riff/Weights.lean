import Riff.Unsampled

set_option autoImplicit false

namespace Riff

open Exact

/-- A sample that a `begin()` has handed over, and the window it covers. -/
structure Consolidation where
  sample : ApplicationSample
  start : ℕ
  close : ℕ

/-- Only a consolidating `begin()` clears the flag. -/
def consolidation : Call → ThreadData → ThreadData → Option Consolidation
  | .beginAt now, t, u =>
      if t.consolidate && !u.consolidate then some ⟨u.consolidatedSample, t.sampleStartTime, now⟩
      else none
  | _, _, _ => none

/-- The consolidated samples of a run, up to the exception that ends it. -/
def consolidations (build : Build) (configuration : ApplicationConfiguration) :
    List Call → ThreadData → List Consolidation
  | [], _ => []
  | c :: calls, t =>
      match call build configuration c t with
      | .returned u => (consolidation c t u).toList ++ consolidations build configuration calls u
      | .threw _ _ => []

def Outcome.raised : Outcome → Bool
  | .returned _ => false
  | .threw _ _ => true

/-- The load, the inconsistent flag and the window. -/
def Consolidation.timing (c : Consolidation) : Double × Bool × ℕ × ℕ :=
  (c.sample.loadPercentage, c.sample.inconsistent, c.start, c.close)

/-- The same call, up to the weight of an `end()`. -/
inductive Reweighted : Call → Call → Prop
  | same (c : Call) : Reweighted c c
  | weights (now v w : ℕ) : Reweighted (.endAt now v) (.endAt now w)

/-- `storeCustomValue` with an index that no field has. -/
def Call.misindexed : Call → Bool
  | .storeCustomValue index _ => decide (riffMaxCustomFields ≤ index)
  | _ => false

/-- The windows in which a request is served, up to a call that throws whatever the
times are. -/
def servedWindows : List Call → Tally → List Served
  | [], _ => []
  | c :: calls, s =>
      if c.misindexed then [] else (s.serves c).toList ++ servedWindows calls (s.next c)

/-- Window by window, the two weighted times are equal and tolerated, up to a window
where neither is tolerated. -/
def AgreeUntilThrow (threshold : ℚ) : List Served → List Served → Prop
  | [], [] => True
  | v :: vs, w :: ws =>
      v.Overweight threshold ∧ w.Overweight threshold ∨
        ¬ v.Overweight threshold ∧ ¬ w.Overweight threshold ∧ v.weighted = w.weighted ∧
          AgreeUntilThrow threshold vs ws
  | _, _ => False

variable {build : Build} {configuration : ApplicationConfiguration}

theorem Tally.serves_close {s : Tally} {now : ℕ} {v : Served}
    (served : s.serves (.beginAt now) = some v) : v.close = now := by
  unfold Tally.serves at served
  grind

/-- On a clock that moves, the gap is too wide exactly if the window is overweight. -/
theorem Tallied.overweight {last now : ℕ} {s : Tally} {t : ThreadData} {v : Served}
    (later : last < now) (served : s.serves (.beginAt now) = some v)
    (inv : Tallied .outside last s t) :
    gapTooWide configuration now (accumulated now t) =
      decide (v.Overweight configuration.consistencyThreshold) := by
  rw [inv.gap ⟨Nat.le_of_lt later, Nat.zero_lt_of_lt later⟩]
  cases inv.elapsed with
  | fresh outside unset =>
      simp only [Tally.serves, unset] at served
      cases served
  | running since positive begun opened account past =>
      have kept : (accumulated now t).sampleStartTime = t.sampleStartTime := by
        unfold accumulated
        split <;> simp [positive]
      simp only [Phase.mark] at account past
      have moved : now - t.sampleStartTime ≠ 0 := by omega
      simp only [Tally.serves, since] at served
      split at served
      · cases served
        simp only [kept, moved, ↓reduceIte]
        exact decide_eq_decide.mpr Iff.rfl
      · cases served

def Served.timing (v : Served) : Double × Bool × ℕ × ℕ := (v.load, false, v.start, v.close)

/-- The tolerated windows before the first overweight one. -/
def tolerated (threshold : ℚ) (windows : List Served) : List Served :=
  windows.takeWhile fun v => !decide (v.Overweight threshold)

def anyOverweight (threshold : ℚ) (windows : List Served) : Bool :=
  windows.any fun v => decide (v.Overweight threshold)

/-- What a run shows is what the windows of its calls tell. -/
structure Follows (build : Build) (configuration : ApplicationConfiguration)
    (calls : List Call) (s : Tally) (t : ThreadData) : Prop where
  raised : (run build configuration calls t).raised =
    (anyOverweight configuration.consistencyThreshold (servedWindows calls s) ||
      calls.any Call.misindexed)
  logged : (consolidations build configuration calls t).map Consolidation.timing =
    (tolerated configuration.consistencyThreshold (servedWindows calls s)).map Served.timing

theorem Follows.beginAt (unsampled : configuration.samplingLengthMs = 0)
    (default : build.riffDefaultSamplingLength = 1) {calls : List Call} {last now : ℕ}
    {s : Tally} {t : ThreadData} (later : last < now) (inv : Tallied .outside last s t)
    (next : ∀ u, Tallied .inside now (s.next (.beginAt now)) u →
      Follows build configuration calls (s.next (.beginAt now)) u) :
    Follows build configuration (.beginAt now :: calls) s t := by
  have tick : Ticks last now := ⟨Nat.le_of_lt later, Nat.zero_lt_of_lt later⟩
  have ways := inv.beginAt unsampled default tick
  suffices both : (run build configuration (.beginAt now :: calls) t).raised = _ ∧
      (consolidations build configuration (.beginAt now :: calls) t).map _ = _ from
    ⟨both.1, both.2⟩
  simp only [run, consolidations, call, servedWindows, Call.misindexed,
    Bool.false_eq_true, ↓reduceIte, List.any_cons, Bool.false_or]
  generalize beginCall build configuration now t = outcome at ways ⊢
  cases ways with
  | @unasked u none same tallied =>
      obtain ⟨raised, logged⟩ := next u tallied
      have unlogged : consolidation (.beginAt now) t u = Option.none := by
        simp [consolidation, same]
      simp only [none, unlogged, Option.toList_none, List.nil_append]
      exact ⟨raised, logged⟩
  | @served v u some start close answered load consistent tallied =>
      obtain ⟨raised, logged⟩ := next u tallied
      have light : decide (v.Overweight configuration.consistencyThreshold) = false :=
        (inv.overweight later some).symm.trans close
      have noted : consolidation (.beginAt now) t u =
          Option.some ⟨u.consolidatedSample, v.start, v.close⟩ := by
        simp [consolidation, answered, start, Tally.serves_close some]
      simp only [some, noted, Option.toList_some, List.singleton_append, anyOverweight,
        tolerated, List.any_cons, List.takeWhile_cons, light, Bool.false_or, Bool.not_false,
        ↓reduceIte, List.map_cons, Consolidation.timing, Served.timing, load, consistent]
      exact ⟨raised, congrArg _ logged⟩
  | @refused v error u some wide =>
      have wider : decide (v.Overweight configuration.consistencyThreshold) = true :=
        (inv.overweight later some).symm.trans wide
      simp [some, Outcome.raised, anyOverweight, tolerated, wider]

theorem Follows.neutral {calls : List Call} {c : Call} {s : Tally} {t : ThreadData}
    (quiet : c.time = none)
    (next : Follows build configuration calls (s.next c)
      (call build configuration c t).record) :
    Follows build configuration (c :: calls) s t := by
  cases c with
  | beginAt now => cases quiet
  | endAt now weight => cases quiet
  | request => exact ⟨next.raised, next.logged⟩
  | collect => exact ⟨next.raised, next.logged⟩
  | storeCustomValue index value =>
      by_cases inside : index < riffMaxCustomFields
      · obtain ⟨u, returns⟩ : ∃ u, storeCustomValue index value t = .returned u :=
          ⟨_, dif_pos inside⟩
        have indexed : (Call.storeCustomValue index value).misindexed = false := by
          simpa only [Call.misindexed, decide_eq_false_iff_not, Nat.not_le] using inside
        simp only [call, returns, record_returned] at next
        constructor
        · simp only [run, call, returns, servedWindows, indexed, Bool.false_eq_true, ↓reduceIte,
            List.any_cons, Bool.false_or]
          exact next.raised
        · simp only [consolidations, call, returns, servedWindows, indexed, Bool.false_eq_true,
            ↓reduceIte]
          exact next.logged
      · have throws : storeCustomValue index value t = .threw .customIndexOutOfBound t :=
          dif_neg inside
        have indexed : (Call.storeCustomValue index value).misindexed = true := by
          simpa only [Call.misindexed, decide_eq_true_eq, Nat.not_lt] using inside
        constructor
        · simp only [run, call, throws, servedWindows, indexed, ↓reduceIte, List.any_cons,
            Bool.true_or, Bool.or_true]
          rfl
        · simp only [consolidations, call, throws, servedWindows, indexed, ↓reduceIte]
          rfl

theorem Reweighted.time {c d : Call} (same : Reweighted c d) : c.time = d.time := by
  cases same <;> rfl

theorem Reweighted.next {c d : Call} (same : Reweighted c d) : c.next = d.next := by
  cases same with
  | same => rfl
  | weights now v w =>
      funext p
      cases p <;> rfl

theorem Reweighted.misindexed {c d : Call} (same : Reweighted c d) :
    c.misindexed = d.misindexed := by
  cases same <;> rfl

theorem AgreeUntilThrow.anyOverweight {threshold : ℚ} {vs ws : List Served}
    (agree : AgreeUntilThrow threshold vs ws) :
    anyOverweight threshold vs = anyOverweight threshold ws := by
  induction vs generalizing ws with
  | nil =>
      cases ws with
      | nil => rfl
      | cons => cases agree
  | cons v vs ih =>
      cases ws with
      | nil => cases agree
      | cons w ws =>
          unfold Riff.anyOverweight at ih ⊢
          rcases agree with ⟨left, right⟩ | ⟨left, right, _, later⟩
          · simp only [List.any_cons, left, right, decide_true, Bool.true_or]
          · simp only [List.any_cons, left, right, decide_false, Bool.false_or, ih later]

end Riff
