import Riff.ExecutionTime
import Mathlib.Tactic.FinCases

set_option autoImplicit false

namespace Riff

open Exact

variable {build : Build} {configuration : ApplicationConfiguration}

/-! What the calls of a thread, in whatever order, leave for `terminate()`. -/

/-- Calls that read no clock leave the record of a thread as `terminate()` sees it. -/
theorem runCaught_untimed {calls : List Call} (untimed : times calls = []) (t : ThreadData) :
    let u := runCaught build configuration calls t
    u.firstBegin = t.firstBegin ∧ u.lastEnd = t.lastEnd ∧ u.totalTasks = t.totalTasks ∧
      u.currentSample = t.currentSample := by
  induction calls generalizing t with
  | nil => exact ⟨rfl, rfl, rfl, rfl⟩
  | cons c calls ih =>
      have quiet : c.time = none := by
        cases time : c.time with
        | none => rfl
        | some now => simp [times, time] at untimed
      rw [times_neutral quiet] at untimed
      obtain ⟨_, step⟩ := call_neutral build configuration quiet t
      obtain ⟨fields, stored, asked, frame⟩ := step.frame
      have rest := ih untimed (call build configuration c t).record
      rw [frame] at rest
      simpa [runCaught, frame] using rest

theorem le_foldl_min_iff {readings : List ℕ} {bound a : ℕ} :
    a ≤ readings.foldl min bound ↔ a ≤ bound ∧ ∀ b ∈ readings, a ≤ b := by
  induction readings generalizing bound with
  | nil => simp
  | cons c rest ih => simp [ih, and_assoc]

theorem foldl_max_le_iff {readings : List ℕ} {bound a : ℕ} :
    readings.foldl max bound ≤ a ↔ bound ≤ a ∧ ∀ b ∈ readings, b ≤ a := by
  induction readings generalizing bound with
  | nil => simp
  | cons c rest ih => simp [ih, and_assoc]

variable {n m : ℕ}

/-- The second run is the first one with more threads, which call neither `begin()`
nor `end()`. `slot` tells where the threads of the first run are in the second. -/
structure Extends (slot : Fin n ↪ Fin m) (h : History n) (k : History m) : Prop where
  kept : ∀ i, callsOf k (slot i) = callsOf h i
  unused : ∀ j, j ∉ Set.range slot → times (callsOf k j) = []

/-- The records that `terminate()` finds. -/
def recordsAfter (build : Build) (configuration : ApplicationConfiguration) (h : History n) :
    Fin n → ThreadData :=
  threadDataAfter build configuration h fun _ => ThreadData.initial build

variable {slot : Fin n ↪ Fin m} {h : History n} {k : History m}

theorem Extends.record (extends' : Extends slot h k) (i : Fin n) :
    recordsAfter build configuration k (slot i) = recordsAfter build configuration h i := by
  rw [recordsAfter, recordsAfter, threadDataAfter_apply, threadDataAfter_apply, extends'.kept]

theorem Extends.untouched (extends' : Extends slot h k) {j : Fin m} (added : j ∉ Set.range slot) :
    (recordsAfter build configuration k j).firstBegin = 0 ∧
      (recordsAfter build configuration k j).lastEnd = 0 ∧
      (recordsAfter build configuration k j).totalTasks = 0 ∧
      (recordsAfter build configuration k j).currentSample = 0 := by
  rw [recordsAfter, threadDataAfter_apply]
  exact runCaught_untimed (extends'.unused j added) _

/-- What holds of all records of the longer run. -/
theorem Extends.forall_iff (extends' : Extends slot h k) (P : ThreadData → Prop) :
    (∀ j, P (recordsAfter build configuration k j)) ↔
      (∀ i, P (recordsAfter build configuration h i)) ∧
        ∀ j, j ∉ Set.range slot → P (recordsAfter build configuration k j) := by
  refine ⟨fun all => ⟨?_, fun j _ => all j⟩, fun ⟨kept, added⟩ j => ?_⟩
  · intro i
    rw [← extends'.record i]
    exact all (slot i)
  · by_cases inside : j ∈ Set.range slot
    · obtain ⟨i, rfl⟩ := inside
      rw [extends'.record i]
      exact kept i
    · exact added j inside

theorem Extends.totalTasks (extends' : Extends slot h k) :
    (totalsAfter build configuration k).totalTasks =
      (totalsAfter build configuration h).totalTasks := by
  rw [totalsAfter, totalsAfter, terminateTotals_totalTasks, terminateTotals_totalTasks,
    List.map_ofFn, List.map_ofFn, List.sum_ofFn, List.sum_ofFn]
  symm
  refine Finset.sum_of_injOn slot slot.injective.injOn (fun _ _ => Finset.mem_univ _) ?_ ?_
  · intro j _ added
    obtain ⟨_, _, total, counter⟩ :=
      @Extends.untouched build configuration n m slot h k extends' j (by simpa using added)
    exact congrArg₂ (· + ·) total counter
  · intro i _
    have same := @Extends.record build configuration n m slot h k extends' i
    exact congrArg (fun td => td.totalTasks + td.currentSample) same.symm

theorem totalsAfter_lastEnd_le_iff {a : ℕ} :
    (totalsAfter build configuration h).lastEnd ≤ a ↔
      ∀ i, (recordsAfter build configuration h i).lastEnd ≤ a := by
  rw [totalsAfter, terminateTotals_lastEnd, foldl_max_le_iff, List.map_ofFn]
  simp [List.mem_ofFn, recordsAfter]

theorem le_totalsAfter_firstBegin_iff {a : ℕ} :
    a ≤ (totalsAfter build configuration h).firstBegin ↔
      a ≤ 2 ^ 64 - 1 ∧ ∀ i, a ≤ (recordsAfter build configuration h i).firstBegin := by
  rw [totalsAfter, terminateTotals_firstBegin, le_foldl_min_iff, List.map_ofFn]
  simp [List.mem_ofFn, recordsAfter]

/-- The initial value of `lastEnd` is neutral for the maximum. -/
theorem Extends.lastEnd (extends' : Extends slot h k) :
    (totalsAfter build configuration k).lastEnd =
      (totalsAfter build configuration h).lastEnd := by
  apply eq_of_forall_ge_iff
  intro a
  rw [totalsAfter_lastEnd_le_iff, totalsAfter_lastEnd_le_iff,
    extends'.forall_iff fun td => td.lastEnd ≤ a]
  apply and_iff_left
  intro j added
  rw [(extends'.untouched added).2.1]
  exact Nat.zero_le a

/-- The initial value of `firstBegin` is the least of all. -/
theorem Extends.firstBegin (extends' : Extends slot h k) :
    (totalsAfter build configuration k).firstBegin =
      if Function.Surjective slot then (totalsAfter build configuration h).firstBegin else 0 := by
  split
  · rename_i onto
    apply eq_of_forall_le_iff
    intro a
    rw [le_totalsAfter_firstBegin_iff, le_totalsAfter_firstBegin_iff,
      extends'.forall_iff fun td => a ≤ td.firstBegin]
    refine and_congr_right fun _ => and_iff_left fun j added => absurd ?_ added
    exact onto j
  · rename_i more
    obtain ⟨j, added⟩ := not_forall.mp more
    apply Nat.le_zero.mp
    have least := (@le_totalsAfter_firstBegin_iff build configuration m k _).mp le_rfl
    rw [← (@Extends.untouched build configuration n m slot h k extends' j added).1]
    exact least.2 j

end Riff
