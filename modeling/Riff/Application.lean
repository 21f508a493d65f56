import Riff.ThreadRun
import Mathlib.Algebra.BigOperators.Fin
import Mathlib.Data.List.OfFn

set_option autoImplicit false

namespace Riff

open Exact

/-- The calls of all threads, in the order in which they are made. -/
abbrev History (n : ℕ) := List (Fin n × Call)

def callsOf {n : ℕ} (h : History n) (i : Fin n) : List Call :=
  h.filterMap fun entry => if entry.1 = i then some entry.2 else none

/-- The application's thread records after a history, every exception caught. -/
def threadDataAfter {n : ℕ} (build : Build) (configuration : ApplicationConfiguration) :
    History n → (Fin n → ThreadData) → Fin n → ThreadData
  | [], threads => threads
  | (i, c) :: h, threads =>
      threadDataAfter build configuration h
        (Function.update threads i (call build configuration c (threads i)).record)

/-- The accumulators of `terminate()`. -/
structure Totals where
  totalTasks : ℕ := 0
  firstBegin : ℕ := 2 ^ 64 - 1
  lastEnd : ℕ := 0
  deriving DecidableEq

/-- `terminate()` first adds the calls that sampling has not recorded yet. -/
def recordSpurious (td : ThreadData) : ThreadData :=
  { td with totalTasks := td.totalTasks + td.currentSample }

def Totals.add (totals : Totals) (td : ThreadData) : Totals :=
  let td := recordSpurious td
  { totalTasks := totals.totalTasks + td.totalTasks
    firstBegin := if td.firstBegin < totals.firstBegin then td.firstBegin else totals.firstBegin
    lastEnd := if td.lastEnd > totals.lastEnd then td.lastEnd else totals.lastEnd }

/-- The loop of `terminate()` over the thread records. -/
def terminateTotals (threadData : List ThreadData) : Totals := threadData.foldl Totals.add {}

/-- What `terminate()` computes at the end of a history. -/
def totalsAfter {n : ℕ} (build : Build) (configuration : ApplicationConfiguration)
    (h : History n) : Totals :=
  terminateTotals (List.ofFn
    (threadDataAfter build configuration h fun _ => ThreadData.initial build))

/-- In milliseconds. -/
def Totals.executionTime (totals : Totals) : ℕ :=
  ((ullSub totals.lastEnd totals.firstBegin : Double) / ((1000000 : ℕ) : Double)).toUnsigned

variable {n : ℕ} {build : Build} {configuration : ApplicationConfiguration}

/-- A thread's record depends on its own calls only. -/
theorem threadDataAfter_apply (h : History n) (threads : Fin n → ThreadData) (i : Fin n) :
    threadDataAfter build configuration h threads i =
      runCaught build configuration (callsOf h i) (threads i) := by
  induction h generalizing threads with
  | nil => rfl
  | cons entry h ih =>
      obtain ⟨j, c⟩ := entry
      rw [threadDataAfter, ih]
      by_cases same : j = i
      · subst same
        simp [callsOf, runCaught]
      · have other : i ≠ j := fun e => same e.symm
        simp [callsOf, same, other]

theorem callsOf_sublist (h : History n) (i : Fin n) :
    (callsOf h i).Sublist (h.map Prod.snd) := by
  induction h with
  | nil => exact .slnil
  | cons entry h ih =>
      by_cases same : entry.1 = i
      · simpa [callsOf, same] using ih
      · simpa [callsOf, same] using ih.cons entry.2

/-- A thread sees the clock of the application. -/
theorem ClockReadings.callsOf {h : History n} (clock : ClockReadings (times (h.map Prod.snd)))
    (i : Fin n) : ClockReadings (times (callsOf h i)) := by
  have part : (times (Riff.callsOf h i)).Sublist (times (h.map Prod.snd)) :=
    (callsOf_sublist h i).filterMap _
  obtain ⟨positive, nondecreasing⟩ := clock
  refine ⟨fun now member => positive now (part.subset member), ?_⟩
  rw [List.isChain_iff_pairwise] at nondecreasing ⊢
  exact nondecreasing.sublist part

theorem terminateTotals_totalTasks (threadData : List ThreadData) :
    (terminateTotals threadData).totalTasks =
      (threadData.map fun td => td.totalTasks + td.currentSample).sum := by
  rw [List.sum_eq_foldl, List.foldl_map]
  exact (List.foldl_hom Totals.totalTasks fun _ _ => rfl).symm

/-- Counting calls thread by thread counts them all. -/
theorem sum_countP_callsOf (select : Call → Bool) (h : History n) :
    ∑ i, (callsOf h i).countP select = h.countP fun entry => select entry.2 := by
  induction h with
  | nil => simp [callsOf]
  | cons entry h ih =>
      obtain ⟨j, c⟩ := entry
      have split : ∀ i, (callsOf ((j, c) :: h) i).countP select =
          (if i = j then (if select c then 1 else 0) else 0) + (callsOf h i).countP select := by
        intro i
        by_cases same : j = i
        · subst same
          simp [callsOf, List.countP_cons, Nat.add_comm]
        · have other : i ≠ j := fun e => same e.symm
          simp [callsOf, same, other]
      simp only [split, Finset.sum_add_distrib, ih, Finset.sum_ite_eq', Finset.mem_univ,
        ↓reduceIte, List.countP_cons]
      exact Nat.add_comm _ _

end Riff
