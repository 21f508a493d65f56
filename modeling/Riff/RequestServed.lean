import Riff.CorrectUse
import Riff.FastModulo

set_option autoImplicit false

namespace Riff

open Exact

variable {build : Build} {configuration : ApplicationConfiguration}

def Call.isBegin : Call → Bool
  | .beginAt _ => true
  | _ => false

/-- The number of `begin()` calls. -/
def beginCalls (calls : List Call) : ℕ := calls.countP Call.isBegin

@[simp] theorem beginCalls_cons (c : Call) (calls : List Call) :
    beginCalls (c :: calls) = beginCalls calls + if c.isBegin then 1 else 0 :=
  List.countP_cons

theorem beginCalls_snoc (calls : List Call) (c : Call) :
    beginCalls (calls ++ [c]) = beginCalls calls + if c.isBegin then 1 else 0 := by
  simp [beginCalls, List.countP_append, List.countP_cons]

/-! How far the window is from its evaluation. -/

/-- Only a thread without a `begin()` has no start time. -/
def Started (past : List Call) (t : ThreadData) : Prop :=
  t.computeStart ≠ 0 ∨
    beginCalls past = 0 ∧ t.computeStart = 0 ∧ t.samplingLength = 1 ∧ t.currentSample = 0

theorem Started.beginAt {past : List Call} {t : ThreadData} {now : ℕ} (reading : 0 < now)
    (started : Started past t) :
    Started (past ++ [.beginAt now]) (beginCall build configuration now t).record := by
  have positive := Nat.ne_of_gt reading
  rcases started with begun | ⟨_, unset, length, counter⟩
  · apply Or.inl
    have cases := beginCall_begins build configuration now t
    generalize beginCall build configuration now t = outcome at cases ⊢
    cases cases with
    | skipped far => exact begun
    | noTasks near evaluates failed => exact begun
    | rejected near evaluates chosen asked failed =>
        rw [record_threw, storeConsolidated_threw failed]
        exact begun
    | _ => exact positive
  · have near : (advance t).currentSample ≤ 1 := advance_near counter
    rw [beginCall_first now unset near]
    exact .inl positive

theorem Started.endAt {past : List Call} {t : ThreadData} {now weight : ℕ}
    (started : Started past t) : Started (past ++ [.endAt now weight]) (endCall now weight t) := by
  have count : beginCalls (past ++ [.endAt now weight]) = beginCalls past := beginCalls_snoc _ _
  rw [Started, count]
  by_cases recorded : t.currentSample = 0
  · rw [endCall_recorded recorded]
    exact started
  · rw [endCall_skipped recorded]
    exact started

theorem Started.neutral {c : Call} {past : List Call} {t u : ThreadData}
    (step : Neutral build configuration c t u) (started : Started past t) :
    Started (past ++ [c]) u := by
  obtain ⟨quiet, _, fields, stored, asked, rfl⟩ := step
  have count : beginCalls (past ++ [c]) = beginCalls past := by
    rw [beginCalls_snoc]
    cases c with
    | beginAt now => cases quiet
    | _ => rfl
  rw [Started, count]
  exact started

/-- A `begin()` among the calls serves the request, with fewer than `bound` others before
it, and until then the flag and the length stay. -/
def ServedBy (build : Build) (configuration : ApplicationConfiguration) (bound : ℕ)
    (later : List Call) (t : ThreadData) : Prop :=
  ∃ first now rest, later = first ++ .beginAt now :: rest ∧ beginCalls first < bound ∧
    (∀ calls, calls <+: first →
      (runCaught build configuration calls t).consolidate = true ∧
        (runCaught build configuration calls t).samplingLength = t.samplingLength) ∧
    (runCaught build configuration (first ++ [.beginAt now]) t).consolidate = false

/-- One more call before them. -/
theorem ServedBy.after {bound : ℕ} {c : Call} {later : List Call} {t u : ThreadData}
    (made : (call build configuration c t).record = u) (asked : t.consolidate = true)
    (length : u.samplingLength = t.samplingLength)
    (later_served : ServedBy build configuration bound later u) :
    ServedBy build configuration (bound + if c.isBegin then 1 else 0) (c :: later) t := by
  obtain ⟨first, now, rest, split, before, waits, served⟩ := later_served
  refine ⟨c :: first, now, rest, by rw [split]; rfl, ?_, ?_, ?_⟩
  · rw [beginCalls_cons]
    omega
  · intro calls inside
    rcases List.prefix_cons_iff.mp inside with rfl | ⟨more, rfl, shorter⟩
    · exact ⟨asked, rfl⟩
    · obtain ⟨flag, same⟩ := waits more shorter
      rw [runCaught, made]
      exact ⟨flag, same.trans length⟩
  · rw [List.cons_append, runCaught, made]
    exact served

end Riff
