import Riff.StartOnce

set_option autoImplicit false

namespace Riff

open Exact Transition

variable {n : ℕ} {p : Params n} {s t : State n} {i : Fin n}

/-- An attempt to send START has failed. -/
def State.startFailed (p : Params n) (s : State n) : Prop :=
  ∃ k < s.attempts, p.startSends k = false

/-- A failed attempt leaves room for the next one. -/
structure Recovers (p : Params n) (s : State n) : Prop where
  released : ∀ i t, BeginLeaves p i s t → t.mutex ≠ some i
  marked : s.started = true → s.startSent
  retries : s.startFailed p → ∀ i, (s.workers i).pc = .locking →
    ∃ t, (machine p).system.Reaches s t ∧ t.mutex = some i

theorem marked_startSent (reachable : (machine p).system.Reachable s) (marked : s.started = true) :
    s.startSent :=
  (reachable_starting reachable).1.sent.mpr (.inl marked)

/-- After a successful first attempt there is no second one. -/
theorem not_startFailed (first : p.startSends 0 = true)
    (reachable : (machine p).system.Reachable s) : ¬ s.startFailed p := by
  rintro ⟨k, before, fails⟩
  have once := (reachable_tried first reachable).1
  have same : k = 0 := by omega
  rw [same, first] at fails
  cases fails

theorem recovers_of_first (first : p.startSends 0 = true)
    (reachable : (machine p).system.Reachable s) : Recovers p s := by
  refine ⟨?_, marked_startSent reachable, ?_⟩
  · intro i t leaves held
    obtain ⟨moved, idle, _⟩ := leaves
    have inside := reachable_held first (reachable.tail ⟨.worker i, moved⟩) i held
    rw [idle] at inside
    exact inside
  · intro failed
    exact absurd failed (not_startFailed first reachable)

/-! Programs without a `begin()`. -/

/-- No thread is in a `begin()`, or has one to come. -/
def Beginless (s : State n) : Prop :=
  ∀ i, (s.workers i).pc = .idle ∧ .beginCall ∉ (s.workers i).rest

theorem WorkerMoves.beginless (moves : WorkerMoves p i s t) (beginless : Beginless s) :
    Beginless t ∧ t.attempts = s.attempts := by
  obtain ⟨idle, none⟩ := beginless i
  have others : ∀ j, j ≠ i → (t.workers j).pc = .idle ∧ .beginCall ∉ (t.workers j).rest := by
    intro j other
    rw [moves.frame.workers j other]
    exact beginless j
  have here : ((t.workers i).pc = .idle ∧ .beginCall ∉ (t.workers i).rest) ∧
      t.attempts = s.attempts := by
    cases moves with
    | skipped pc next far => simp [next] at none
    | entered pc next near => simp [next] at none
    | ended pc next later => exact ⟨by simpa [next] using none, rfl⟩
    | stored pc next => exact ⟨by simpa [next] using none, rfl⟩
    | configured pc next shared =>
        rw [next, List.mem_cons, not_or] at none
        exact ⟨by simpa using none.2, rfl⟩
    | _ => simp [idle] at *
  refine ⟨?_, here.2⟩
  intro j
  by_cases own : j = i
  · rw [own]
    exact here.1
  · exact others j own

theorem reachable_beginless (none : ∀ i, .beginCall ∉ p.program i)
    (reachable : (machine p).system.Reachable s) : Beginless s ∧ s.attempts = 0 := by
  apply reachable.invariant (fun s => Beginless s ∧ s.attempts = 0) ⟨fun i => ⟨rfl, none i⟩, rfl⟩
  rintro u v _ ⟨beginless, untried⟩ step
  rcases moves_of_step step with ⟨i, moves⟩ | moves | moves | moves
  · obtain ⟨still, same⟩ := moves.beginless beginless
    exact ⟨still, same.trans untried⟩
  · refine ⟨?_, ?_⟩
    · intro i
      rw [moves.frame.workers]
      exact beginless i
    · cases moves <;> exact untried
  · cases moves <;> exact ⟨beginless, untried⟩
  · cases moves <;> exact ⟨beginless, untried⟩

theorem recovers_of_beginless (none : ∀ i, .beginCall ∉ p.program i)
    (reachable : (machine p).system.Reachable s) : Recovers p s := by
  obtain ⟨beginless, untried⟩ := reachable_beginless none reachable
  refine ⟨?_, marked_startSent reachable, ?_⟩
  · rintro i t ⟨_, _, busy | ⟨rest, next⟩⟩
    · exact absurd (beginless i).1 busy
    · have absent := (beginless i).2
      rw [next] at absent
      exact absurd List.mem_cons_self absent
  · rintro ⟨k, before, _⟩
    omega

/-! The thread whose attempt fails. -/

/-- Nothing has been tried, and thread `i` has not begun. -/
structure Untried (i : Fin n) (s : State n) : Prop where
  counter : (s.threads i).currentSample = 0
  unmarked : s.started = false
  free : s.mutex = none
  attempts : s.attempts = 0

/-- The calls before the first `begin()` can be made one after the other. -/
theorem Untried.reaches_begin {before rest : List Op} (none : .beginCall ∉ before) :
    ∀ {s : State n}, Untried i s → s.workers i = { rest := before ++ .beginCall :: rest } →
      ∃ t, (machine p).system.Reaches s t ∧ Untried i t ∧
        t.workers i = { rest := .beginCall :: rest } := by
  induction before with
  | nil => exact fun untried next => ⟨_, .refl, untried, next⟩
  | cons op before ih =>
      intro s untried next
      rw [List.mem_cons, not_or] at none
      obtain ⟨counter, unmarked, free, attempts⟩ := untried
      have moved : (machine p).system.Step s
          (enter p i op (s.pop i (before ++ .beginCall :: rest))) :=
        ⟨.worker i, by simp [machine, stepWorker, next]⟩
      have workers : (enter p i op (s.pop i (before ++ .beginCall :: rest))).workers i =
          { rest := before ++ .beginCall :: rest } := by
        cases op with
        | beginCall => exact absurd rfl none.1
        | _ => simp [enter]
      have still : Untried i (enter p i op (s.pop i (before ++ .beginCall :: rest))) := by
        cases op with
        | beginCall => exact absurd rfl none.1
        | endCall weight =>
            exact ⟨by simp [enter, endCall_currentSample, counter], unmarked, free, attempts⟩
        | storeCustomValue index value =>
            exact ⟨by simp [enter, storeCustomValue_currentSample, counter], unmarked, free,
              attempts⟩
        | _ => exact ⟨counter, unmarked, free, attempts⟩
      obtain ⟨t, reaches, there, at_begin⟩ := ih none.2 still workers
      exact ⟨t, .head moved reaches, there, at_begin⟩

/-- From there it goes on to the attempt, with nobody in its way. -/
theorem Untried.reaches_attempt {rest : List Op} (untried : Untried i s)
    (next : s.workers i = { rest := .beginCall :: rest }) :
    ∃ t, (machine p).system.Reaches s t ∧ (t.workers i).pc = .announcing ∧
      t.mutex = some i ∧ t.attempts = 0 := by
  obtain ⟨counter, unmarked, free, attempts⟩ := untried
  have near : ¬ 1 < (advance (s.threads i)).currentSample := Nat.not_lt.mpr (advance_near counter)
  let entered := ((s.pop i rest).setThread i (advance (s.threads i))).goto i .testing
  let holding := { entered.goto i .locking with mutex := some i }.goto i .retesting
  have enters : (machine p).system.Step s entered := by
    refine ⟨.worker i, ?_⟩
    simp only [machine, stepWorker, next, enter, State.pop_threads, near, ↓reduceIte]
    rfl
  have tests : (machine p).system.Step entered (entered.goto i .locking) :=
    ⟨.worker i, by simp [machine, stepWorker, entered, unmarked]⟩
  have locks : (machine p).system.Step (entered.goto i .locking) holding :=
    ⟨.worker i, by simp [machine, stepWorker, entered, holding, free]⟩
  have retests : (machine p).system.Step holding (holding.goto i .announcing) :=
    ⟨.worker i, by simp [machine, stepWorker, entered, holding, unmarked]⟩
  refine ⟨_, .head enters (.head tests (.head locks (.single retests))), ?_, rfl, attempts⟩
  simp

/-- The exception takes the mutex along. -/
theorem unsent_leaves (pc : (s.workers i).pc = .announcing) (held : s.mutex = some i)
    (fails : p.startSends s.attempts = false) : ∃ t, BeginLeaves p i s t ∧ t.mutex = some i := by
  refine ⟨{ s with attempts := s.attempts + 1 }.goto i .idle, ⟨?_, ?_, ?_⟩, held⟩
  · simp [stepWorker, pc, fails]
  · simp
  · exact .inl (by rw [pc]; exact WorkerPc.noConfusion)

theorem first_fails_unreleased (fails : p.startSends 0 = false) (begins : .beginCall ∈ p.program i) :
    ∃ s, (machine p).system.Reachable s ∧ ¬ Recovers p s := by
  obtain ⟨before, rest, split, none⟩ := List.eq_append_cons_of_mem begins
  have fresh : Untried i (machine p).start := ⟨rfl, rfl, rfl, rfl⟩
  have program : (machine p).start.workers i = { rest := before ++ .beginCall :: rest } := by
    rw [← split]
    rfl
  obtain ⟨u, toBegin, untried, next⟩ := fresh.reaches_begin none program
  obtain ⟨s, toAttempt, pc, held, attempts⟩ := untried.reaches_attempt next
  refine ⟨s, toBegin.trans toAttempt, ?_⟩
  intro recovers
  obtain ⟨t, leaves, keeps⟩ := unsent_leaves (p := p) pc held (by rw [attempts]; exact fails)
  exact recovers.released i t leaves keeps

/-! What becomes of the program after the failure. -/

/-- The mutex is held, and whoever holds it is no longer on the way to giving it back. -/
structure Abandoned (s : State n) : Prop where
  held : s.mutex ≠ none
  unmarked : s.started = false
  left : ∀ i, ¬ (s.workers i).pc.locked

theorem WorkerMoves.abandoned (moves : WorkerMoves p i s t) (abandoned : Abandoned s) :
    Abandoned t := by
  obtain ⟨held, unmarked, left⟩ := abandoned
  have gone : ¬ (t.workers i).pc.locked → ∀ j, ¬ (t.workers j).pc.locked := by
    intro out j
    by_cases own : j = i
    · rw [own]
      exact out
    · rw [moves.frame.workers j own]
      exact left j
  cases moves with
  | passed pc started => rw [unmarked] at started; cases started
  | locked pc free => exact absurd free held
  | late pc started => rw [unmarked] at started; cases started
  | retested pc _ => exact absurd (by rw [pc]; trivial) (left i)
  | announced pc _ => exact absurd (by rw [pc]; trivial) (left i)
  | marked pc => exact absurd (by rw [pc]; trivial) (left i)
  | unlocked pc => exact absurd (by rw [pc]; trivial) (left i)
  | _ => exact ⟨held, unmarked, gone (by simp [WorkerPc.locked])⟩

theorem Abandoned.step (abandoned : Abandoned s) (step : (machine p).system.Step s t) :
    Abandoned t := by
  rcases moves_of_step step with ⟨i, moves⟩ | moves | moves | moves
  · exact moves.abandoned abandoned
  · have frame := moves.frame
    exact ⟨frame.mutex ▸ abandoned.held, frame.started ▸ abandoned.unmarked,
      frame.workers ▸ abandoned.left⟩
  · cases moves <;> exact ⟨abandoned.held, abandoned.unmarked, abandoned.left⟩
  · cases moves <;> exact ⟨abandoned.held, abandoned.unmarked, abandoned.left⟩

theorem WorkerMoves.attempted (fails : p.startSends 0 = false) (starting : Starting s)
    (moves : WorkerMoves p i s t) (untried : s.attempts = 0) : t.attempts = 0 ∨ Abandoned t := by
  cases moves with
  | announced pc sends =>
      rw [untried, fails] at sends
      cases sends
  | unsent pc _ =>
      have inside : (s.workers i).pc.locked := by
        rw [pc]
        trivial
      have holder : s.mutex = some i := starting.holder i inside
      refine .inr ⟨fun none => ?_, starting.fresh i pc, ?_⟩
      · rw [State.goto_mutex, holder] at none
        cases none
      · intro j
        by_cases own : j = i
        · subst own
          simp [WorkerPc.locked]
        · rw [State.goto_workers, Function.update_of_ne own]
          exact (starting.alone inside).1 j own
  | _ => exact .inl untried

theorem reachable_attempted (fails : p.startSends 0 = false)
    (reachable : (machine p).system.Reachable s) : s.attempts = 0 ∨ Abandoned s := by
  apply reachable.invariant (fun s => s.attempts = 0 ∨ Abandoned s) (.inl rfl)
  rintro u v reached (untried | abandoned) step
  · rcases moves_of_step step with ⟨i, moves⟩ | moves | moves | moves
    · exact moves.attempted fails (reachable_starting reached).1 untried
    · cases moves <;> exact .inl untried
    · cases moves <;> exact .inl untried
    · cases moves <;> exact .inl untried
  · exact .inr (abandoned.step step)

/-- After a failed attempt no thread ever acquires the mutex again: each `begin()` that
comes to the lock stays there. -/
theorem failed_start_blocks (reachable : (machine p).system.Reachable s)
    (failed : s.startFailed p) (reaches : (machine p).system.Reaches s t) :
    t.started = false ∧ ∀ i, (t.workers i).pc = .locking → stepWorker p i t = none := by
  have fails : p.startSends 0 = false := by
    apply Bool.eq_false_iff.mpr
    intro first
    exact not_startFailed first reachable failed
  have tried : s.attempts ≠ 0 := by
    obtain ⟨k, before, _⟩ := failed
    omega
  have abandoned : Abandoned t := by
    apply reaches.invariant Abandoned ((reachable_attempted fails reachable).resolve_left tried)
    exact fun _ _ _ abandoned step => abandoned.step step
  refine ⟨abandoned.unmarked, ?_⟩
  intro i pc
  obtain ⟨j, held⟩ := Option.ne_none_iff_exists'.mp abandoned.held
  simp only [stepWorker, pc, held]

/-- The notification is safe just where it cannot fail: if the first attempt to send
START succeeds, or if no thread calls `begin()`. -/
theorem start_recovers_iff :
    (∀ s, (machine p).system.Reachable s → Recovers p s) ↔
      p.startSends 0 = true ∨ ∀ i, .beginCall ∉ p.program i := by
  constructor
  · intro recovers
    by_contra neither
    rw [not_or, not_forall] at neither
    obtain ⟨unsent, i, begins⟩ := neither
    obtain ⟨s, reachable, not⟩ := first_fails_unreleased (Bool.eq_false_iff.mpr unsent)
      (not_not.mp begins)
    exact not (recovers s reachable)
  · rintro (first | none) s reachable
    · exact recovers_of_first first reachable
    · exact recovers_of_beginless none reachable

/-- A signal interrupts the first attempt, and there is a second `begin()`. -/
def interrupted : Params 1 where
  program _ := [.beginCall, .beginCall]
  readings k := k + 1
  startSends k := k ≠ 0

theorem interrupted_unrecovered :
    ¬ ∀ s, (machine interrupted).system.Reachable s → Recovers interrupted s := by
  intro recovers
  obtain ⟨s, reachable, not⟩ :=
    @first_fails_unreleased 1 interrupted (Fin.last 0) rfl List.mem_cons_self
  exact not (recovers s reachable)

end Riff
