import Riff.Progress
import Riff.Lib.Fairness
import Mathlib.Data.Prod.Lex

set_option autoImplicit false

namespace Riff

open Exact Transition

variable {n : ℕ} {p : Params n} {s t : State n} {i : Fin n}

/-! How far a thread and `terminate()` are from their ends. Their steps are the only ones
that count while the stop flag is not set. -/

/-- The longest way through a `begin()` that is left. -/
def WorkerPc.stepsLeft : WorkerPc → ℕ
  | .idle => 0
  | .testing => 10
  | .locking => 9
  | .retesting => 8
  | .announcing => 7
  | .marking => 6
  | .unlocking => 5
  | .timing => 4
  | .asking _ _ => 3
  | .storing _ _ => 2
  | .publishing _ _ _ => 1

def Worker.stepsLeft (w : Worker) : ℕ := 11 * w.rest.length + w.pc.stepsLeft

def MainPc.stepsLeft : MainPc → ℕ
  | .working => 5
  | .stopping => 4
  | .joining => 3
  | .sendingStop => 2
  | .receivingAck => 1
  | .done _ => 0

def State.callsLeft (s : State n) : ℕ := ∑ i, (s.workers i).stepsLeft + s.main.stepsLeft

/-! How far the support thread and the monitor are from theirs, once the flag is set: no
thread is waited for any more, and at most one more response is sent. -/

def SupportPc.stepsLeft : SupportPc n → ℕ
  | .returned => 0
  | .failed _ => 0
  | .testing => 1
  | .sending _ => 2
  | .deciding _ => 3
  | .labelling _ => 4
  | .averaging _ => 5
  | .doubting _ => 5
  | .adjusting _ => 6
  | .closing _ => 7
  | .adding i _ => 4 * (n - i) + 5
  | .rereading i _ => 4 * (n - i) + 6
  | .stopping i _ => 4 * (n - i) + 7
  | .waiting i _ => 4 * (n - i) + 8
  | .requesting i => (n - i) + 4 * n + 9
  | .receiving => n + 4 * n + 10

def MonitorPc.stepsLeft : MonitorPc → ℕ
  | .requesting => 1
  | .acking _ => 1
  | _ => 0

/-- A response that is sent is one more for the monitor to take. -/
def State.answersLeft (s : State n) : ℕ :=
  3 * s.support.stepsLeft + 2 * s.toMonitor.pending + s.monitor.pc.stepsLeft

def State.stepsLeft (s : State n) : ℕ ×ₗ ℕ :=
  toLex (s.callsLeft, if s.supportStop then s.answersLeft else 0)

theorem WorkerMoves.stepsLeft (moves : WorkerMoves p i s t) :
    (t.workers i).stepsLeft < (s.workers i).stepsLeft := by
  cases moves with
  | skipped pc next far => simp [Worker.stepsLeft, WorkerPc.stepsLeft, pc, next]
  | entered pc next near => simp [Worker.stepsLeft, WorkerPc.stepsLeft, pc, next]; omega
  | ended pc next later => simp [Worker.stepsLeft, WorkerPc.stepsLeft, pc, next]
  | stored pc next => simp [Worker.stepsLeft, WorkerPc.stepsLeft, pc, next]
  | configured pc next shared => simp [Worker.stepsLeft, WorkerPc.stepsLeft, pc, next]
  | _ => simp [Worker.stepsLeft, WorkerPc.stepsLeft, ‹(s.workers i).pc = _›]

theorem WorkerMoves.callsLeft (moves : WorkerMoves p i s t) : t.callsLeft < s.callsLeft := by
  have less : ∑ j, (t.workers j).stepsLeft < ∑ j, (s.workers j).stepsLeft := by
    refine Finset.sum_lt_sum ?_ ⟨i, Finset.mem_univ i, moves.stepsLeft⟩
    intro j _
    by_cases own : j = i
    · rw [own]
      exact moves.stepsLeft.le
    · rw [moves.frame.workers j own]
  rw [State.callsLeft, State.callsLeft, moves.frame.main]
  omega

theorem MainMoves.callsLeft (moves : MainMoves p s t) : t.callsLeft < s.callsLeft := by
  cases moves <;> simp [State.callsLeft, MainPc.stepsLeft, ‹s.main = _›]

theorem SupportMoves.answersLeft (stop : s.supportStop = true) (moves : SupportMoves p s t) :
    t.answersLeft < s.answersLeft := by
  have stays : ∀ go : s.supportStop = false, False := by
    intro go
    rw [stop] at go
    cases go
  cases moves with
  | listens pc go => exact (stays go).elim
  | waitsOn pc go => exact (stays go).elim
  | adjustFails pc go => exact (stays go).elim
  | doubtFails pc go => exact (stays go).elim
  | decides pc go => exact (stays go).elim
  | @requests i pc =>
      have inside := i.isLt
      simp [State.answersLeft, SupportPc.stepsLeft, pc]
      omega
  | @adds i g pc =>
      have inside := i.isLt
      simp [State.answersLeft, SupportPc.stepsLeft, pc]
      omega
  | @skips i g pc flag =>
      have inside := i.isLt
      simp [State.answersLeft, SupportPc.stepsLeft, pc]
      omega
  | sends pc =>
      simp [State.answersLeft, SupportPc.stepsLeft, pc]
      omega
  | _ =>
      simp [State.answersLeft, SupportPc.stepsLeft, ‹s.support = _›]
      try omega

theorem MonitorMoves.answersLeft (moves : MonitorMoves s t) : t.answersLeft < s.answersLeft := by
  cases moves with
  | asks pc => simp [State.answersLeft, MonitorPc.stepsLeft, pc]
  | acks pc => simp [State.answersLeft, MonitorPc.stepsLeft, pc]
  | _ =>
      have fewer := Channel.pending_recv ‹s.toMonitor.recv = _›
      simp [State.answersLeft, MonitorPc.stepsLeft, ‹s.monitor.pc = _›]
      omega

/-! Who has to move next. -/

/-- The party that the threads wait for: the one inside the lock, or else anyone who is
not done. -/
noncomputable def owner (workers : Fin n → Worker) (mutex : Option (Fin n)) : Party n :=
  open Classical in
  match mutex with
  | some i => .worker i
  | none => if unfinished : ∃ i, (workers i).finished = false then .worker unfinished.choose
      else .main

/-- The parties that may take steps for ever while the threads make none. -/
def Party.answers : Party n → Prop
  | .support => True
  | .monitor => True
  | _ => False

theorem owner_calls (workers : Fin n → Worker) (mutex : Option (Fin n)) :
    ¬ (owner workers mutex).answers := by
  unfold owner
  split
  · exact id
  · split <;> exact id

noncomputable def mover (p : Params n) (s : State n) : Party n :=
  open Classical in
  if some : ∃ party, ((machine p).move party s).isSome then some.choose else .main

noncomputable def helper (p : Params n) (s : State n) : Party n :=
  if s.supportStop then mover p s else owner s.workers s.mutex

theorem mover_moves (unstuck : ¬ (machine p).Stuck s) :
    ∃ t, (machine p).move (mover p s) s = some t := by
  have some : ∃ party, ((machine p).move party s).isSome := by
    obtain ⟨party, moves⟩ := not_forall.mp unstuck
    exact ⟨party, Option.isSome_iff_ne_none.mpr moves⟩
  rw [mover, dif_pos some]
  exact Option.isSome_iff_exists.mp some.choose_spec

/-- The stop flag is the last but one step of `terminate()`. -/
theorem main_of_go (reachable : (machine p).system.Reachable s) (go : s.supportStop = false) :
    s.main = .working ∨ s.main = .stopping := by
  have closes := (reachable_session reachable).closes
  have stop : s.session.stop = false := go
  have closing : s.session.closing = s.main.closing := rfl
  unfold Session.Closes at closes
  cases main : s.main <;> simp_all [MainPc.closing]

theorem owner_moves (sends : ∀ k, p.startSends k = true)
    (reachable : (machine p).system.Reachable s) (go : s.supportStop = false) :
    ∃ t, (machine p).move (owner s.workers s.mutex) s = some t := by
  unfold owner
  split
  · rename_i i held
    have inside := reachable_held (sends 0) reachable i held
    cases moved : stepWorker p i s with
    | some t => exact ⟨t, moved⟩
    | none =>
        rcases stepWorker_none moved with finished | ⟨locking, _⟩
        · rw [(Worker.finished_iff.mp finished).1] at inside
          cases inside
        · rw [locking] at inside
          cases inside
  · rename_i free
    split
    · rename_i unfinished
      cases moved : stepWorker p unfinished.choose s with
      | some t => exact ⟨t, moved⟩
      | none =>
          rcases stepWorker_none moved with finished | ⟨_, j, held⟩
          · rw [unfinished.choose_spec] at finished
            cases finished
          · rw [free] at held
            cases held
    · rename_i none
      have finished : ∀ i, (s.workers i).finished = true := fun i =>
        Bool.eq_true_of_not_eq_false fun unfinished => none ⟨i, unfinished⟩
      rcases main_of_go reachable go with working | stopping
      · apply Option.isSome_iff_exists.mp
        simp [machine, stepMain, working, finished]
      · apply Option.isSome_iff_exists.mp
        simp [machine, stepMain, stopping]

/-- A move makes the rest of the run shorter, or it is one that does not count and
concerns nobody. -/
theorem move_stepsLeft {party : Party n} (moved : (machine p).move party s = some t) :
    t.stepsLeft < s.stepsLeft ∨ s.supportStop = false ∧ party.answers ∧
      t.stepsLeft = s.stepsLeft ∧ helper p t = helper p s := by
  cases party with
  | worker i =>
      exact .inl (Prod.Lex.toLex_lt_toLex.mpr (.inl (stepWorker_moves moved).callsLeft))
  | main => exact .inl (Prod.Lex.toLex_lt_toLex.mpr (.inl (stepMain_moves moved).callsLeft))
  | support =>
      have moves := stepSupport_moves moved
      have frame := moves.frame
      have calls : t.callsLeft = s.callsLeft := by
        rw [State.callsLeft, State.callsLeft, frame.workers, frame.main]
      by_cases stop : s.supportStop = true
      · refine .inl (Prod.Lex.toLex_lt_toLex.mpr (.inr ⟨calls, ?_⟩))
        rw [frame.supportStop, stop]
        exact moves.answersLeft stop
      · have go : s.supportStop = false := Bool.eq_false_iff.mpr stop
        refine .inr ⟨go, trivial, ?_, ?_⟩
        · rw [State.stepsLeft, State.stepsLeft, calls, frame.supportStop, go]
          rfl
        · rw [helper, helper, frame.supportStop, frame.workers, frame.mutex, go]
          rfl
  | monitor =>
      have moves := stepMonitor_moves moved
      have calls : t.callsLeft = s.callsLeft := by cases moves <;> rfl
      have flag : t.supportStop = s.supportStop := by cases moves <;> rfl
      by_cases stop : s.supportStop = true
      · refine .inl (Prod.Lex.toLex_lt_toLex.mpr (.inr ⟨calls, ?_⟩))
        rw [flag, stop]
        exact moves.answersLeft
      · have go : s.supportStop = false := Bool.eq_false_iff.mpr stop
        refine .inr ⟨go, trivial, ?_, ?_⟩
        · rw [State.stepsLeft, State.stepsLeft, calls, flag, go]
          rfl
        · have same : t.workers = s.workers ∧ t.mutex = s.mutex := by
            cases moves <;> exact ⟨rfl, rfl⟩
          rw [helper, helper, flag, same.1, same.2, go]
          rfl

theorem progress (sends : ∀ k, p.startSends k = true) (orderly : p.orderly = true)
    (begins : ∃ i, .beginCall ∈ p.program i) :
    (machine p).Progress State.completed State.stepsLeft (helper p) where
  keeps s t party reachable unfinished moved := by
    rcases move_stepsLeft moved with less | ⟨_, _, same, still⟩
    · exact .inl less
    · exact .inr ⟨same, still⟩
  helps s reachable unfinished := by
    have moves : ∃ t, (machine p).move (helper p s) s = some t := by
      unfold helper
      split
      · exact mover_moves fun stuck =>
          unfinished (completed_of_stuck sends orderly begins reachable stuck)
      · rename_i go
        exact owner_moves sends reachable (Bool.eq_false_iff.mpr go)
    obtain ⟨t, moved⟩ := moves
    refine ⟨t, moved, ?_⟩
    rcases move_stepsLeft moved with less | ⟨go, answers, _⟩
    · exact less
    · rw [helper, go] at answers
      exact absurd answers (owner_calls s.workers s.mutex)

/-- Once both sides are done, so is everybody. -/
theorem stuck_of_completed (orderly : p.orderly = true)
    (reachable : (machine p).system.Reachable s) (completed : s.completed) :
    (machine p).Stuck s := by
  obtain ⟨⟨consumed, done⟩, finished⟩ := completed
  have workers := reachable_finished orderly reachable (by rw [done]; exact MainPc.noConfusion)
  have closes := (reachable_session reachable).closes
  have closing : s.session.closing = .done consumed.signal := congrArg MainPc.closing done
  have returned : s.support.serving = .returned := by
    simp only [Session.Closes, closing] at closes
    exact closes.2.1
  intro party
  cases party with
  | worker i =>
      obtain ⟨idle, none⟩ := Worker.finished_iff.mp (workers i)
      simp only [machine, stepWorker, idle, none]
  | support =>
      cases support : s.support <;> simp_all [SupportPc.serving, machine, stepSupport]
  | main => simp only [machine, stepMain, done]
  | monitor => simp only [machine, stepMonitor, finished]

/-- A fair scheduler brings every session to its end: all calls are made, `terminate()`
returns, and so does the monitor's last `getSample()`, whatever the requests and the
sampling lengths were. -/
theorem fair_session_completes (sends : ∀ k, p.startSends k = true) (orderly : p.orderly = true)
    (begins : ∃ i, .beginCall ∈ p.program i) {turn : ℕ → Party n}
    (fair : Machine.Fair turn) :
    ∃ k, ((machine p).run turn k).completed ∧
      ∀ l, k ≤ l → (machine p).run turn l = (machine p).run turn k := by
  obtain ⟨k, completed⟩ := (progress sends orderly begins).eventually fair
  have reachable := Machine.run_reachable (m := machine p) turn k
  refine ⟨k, completed, fun l later => ?_⟩
  exact Machine.run_of_stuck (stuck_of_completed orderly reachable completed) later

/-- The parties in turn. -/
def roundRobin (k : ℕ) : Party 1 :=
  match k % 4 with
  | 0 => onlyWorker
  | 1 => .support
  | 2 => .monitor
  | _ => .main

theorem fair_session_completes_roundRobin :
    ∃ k, ((machine twoCalls).run roundRobin k).completed ∧
      ∀ l, k ≤ l → (machine twoCalls).run roundRobin l = (machine twoCalls).run roundRobin k := by
  apply fair_session_completes (fun _ => rfl) rfl ⟨0, .head _⟩
  intro party k
  have turns : ∀ r, roundRobin (4 * k + r) = roundRobin r := by
    intro r
    rw [roundRobin, roundRobin, Nat.mul_add_mod]
  cases party with
  | worker i =>
      refine ⟨4 * k + 0, by omega, ?_⟩
      rw [turns, Subsingleton.elim i (Fin.last 0)]
      rfl
  | support => exact ⟨4 * k + 1, by omega, turns 1⟩
  | monitor => exact ⟨4 * k + 2, by omega, turns 2⟩
  | main => exact ⟨4 * k + 3, by omega, turns 3⟩

end Riff
