import Riff.FirstBegin
import Riff.Ownership
import Mathlib.Algebra.Order.BigOperators.Group.Finset

set_option autoImplicit false

namespace Riff

open Exact Transition

variable {n : ℕ} {p : Params n} {s t : State n}

/-- `terminate()` has returned, and so has the monitor's last `getSample()`. -/
def State.completed (s : State n) : Prop :=
  (∃ consumed, s.main = .done consumed) ∧ s.monitor.pc = .finished

/-! Why a party has no move. -/

theorem stepWorker_none {i : Fin n} (stuck : stepWorker p i s = none) :
    (s.workers i).finished = true ∨
      (s.workers i).pc = .locking ∧ ∃ j, s.mutex = some j := by
  unfold stepWorker at stuck
  split at stuck
  · rename_i idle
    split at stuck
    · rename_i done
      exact .inl (Worker.finished_iff.mpr ⟨idle, done⟩)
    · cases stuck
  · cases stuck
  · rename_i locking
    split at stuck
    · rename_i held
      exact .inr ⟨locking, _, held⟩
    · cases stuck
  · cases stuck
  · split at stuck <;> cases stuck
  · cases stuck
  · cases stuck
  · dsimp only at stuck
    split at stuck
    · split at stuck <;> cases stuck
    · cases stuck
  · split at stuck <;> cases stuck
  · split at stuck <;> cases stuck
  · cases stuck

theorem stepSupport_none (stuck : stepSupport p s = none) :
    s.support = .returned ∨ (∃ error, s.support = .failed error) ∨
      s.support = .receiving ∧ s.toApplication.recv = none := by
  unfold stepSupport at stuck
  split at stuck
  · cases stuck
  · rename_i receiving
    split at stuck
    · rename_i empty
      exact .inr (.inr ⟨receiving, empty⟩)
    · cases stuck
  · split at stuck <;> cases stuck
  · split at stuck <;> cases stuck
  · cases stuck
  · cases stuck
  · cases stuck
  · cases stuck
  · cases stuck
  · cases stuck
  · cases stuck
  · cases stuck
  · cases stuck
  · cases stuck
  · rename_i returned
    exact .inl returned
  · rename_i error failed
    exact .inr (.inl ⟨error, failed⟩)

theorem stepMain_none (stuck : stepMain p s = none)
    (finished : ∀ i, (s.workers i).finished = true) :
    (∃ consumed, s.main = .done consumed) ∨
      s.main = .joining ∧ s.support ≠ .returned ∨
      s.main = .receivingAck ∧ s.toApplication.recv = none := by
  unfold stepMain at stuck
  split at stuck
  · split at stuck
    · cases stuck
    · rename_i forbidden
      exact absurd (fun _ => finished) forbidden
  · cases stuck
  · rename_i joining
    split at stuck
    · cases stuck
    · rename_i running
      exact .inr (.inl ⟨joining, running⟩)
  · cases stuck
  · rename_i receiving
    split at stuck
    · rename_i empty
      exact .inr (.inr ⟨receiving, empty⟩)
    · cases stuck
  · rename_i consumed done
    exact .inl ⟨consumed, done⟩

theorem stepMonitor_none (stuck : stepMonitor s = none) :
    s.monitor.pc = .finished ∨ s.monitor.pc = .failed ∨
      (s.monitor.pc = .waiting ∨ s.monitor.pc = .receiving) ∧ s.toMonitor.recv = none := by
  unfold stepMonitor at stuck
  split at stuck
  · rename_i waiting
    split at stuck
    · rename_i empty
      exact .inr (.inr ⟨.inl waiting, empty⟩)
    · cases stuck
  · cases stuck
  · rename_i receiving
    split at stuck
    · rename_i empty
      exact .inr (.inr ⟨.inr receiving, empty⟩)
    · dsimp only at stuck
      split at stuck <;> cases stuck
  · cases stuck
  · rename_i finished
    exact .inl finished
  · rename_i failed
    exact .inr (.inl failed)

theorem WorkerMoves.held {i j : Fin n}
    (sends : (s.workers j).pc = .announcing → p.startSends s.attempts = true)
    (moves : WorkerMoves p j s t)
    (locked : ∀ i, s.mutex = some i → (s.workers i).pc.locked) (held : t.mutex = some i) :
    (t.workers i).pc.locked := by
  by_cases own : i = j
  · subst own
    cases moves with
    | locked pc free => simp [WorkerPc.locked]
    | late pc started => simp [WorkerPc.locked]
    | retested pc unstarted => simp [WorkerPc.locked]
    | announced pc _ => simp [WorkerPc.locked]
    | unsent pc fails => rw [sends pc] at fails; cases fails
    | marked pc => simp [WorkerPc.locked]
    | unlocked pc => cases held
    | _ =>
        have inside := locked i held
        simp [WorkerPc.locked, ‹(s.workers i).pc = _›] at inside
  · rw [moves.frame.workers i own]
    cases moves with
    | locked pc free => exact absurd (Option.some.inj held).symm own
    | unlocked pc => cases held
    | _ => exact locked i held

/-- The mutex is held only by a thread on its way to give it back. -/
theorem reachable_held (first : p.startSends 0 = true)
    (reachable : (machine p).system.Reachable s) :
    ∀ i, s.mutex = some i → (s.workers i).pc.locked := by
  apply reachable.invariant (fun s => ∀ i, s.mutex = some i → (s.workers i).pc.locked)
    (fun i held => by cases held)
  intro u v reached locked step i held
  rcases moves_of_step step with ⟨j, moves⟩ | moves | moves | moves
  · apply moves.held _ locked held
    intro pc
    rw [(reachable_tried first reached).first (reachable_starting reached).1 pc]
    exact first
  · rw [moves.frame.workers]
    exact locked i (moves.frame.mutex ▸ held)
  · cases moves <;> exact locked i held
  · cases moves <;> exact locked i held

/-- If no thread has a move, all are done. -/
theorem finished_of_still (sends : ∀ k, p.startSends k = true)
    (reachable : (machine p).system.Reachable s) (still : ∀ i, stepWorker p i s = none)
    (i : Fin n) : (s.workers i).finished = true := by
  rcases stepWorker_none (still i) with finished | ⟨_, j, held⟩
  · exact finished
  · have inside := reachable_held (sends 0) reachable j held
    rcases stepWorker_none (still j) with finished | ⟨locking, _⟩
    · rw [(Worker.finished_iff.mp finished).1] at inside
      cases inside
    · rw [locking] at inside
      cases inside

/-- A monitor that was greeted by START waits in vain only for the reply to its last
request. -/
theorem Session.Hears.empty {c : Session} (hears : c.Hears)
    (sent : c.toMonitor.sent =
      { type := .start } :: (Session.replies c.replied ++ c.closing.stops))
    (waits : c.asking = .waiting ∨ c.asking = .receiving) (empty : c.toMonitor.recv = none) :
    c.asking = .receiving ∧ c.asked = c.replied + 1 ∧ c.closing.stops = [] := by
  have count := Channel.recv_eq_none.mp empty
  rw [sent, List.length_cons, List.length_append, Session.replies_length] at count
  rcases waits with asking | asking
  · simp only [Hears, asking] at hears
    omega
  · simp only [Hears, asking] at hears
    exact ⟨asking, by omega, List.eq_nil_of_length_eq_zero (by omega)⟩

/-- When the application waits for a message, none is on its way. -/
theorem Session.Coherent.empty {c : Session} (coherent : c.Coherent)
    (untaken : c.closing.taken = 0) (empty : c.toApplication.recv = none) :
    c.served = c.asked ∧ c.asking ≠ .finished := by
  have count := Channel.recv_eq_none.mp empty
  have served := coherent.served
  rw [coherent.asks, coherent.takes, untaken, List.length_append, Session.requests_length] at count
  refine ⟨by omega, ?_⟩
  intro finished
  rw [finished, Asking.acks, List.length_singleton] at count
  omega

theorem recv_signal_none {c : Channel Packet} :
    (c.map Packet.signal).recv = none ↔ c.recv = none := by
  rw [Channel.recv_eq_none, Channel.recv_eq_none, Channel.map_sent, Channel.map_taken,
    List.length_map]

/-- With START sent, the parties cannot all wait for each other. -/
theorem completed_of_stuck (sends : ∀ k, p.startSends k = true) (orderly : p.orderly = true)
    (begins : ∃ i, .beginCall ∈ p.program i) (reachable : (machine p).system.Reachable s)
    (stuck : (machine p).Stuck s) : s.completed := by
  obtain ⟨i, begins⟩ := begins
  have finished := finished_of_still sends reachable fun i => stuck (.worker i)
  have coherent := reachable_session reachable
  have greeting := reachable_greeting orderly sends begins reachable
  have expected := greeting.expected
  cases greeting with
  | silent _ none _ =>
      obtain ⟨packet, member, _⟩ := startSent_of_finished sends begins reachable (finished i)
      rw [none] at member
      cases member
  | regular sent hears =>
      -- The monitor waits, if it waits, for a reply that the application owes it.
      have waits : s.monitor.pc ≠ .finished → s.session.asking = .receiving ∧
          s.session.asked = s.session.replied + 1 ∧ s.session.closing.stops = [] := by
        intro unfinished
        rcases stepMonitor_none (stuck .monitor) with done | failed | ⟨place, empty⟩
        · exact absurd done unfinished
        · exact absurd failed expected
        · exact hears.empty sent
            (place.imp (congrArg MonitorPc.asking) (congrArg MonitorPc.asking))
            (recv_signal_none.mpr empty)
      rcases stepMain_none (stuck .main) finished with done | ⟨joining, running⟩ |
        ⟨receiving, empty⟩
      · refine ⟨done, ?_⟩
        by_contra unfinished
        obtain ⟨consumed, done⟩ := done
        have closing : s.session.closing = .done consumed.signal := congrArg MainPc.closing done
        have unsaid := (waits unfinished).2.2
        rw [closing] at unsaid
        cases unsaid
      · exfalso
        have closing : s.session.closing = .joining := congrArg MainPc.closing joining
        rcases stepSupport_none (stuck .support) with returned | ⟨error, failed⟩ | ⟨place, empty⟩
        · exact running returned
        · have standing := (reachable_owned reachable).standing
          rw [failed] at standing
          exact absurd standing (Nat.ne_of_gt i.pos)
        · have serving : s.session.serving = .receiving := congrArg SupportPc.serving place
          have serves := coherent.serves
          simp only [Session.Serves, serving] at serves
          obtain ⟨all, unfinished⟩ := coherent.empty (by rw [closing]; rfl)
            (recv_signal_none.mpr empty)
          have unfinished : s.monitor.pc ≠ .finished := fun done =>
            unfinished (congrArg MonitorPc.asking done)
          have owed := (waits unfinished).2.1
          omega
      · exfalso
        have closing : s.session.closing = .receivingAck := congrArg MainPc.closing receiving
        obtain ⟨_, unfinished⟩ := coherent.empty (by rw [closing]; rfl)
          (recv_signal_none.mpr empty)
        have unsaid := (waits fun done => unfinished (congrArg MonitorPc.asking done)).2.2
        rw [closing] at unsaid
        cases unsaid

/-! Without a `begin()`, nobody sends START. -/

/-- All threads stand between calls, and none is going to call `begin()`. -/
def Dull (s : State n) : Prop :=
  ∀ i, (s.workers i).pc = .idle ∧ .beginCall ∉ (s.workers i).rest

/-- The states that differ only in what the threads do on their own. -/
structure Undisturbed (s t : State n) : Prop where
  supportStop : t.supportStop = s.supportStop
  support : t.support = s.support
  main : t.main = s.main
  monitor : t.monitor = s.monitor
  toMonitor : t.toMonitor = s.toMonitor
  toApplication : t.toApplication = s.toApplication

theorem enter_workers {i : Fin n} {op : Op} (other : op ≠ .beginCall) (s : State n) :
    (enter p i op s).workers = s.workers ∧ Undisturbed s (enter p i op s) := by
  cases op with
  | beginCall => exact absurd rfl other
  | _ => exact ⟨rfl, rfl, rfl, rfl, rfl, rfl, rfl⟩

/-- One call of a thread. -/
theorem Dull.step (dull : Dull s) {i : Fin n} (unfinished : (s.workers i).rest ≠ []) :
    ∃ t, (machine p).system.Step s t ∧ Dull t ∧ Undisturbed s t ∧
      ∑ j, (t.workers j).rest.length < ∑ j, (s.workers j).rest.length := by
  obtain ⟨idle, noBegin⟩ := dull i
  cases next : (s.workers i).rest with
  | nil => exact absurd next unfinished
  | cons op rest =>
      rw [next] at noBegin
      obtain ⟨other, more⟩ := List.ne_and_not_mem_of_not_mem_cons noBegin
      obtain ⟨workers, undisturbed⟩ := enter_workers (p := p) (i := i) other.symm (s.pop i rest)
      have moved : stepWorker p i s = some (enter p i op (s.pop i rest)) := by
        simp only [stepWorker, idle, next]
      refine ⟨_, ⟨.worker i, moved⟩, ?_, ?_, ?_⟩
      · intro j
        rw [workers]
        by_cases own : j = i
        · subst own
          simpa using more
        · simpa [own] using dull j
      · obtain ⟨stop, support, main, monitor, toMonitor, toApplication⟩ := undisturbed
        exact ⟨stop, support, main, monitor, toMonitor, toApplication⟩
      · rw [workers]
        refine Finset.sum_lt_sum ?_ ⟨i, Finset.mem_univ i, ?_⟩
        · intro j _
          by_cases own : j = i
          · subst own
            simp [next]
          · simp [own]
        · simp [next]

theorem Undisturbed.trans {u : State n} (first : Undisturbed s t) (second : Undisturbed t u) :
    Undisturbed s u where
  supportStop := second.supportStop.trans first.supportStop
  support := second.support.trans first.support
  main := second.main.trans first.main
  monitor := second.monitor.trans first.monitor
  toMonitor := second.toMonitor.trans first.toMonitor
  toApplication := second.toApplication.trans first.toApplication

/-- All calls of all threads. -/
theorem Dull.finish (p : Params n) {k : ℕ} (dull : Dull s)
    (left : ∑ j, (s.workers j).rest.length ≤ k) :
    ∃ t, (machine p).system.Reaches s t ∧ Undisturbed s t ∧
      ∀ i, (t.workers i).finished = true := by
  induction k generalizing s with
  | zero =>
      refine ⟨s, .refl, ⟨rfl, rfl, rfl, rfl, rfl, rfl⟩, ?_⟩
      intro i
      refine Worker.finished_iff.mpr ⟨(dull i).1, List.eq_nil_of_length_eq_zero ?_⟩
      exact Finset.sum_eq_zero_iff.mp (Nat.le_zero.mp left) i (Finset.mem_univ i)
  | succ k ih =>
      by_cases done : ∀ i, (s.workers i).rest = []
      · exact ⟨s, .refl, ⟨rfl, rfl, rfl, rfl, rfl, rfl⟩, fun i =>
          Worker.finished_iff.mpr ⟨(dull i).1, done i⟩⟩
      · obtain ⟨i, unfinished⟩ := not_forall.mp done
        obtain ⟨u, step, dull, first, less⟩ := dull.step (p := p) unfinished
        obtain ⟨t, reaches, second, finished⟩ := ih dull (by omega)
        exact ⟨t, .head step reaches, first.trans second, finished⟩

/-- The last three steps: the support thread waits for a request, `terminate()` sets the
flag and waits for the support thread. -/
def waitForEachOther (s : State n) : State n :=
  { s with
    support := .receiving
    main := .joining
    threads := fun i => recordSpurious (s.threads i)
    executionTime := (terminateTotals (List.ofFn s.threads)).executionTime
    totalTasks := (terminateTotals (List.ofFn s.threads)).totalTasks
    supportStop := true }

theorem reaches_waitForEachOther (p : Params n) (support : s.support = .testing)
    (go : s.supportStop = false) (working : s.main = .working)
    (finished : ∀ i, (s.workers i).finished = true) :
    (machine p).system.Reaches s (waitForEachOther s) := by
  have listens : stepSupport p s = some (s.supportTo .receiving) := by
    simp only [stepSupport, support, go, Bool.false_eq_true, ↓reduceIte]
  have summarises : stepMain p (s.supportTo .receiving) =
      some { s with
        support := .receiving
        main := .stopping
        threads := fun i => recordSpurious (s.threads i)
        executionTime := (terminateTotals (List.ofFn s.threads)).executionTime
        totalTasks := (terminateTotals (List.ofFn s.threads)).totalTasks } := by
    simp only [stepMain, State.supportTo_main, working]
    exact if_pos fun _ => finished
  exact .tail (.tail (.single ⟨.support, listens⟩) ⟨.main, summarises⟩) ⟨.main, rfl⟩

theorem stuck_waitForEachOther (p : Params n) (finished : ∀ i, (s.workers i).finished = true)
    (noRequest : s.toApplication.recv = none) (waiting : s.monitor.pc = .waiting)
    (noStart : s.toMonitor.recv = none) : (machine p).Stuck (waitForEachOther s) := by
  intro party
  cases party with
  | worker i =>
      obtain ⟨idle, done⟩ := Worker.finished_iff.mp (finished i)
      simp only [machine, stepWorker, waitForEachOther, idle, done]
  | support => simp only [machine, stepSupport, waitForEachOther, noRequest]
  | main => rfl
  | monitor => simp only [machine, stepMonitor, waitForEachOther, waiting, noStart]

theorem deadlock_without_begin (none : ∀ i, .beginCall ∉ p.program i) :
    ∃ s, (machine p).system.Reachable s ∧ ¬ s.completed ∧ (machine p).Stuck s := by
  have dull : Dull (State.initial p) := fun i => ⟨rfl, none i⟩
  obtain ⟨s, reaches, undisturbed, finished⟩ := dull.finish p (Nat.le_refl _)
  have waits := reaches_waitForEachOther p undisturbed.support undisturbed.supportStop undisturbed.main
    finished
  refine ⟨waitForEachOther s, System.Reachable.trans reaches waits, ?_, ?_⟩
  · rintro ⟨⟨consumed, done⟩, _⟩
    cases done
  · refine stuck_waitForEachOther p finished ?_ ?_ ?_
    · rw [undisturbed.toApplication]
      rfl
    · rw [undisturbed.monitor]
      rfl
    · rw [undisturbed.toMonitor]
      rfl

/-- Exactly the programs in which some thread calls `begin()` cannot get stuck. -/
theorem no_deadlock_iff (sends : ∀ k, p.startSends k = true) (orderly : p.orderly = true) :
    (∀ s, (machine p).system.Reachable s → ¬ s.completed → ¬ (machine p).Stuck s) ↔
      ∃ i, .beginCall ∈ p.program i := by
  refine ⟨?_, fun begins s reachable unfinished stuck =>
    unfinished (completed_of_stuck sends orderly begins reachable stuck)⟩
  intro progress
  by_contra none
  obtain ⟨s, reachable, unfinished, stuck⟩ :=
    deadlock_without_begin (p := p) (not_exists.mp none)
  exact progress s reachable unfinished stuck

theorem no_deadlock_twoCalls :
    (∃ i, .beginCall ∈ twoCalls.program i) ∧
      ∀ s, (machine twoCalls).system.Reachable s → ¬ s.completed → ¬ (machine twoCalls).Stuck s :=
  ⟨⟨0, .head _⟩, (no_deadlock_iff (fun _ => rfl) rfl).mpr ⟨0, .head _⟩⟩

/-- A parallel region of one thread that runs no iteration. -/
def noIteration : Params 1 := { twoCalls with program := fun _ => [] }

theorem deadlock_noIteration :
    ¬ ∀ s, (machine noIteration).system.Reachable s → ¬ s.completed →
      ¬ (machine noIteration).Stuck s := by
  intro progress
  obtain ⟨s, reachable, unfinished, stuck⟩ :=
    deadlock_without_begin (p := noIteration) fun _ => List.not_mem_nil
  exact progress s reachable unfinished stuck

end Riff
