import Riff.Conversation

set_option autoImplicit false

namespace Riff

open Exact Transition

/-! A program with a `begin()` that calls `terminate()` when its threads are done, over
a channel that takes every message. -/

variable {n : ℕ} {p : Params n} {s t : State n}

/-- From the first test of `_started` to the mark. -/
def WorkerPc.starting : WorkerPc → Prop
  | .testing => True
  | .locking => True
  | .retesting => True
  | .announcing => True
  | .marking => True
  | _ => False

/-- A thread that has not come past the START of its first `begin()`. -/
def Early (p : Params n) (s : State n) (i : Fin n) : Prop :=
  (s.workers i).pc.starting ∨
    (s.workers i).pc = .idle ∧ (s.threads i).currentSample = 0 ∧
      (.beginCall ∈ p.program i → .beginCall ∈ (s.workers i).rest)

theorem WorkerMoves.early {i : Fin n} (sends : ∀ k, p.startSends k = true)
    (moves : WorkerMoves p i s t) (early : Early p s i) (unstarted : t.started = false) :
    Early p t i := by
  unfold Early at early ⊢
  cases moves with
  | skipped pc next far =>
      rcases early with starting | ⟨_, first, _⟩
      · rw [pc] at starting
        cases starting
      · exact absurd (advance_near first) (Nat.not_le.mpr far)
  | entered pc next near => exact .inl (by simp [WorkerPc.starting])
  | ended pc next later =>
      rcases early with starting | ⟨_, first, ahead⟩
      · rw [pc] at starting
        cases starting
      · refine .inr ⟨by simp, by simp [endCall_currentSample, first], ?_⟩
        intro member
        simpa [next] using ahead member
  | stored pc next =>
      rcases early with starting | ⟨_, first, ahead⟩
      · rw [pc] at starting
        cases starting
      · refine .inr ⟨by simp, by simp [storeCustomValue_currentSample, first], ?_⟩
        intro member
        simpa [next] using ahead member
  | @configured rest op phaseId totalThreads marked pc next shared =>
      rcases early with starting | ⟨_, first, ahead⟩
      · rw [pc] at starting
        cases starting
      · refine .inr ⟨by simp, by simpa using first, ?_⟩
        intro member
        have other : .beginCall ≠ op := by
          rintro rfl
          cases shared
        simpa [next, other] using ahead member
  | passed pc started => rw [State.goto_started, started] at unstarted; cases unstarted
  | tested pc _ => exact .inl (by simp [WorkerPc.starting])
  | locked pc free => exact .inl (by simp [WorkerPc.starting])
  | late pc started => rw [State.goto_started, started] at unstarted; cases unstarted
  | retested pc _ => exact .inl (by simp [WorkerPc.starting])
  | announced pc _ => exact .inl (by simp [WorkerPc.starting])
  | unsent pc fails => rw [sends] at fails; cases fails
  | marked pc => cases unstarted
  | _ => simp [WorkerPc.starting, *] at early

theorem WorkerMoves.unstarted {i : Fin n} (moves : WorkerMoves p i s t)
    (unstarted : t.started = false) : s.started = false := by
  cases moves with
  | marked pc => cases unstarted
  | _ => exact unstarted

theorem SupportMoves.currentSample (moves : SupportMoves p s t) (i : Fin n) :
    (t.threads i).currentSample = (s.threads i).currentSample := by
  cases moves with
  | @requests j pc =>
      by_cases own : i = j
      · subst own
        simp
      · simp [own]
  | @adds j g pc =>
      by_cases own : i = j
      · subst own
        simp
      · simp [own]
  | _ => rfl

theorem Early.congr {i : Fin n} (workers : t.workers i = s.workers i)
    (first : (t.threads i).currentSample = (s.threads i).currentSample) (early : Early p s i) :
    Early p t i := by
  unfold Early at early ⊢
  rwa [workers, first]

/-- Until the mark is set, all threads are early. -/
theorem reachable_early (sends : ∀ k, p.startSends k = true)
    (reachable : (machine p).system.Reachable s) : s.started = false → ∀ i, Early p s i := by
  apply reachable.invariant (fun s => s.started = false → ∀ i, Early p s i)
    (fun _ i => .inr ⟨rfl, rfl, id⟩)
  intro u v _ early step unstarted i
  rcases moves_of_step step with ⟨j, moves⟩ | moves | moves | moves
  · have before := early (moves.unstarted unstarted)
    by_cases own : i = j
    · subst own
      exact moves.early sends (before i) unstarted
    · exact (before i).congr (moves.frame.workers i own) (by rw [moves.frame.threads i own])
  · have frame := moves.frame
    exact (early (frame.started ▸ unstarted) i).congr (by rw [frame.workers])
      (moves.currentSample i)
  · cases moves <;> exact Early.congr (s := u) rfl rfl (early unstarted i)
  · cases moves <;> exact Early.congr (s := u) rfl rfl (early unstarted i)

theorem Worker.finished_iff {w : Worker} : w.finished = true ↔ w.pc = .idle ∧ w.rest = [] := by
  unfold Worker.finished
  split
  · rename_i pc rest
    simp [pc, rest]
  · rename_i unfinished
    simp only [Bool.false_eq_true, false_iff]
    exact fun both => unfinished both.1 both.2

/-- A thread that is done stays so. -/
theorem WorkerMoves.unfinished {i : Fin n} (moves : WorkerMoves p i s t) :
    (s.workers i).finished = false := by
  rw [Bool.eq_false_iff, ne_eq, Worker.finished_iff]
  rintro ⟨idle, done⟩
  cases moves <;> simp_all

/-- `terminate()` finds all threads done, and so they stay. -/
theorem reachable_finished (orderly : p.orderly = true)
    (reachable : (machine p).system.Reachable s) (closing : s.main ≠ .working) :
    ∀ i, (s.workers i).finished = true := by
  revert closing
  apply reachable.invariant (fun s => s.main ≠ .working →
    ∀ i, (s.workers i).finished = true) (fun working => absurd rfl working)
  intro u v _ finished step closing
  rcases moves_of_step step with ⟨j, moves⟩ | moves | moves | moves
  · have done := finished (moves.frame.main ▸ closing) j
    rw [moves.unfinished] at done
    cases done
  · rw [moves.frame.workers]
    exact finished (moves.frame.main ▸ closing)
  · cases moves with
    | summarises pc allowed => exact allowed orderly
    | stops pc => exact finished (by rw [pc]; exact MainPc.noConfusion)
    | joins pc returned => exact finished (by rw [pc]; exact MainPc.noConfusion)
    | sends pc => exact finished (by rw [pc]; exact MainPc.noConfusion)
    | receives pc taken => exact finished (by rw [pc]; exact MainPc.noConfusion)
  · cases moves <;> exact finished closing

/-- When all threads are done, START has been sent. -/
theorem startSent_of_finished (sends : ∀ k, p.startSends k = true) {i : Fin n}
    (begins : .beginCall ∈ p.program i) (reachable : (machine p).system.Reachable s)
    (finished : (s.workers i).finished = true) : s.startSent := by
  obtain ⟨idle, done⟩ := Worker.finished_iff.mp finished
  rw [(reachable_starting reachable).1.sent]
  left
  by_contra unstarted
  rcases reachable_early sends reachable (Bool.eq_false_iff.mpr unstarted) i with
    starting | ⟨_, _, ahead⟩
  · rw [idle] at starting
    exact starting
  · rw [done] at ahead
    exact absurd (ahead begins) List.not_mem_nil

/-- The first message to the monitor is START. -/
def Greeted (s : State n) : Prop :=
  ∀ packet, s.toMonitor.sent.head? = some packet → packet.message.type = .start

theorem Greeted.of_sent (greeted : Greeted s) (sent : t.toMonitor.sent = s.toMonitor.sent) :
    Greeted t := by
  rwa [Greeted, sent]

theorem Greeted.send (greeted : Greeted s) {packet : Packet}
    (sent : t.toMonitor = s.toMonitor.send packet)
    (first : s.toMonitor.sent = [] → packet.message.type = .start) : Greeted t := by
  intro head found
  rw [sent, Channel.send_sent] at found
  cases earlier : s.toMonitor.sent with
  | nil =>
      rw [earlier] at found
      cases found
      exact first earlier
  | cons other rest =>
      rw [earlier] at found
      exact greeted head (by rw [earlier]; exact found)

theorem Session.Coherent.sent_of_sending {c : Session} (coherent : c.Coherent)
    (serving : c.serving = .sending) : c.toMonitor.sent ≠ [] := by
  have serves := coherent.serves
  have served := coherent.served
  simp only [Serves, serving] at serves
  intro none
  cases coherent.opening with
  | silent _ _ _ asked => omega
  | regular sent _ => rw [sent] at none; cases none
  | misled sent =>
      rcases sent with sent | sent
      · rw [sent] at none; cases none
      · rw [sent] at none; cases none

theorem reachable_greeted (orderly : p.orderly = true) (sends : ∀ k, p.startSends k = true)
    {i : Fin n} (begins : .beginCall ∈ p.program i) (reachable : (machine p).system.Reachable s) :
    Greeted s := by
  apply reachable.invariant Greeted (fun packet found => by cases found)
  intro u v reached greeted step
  rcases moves_of_step step with ⟨j, moves⟩ | moves | moves | moves
  · cases moves with
    | announced pc _ => exact greeted.send rfl fun _ => rfl
    | _ => exact greeted.of_sent rfl
  · cases moves with
    | @sends m pc =>
        refine greeted.send rfl fun none => absurd ?_
          ((reachable_session reached).sent_of_sending (SupportPc.serving_sending.mpr ⟨m, pc⟩))
        exact List.map_eq_nil_iff.mpr none
    | _ => exact greeted.of_sent rfl
  · cases moves with
    | sends pc =>
        have closing : u.main ≠ .working := by rw [pc]; exact MainPc.noConfusion
        obtain ⟨packet, member, _⟩ := startSent_of_finished sends begins reached
          (reachable_finished orderly reached closing i)
        apply greeted.send rfl
        intro none
        rw [none] at member
        cases member
    | _ => exact greeted.of_sent rfl
  · exact greeted.of_sent moves.sent

/-- The conversation as the monitor of such a program sees it. -/
inductive Greeting (s : State n) : Prop
  | silent (working : s.main = .working) (sent : s.toMonitor.sent = [])
      (waiting : s.monitor.pc = .waiting)
  | regular (sent : s.session.toMonitor.sent =
        { type := .start } :: (Session.replies s.session.replied ++ s.session.closing.stops))
      (hears : s.session.Hears)

theorem reachable_greeting (orderly : p.orderly = true) (sends : ∀ k, p.startSends k = true)
    {i : Fin n} (begins : .beginCall ∈ p.program i) (reachable : (machine p).system.Reachable s) :
    Greeting s := by
  have greeted := reachable_greeted orderly sends begins reachable
  cases (reachable_session reachable).opening with
  | silent sent unsaid asking asked =>
      have none : s.toMonitor.sent = [] := List.map_eq_nil_iff.mp sent
      refine .silent ?_ none ?_
      · by_contra closing
        obtain ⟨packet, member, _⟩ := startSent_of_finished sends begins reachable
          (reachable_finished orderly reachable closing i)
        rw [none] at member
        cases member
      · change s.monitor.pc.asking = .waiting at asking
        cases pc : s.monitor.pc <;> simp_all [MonitorPc.asking]
  | regular sent hears => exact .regular sent hears
  | misled sent =>
      have head : ∃ rest, s.toMonitor.sent.map Packet.signal = { type := .stop } :: rest := by
        rcases sent with sent | sent
        · exact ⟨_, sent⟩
        · exact ⟨_, sent⟩
      obtain ⟨rest, head⟩ := head
      obtain ⟨packet, more, first, signal, _⟩ := List.map_eq_cons_iff.mp head
      have start := greeted packet (by rw [first]; rfl)
      have stop : packet.message.type = .stop := congrArg Signal.type signal
      rw [start] at stop
      cases stop

theorem Greeting.expected (greeting : Greeting s) : s.monitor.pc ≠ .failed := by
  intro pc
  cases greeting with
  | silent _ _ waiting => rw [pc] at waiting; cases waiting
  | regular _ hears =>
      have asking : s.session.asking = .failed :=
        congrArg MonitorPc.asking pc
      simp only [Session.Hears, asking] at hears

end Riff
