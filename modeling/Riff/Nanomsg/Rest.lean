import Riff.Nanomsg.Quiescence
import Riff.Nanomsg.Work

set_option autoImplicit false

namespace Riff.Nanomsg

open Transition

/-- Turns of the workers, and of a thread that leaves a context, that get on with something:
descriptors are reported only when the kernel has bytes or room. -/
def Turn.works : Turn → Endpoint → Bool
  | .task, _ => true
  | .leave (some _), _ => true
  | .fdIn (some (_ :: _)), e => e.usock.state = .active
  | .fdOut (some (_ + 1)), e => e.usock.state = .active
  | _, _ => false

/-- What the kernel is ready to give in a turn, and to take. -/
def Turn.offer : Turn → List UInt8
  | .leave offer => offer.getD []
  | .fdIn offer => offer.getD []
  | _ => []

def Turn.room : Turn → ℕ
  | .fdOut room => room.getD 0
  | _ => 0

/-- A connection whose programs make no new calls. -/
def workers (capacity : ℕ) : Machine (Side × Turn) Connection where
  start := (connection capacity).start
  move p c := bif p.2.works (c p.1).line then Connection.move capacity p c else none

def Socket.work (s : Socket) : ℕ := s.line.work + s.held.toNat

/-- The account of a turn: every byte on its way pays for an event. -/
structure Spends (turn : Turn) (s s' : Socket) (now given : List UInt8) : Prop where
  within : now.length ≤ turn.room
  inside : given <+: turn.offer
  sent : s'.line.usock.sent = s.line.usock.sent ++ now
  left : s'.line.usock.iov.flatten.length + now.length = s.line.usock.iov.flatten.length
  received : s'.line.usock.received = s.line.usock.received ++ given
  work : s'.work < s.work + 3 * (now.length + given.length)

section

variable {s s' : Socket} {turn : Turn}

theorem Turn.works_smooth {e : Endpoint} (works : turn.works e = true) : turn.smooth = true := by
  cases turn with
  | task => rfl
  | leave offer =>
      cases offer with
      | none => simp [Turn.works] at works
      | some offer => rfl
  | fdIn offer =>
      cases offer with
      | none => simp [Turn.works] at works
      | some offer => rfl
  | fdOut room =>
      cases room with
      | none => simp [Turn.works] at works
      | some room => rfl
  | start | send | recv | timeout | fdErr => simp [Turn.works] at works

/-- A thread is out of the context when no event is left. -/
theorem Signals.released {offer : Option (List UInt8)} (signals : Signals s)
    (free : s.line.events = []) (stepped : s.step (.leave offer) = some s') :
    s'.held = false := by
  rw [Socket.step] at stepped
  split at stepped
  · simp only [Socket.act, Socket.ctxLeave, free, Socket.sockOnleave, signals.flagIn,
      signals.flagOut, signal_eq, Option.map_some, Option.getD_some] at stepped
    cases stepped
    rfl
  · cases stepped

theorem Draws.spends {offer : List UInt8} (draws : Draws offer s.line s'.line)
    (inside : offer <+: turn.offer) (work : s'.work < s.work) :
    ∃ now given, Spends turn s s' now given := by
  obtain ⟨given, within, received⟩ := draws.received
  refine ⟨[], given, Nat.zero_le _, within.trans inside, ?_, ?_, received, by omega⟩
  · rw [draws.sent, List.append_nil]
  · rw [draws.iov, List.length_nil, Nat.add_zero]

/-- What a turn of a worker does to the account. -/
theorem Inv.spends (inv : Inv s.line) (signals : Signals s) (works : turn.works s.line = true)
    (stepped : s.step turn = some s') (ran : turn.run s.line = some s'.line) :
    ∃ now given, Spends turn s s' now given := by
  obtain ⟨_, held, may, _, _⟩ := signals.step stepped
  have out := Bool.toNat_le s'.held
  cases turn with
  | task =>
      simp only [Socket.may, Bool.and_eq_true] at may
      have some_ : s.line.tasks ≠ [] := by
        intro none
        simp [none] at may
      obtain ⟨draws, less⟩ := Endpoint.workerTask_works some_ ran
      refine draws.spends List.nil_prefix ?_
      rw [Socket.work, Socket.work]
      omega
  | leave offer =>
      have inside : s.held.toNat = 1 := by
        rw [held]
        rfl
      cases queue : s.line.events with
      | nil =>
          have released := signals.released queue stepped
          simp only [Turn.run, queue] at ran
          refine Draws.spends (.same (Option.some.inj ran ▸ rfl)) List.nil_prefix ?_
          rw [Socket.work, Socket.work, ← Option.some.inj ran, released, inside]
          exact Nat.lt_succ_self _
      | cons event events =>
          simp only [Turn.run, queue] at ran
          have settles := Endpoint.process_settles ran
          have popped : { s.line with events := events }.work + 1 = s.line.work := by
            simp only [Endpoint.work, Endpoint.load, Endpoint.phase, queue, List.length_cons]
            omega
          have work : s'.line.work ≤ { s.line with events := events }.work := settles.work
          have draws : Draws (offer.getD []) s.line s'.line :=
            ⟨settles.draws.iov, settles.draws.sent, settles.draws.received⟩
          refine draws.spends List.prefix_rfl ?_
          rw [Socket.work, Socket.work]
          omega
  | fdIn offer =>
      simp only [Socket.may, Bool.and_eq_true] at may
      obtain ⟨active, some_⟩ : s.line.usock.state = .active ∧ offer ≠ some [] := by
        unfold Turn.works at works
        split at works <;> simp_all
      have free := signals.free held
      obtain ⟨n, busy⟩ : ∃ n, InBusy s.line.usock s.line.tasks n := by
        rcases Inv.polling_in inv.stage free may.1.1 active may.2 with ⟨busy, _⟩ | ⟨n, busy, _⟩
        · exact ⟨8, busy⟩
        · exact ⟨n, busy⟩
      obtain ⟨given, inside, received, iov, sent, less⟩ :=
        Endpoint.usockFdIn_works active busy some_ ran
      refine ⟨[], given, Nat.zero_le _, inside, ?_, ?_, received, ?_⟩
      · rw [sent, List.append_nil]
      · rw [iov, List.length_nil, Nat.add_zero]
      · rw [Socket.work, Socket.work, List.length_nil]
        omega
  | fdOut room =>
      simp only [Socket.may, Bool.and_eq_true] at may
      obtain ⟨active, some_⟩ : s.line.usock.state = .active ∧ room ≠ some 0 := by
        unfold Turn.works at works
        split at works <;> simp_all
      have free := signals.free held
      obtain ⟨busy, _⟩ := Inv.polling_out inv.stage free may.1.1 active may.2
      obtain ⟨now, within, sent, left, received, less⟩ :=
        Endpoint.usockFdOut_works active busy some_ ran
      refine ⟨now, [], within, List.nil_prefix, sent, left, ?_, ?_⟩
      · rw [received, List.append_nil]
      · rw [Socket.work, Socket.work, List.length_nil]
        omega
  | start | send | recv | timeout | fdErr => simp [Turn.works] at works

end

/-- The work of an end, with the bytes that it has to send and those that the kernel holds. -/
def Connection.cost (c : Connection) (side : Side) : ℕ :=
  (c side).work + 6 * (c side).line.usock.iov.flatten.length +
    3 * ((c side).line.usock.sent.length - (c side.other).line.usock.received.length)

def Connection.work (c : Connection) : ℕ := c.cost .bound + c.cost .connected

theorem Connection.work_eq (c : Connection) (side : Side) :
    c.work = c.cost side + c.cost side.other := by
  cases side with
  | bound => rfl
  | connected => exact Nat.add_comm ..

variable {capacity : ℕ} {c d : Connection} {side : Side} {turn : Turn}

theorem work_falls (orderly : Orderly side c) (works : turn.works (c side).line = true)
    (moved : Moved c d side turn) : d.work < c.work := by
  have calm : turn ≠ .timeout := by
    rintro rfl
    simp [Turn.works] at works
  obtain ⟨ran, _⟩ := orderly.ran moved.stepped calm
  obtain ⟨now, given, spends⟩ := orderly.inv.spends (orderly.sane.signals side) works
    moved.stepped ran
  have ahead := (orderly.sane.received side.other).length_le
  have taken := moved.received.length_le
  have sent := congrArg List.length spends.sent
  have received := congrArg List.length spends.received
  have left := spends.left
  have work := spends.work
  rw [List.length_append] at sent received
  rw [side.other_other] at ahead
  rw [c.work_eq side, d.work_eq side, Connection.cost, Connection.cost, Connection.cost,
    Connection.cost, moved.rest, side.other_other]
  omega

/-- The kernel holds no more bytes than it has place for. -/
def Bounded (capacity : ℕ) (c : Connection) : Prop :=
  ∀ side, (c side).line.usock.sent.length ≤
    (c side.other).line.usock.received.length + capacity

theorem Bounded.move (bounded : Bounded capacity c) (sane : Sane c)
    (moves : (connection capacity).move (side, turn) c = some d) : Bounded capacity d := by
  have moved := Connection.moved moves
  have grows : (c side).line.usock.received.length ≤ (d side).line.usock.received.length := by
    rcases sane.calls moved with same | calls
    · rw [same]
    · exact calls.received.length_le
  intro side'
  rcases side.eq_or_other side' with rfl | rfl
  · simp only [connection, Connection.move, moved.stepped] at moves
    split at moves
    · rename_i kernel
      rw [moved.rest]
      exact kernel.2
    · cases moves
  · have before := bounded side.other
    rw [moved.rest]
    rw [side.other_other] at before ⊢
    omega

theorem Bounded.of_reachable (reachable : (connection capacity).system.Reachable c) :
    Bounded capacity c := by
  have both := reachable.invariant (fun c => Sane c ∧ Bounded capacity c)
    ⟨.start, fun _ => Nat.zero_le _⟩ ?_
  · exact both.2
  · rintro u v _ ⟨sane, bounded⟩ ⟨⟨side, turn⟩, moves⟩
    exact ⟨sane.move (Connection.moved moves), bounded.move sane moves⟩

/-- A turn that the kernel and the state allow. -/
theorem can_work (orderly : Orderly side c) (works : turn.works (c side).line = true)
    (held : (c side).held = turn.leaves) (may : Socket.may turn (c side) = true)
    (offer : (c side).line.usock.received ++ turn.offer <+: (c side.other).line.usock.sent)
    (room : (c side).line.usock.sent.length + turn.room ≤
      (c side.other).line.usock.received.length + capacity) :
    (workers capacity).move (side, turn) c ≠ none := by
  have calm : turn ≠ .timeout := by
    rintro rfl
    simp [Turn.works] at works
  obtain ⟨s, stepped⟩ : ∃ s, (c side).step turn = some s := by
    rw [Socket.step, if_pos (by simp [orderly.running, held, may])]
    exact ⟨_, rfl⟩
  obtain ⟨ran, _⟩ := orderly.ran stepped calm
  obtain ⟨now, given, spends⟩ := orderly.inv.spends (orderly.sane.signals side) works stepped ran
  have inside : s.line.usock.received <+: (c side.other).line.usock.sent := by
    rw [spends.received]
    exact ((List.prefix_append_right_inj _).mpr spends.inside).trans offer
  have fits : s.line.usock.sent.length ≤
      (c side.other).line.usock.received.length + capacity := by
    have within := spends.within
    rw [spends.sent, List.length_append]
    omega
  simp only [workers, works, cond_true, Connection.move, stepped, inside, fits, and_self,
    ↓reduceIte]
  exact Option.some_ne_none _

/-- Nothing is under way at an end that was not started. -/
theorem Inv.unstarted {e : Endpoint} (inv : Inv e) (idle : e.sipc.state = .idle) :
    e.usock = {} ∧ e.tasks = [] := by
  have early {state : SipcState} (early : Early state e) (other : state ≠ .idle) : False := by
    rw [early.sipc] at idle
    exact other idle
  cases inv.stage with
  | fresh _ owner timer state usock tasks => exact ⟨usock, tasks⟩
  | greeting first => exact (early first nofun).elim
  | answered first => exact (early first nofun).elim
  | refused first => exact (early first nofun).elim
  | checked first => exact (early first nofun).elim
  | failed first => exact (early first nofun).elim
  | greeted first => exact (early first nofun).elim
  | ungreeted first => exact (early first nofun).elim
  | opening first => exact (early first nofun).elim
  | established outs ins live => cases idle.symm.trans live.state
  | breaking front live => cases idle.symm.trans live.state
  | dead live => cases idle.symm.trans live.state
  | closing owner timer state => cases idle.symm.trans state
  | ended state => cases idle.symm.trans state

/-- The owner of a connection is told of a failure only after one. -/
theorem Inv.goes_on {e : Endpoint} (inv : Inv e) (active : e.usock.state = .active) :
    e.ended = false := by
  cases inv.stage with
  | fresh early => exact early.goesOn
  | greeting early => exact early.goesOn
  | answered early => exact early.goesOn
  | refused early => exact early.goesOn
  | checked early => exact early.goesOn
  | failed early => exact early.goesOn
  | greeted early => exact early.goesOn
  | ungreeted early => exact early.goesOn
  | opening early => exact early.goesOn
  | established outs ins live => exact live.goesOn
  | breaking front live => exact live.goesOn
  | dead live => exact live.goesOn
  | closing owner timer state excl goesOn => exact goesOn
  | ended state excl done => cases active.symm.trans done

/-- Where no worker can get on, there is nothing for it to do. -/
theorem quiescent_of_stuck (gently : Smooth c) (bounded : Bounded capacity c)
    (stuck : (workers capacity).Stuck c) : Quiescent capacity c := by
  have can (side : Side) (turn : Turn) (works : turn.works (c side).line = true)
      (held : (c side).held = turn.leaves) (may : Socket.may turn (c side) = true)
      (offer : (c side).line.usock.received ++ turn.offer <+: (c side.other).line.usock.sent)
      (room : (c side).line.usock.sent.length + turn.room ≤
        (c side.other).line.usock.received.length + capacity) : False :=
    can_work (gently.orderly side) works held may offer room (stuck (side, turn))
  have received (side : Side) := (gently.orderly side).sane.received side
  have still (side : Side) :
      (c side).line.usock.received ++ [] <+: (c side.other).line.usock.sent := by
    rw [List.append_nil]
    exact received side
  have left (side : Side) : (c side).held = false := by
    cases held : (c side).held with
    | false => rfl
    | true => exact (can side (.leave (some [])) rfl held rfl (still side) (bounded side)).elim
  have served (side : Side) (started : (c side).line.sipc.state ≠ .idle) :
      (c side).line.served = true := by
    have goesOn := (gently.orderly side).inv.goes_on (gently.opened side).1
    simp [Endpoint.served, started, goesOn]
  refine ⟨left, fun side => ?_, fun side poll => ?_, fun side poll => ?_⟩
  · by_cases idle : (c side).line.sipc.state = .idle
    · exact ((gently.orderly side).inv.unstarted idle).2
    · by_contra some_
      refine can side .task rfl (left side) ?_ (still side) (bounded side)
      simp [Socket.may, served side idle, some_]
  · by_cases idle : (c side).line.sipc.state = .idle
    · simp [((gently.orderly side).inv.unstarted idle).1] at poll
    · obtain ⟨rest, ahead⟩ := received side
      cases rest with
      | nil => rw [← ahead, List.append_nil]
      | cons b rest =>
          refine (can side (.fdIn (some [b])) ?_ (left side) ?_ ?_ (bounded side)).elim
          · simp [Turn.works, (gently.opened side).1]
          · simp [Socket.may, served side idle, (gently.opened side).2, poll]
          · exact ⟨rest, by rw [← ahead, List.append_assoc]; rfl⟩
  · by_cases idle : (c side).line.sipc.state = .idle
    · simp [((gently.orderly side).inv.unstarted idle).1] at poll
    · by_contra space
      refine can side (.fdOut (some 1)) ?_ (left side) ?_ (still side) ?_
      · simp [Turn.works, (gently.opened side).1]
      · simp [Socket.may, served side idle, (gently.opened side).2, poll]
      · show _ + 1 ≤ _
        omega

/-- Whatever the programs have left to the workers, and whatever has failed, they are through
with it after so many turns as the state tells, in whatever order these come; and unless a
call of the kernel has failed, they do not stop before all is done that can be done. -/
theorem workers_come_to_rest {before turns : List (Side × Turn)}
    (followed : (connection capacity).follow before (connection capacity).start = some c)
    (calm : ∀ side, (side, Turn.timeout) ∉ before)
    (worked : (workers capacity).follow turns c = some d) :
    turns.length ≤ c.work ∧
      ((∀ p ∈ before, p.2.smooth = true) → (workers capacity).Stuck d → Quiescent capacity d) := by
  have moves {p : Side × Turn} {u v : Connection} (moved : (workers capacity).move p u = some v) :
      p.2.works (u p.1).line = true ∧ (connection capacity).move p u = some v := by
    cases works : p.2.works (u p.1).line with
    | true =>
        simp only [workers, works, cond_true] at moved
        exact ⟨rfl, moved⟩
    | false =>
        simp only [workers, works, cond_false] at moved
        cases moved
  have orderly (side : Side) : Orderly side c := .of_follow followed (calm side)
  obtain ⟨_, bound⟩ := Machine.follow_length worked (fun c => ∀ side, Orderly side c)
    Connection.work orderly (by
      rintro ⟨side, turn⟩ u v orderly worked
      obtain ⟨works, moves⟩ := moves worked
      have moved := Connection.moved moves
      refine ⟨fun side' => (orderly side').move moved ?_, work_falls (orderly side) works moved⟩
      rintro _ rfl
      simp [Turn.works] at works)
  refine ⟨by omega, fun smooth stuck => ?_⟩
  have gently : Smooth c := .of_follow followed smooth
  obtain ⟨gently', bounded⟩ := Machine.follow_invariant worked
    (fun c => Smooth c ∧ Bounded capacity c)
    ⟨gently, .of_reachable (Machine.reachable_of_follow followed)⟩ (by
      rintro p _ u v ⟨gently, bounded⟩ worked
      obtain ⟨works, moves⟩ := moves worked
      exact ⟨gently.move (Connection.moved moves) (Turn.works_smooth works),
        bounded.move (gently.orderly p.1).sane moves⟩)
  exact quiescent_of_stuck gently' bounded stuck

theorem workers_come_to_rest_started :
    ∃ c d, (connection 65536).follow [(.bound, .start (some 3))] (connection 65536).start = some c ∧
      (workers 65536).follow (leaves .bound 1 ++ (.bound, .task) :: leaves .bound 1 ++
        (.bound, .fdOut (some 5)) :: leaves .bound 2) c = some d ∧ 6 ≤ c.work := by
  have worked : (((connection 65536).follow [(.bound, .start (some 3))]
      (connection 65536).start).bind ((workers 65536).follow (leaves .bound 1 ++
        (.bound, .task) :: leaves .bound 1 ++ (.bound, .fdOut (some 5)) ::
          leaves .bound 2))).isSome := by
    decide +kernel
  obtain ⟨d, worked⟩ := Option.isSome_iff_exists.mp worked
  obtain ⟨c, followed, worked⟩ := Option.bind_eq_some_iff.mp worked
  exact ⟨c, d, followed, worked, (workers_come_to_rest followed (by simp) worked).1⟩

end Riff.Nanomsg
