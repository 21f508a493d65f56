import Riff.Nanomsg.Assertions

set_option autoImplicit false

namespace Riff.Nanomsg

open Transition

/-- No thread has anything left to do but for new calls: nobody is in a context, the workers
have no tasks and have read all that the kernel has for them, and where they have something to
send, the kernel, which holds `capacity` bytes for each direction, is full. -/
structure Quiescent (capacity : ℕ) (c : Connection) : Prop where
  left : ∀ side, (c side).held = false
  tasks : ∀ side, (c side).line.tasks = []
  drained : ∀ side, (c side).line.usock.pollIn = true →
    (c side).line.usock.received = (c side.other).line.usock.sent
  full : ∀ side, (c side).line.usock.pollOut = true →
    (c side.other).line.usock.received.length + capacity ≤ (c side).line.usock.sent.length

instance (capacity : ℕ) (c : Connection) : Decidable (Quiescent capacity c) :=
  decidable_of_iff (∀ side, (c side).held = false ∧ (c side).line.tasks = [] ∧
      ((c side).line.usock.pollIn = true →
        (c side).line.usock.received = (c side.other).line.usock.sent) ∧
      ((c side).line.usock.pollOut = true →
        (c side.other).line.usock.received.length + capacity ≤ (c side).line.usock.sent.length))
    ⟨fun all => ⟨fun side => (all side).1, fun side => (all side).2.1,
        fun side => (all side).2.2.1, fun side => (all side).2.2.2⟩,
      fun quiescent side => ⟨quiescent.left side, quiescent.tasks side,
        quiescent.drained side, quiescent.full side⟩⟩

/-- What an end can be waiting for once its worker has nothing to do. -/
inductive Waits (e : Endpoint) : Prop
  | greeting (poll : e.usock.pollOut = true) (short : e.usock.sent.length < 8)
  | answered (poll : e.usock.pollIn = true) (out : e.usock.iov = [])
      (short : e.usock.received.length < 8)
  | established (outbound : Outbound e []) (inbound : Inbound e [])

theorem Awaits.polls {task : Task} {poll : Bool} (awaits : Awaits task [] poll) : poll = true := by
  rcases awaits with ⟨member, _⟩ | ⟨_, polls⟩
  · cases member
  · exact polls

theorem Dying.idle {state : UsockState} {owner : Owner} {events : List Event}
    (dying : Dying state owner events) : state ≠ .active := by
  cases dying with
  | told removing | waits removing | gone removing => rw [removing]; nofun

namespace Inv

variable {e : Endpoint}

theorem waits (inv : Inv e) (active : e.usock.state = .active) (started : e.sipc.state ≠ .idle)
    (free : e.events = []) (none : e.tasks = []) : Waits e := by
  obtain ⟨stage, booked, emits, delivers⟩ := inv
  cases stage with
  | fresh early owner timer state usock tasks events => simp [early.sipc] at started
  | greeting early owner timer state active transfer clear received batch =>
      rw [free, none] at transfer
      cases transfer with
      | busy busy =>
          refine .greeting busy.awaits.polls ?_
          obtain ⟨lost, all, _⟩ := emits
          have header : e.emission = Endpoint.protohdr := by
            simp [Endpoint.emission, early.sipc, early.accepted]
          have total := congrArg List.length (all.trans header)
          have left := List.length_pos_of_ne_nil (mt (eq_nil_of_flatten busy.nonempty) busy.more)
          have eight : Endpoint.protohdr.length = 8 := rfl
          rw [List.length_append, List.length_append] at total
          omega
  | answered early owner timer state active clear request received =>
      rw [free, none] at request
      cases request with
      | busy busy =>
          refine .answered busy.awaits.polls clear.iov ?_
          have total := busy.total
          have wants := busy.wants
          rw [received, busy.batch, List.append_nil]
          omega
  | refused early owner timer state dying => exact absurd active dying.idle
  | checked early owner state ready events =>
      rcases events with ⟨stopping, _⟩ | ⟨stopping, _⟩ | ⟨_, some⟩
      · simpa [none] using booked.timerStop.mpr stopping
      · simpa [none] using booked.timerStop.mpr stopping
      · cases some.symm.trans free
  | failed early owner state done events => cases active.symm.trans done
  | greeted early owner timer state ready events => cases events.symm.trans free
  | ungreeted early done timer events => cases active.symm.trans done
  | opening early owner timer ready events => cases events.symm.trans free
  | established outs ins live active outbound inbound events order =>
      obtain ⟨rfl, rfl⟩ := List.append_eq_nil_iff.mp (events.symm.trans free)
      exact .established outbound inbound
  | breaking front live dying some split order =>
      exact absurd (List.append_eq_nil_iff.mp (split.symm.trans free)).2 some
  | dead live done instate pipe events => cases active.symm.trans done
  | closing owner timer state excl goesOn events =>
      rcases events with ⟨removing, _⟩ | ⟨done, _⟩
      · cases active.symm.trans removing
      · cases active.symm.trans done
  | ended state excl done events => cases active.symm.trans done

/-- An end with nothing left to send has sent all that it was meant to. -/
theorem sent_all (inv : Inv e) (active : e.usock.state = .active)
    (started : e.sipc.state ≠ .idle) (out : e.usock.iov = []) :
    e.usock.sent = Endpoint.protohdr ++ framing.stream (e.accepted.map Msg.payload) := by
  obtain ⟨lost, all, kept⟩ := inv.emits
  rw [kept active, out, List.flatten_nil, List.append_nil, List.append_nil,
    Endpoint.emission, if_neg started] at all
  exact all

end Inv

variable {capacity : ℕ} {c d : Connection} {side : Side} {turn : Turn}

/-- Both ends are in order, and no call of the kernel has failed. -/
structure Smooth (c : Connection) : Prop where
  orderly : ∀ side, Orderly side c
  opened : ∀ side, (c side).line.usock.Open

namespace Smooth

theorem start : Smooth (connection capacity).start := ⟨fun _ => .start, fun _ => ⟨rfl, rfl⟩⟩

theorem move (gently : Smooth c) (moved : Moved c d side turn) (smooth : turn.smooth = true) :
    Smooth d := by
  refine ⟨fun side' => (gently.orderly side').move moved ?_, fun side' => ?_⟩
  · rintro _ rfl
    cases smooth
  · rcases side.eq_or_other side' with rfl | rfl
    · rcases (gently.orderly side').sane.calls moved with same | calls
      · rw [← same]
        exact gently.opened side'
      · exact calls.opened smooth (gently.opened side')
    · rw [moved.rest]
      exact gently.opened side.other

theorem of_follow {turns : List (Side × Turn)}
    (followed : (connection capacity).follow turns (connection capacity).start = some c)
    (smooth : ∀ p ∈ turns, p.2.smooth = true) : Smooth c :=
  Machine.follow_invariant followed Smooth start fun p member _ _ gently moves =>
    gently.move (Connection.moved moves) (smooth p member)

end Smooth

/-- A connection that was started at both ends and is at rest. -/
structure AtRest (capacity : ℕ) (c : Connection) : Prop where
  gently : Smooth c
  started : ∀ side, (c side).line.sipc.state ≠ .idle
  quiescent : Quiescent capacity c
  room : 8 ≤ capacity

namespace AtRest

theorem waits (rest : AtRest capacity c) (side : Side) : Waits (c side).line := by
  have orderly := rest.gently.orderly side
  have free := (orderly.sane.signals side).free (rest.quiescent.left side)
  exact orderly.inv.waits (rest.gently.opened side).1 (rest.started side) free
    (rest.quiescent.tasks side)

theorem sent_all (rest : AtRest capacity c) (out : (c side).line.usock.iov = []) :
    (c side).line.usock.sent =
      Endpoint.protohdr ++ framing.stream ((c side).line.accepted.map Msg.payload) :=
  (rest.gently.orderly side).inv.sent_all (rest.gently.opened side).1 (rest.started side) out

theorem polls_out (rest : AtRest capacity c)
    (out : OutBusy (c side).line.usock (c side).line.tasks) :
    (c side).line.usock.pollOut = true := by
  have awaits := out.awaits
  rw [rest.quiescent.tasks side] at awaits
  exact awaits.polls

/-- Each end has sent its header, for which the kernel has room. -/
theorem header_sent (rest : AtRest capacity c) (side : Side) :
    8 ≤ (c side).line.usock.sent.length := by
  have full (poll : (c side).line.usock.pollOut = true) : 8 ≤ (c side).line.usock.sent.length := by
    have full := rest.quiescent.full side poll
    have room := rest.room
    omega
  have clear (out : (c side).line.usock.iov = []) : 8 ≤ (c side).line.usock.sent.length := by
    rw [rest.sent_all out, List.length_append]
    exact Nat.le_add_right 8 _
  cases rest.waits side with
  | greeting poll short => exact full poll
  | answered poll out short => exact clear out
  | established outbound inbound =>
      cases outbound with
      | idle outstate base pipe out => exact clear out.iov
      | sending outstate base pipe transfer =>
          cases transfer with
          | busy busy => exact full (rest.polls_out busy)

/-- The headers have been exchanged. -/
theorem established (rest : AtRest capacity c) (side : Side) :
    Outbound (c side).line [] ∧ Inbound (c side).line [] := by
  cases rest.waits side with
  | greeting poll short =>
      have header := rest.header_sent side
      omega
  | answered poll out short =>
      have same := rest.quiescent.drained side poll
      have header := rest.header_sent side.other
      rw [same] at short
      omega
  | established outbound inbound => exact ⟨outbound, inbound⟩

theorem polls_in {n : ℕ} (rest : AtRest capacity c)
    (busy : InBusy (c side).line.usock (c side).line.tasks n) :
    (c side).line.usock.received = (c side.other).line.usock.sent := by
  have awaits := busy.awaits
  rw [rest.quiescent.tasks side] at awaits
  exact rest.quiescent.drained side awaits.polls

/-- When all has been read that an end has sent, it has nothing left to send. -/
theorem sendable (rest : AtRest capacity c)
    (read : (c side.other).line.usock.received = (c side).line.usock.sent) :
    (c side).line.usock.iov = [] ∧ (c side).sndfd = true := by
  obtain ⟨outbound, _⟩ := rest.established side
  cases outbound with
  | idle outstate base pipe out =>
      have signals := (rest.gently.orderly side).sane.signals side
      exact ⟨out.iov, (signals.sndfd (rest.quiescent.left side)).trans pipe⟩
  | sending outstate base pipe transfer =>
      cases transfer with
      | busy busy =>
          have full := rest.quiescent.full side (rest.polls_out busy)
          have room := rest.room
          rw [read] at full
          omega

/-- A receiver with no message has been given all that were accepted at the other end. -/
theorem delivers (rest : AtRest capacity c) {buf : List UInt8}
    (incomplete : ∀ p, ¬ framing.encode p <+: buf)
    (read : (c side.other).line.usock.received = (c side).line.usock.sent)
    (parsed : (c side.other).line.usock.received = (c side.other).line.consumed ++ buf) :
    (c side.other).line.delivered = (c side).line.accepted.map Msg.payload := by
  have sent := rest.sent_all (rest.sendable read).1
  rw [← read, parsed, Endpoint.consumed, List.append_assoc, List.append_cancel_left_eq] at sent
  exact PrefixCode.eq_of_incomplete incomplete sent

end AtRest

/-- As long as no call of the kernel fails and no timer expires, the workers leave nothing
undone that matters to the programs: when they come to rest after both ends were started,
each receiver has been told of a message, or it has been given all messages that were accepted
at the other end and the sender there has been told that it can go on. -/
theorem no_message_is_stuck {turns : List (Side × Turn)}
    (followed : (connection capacity).follow turns (connection capacity).start = some c)
    (smooth : ∀ p ∈ turns, p.2.smooth = true)
    (started : ∀ side, (c side).line.sipc.state ≠ .idle) (room : 8 ≤ capacity)
    (quiescent : Quiescent capacity c) (side : Side) :
    (c side.other).rcvfd = true ∨
      (c side.other).line.delivered = (c side).line.accepted.map Msg.payload ∧
        (c side).sndfd = true := by
  have gently : Smooth c := .of_follow followed smooth
  have rest : AtRest capacity c := ⟨gently, started, quiescent, room⟩
  have signals := (gently.orderly side.other).sane.signals side.other
  have other := side.other_other
  obtain ⟨_, inbound⟩ := rest.established side.other
  cases inbound with
  | hasMsg instate base pipe clear parsed =>
      exact .inl ((signals.rcvfd (quiescent.left side.other)).trans pipe)
  | hdr instate base pipe request parsed =>
      cases request with
      | busy busy =>
          have read := rest.polls_in busy
          have total := busy.total
          have wants := busy.wants
          rw [other] at read
          rw [busy.batch, List.append_nil] at parsed
          refine .inr ⟨rest.delivers (fun p starts => ?_) read parsed, (rest.sendable read).2⟩
          have longer := starts.length_le
          rw [show (framing.encode p).length = _ from frame_length p] at longer
          omega
  | body instate base pipe request parsed =>
      cases request with
      | busy busy =>
          have read := rest.polls_in busy
          have total := busy.total
          have wants := busy.wants
          rw [other] at read
          rw [busy.batch, List.append_nil, List.append_assoc] at parsed
          refine .inr ⟨rest.delivers (fun p => ?_) read parsed, (rest.sendable read).2⟩
          exact frame_incomplete (by omega) p

theorem no_message_is_stuck_exchange :
    ∃ c, (connection 65536).follow
        (exchange ++ (.bound, .task) :: leaves .bound 1 ++ leaves .connected 1)
        (connection 65536).start = some c ∧
      ((c .bound).rcvfd = true ∨
        (c .bound).line.delivered = (c .connected).line.accepted.map Msg.payload ∧
          (c .connected).sndfd = true) := by
  have settled : ((connection 65536).follow
      (exchange ++ (.bound, .task) :: leaves .bound 1 ++ leaves .connected 1)
      (connection 65536).start).map (fun c =>
        decide (Quiescent 65536 c ∧ ∀ side, (c side).line.sipc.state ≠ .idle)) = some true := by
    decide +kernel
  obtain ⟨c, followed, both⟩ := Option.map_eq_some_iff.mp settled
  obtain ⟨quiescent, started⟩ := of_decide_eq_true both
  exact ⟨c, followed, no_message_is_stuck followed (by decide +kernel) started (by decide)
    quiescent .connected⟩

end Riff.Nanomsg
