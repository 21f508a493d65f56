import Riff.Nanomsg.Expiry
import Riff.Nanomsg.Turns

set_option autoImplicit false

namespace Riff.Nanomsg

/-- What a turn does to the line of a socket. -/
def Turn.run : Turn → Endpoint → Option Endpoint
  | .start room, e => e.sipcStart room
  | .send msg _ room, e => e.exclSend msg room
  | .recv _ offer, e => e.exclRecv offer
  | .task, e => e.workerTask
  | .timeout, e => e.raise (.timer .timeout)
  | .fdIn offer, e => e.usockFdIn offer
  | .fdOut room, e => e.usockFdOut room
  | .fdErr, e => e.usockFdErr
  | .leave offer, e =>
      match e.events with
      | event :: events => Endpoint.process event offer { e with events := events }
      | [] => some e

/-- The flags of a socket agree with its descriptors, and these tell what can be done as
soon as no thread is in the context. -/
structure Signals (s : Socket) : Prop where
  flagIn : s.flagIn = s.rcvfd
  flagOut : s.flagOut = s.sndfd
  free : s.held = false → s.line.events = []
  rcvfd : s.held = false → s.rcvfd = s.line.excl.inpipe
  sndfd : s.held = false → s.sndfd = s.line.excl.outpipe

namespace Signals

variable {s s' : Socket}

/-- No signal is taken back that is not there. -/
theorem signal_eq (possible fd : Bool) :
    Socket.signal possible fd fd = some (possible, possible) := by
  cases possible <;> cases fd <;> rfl

theorem enter (signals : Signals s) (action : Endpoint → Option Endpoint) :
    action s.line = none ∧ s.enter action = none ∨
      ∃ s', s.enter action = some s' ∧ action s.line = some s'.line ∧ s'.aborted = s.aborted ∧
        Signals s' := by
  rw [Socket.enter]
  cases action s.line with
  | none => exact .inl ⟨rfl, rfl⟩
  | some line => exact .inr ⟨_, rfl, rfl, rfl, signals.flagIn, signals.flagOut, nofun, nofun, nofun⟩

/-- A call that has waited finds the flag as it was. -/
theorem woken (woken : Bool) {flag fd : Bool} (agree : flag = fd) :
    (flag || woken && fd) = flag := by
  cases agree
  cases flag <;> cases woken <;> rfl

theorem ctxLeave (signals : Signals s) (offer : Option (List UInt8)) :
    (Turn.leave offer).run s.line = none ∧ s.ctxLeave offer = none ∨
      ∃ s', s.ctxLeave offer = some s' ∧ (Turn.leave offer).run s.line = some s'.line ∧
        s'.aborted = s.aborted ∧ Signals s' := by
  cases queue : s.line.events with
  | cons event events =>
      simp only [Socket.ctxLeave, Turn.run, queue]
      exact signals.enter fun e => Endpoint.process event offer { e with events := events }
  | nil =>
      right
      simp only [Socket.ctxLeave, Turn.run, queue, Socket.sockOnleave, signals.flagIn,
        signals.flagOut, signal_eq, Option.map_some]
      refine ⟨_, rfl, rfl, rfl, rfl, rfl, fun _ => queue, fun _ => rfl, fun _ => rfl⟩

/-- The flags and descriptors are never what stops a turn. -/
theorem act (signals : Signals s) (turn : Turn) :
    turn.run s.line = none ∧ Socket.act turn s = none ∨
      ∃ s', Socket.act turn s = some s' ∧ turn.run s.line = some s'.line ∧
        s'.aborted = s.aborted ∧ Signals s' := by
  cases turn with
  | start room => exact signals.enter (·.sipcStart room)
  | send msg awake room =>
      simp only [Socket.act, Socket.sockSend, woken awake signals.flagOut]
      exact signals.enter (·.exclSend msg room)
  | recv awake offer =>
      simp only [Socket.act, Socket.sockRecv, woken awake signals.flagIn]
      exact signals.enter (·.exclRecv offer)
  | task => exact signals.enter (·.workerTask)
  | timeout => exact signals.enter (·.raise (.timer .timeout))
  | fdIn offer => exact signals.enter (·.usockFdIn offer)
  | fdOut room => exact signals.enter (·.usockFdOut room)
  | fdErr => exact signals.enter (·.usockFdErr)
  | leave offer => exact signals.ctxLeave offer

/-- A step either does to the line what the turn is for, or stops the program. -/
theorem step {turn : Turn} (signals : Signals s) (stepped : s.step turn = some s') :
    s.aborted = false ∧ s.held = turn.leaves ∧ Socket.may turn s = true ∧ Signals s' ∧
      (turn.run s.line = none ∧ s'.line = s.line ∧ s'.aborted = true ∨
        turn.run s.line = some s'.line ∧ s'.aborted = false) := by
  rw [Socket.step] at stepped
  split at stepped
  · rename_i open_
    simp only [Bool.and_eq_true, Bool.not_eq_true', beq_iff_eq] at open_
    obtain ⟨⟨running, turns⟩, may⟩ := open_
    refine ⟨running, turns, may, ?_⟩
    rcases signals.act turn with ⟨fails, stops⟩ | ⟨s₁, acts, works, same, signals'⟩
    · rw [stops] at stepped
      cases stepped
      refine ⟨⟨signals.flagIn, signals.flagOut, signals.free, signals.rcvfd, signals.sndfd⟩, ?_⟩
      exact .inl ⟨fails, rfl, rfl⟩
    · rw [acts] at stepped
      cases stepped
      exact ⟨signals', .inr ⟨works, same.trans running⟩⟩
  · cases stepped

end Signals

variable {s : Socket} {turn : Turn}

theorem Inv.fresh : Inv {} := by
  refine ⟨.fresh ⟨rfl, rfl, rfl, rfl, rfl, rfl⟩ rfl rfl rfl rfl rfl rfl,
    ⟨List.nodup_nil, ?_, ?_⟩, ⟨[], rfl, fun _ => rfl⟩, .inl rfl⟩
  · simp
  · simp

/-- One turn of an end whose timer does not expire. -/
theorem Inv.run (inv : Inv s.line) (free : turn.leaves = false → s.line.events = [])
    (may : Socket.may turn s = true) (formed : Wellformed s.line) (calm : turn ≠ .timeout) :
    ∃ e', turn.run s.line = some e' ∧ Inv e' := by
  cases turn with
  | start room => exact inv.start (of_decide_eq_true may) room
  | send msg awake room => exact inv.send (free rfl) msg room
  | recv awake offer => exact inv.recv (free rfl) offer
  | task =>
      simp only [Socket.may, Bool.and_eq_true] at may
      exact inv.workerTask (free rfl) may.1
  | timeout => exact absurd rfl calm
  | fdIn offer =>
      simp only [Socket.may, Bool.and_eq_true] at may
      exact inv.fdIn (free rfl) may.1.1 may.2 offer
  | fdOut room =>
      simp only [Socket.may, Bool.and_eq_true] at may
      exact inv.fdOut (free rfl) may.1.1 may.2 room
  | fdErr =>
      simp only [Socket.may, Bool.and_eq_true] at may
      exact inv.fdErr (free rfl) may.1
  | leave offer =>
      simp only [Turn.run]
      split
      · rename_i event events queue
        exact inv.process queue formed offer
      · exact ⟨s.line, rfl, inv⟩

theorem Alarmed.run {e' : Endpoint} (alarmed : Alarmed s.line)
    (free : turn.leaves = false → s.line.events = []) (ran : turn.run s.line = some e') :
    Barred e' := by
  cases leaves : turn.leaves with
  | false => cases alarmed.events.symm.trans (free leaves)
  | true =>
      cases turn with
      | leave offer =>
          simp only [Turn.run, alarmed.events] at ran
          obtain ⟨e₁, ran₁, barred⟩ := alarmed.process alarmed.events offer
          cases ran₁.symm.trans ran
          exact barred
      | _ => cases leaves

theorem Barred.run {e' : Endpoint} (barred : Barred s.line) (may : Socket.may turn s = true)
    (ran : turn.run s.line = some e') : Barred e' := by
  cases turn with
  | start room =>
      have idle : s.line.sipc.state = .idle := of_decide_eq_true may
      have state := barred.state
      simp [idle] at state
  | send msg awake room =>
      simp only [Turn.run, Endpoint.exclSend, barred.excl] at ran
      cases ran
      exact barred
  | recv awake offer =>
      simp only [Turn.run, Endpoint.exclRecv, barred.excl] at ran
      cases ran
      exact barred
  | task => exact barred.workerTask ran
  | timeout => exact barred.raise ran (by simp) (by simp)
  | fdIn offer => exact barred.fdIn ran
  | fdOut room => exact barred.fdOut ran
  | fdErr => exact barred.fdErr ran
  | leave offer =>
      simp only [Turn.run] at ran
      split at ran
      · rename_i event events queue
        exact barred.process queue ran
      · cases ran
        exact barred

/-- Whatever happens to an end, its line is one of these. -/
inductive Sound (e : Endpoint) : Prop
  | orderly (inv : Inv e)
  | alarmed (alarmed : Alarmed e)
  | barred (barred : Barred e)

namespace Sound

theorem timeout {e' : Endpoint} (sound : Sound s.line) (free : s.line.events = [])
    (may : Socket.may .timeout s = true) (ran : Turn.timeout.run s.line = some e') :
    Alarmed e' ∨ Barred e' := by
  cases sound with
  | orderly inv =>
      simp only [Socket.may, Bool.and_eq_true, decide_eq_true_eq] at may
      obtain ⟨e₁, ran₁, alarmed⟩ := Alarmed.goes_off inv free may.1 may.2
      cases ran₁.symm.trans ran
      exact .inl alarmed
  | alarmed alarmed => cases alarmed.events.symm.trans free
  | barred barred => exact .inr (barred.run may ran)

theorem run {e' : Endpoint} (sound : Sound s.line)
    (free : turn.leaves = false → s.line.events = []) (may : Socket.may turn s = true)
    (formed : Wellformed s.line) (ran : turn.run s.line = some e') : Sound e' := by
  cases sound with
  | orderly inv =>
      by_cases calm : turn = .timeout
      · subst calm
        rcases (Sound.orderly inv).timeout (free rfl) may ran with alarmed | barred
        · exact .alarmed alarmed
        · exact .barred barred
      · obtain ⟨e₁, ran₁, inv₁⟩ := inv.run free may formed calm
        cases ran₁.symm.trans ran
        exact .orderly inv₁
  | alarmed alarmed => exact .barred (alarmed.run free ran)
  | barred barred => exact .barred (barred.run may ran)

variable {e : Endpoint}

/-- Whatever has been sent belongs to the messages that were accepted, in their order. -/
theorem sent (sound : Sound e) :
    e.usock.sent <+: Endpoint.protohdr ++ framing.stream (e.accepted.map Msg.payload) := by
  have emitted {e : Endpoint} (emits : Emits e) :
      e.usock.sent <+: Endpoint.protohdr ++ framing.stream (e.accepted.map Msg.payload) := by
    obtain ⟨lost, all, _⟩ := emits
    have begins : e.usock.sent <+: e.emission := by
      rw [← all, List.append_assoc]
      exact List.prefix_append ..
    rw [Endpoint.emission] at begins
    split at begins
    · rw [List.prefix_nil.mp begins]
      exact List.nil_prefix
    · exact begins
  cases sound with
  | orderly inv => exact emitted inv.emits
  | alarmed alarmed => exact emitted (e := { e with events := [] }) alarmed.inv.emits
  | barred barred =>
      have header := (List.prefix_append e.usock.sent e.usock.iov.flatten).trans barred.sent
      exact header.trans (List.prefix_append ..)

/-- Whatever has been delivered had been received, in its order. -/
theorem delivered (sound : Sound e) : e.delivered = [] ∨ e.consumed <+: e.usock.received := by
  cases sound with
  | orderly inv => exact inv.delivers
  | alarmed alarmed => exact alarmed.inv.delivers
  | barred barred => exact .inl barred.delivered

end Sound

/-- A turn in which no call of the kernel fails and no timer expires. -/
def Turn.smooth : Turn → Bool
  | .start room => room.isSome
  | .send _ _ room => room.isSome
  | .recv _ offer => offer.isSome
  | .task => true
  | .timeout => false
  | .fdIn offer => offer.isSome
  | .fdOut room => room.isSome
  | .fdErr => false
  | .leave offer => offer.isSome

/-- What any turn can change of what `Follows` is about. -/
structure Calls (turn : Turn) (e e' : Endpoint) : Prop where
  accepted : e'.accepted = e.accepted ∨ ∃ msg, e'.accepted = e.accepted ++ [msg]
  delivered : e'.delivered = e.delivered ∨ ∃ p, e'.delivered = e.delivered ++ [p]
  sent : e.usock.sent <+: e'.usock.sent
  received : e.usock.received <+: e'.usock.received
  opened : turn.smooth = true → e.usock.Open → e'.usock.Open

section

variable {e e' : Endpoint}

theorem Follows.calls {smooth : Prop} (follows : Follows smooth e e')
    (implied : turn.smooth = true → smooth) : Calls turn e e' :=
  ⟨.inl follows.accepted, .inl follows.delivered, follows.sent, follows.received,
    fun gently => follows.opened (implied gently)⟩

theorem Turn.calls (turn : Turn) (ran : turn.run e = some e') : Calls turn e e' := by
  have some_ {α : Type} {x : Option α} (isSome : x.isSome = true) : x ≠ none :=
    Option.isSome_iff_ne_none.mp isSome
  cases turn with
  | start room => exact (Endpoint.sipcStart_follows ran).calls some_
  | send msg awake room =>
      rcases Endpoint.exclSend_follows ran with rfl | follows
      · exact ⟨.inl rfl, .inl rfl, List.prefix_rfl, List.prefix_rfl, fun _ => id⟩
      · exact ⟨.inr ⟨msg, follows.accepted⟩, .inl follows.delivered, follows.sent,
          follows.received, fun smooth => follows.opened (some_ smooth)⟩
  | recv awake offer =>
      rcases Endpoint.exclRecv_follows ran with rfl | follows
      · exact ⟨.inl rfl, .inl rfl, List.prefix_rfl, List.prefix_rfl, fun _ => id⟩
      · exact ⟨.inl follows.accepted, .inr ⟨_, follows.delivered⟩, follows.sent,
          follows.received, fun smooth => follows.opened (some_ smooth)⟩
  | task => exact (Endpoint.workerTask_follows ran).calls fun _ => trivial
  | timeout => exact (Endpoint.raise_follows ran).calls fun _ => trivial
  | fdIn offer => exact (Endpoint.usockFdIn_follows ran).calls some_
  | fdOut room => exact (Endpoint.usockFdOut_follows ran).calls some_
  | fdErr => exact (Endpoint.usockFdErr_follows ran).calls nofun
  | leave offer =>
      simp only [Turn.run] at ran
      split at ran
      · refine (Follows.trans ?_ (Endpoint.process_follows ran)).calls some_
        exact .same rfl rfl rfl
      · cases ran
        exact ⟨.inl rfl, .inl rfl, List.prefix_rfl, List.prefix_rfl, fun _ => id⟩

end

end Riff.Nanomsg
