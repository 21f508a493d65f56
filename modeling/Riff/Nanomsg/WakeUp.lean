import Riff.Nanomsg.Assertions

set_option autoImplicit false

namespace Riff.Nanomsg

namespace Endpoint

variable {e e' : Endpoint}

theorem exclSend_accepts {msg : Msg} {room : Option ℕ} (pipe : e.excl.outpipe = true)
    (sent : e.exclSend msg room = some e') : e'.accepted = e.accepted ++ [msg] := by
  rw [exclSend, if_pos pipe] at sent
  obtain ⟨⟨release, e₁⟩, piped, rfl⟩ := Option.map_eq_some_iff.mp sent
  exact congrArg (· ++ [msg]) (pipeSend_follows piped).accepted

theorem exclRecv_delivers {offer : Option (List UInt8)} (pipe : e.excl.inpipe = true)
    (received : e.exclRecv offer = some e') : e'.delivered = e.delivered ++ [e.sipc.inmsg] := by
  rw [exclRecv, if_pos pipe] at received
  obtain ⟨⟨release, e₁⟩, piped, rfl⟩ := Option.map_eq_some_iff.mp received
  exact congrArg (· ++ [e.sipc.inmsg]) (pipeRecv_follows piped).delivered

/-- A message has come as a whole over a connection that is in use. -/
def hasMsg (e : Endpoint) : Prop := e.sipc.state = .active ∧ e.sipc.instate = some .hasMsg

/-- A connection in use has nothing left to send. -/
def canSend (e : Endpoint) : Prop :=
  e.usock.state = .active ∧ e.sipc.state = .active ∧ e.sipc.outstate = some .idle

end Endpoint

namespace Sound

variable {e : Endpoint}

/-- The pipes that the calls use are there as soon as no event is left. -/
theorem pipes (sound : Sound e) (free : e.events = []) :
    (e.excl.inpipe = false → ¬ e.hasMsg) ∧ (e.excl.outpipe = false → ¬ e.canSend) := by
  have unused (state : e.sipc.state ≠ .active) : ¬ e.hasMsg ∧ ¬ e.canSend :=
    ⟨fun has => state has.1, fun can => state can.2.1⟩
  have early {state : SipcState} (early : Early state e) (differ : state ≠ .active) :
      (e.excl.inpipe = false → ¬ e.hasMsg) ∧ (e.excl.outpipe = false → ¬ e.canSend) := by
    have idle : e.sipc.state ≠ .active := by
      rw [early.sipc]
      exact differ
    exact ⟨fun _ => (unused idle).1, fun _ => (unused idle).2⟩
  cases sound with
  | alarmed alarmed => cases alarmed.events.symm.trans free
  | barred barred =>
      have idle : e.sipc.state ≠ .active := by
        rcases barred.state with state | state <;> rw [state] <;> nofun
      exact ⟨fun _ => (unused idle).1, fun _ => (unused idle).2⟩
  | orderly inv =>
      cases inv.stage with
      | fresh first => exact early first nofun
      | greeting first => exact early first nofun
      | answered first => exact early first nofun
      | refused first => exact early first nofun
      | checked first => exact early first nofun
      | failed first => exact early first nofun
      | greeted first => exact early first nofun
      | ungreeted first => exact early first nofun
      | opening first => exact early first nofun
      | established outs ins live active outbound inbound events order =>
          obtain ⟨rfl, rfl⟩ := List.append_eq_nil_iff.mp (events.symm.trans free)
          constructor
          · rintro empty ⟨_, has⟩
            cases inbound with
            | hasMsg instate base pipe clear parsed => cases empty.symm.trans pipe
            | hdr instate base pipe request parsed => cases has.symm.trans instate
            | body instate base pipe request parsed => cases has.symm.trans instate
          · rintro empty ⟨_, _, can⟩
            cases outbound with
            | idle outstate base pipe clear => cases empty.symm.trans pipe
            | sending outstate base pipe transfer => cases can.symm.trans outstate
      | breaking front live dying some split order =>
          exact absurd (List.append_eq_nil_iff.mp (split.symm.trans free)).2 some
      | dead live done instate pipe events =>
          refine ⟨fun _ => ?_, fun _ => ?_⟩
          · rintro ⟨_, has⟩
            cases has.symm.trans instate
          · rintro ⟨active, _⟩
            cases active.symm.trans done
      | closing owner timer state excl goesOn events =>
          have idle : e.sipc.state ≠ .active := by
            rw [state]
            nofun
          exact ⟨fun _ => (unused idle).1, fun _ => (unused idle).2⟩
      | ended state excl done events =>
          have idle : e.sipc.state ≠ .active := by
            rw [state]
            nofun
          exact ⟨fun _ => (unused idle).1, fun _ => (unused idle).2⟩

/-- A pipe that is there can be used: no assertion fails, and the call returns. -/
theorem usable (sound : Sound e) (free : e.events = []) :
    (e.excl.inpipe = true → ∀ offer, ∃ e', e.exclRecv offer = some e' ∧
      e'.delivered = e.delivered ++ [e.sipc.inmsg]) ∧
    (e.excl.outpipe = true → ∀ msg room, ∃ e', e.exclSend msg room = some e' ∧
      e'.accepted = e.accepted ++ [msg]) := by
  cases sound with
  | alarmed alarmed => cases alarmed.events.symm.trans free
  | barred barred => simp [barred.excl]
  | orderly inv =>
      refine ⟨fun pipe offer => ?_, fun pipe msg room => ?_⟩
      · obtain ⟨e', received, _⟩ := inv.recv free offer
        exact ⟨e', received, Endpoint.exclRecv_delivers pipe received⟩
      · obtain ⟨e', sent, _⟩ := inv.send free msg room
        exact ⟨e', sent, Endpoint.exclSend_accepts pipe sent⟩

end Sound

variable {capacity : ℕ} {c : Connection}

/-- No wake-up is lost. Whenever no thread is in the context of an end, its descriptors
are what a thread that waits for them needs: signalled, the call that it repeats returns with the
message or takes it; not signalled, there is no message to be given and none can be taken,
and a call does nothing. -/
theorem descriptors_tell (reachable : (connection capacity).system.Reachable c) (side : Side)
    (left : (c side).held = false) :
    ((c side).rcvfd = true → ∀ offer, ∃ e', (c side).line.exclRecv offer = some e' ∧
      e'.delivered = (c side).line.delivered ++ [(c side).line.sipc.inmsg]) ∧
    ((c side).rcvfd = false → ¬ (c side).line.hasMsg ∧
      ∀ offer, (c side).line.exclRecv offer = some (c side).line) ∧
    ((c side).sndfd = true → ∀ msg room, ∃ e', (c side).line.exclSend msg room = some e' ∧
      e'.accepted = (c side).line.accepted ++ [msg]) ∧
    ((c side).sndfd = false → ¬ (c side).line.canSend ∧
      ∀ msg room, (c side).line.exclSend msg room = some (c side).line) := by
  have sane := Sane.of_reachable reachable
  have signals := sane.signals side
  have free := signals.free left
  obtain ⟨hears, sends⟩ := (sane.sound side).usable free
  obtain ⟨silent, full⟩ := (sane.sound side).pipes free
  rw [signals.rcvfd left, signals.sndfd left]
  refine ⟨hears, fun empty => ⟨silent empty, fun offer => ?_⟩, sends,
    fun busy => ⟨full busy, fun msg room => ?_⟩⟩
  · rw [Endpoint.exclRecv, if_neg (by simp [empty])]
  · rw [Endpoint.exclSend, if_neg (by simp [busy])]

theorem descriptors_tell_arrival :
    ∃ c : Connection, (c .bound).rcvfd = true ∧
      ∃ e', (c .bound).line.exclRecv (some []) = some e' ∧
        e'.delivered = (c .bound).line.delivered ++ [(c .bound).line.sipc.inmsg] := by
  have arrived : ((connection 65536).follow arrival (connection 65536).start).map
      (fun c => ((c .bound).held, (c .bound).rcvfd)) = some (false, true) := by
    decide +kernel
  obtain ⟨c, reachable, seen⟩ := Transition.Machine.reachable_of_observed arrived
  obtain ⟨left, signalled⟩ := Prod.mk.inj seen
  exact ⟨c, signalled, (descriptors_tell reachable .bound left).1 signalled (some [])⟩

end Riff.Nanomsg
