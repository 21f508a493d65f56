import Riff.Nanomsg.Transfers
import Riff.Nanomsg.Socket

set_option autoImplicit false

namespace Riff.Nanomsg

/-- A socket in use, which the worker has registered. -/
def Usock.Open (u : Usock) : Prop := u.state = .active ∧ u.registered = true

/-- What handlers leave alone: the calls that have returned, the bytes that the kernel
has taken and given, and a socket for which no call of the kernel fails. -/
structure Follows (smooth : Prop) (e e' : Endpoint) : Prop where
  accepted : e'.accepted = e.accepted
  delivered : e'.delivered = e.delivered
  sent : e.usock.sent <+: e'.usock.sent
  received : e.usock.received <+: e'.usock.received
  opened : smooth → e.usock.Open → e'.usock.Open

section

variable {e e₁ e' : Endpoint} {smooth : Prop} {room : Option ℕ} {offer : Option (List UInt8)}

namespace Follows

theorem same (accepted : e'.accepted = e.accepted) (delivered : e'.delivered = e.delivered)
    (usock : e'.usock = e.usock) : Follows smooth e e' :=
  ⟨accepted, delivered, usock ▸ List.prefix_rfl, usock ▸ List.prefix_rfl,
    fun _ opened => usock ▸ opened⟩

theorem trans (first : Follows smooth e e₁) (second : Follows smooth e₁ e') :
    Follows smooth e e' where
  accepted := second.accepted.trans first.accepted
  delivered := second.delivered.trans first.delivered
  sent := first.sent.trans second.sent
  received := first.received.trans second.received
  opened smooth opened := second.opened smooth (first.opened smooth opened)

theorem mono {rough : Prop} (follows : Follows smooth e e') (implies : rough → smooth) :
    Follows rough e e' :=
  ⟨follows.accepted, follows.delivered, follows.sent, follows.received,
    fun rough => follows.opened (implies rough)⟩

end Follows

namespace Endpoint

/-! The socket. -/

theorem raise_follows {event : Event} (raised : e.raise event = some e') :
    Follows smooth e e' := by
  cases raise_some raised
  exact .same rfl rfl rfl

theorem execute_follows {task : Task} (given : e.execute task = some e') :
    Follows smooth e e' := by
  cases execute_some given
  exact .same rfl rfl rfl

theorem usockActionError_follows (failed : e.usockActionError = some e')
    (rough : smooth → e.usock.state ≠ .active) : Follows smooth e e' := by
  rw [usockActionError] at failed
  split at failed
  · rename_i active
    obtain ⟨e₁, given, raised⟩ := Option.bind_eq_some_iff.mp failed
    refine .trans ?_ ((execute_follows given).trans (raise_follows raised))
    exact ⟨rfl, rfl, List.prefix_rfl, List.prefix_rfl, fun smooth => absurd active (rough smooth)⟩
  · cases failed
    exact .same rfl rfl rfl
  · cases failed
    exact .same rfl rfl rfl

theorem usockDone_follows (done : e.usockDone = some e')
    (rough : smooth → e.usock.state ≠ .active) : Follows smooth e e' := by
  rw [usockDone] at done
  refine .trans ?_ (raise_follows done)
  exact ⟨rfl, rfl, List.prefix_rfl, List.prefix_rfl,
    fun smooth opened => absurd opened.1 (rough smooth)⟩

/-- A change of the socket that a call of the kernel has made. -/
theorem follows_usock {u : Usock} (sent : e.usock.sent <+: u.sent)
    (received : e.usock.received <+: u.received) (state : u.state = e.usock.state)
    (registered : u.registered = e.usock.registered) :
    Follows smooth e { e with usock := u } :=
  ⟨rfl, rfl, sent, received, fun _ opened => ⟨state.trans opened.1, registered.trans opened.2⟩⟩

theorem usockSend_follows {iov : List (List UInt8)} (sent : e.usockSend iov room = some e') :
    Follows (room ≠ none) e e' := by
  rw [usockSend] at sent
  split at sent
  · rename_i idle
    exact usockActionError_follows sent fun _ => idle
  · split at sent
    · cases sent
    · split at sent
      · cases sent
      · rename_i u raw
        obtain ⟨rest, now, _, rfl, _⟩ := Usock.sendRaw_frame raw
        refine .trans ?_ (raise_follows sent)
        exact follows_usock (List.prefix_append ..) List.prefix_rfl rfl rfl
      · rename_i u raw
        obtain ⟨rest, now, _, rfl, reset⟩ := Usock.sendRaw_frame raw
        refine .trans ?_ (usockActionError_follows sent fun smooth => absurd (reset rfl) smooth)
        exact follows_usock (List.prefix_append ..) List.prefix_rfl rfl rfl
      · rename_i u raw
        obtain ⟨rest, now, _, rfl, _⟩ := Usock.sendRaw_frame raw
        refine .trans ?_ (execute_follows sent)
        exact follows_usock (List.prefix_append ..) List.prefix_rfl rfl rfl

theorem usockRecv_follows {len : ℕ} (received : e.usockRecv len offer = some e') :
    Follows (offer ≠ none) e e' := by
  rw [usockRecv] at received
  split at received
  · rename_i idle
    exact usockActionError_follows received fun _ => idle
  · obtain ⟨batch, given, _, frame, failed⟩ := e.usock.recvRaw_frame len offer
    split at received
    · rename_i u raw
      rw [raw] at frame failed
      cases frame
      refine .trans ?_ (usockActionError_follows received fun smooth => absurd (failed rfl) smooth)
      exact follows_usock List.prefix_rfl (List.prefix_append ..) rfl rfl
    · rename_i bytes u raw
      rw [raw] at frame
      cases frame
      split at received
      · refine .trans ?_ (raise_follows received)
        exact follows_usock List.prefix_rfl (List.prefix_append ..) rfl rfl
      · refine .trans ?_ (execute_follows received)
        exact follows_usock List.prefix_rfl (List.prefix_append ..) rfl rfl

theorem usockFdIn_follows (worked : e.usockFdIn offer = some e') :
    Follows (offer ≠ none) e e' := by
  rw [usockFdIn] at worked
  split at worked
  · obtain ⟨batch, given, _, frame, failed⟩ := e.usock.recvRaw_frame e.usock.len offer
    split at worked
    · rename_i u raw
      rw [raw] at frame failed
      cases frame
      refine .trans ?_ (usockDone_follows worked fun smooth => absurd (failed rfl) smooth)
      exact follows_usock List.prefix_rfl (List.prefix_append ..) rfl rfl
    · rename_i bytes u raw
      rw [raw] at frame
      cases frame
      simp only at worked
      split at worked
      · refine .trans ?_ (raise_follows worked)
        exact follows_usock List.prefix_rfl (List.prefix_append ..) rfl rfl
      · cases worked
        exact follows_usock List.prefix_rfl (List.prefix_append ..) rfl rfl
  · cases worked
    exact .same rfl rfl rfl
  · cases worked
    exact .same rfl rfl rfl

theorem usockFdOut_follows (worked : e.usockFdOut room = some e') :
    Follows (room ≠ none) e e' := by
  rw [usockFdOut] at worked
  split at worked
  · split at worked
    · cases worked
    · rename_i u raw
      obtain ⟨rest, now, _, rfl, _⟩ := Usock.sendRaw_frame raw
      refine .trans ?_ (raise_follows worked)
      exact follows_usock (List.prefix_append ..) List.prefix_rfl rfl rfl
    · rename_i u raw
      obtain ⟨rest, now, _, rfl, _⟩ := Usock.sendRaw_frame raw
      cases worked
      exact follows_usock (List.prefix_append ..) List.prefix_rfl rfl rfl
    · rename_i u raw
      obtain ⟨rest, now, _, rfl, reset⟩ := Usock.sendRaw_frame raw
      refine .trans ?_ (usockDone_follows worked fun smooth => absurd (reset rfl) smooth)
      exact follows_usock (List.prefix_append ..) List.prefix_rfl rfl rfl
  · cases worked
    exact .same rfl rfl rfl
  · cases worked
    exact .same rfl rfl rfl

theorem usockFdErr_follows (worked : e.usockFdErr = some e') : Follows False e e' := by
  rw [usockFdErr] at worked
  split at worked
  · exact usockDone_follows worked False.elim
  · cases worked
    exact .same rfl rfl rfl
  · cases worked
    exact .same rfl rfl rfl

theorem workerTask_follows (worked : e.workerTask = some e') : Follows smooth e e' := by
  rw [workerTask] at worked
  split at worked
  · cases worked
    exact .same rfl rfl rfl
  · cases worked
    exact ⟨rfl, rfl, List.prefix_rfl, List.prefix_rfl, fun _ => id⟩
  · cases worked
    exact ⟨rfl, rfl, List.prefix_rfl, List.prefix_rfl, fun _ => id⟩
  · rename_i tasks _
    rw [usockTaskStop] at worked
    split at worked
    · cases worked
    · rename_i removing
      refine .trans ?_ (usockDone_follows worked fun _ active => ?_)
      · exact .same rfl rfl rfl
      · cases removing.symm.trans active
    · cases worked
      exact .same rfl rfl rfl
  · rw [timerTaskStop] at worked
    split at worked
    · refine .trans ?_ (raise_follows worked)
      exact .same rfl rfl rfl
    · cases worked

/-! The pipe. -/

theorem pipebaseReceived_follows (received : e.pipebaseReceived = some e') :
    Follows smooth e e' := by
  rw [pipebaseReceived] at received
  split at received
  · cases received
    exact .same rfl rfl rfl
  · refine .trans ?_ (raise_follows received)
    exact .same rfl rfl rfl
  · cases received

theorem pipebaseSent_follows (sent : e.pipebaseSent = some e') : Follows smooth e e' := by
  rw [pipebaseSent] at sent
  split at sent
  · cases sent
    exact .same rfl rfl rfl
  · refine .trans ?_ (raise_follows sent)
    exact .same rfl rfl rfl
  · cases sent

theorem pipebaseStart_follows {taken : Bool} (started : e.pipebaseStart = some (taken, e')) :
    Follows smooth e e' := by
  rw [pipebaseStart] at started
  split at started
  · cases started
  · split at started
    · cases started
      exact .same rfl rfl rfl
    · obtain ⟨e₁, raised, same⟩ := Option.map_eq_some_iff.mp started
      cases same
      refine .trans ?_ (raise_follows raised)
      exact .same rfl rfl rfl

theorem pipebaseStop_follows (stopped : e.pipebaseStop = some e') : Follows smooth e e' := by
  rw [pipebaseStop] at stopped
  split at stopped
  · obtain ⟨e₁, removed, rfl⟩ := Option.map_eq_some_iff.mp stopped
    rw [exclRm] at removed
    split at removed
    · cases removed
      exact .same rfl rfl rfl
    · cases removed
  · cases stopped
    exact .same rfl rfl rfl

/-! The header exchange. -/

theorem streamhdrStart_follows (started : e.streamhdrStart room = some e') :
    Follows (room ≠ none) e e' := by
  rw [streamhdrStart] at started
  split at started
  · cases started
  · obtain ⟨e₁, timed, rest⟩ := Option.bind_eq_some_iff.mp started
    obtain ⟨e₂, sent, rfl⟩ := Option.map_eq_some_iff.mp rest
    rw [timerStart] at timed
    split at timed
    · cases timed
      refine .trans (.trans ?_ (usockSend_follows sent)) (.same rfl rfl rfl)
      exact .same rfl rfl rfl
    · cases timed

theorem streamhdrStopTimer_follows {state : StreamhdrState}
    (stopped : e.streamhdrStopTimer state = some e') : Follows smooth e e' := by
  obtain ⟨e₁, timed, rfl⟩ := Option.map_eq_some_iff.mp stopped
  rw [timerStop] at timed
  split at timed
  · refine .trans (.trans ?_ (execute_follows timed)) (.same rfl rfl rfl)
    exact .same rfl rfl rfl
  · cases timed
    exact .same rfl rfl rfl

theorem streamhdrUsock_follows {type : UsockEvent}
    (handled : e.streamhdrUsock type offer = some e') : Follows (offer ≠ none) e e' := by
  unfold streamhdrUsock at handled
  split at handled
  · obtain ⟨e₁, received, rfl⟩ := Option.map_eq_some_iff.mp handled
    exact (usockRecv_follows received).trans (.same rfl rfl rfl)
  · cases handled
    exact .same rfl rfl rfl
  · exact streamhdrStopTimer_follows handled
  · split at handled
    · exact streamhdrStopTimer_follows handled
    · exact streamhdrStopTimer_follows handled
  · cases handled
    exact .same rfl rfl rfl
  · exact streamhdrStopTimer_follows handled
  · cases handled
    exact .same rfl rfl rfl
  · cases handled
    exact .same rfl rfl rfl
  · cases handled

theorem streamhdrTimer_follows {type : TimerEvent} (handled : e.streamhdrTimer type = some e') :
    Follows smooth e e' := by
  unfold streamhdrTimer at handled
  split at handled
  · exact streamhdrStopTimer_follows handled
  · exact streamhdrStopTimer_follows handled
  · refine .trans ?_ (raise_follows handled)
    exact .same rfl rfl rfl
  · refine .trans ?_ (raise_follows handled)
    exact .same rfl rfl rfl
  · cases handled

/-! The connection. -/

theorem sipcStart_follows (started : e.sipcStart room = some e') :
    Follows (room ≠ none) e e' := by
  rw [sipcStart] at started
  split at started
  · cases started
  · obtain ⟨e₁, header, rfl⟩ := Option.map_eq_some_iff.mp started
    exact (streamhdrStart_follows header).trans (.same rfl rfl rfl)

theorem sipcFail_follows (failed : e.sipcFail = some e') : Follows smooth e e' := by
  rw [sipcFail] at failed
  refine .trans ?_ (raise_follows failed)
  exact .same rfl rfl rfl

theorem sipcReceived_follows (handled : e.sipcReceived offer = some e') :
    Follows (offer ≠ none) e e' := by
  simp only [sipcReceived] at handled
  split at handled
  · split at handled
    · cases handled
    · split at handled
      · refine .trans ?_ (pipebaseReceived_follows handled)
        exact .same rfl rfl rfl
      · refine .trans ?_ (usockRecv_follows handled)
        exact .same rfl rfl rfl
  · refine .trans ?_ (pipebaseReceived_follows handled)
    exact .same rfl rfl rfl
  · cases handled

theorem sipcUsock_follows {type : UsockEvent} (handled : e.sipcUsock type offer = some e') :
    Follows (offer ≠ none) e e' := by
  unfold sipcUsock at handled
  split at handled
  · split at handled
    · refine .trans ?_ (pipebaseSent_follows handled)
      exact .same rfl rfl rfl
    · cases handled
  · exact sipcReceived_follows handled
  · obtain ⟨e₁, stopped, rfl⟩ := Option.map_eq_some_iff.mp handled
    exact (pipebaseStop_follows stopped).trans (.same rfl rfl rfl)
  · obtain ⟨e₁, stopped, failed⟩ := Option.bind_eq_some_iff.mp handled
    exact (pipebaseStop_follows stopped).trans (sipcFail_follows failed)
  · exact sipcFail_follows handled
  · cases handled

theorem sipcStreamhdr_follows {type : StreamhdrEvent}
    (handled : e.sipcStreamhdr type offer = some e') : Follows (offer ≠ none) e e' := by
  unfold sipcStreamhdr at handled
  split at handled
  · obtain ⟨e₁, stopped, rfl⟩ := Option.map_eq_some_iff.mp handled
    rw [streamhdrStop] at stopped
    split at stopped
    · refine .trans (.trans ?_ (raise_follows stopped)) (.same rfl rfl rfl)
      exact .same rfl rfl rfl
    · cases stopped
  · exact sipcFail_follows handled
  · split at handled
    · cases handled
    · rename_i e₁ started
      exact (pipebaseStart_follows started).trans (sipcFail_follows handled)
    · rename_i e₁ started
      obtain ⟨e₂, received, rfl⟩ := Option.map_eq_some_iff.mp handled
      refine .trans (pipebaseStart_follows started) ?_
      refine .trans (.trans ?_ (usockRecv_follows received)) (.same rfl rfl rfl)
      exact .same rfl rfl rfl
  · cases handled

theorem process_follows {event : Event} (handled : process event offer e = some e') :
    Follows (offer ≠ none) e e' := by
  cases event with
  | usock owner type =>
      cases owner with
      | streamhdr => exact streamhdrUsock_follows handled
      | sipc => exact sipcUsock_follows handled
  | timer type => exact streamhdrTimer_follows handled
  | streamhdr type => exact sipcStreamhdr_follows handled
  | pipeIn =>
      simp only [process, exclIn] at handled
      split at handled
      · cases handled
        exact .same rfl rfl rfl
      · cases handled
  | pipeOut =>
      simp only [process, exclOut] at handled
      split at handled
      · cases handled
        exact .same rfl rfl rfl
      · cases handled
  | sipcError =>
      cases handled
      exact .same rfl rfl rfl

/-! The calls of the program. -/

theorem pipeSend_follows {msg : Msg} {release : Bool}
    (sent : e.pipeSend msg room = some (release, e')) : Follows (room ≠ none) e e' := by
  rw [pipeSend] at sent
  split at sent
  · cases sent
  · split at sent
    · cases sent
    · rename_i e₁ moved
      have follows : Follows (room ≠ none) e e₁ := by
        rw [sipcSend] at moved
        split at moved
        · obtain ⟨e₂, bytes, rfl⟩ := Option.map_eq_some_iff.mp moved
          refine .trans (.trans ?_ (usockSend_follows bytes)) (.same rfl rfl rfl)
          exact .same rfl rfl rfl
        · cases moved
      refine follows.trans ?_
      split at sent
      · cases sent
        exact .same rfl rfl rfl
      · split at sent
        · cases sent
          exact .same rfl rfl rfl
        · cases sent

theorem pipeRecv_follows {release : Bool} (received : e.pipeRecv offer = some (release, e')) :
    Follows (offer ≠ none) e e' := by
  rw [pipeRecv] at received
  split at received
  · cases received
  · split at received
    · cases received
    · rename_i e₁ moved
      have follows : Follows (offer ≠ none) e e₁ := by
        rw [sipcRecv] at moved
        split at moved
        · refine .trans ?_ (usockRecv_follows moved)
          exact .same rfl rfl rfl
        · cases moved
      refine follows.trans ?_
      split at received
      · cases received
        exact .same rfl rfl rfl
      · split at received
        · cases received
          exact .same rfl rfl rfl
        · cases received

/-- A call that sends adds its message to those that were accepted, or finds no pipe. -/
theorem exclSend_follows {msg : Msg} (sent : e.exclSend msg room = some e') :
    e' = e ∨ Follows (room ≠ none) { e with accepted := e.accepted ++ [msg] } e' := by
  rw [exclSend] at sent
  split at sent
  · obtain ⟨⟨release, e₁⟩, piped, rfl⟩ := Option.map_eq_some_iff.mp sent
    have follows := pipeSend_follows piped
    right
    exact ⟨congrArg (· ++ [msg]) follows.accepted, follows.delivered, follows.sent,
      follows.received, follows.opened⟩
  · exact .inl (Option.some.inj sent).symm

theorem exclRecv_follows (received : e.exclRecv offer = some e') :
    e' = e ∨ Follows (offer ≠ none) { e with delivered := e.delivered ++ [e.sipc.inmsg] } e' := by
  rw [exclRecv] at received
  split at received
  · obtain ⟨⟨release, e₁⟩, piped, rfl⟩ := Option.map_eq_some_iff.mp received
    have follows := pipeRecv_follows piped
    right
    exact ⟨follows.accepted, congrArg (· ++ [e.sipc.inmsg]) follows.delivered, follows.sent,
      follows.received, follows.opened⟩
  · exact .inl (Option.some.inj received).symm

end Endpoint

end

end Riff.Nanomsg
