import Riff.Nanomsg.Endpoint

set_option autoImplicit false

namespace Riff.Nanomsg.Endpoint

variable {e : Endpoint}

/-- Only the event that the pipe can send may stand in the queue. -/
def Quiet (e : Endpoint) : Prop := ∀ event ∈ e.events, event = .pipeOut

theorem raise_eq {event : Event} (new : event.item ∉ e.events.map Event.item) :
    e.raise event = some { e with events := e.events ++ [event] } := if_neg new

theorem raise_some {event : Event} {e' : Endpoint} (raised : e.raise event = some e') :
    e' = { e with events := e.events ++ [event] } := by
  rw [Endpoint.raise] at raised
  split at raised
  · cases raised
  · exact (Option.some.inj raised).symm

theorem execute_eq {task : Task} (new : task ∉ e.tasks) :
    e.execute task = some { e with tasks := e.tasks ++ [task] } := if_neg new

theorem execute_some {task : Task} {e' : Endpoint} (given : e.execute task = some e') :
    e' = { e with tasks := e.tasks ++ [task] } := by
  rw [execute] at given
  split at given
  · cases given
  · exact (Option.some.inj given).symm

theorem Quiet.raise (quiet : e.Quiet) (owner : Owner) (type : UsockEvent) :
    e.raise (.usock owner type) = some { e with events := e.events ++ [.usock owner type] } := by
  apply raise_eq
  intro member
  obtain ⟨first, inside, same⟩ := List.mem_map.mp member
  rw [quiet first inside] at same
  cases type <;> cases same

/-- What a failing call of the kernel leaves of a socket in use. -/
def broken (u : Usock) (e : Endpoint) : Endpoint :=
  { e with
    usock := { u with state := .removingFd }
    tasks := e.tasks ++ [.stop]
    events := e.events ++ [.usock e.owner .shutdown] }

theorem usockActionError_eq {u : Usock} (active : u.state = .active) (quiet : e.Quiet)
    (stop : .stop ∉ e.tasks) : usockActionError { e with usock := u } = some (e.broken u) := by
  simp only [usockActionError, active, usockAsyncStop]
  rw [execute_eq (by exact stop), Option.bind_some]
  exact Quiet.raise (by exact quiet) e.owner .shutdown

/-- What a request to send the given bytes leaves: the event at once, a task for the
worker, or a broken socket. -/
inductive Sends (e : Endpoint) (bytes : List UInt8) : Endpoint → Prop
  | whole :
      Sends e bytes { e with
        usock := { e.usock with iov := [], sent := e.usock.sent ++ bytes }
        events := e.events ++ [.usock e.owner .sent] }
  | partly {now : List UInt8} {iov : List (List UInt8)} (split : bytes = now ++ iov.flatten)
      (more : iov ≠ []) (nonempty : [] ∉ iov) :
      Sends e bytes { e with
        usock := { e.usock with iov := iov, sent := e.usock.sent ++ now }
        tasks := e.tasks ++ [.send] }
  | broken {iov : List (List UInt8)} (unsent : iov.flatten = bytes) :
      Sends e bytes (e.broken { e.usock with iov := iov })

/-- What a request to receive leaves. -/
inductive Receives (e : Endpoint) (len : ℕ) : Endpoint → Prop
  | whole {bytes batch given : List UInt8} (order : e.usock.batch ++ given = bytes ++ batch)
      (length : bytes.length = len) :
      Receives e len { e with
        usock := { e.usock with
          buf := bytes, batch := batch, received := e.usock.received ++ given }
        events := e.events ++ [.usock e.owner .received] }
  | partly {bytes given : List UInt8} (order : e.usock.batch ++ given = bytes)
      (length : bytes.length < len) :
      Receives e len { e with
        usock := { e.usock with
          buf := bytes, len := len - bytes.length, batch := []
          received := e.usock.received ++ given }
        tasks := e.tasks ++ [.recv] }
  | broken {batch : List UInt8} :
      Receives e len (e.broken { e.usock with batch := batch })

theorem usockSend_sends (iov : List (List UInt8)) (room : Option ℕ)
    (active : e.usock.state = .active) (few : iov.length ≤ usockMaxIovcnt) (quiet : e.Quiet)
    (send : .send ∉ e.tasks) (stop : .stop ∉ e.tasks) :
    ∃ e', e.usockSend iov room = some e' ∧ e.Sends iov.flatten e' := by
  have bytes : (iov.filter (· ≠ [])).flatten = iov.flatten := List.flatten_filter_ne_nil
  have nonempty : [] ∉ iov.filter (· ≠ []) := by simp
  rw [usockSend, if_neg (not_not_intro active), if_neg (Nat.not_lt.mpr few)]
  cases room with
  | none =>
      refine ⟨_, usockActionError_eq active quiet stop, .broken bytes⟩
  | some room =>
      obtain ⟨now, later, rest, split, _, left, nonempty', sent⟩ :=
        Usock.sendRaw_eq (u := { e.usock with iov := iov.filter (· ≠ []) }) nonempty room
      rw [sent, ← bytes]
      by_cases all : later = []
      · subst all
        rw [eq_nil_of_flatten nonempty' left, if_pos rfl, split, List.append_nil]
        exact ⟨_, Quiet.raise (by exact quiet) e.owner .sent, .whole⟩
      · rw [if_neg all]
        refine ⟨_, execute_eq send, .partly (split.trans (by rw [left])) ?_ nonempty'⟩
        rintro rfl
        exact all left.symm

theorem usockRecv_receives {len : ℕ} (offer : Option (List UInt8)) (positive : 0 < len)
    (active : e.usock.state = .active) (quiet : e.Quiet) (recv : .recv ∉ e.tasks)
    (stop : .stop ∉ e.tasks) : ∃ e', e.usockRecv len offer = some e' ∧ e.Receives len e' := by
  rw [usockRecv, if_neg (not_not_intro active)]
  rcases e.usock.recvRaw_eq positive offer with
    ⟨batch, failed⟩ | ⟨bytes, batch, given, order, within, whole, received⟩
  · rw [failed]
    exact ⟨_, usockActionError_eq active quiet stop, .broken⟩
  · rw [received]
    by_cases all : bytes.length = len
    · simp only [all, ↓reduceIte]
      exact ⟨_, Quiet.raise (by exact quiet) e.owner .received, .whole order all⟩
    · have empty := whole.resolve_left all
      subst empty
      simp only [all, ↓reduceIte]
      rw [List.append_nil] at order
      exact ⟨_, execute_eq recv, .partly order (Nat.lt_of_le_of_ne within all)⟩

/-- Nothing is done for a socket that is not in use. -/
theorem usockActionError_idle (idle : e.usock.state ≠ .active) : e.usockActionError = some e := by
  rw [usockActionError]
  split
  · contradiction
  · rfl
  · rfl

theorem usockSend_idle {iov : List (List UInt8)} {room : Option ℕ}
    (idle : e.usock.state ≠ .active) : e.usockSend iov room = some e := by
  rw [usockSend, if_pos idle, usockActionError_idle idle]

theorem usockRecv_idle {len : ℕ} {offer : Option (List UInt8)}
    (idle : e.usock.state ≠ .active) : e.usockRecv len offer = some e := by
  rw [usockRecv, if_pos idle, usockActionError_idle idle]

/-! What the handlers do with an event that they expect. -/

section Handlers

variable {offer : Option (List UInt8)}

attribute [local simp] streamhdrUsock streamhdrTimer sipcStreamhdr sipcUsock sipcReceived

theorem streamhdrUsock_sent (state : e.streamhdr = .sending) :
    e.streamhdrUsock .sent offer =
      (e.usockRecv 8 offer).map fun e => { e with streamhdr := .receiving } := by
  simp [state]

theorem streamhdrUsock_received (state : e.streamhdr = .receiving)
    (header : e.usock.buf = protohdr) :
    e.streamhdrUsock .received offer = e.streamhdrStopTimer .stoppingTimerDone := by
  simp only [streamhdrUsock, state]
  exact if_pos (by rw [header]; decide)

theorem streamhdrUsock_shutdown (state : e.streamhdr = .sending ∨ e.streamhdr = .receiving) :
    e.streamhdrUsock .shutdown offer = some e := by
  rcases state with state | state <;> simp [state]

theorem streamhdrUsock_error (state : e.streamhdr = .sending ∨ e.streamhdr = .receiving) :
    e.streamhdrUsock .error offer = e.streamhdrStopTimer .stoppingTimerError := by
  rcases state with state | state <;> simp [state]

theorem streamhdrUsock_ignored (state : e.streamhdr = .stoppingTimerDone) :
    e.streamhdrUsock .error offer = some e := by
  simp [state]

theorem streamhdrTimer_done (state : e.streamhdr = .stoppingTimerDone) :
    e.streamhdrTimer .stopped =
      raise (.streamhdr .ok) { e with owner := .sipc, streamhdr := .done } := by
  simp [state]

theorem streamhdrTimer_error (state : e.streamhdr = .stoppingTimerError) :
    e.streamhdrTimer .stopped =
      raise (.streamhdr .error) { e with owner := .sipc, streamhdr := .done } := by
  simp [state]

theorem sipcStreamhdr_ok (state : e.sipc.state = .protohdr) :
    e.sipcStreamhdr .ok offer =
      e.streamhdrStop.map fun e =>
        { e with sipc := { e.sipc with state := .stoppingStreamhdr } } := by
  simp [state]

theorem sipcStreamhdr_error (state : e.sipc.state = .protohdr) :
    e.sipcStreamhdr .error offer = e.sipcFail := by
  simp [state]

theorem sipcStreamhdr_stopped (state : e.sipc.state = .stoppingStreamhdr) {e' : Endpoint}
    (started : e.pipebaseStart = some (true, e')) :
    e.sipcStreamhdr .stopped offer =
      (usockRecv 9 offer { e' with sipc := { e'.sipc with instate := some .hdr } }).map fun e =>
        { e with sipc := { e.sipc with outstate := some .idle, state := .active } } := by
  simp [state, started]

theorem sipcUsock_sent (state : e.sipc.state = .active)
    (outstate : e.sipc.outstate = some .sending) :
    e.sipcUsock .sent offer =
      pipebaseSent { e with sipc := { e.sipc with outstate := some .idle } } := by
  simp only [sipcUsock, state]
  exact if_pos outstate

theorem sipcUsock_received (state : e.sipc.state = .active) :
    e.sipcUsock .received offer = e.sipcReceived offer := by
  simp [state]

theorem sipcUsock_shutdown (state : e.sipc.state = .active) :
    e.sipcUsock .shutdown offer =
      e.pipebaseStop.map fun e => { e with sipc := { e.sipc with state := .shuttingDown } } := by
  simp [state]

theorem sipcUsock_error (state : e.sipc.state = .active) :
    e.sipcUsock .error offer = e.pipebaseStop.bind sipcFail := by
  simp [state]

theorem sipcUsock_closed (state : e.sipc.state = .shuttingDown) :
    e.sipcUsock .error offer = e.sipcFail := by
  simp [state]

theorem sipcReceived_empty (instate : e.sipc.instate = some .hdr)
    (header : e.usock.buf = msgHeader 0) :
    e.sipcReceived offer = pipebaseReceived { e with sipc := { e.sipc with
      instate := some .hasMsg, insize := 0, inmsg := .ofBuffer 0 [] } } := by
  simp only [sipcReceived, instate, header]
  rfl

theorem sipcReceived_hdr {size : UInt64} (instate : e.sipc.instate = some .hdr)
    (header : e.usock.buf = msgHeader size) (some_ : size ≠ 0) :
    e.sipcReceived offer = usockRecv size.toNat offer { e with sipc := { e.sipc with
      instate := some .body, insize := size } } := by
  have read : getll e.usock.buf.tail = size := by
    rw [header, msgHeader, List.tail_cons, getll_putll]
  simp only [sipcReceived, instate, read, some_]
  rw [header]
  rfl

theorem sipcReceived_body (instate : e.sipc.instate = some .body) :
    e.sipcReceived offer = pipebaseReceived { e with sipc := { e.sipc with
      instate := some .hasMsg, inmsg := .ofBuffer e.sipc.insize e.usock.buf } } := by
  simp [instate]

theorem pipebaseReceived_eq (base : e.pipebase.instate = .async) (free : e.events = []) :
    e.pipebaseReceived =
      some { e with pipebase := { e.pipebase with instate := .idle }, events := [.pipeIn] } := by
  simp only [pipebaseReceived, base]
  rw [raise_eq (by simp [free]), free]
  rfl

theorem pipebaseSent_eq (base : e.pipebase.outstate = .async) (free : e.events = []) :
    e.pipebaseSent =
      some { e with pipebase := { e.pipebase with outstate := .idle }, events := [.pipeOut] } := by
  simp only [pipebaseSent, base]
  rw [raise_eq (by simp [free]), free]
  rfl

theorem pipebaseStop_eq (base : e.pipebase.state = .active) (pipe : e.excl.pipe = true) :
    e.pipebaseStop =
      some { e with excl := {}, pipebase := { e.pipebase with state := .idle } } := by
  rw [pipebaseStop, if_pos base, exclRm, if_pos pipe]
  rfl

theorem sipcFail_eq (free : e.events = []) :
    e.sipcFail = some { e with
      sipc := { e.sipc with state := .done }, events := [.sipcError] } := by
  rw [sipcFail, raise_eq (by simp [free]), free]
  rfl

theorem streamhdrStopTimer_eq {state : StreamhdrState} (timer : e.timer = .active)
    (new : .timerStop ∉ e.tasks) :
    e.streamhdrStopTimer state = some { e with
      timer := .stopping, streamhdr := state, tasks := e.tasks ++ [.timerStop] } := by
  rw [streamhdrStopTimer, timerStop, if_pos timer, execute_eq (by exact new)]
  rfl

end Handlers

end Riff.Nanomsg.Endpoint
