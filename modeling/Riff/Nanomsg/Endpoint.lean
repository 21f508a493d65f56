import Riff.Nanomsg.Usock

set_option autoImplicit false

namespace Riff.Nanomsg

inductive UsockEvent
  | sent
  | received
  | shutdown
  | error
  deriving DecidableEq

inductive TimerEvent
  | timeout
  | stopped
  deriving DecidableEq

inductive StreamhdrEvent
  | ok
  | error
  | stopped
  deriving DecidableEq

/-- The state machine that the socket's events go to. -/
inductive Owner
  | streamhdr
  | sipc
  deriving DecidableEq

/-- Events in the queue of the context, with the machine they are for. -/
inductive Event
  | usock (owner : Owner) (type : UsockEvent)
  | timer (type : TimerEvent)
  | streamhdr (type : StreamhdrEvent)
  | pipeIn
  | pipeOut
  | sipcError
  deriving DecidableEq

/-- The objects that the queue links. `event_error` stands for two types, and so does
`done` of the header exchange. -/
inductive EventItem
  | usockSent
  | usockReceived
  | usockError
  | timerDone
  | timerStopped
  | streamhdrDone
  | streamhdrStopped
  | pipeIn
  | pipeOut
  | sipcDone
  deriving DecidableEq

def Event.item : Event → EventItem
  | .usock _ .sent => .usockSent
  | .usock _ .received => .usockReceived
  | .usock _ .shutdown => .usockError
  | .usock _ .error => .usockError
  | .timer .timeout => .timerDone
  | .timer .stopped => .timerStopped
  | .streamhdr .ok => .streamhdrDone
  | .streamhdr .error => .streamhdrDone
  | .streamhdr .stopped => .streamhdrStopped
  | .pipeIn => .pipeIn
  | .pipeOut => .pipeOut
  | .sipcError => .sipcDone

/-- Tasks that the worker thread has been given. -/
inductive Task
  | send
  | recv
  | stop
  | timerStop
  deriving DecidableEq

inductive TimerState
  | idle
  | active
  | stopping
  deriving DecidableEq

inductive StreamhdrState
  | idle
  | sending
  | receiving
  | stoppingTimerError
  | stoppingTimerDone
  | done
  deriving DecidableEq

inductive SipcState
  | idle
  | protohdr
  | stoppingStreamhdr
  | active
  | shuttingDown
  | done
  deriving DecidableEq

inductive Instate
  | hdr
  | body
  | hasMsg
  deriving DecidableEq

inductive Outstate
  | idle
  | sending
  deriving DecidableEq

structure Sipc where
  state : SipcState := .idle
  instate : Option Instate := none
  insize : UInt64 := 0
  inmsg : Payload := ⟨[], by decide⟩
  outstate : Option Outstate := none

inductive PipebaseState
  | idle
  | active
  | failed
  deriving DecidableEq

inductive PipebaseInstate
  | deactivated
  | idle
  | receiving
  | received
  | async
  deriving DecidableEq

inductive PipebaseOutstate
  | deactivated
  | idle
  | sending
  | sent
  | async
  deriving DecidableEq

structure Pipebase where
  state : PipebaseState := .idle
  instate : PipebaseInstate := .deactivated
  outstate : PipebaseOutstate := .deactivated

/-- Which of the three pointers point to this connection's pipe, the socket's only one. -/
structure Excl where
  pipe : Bool := false
  inpipe : Bool := false
  outpipe : Bool := false

/-- One end of a connection, with the queue of its context and the tasks that the worker
has for it. `accepted` and `delivered` are the messages that the calls for sending and
receiving have returned for. `ended` is set when the owner of the connection has been
told that it failed. -/
structure Endpoint where
  usock : Usock := {}
  owner : Owner := .sipc
  timer : TimerState := .idle
  streamhdr : StreamhdrState := .idle
  sipc : Sipc := {}
  pipebase : Pipebase := {}
  excl : Excl := {}
  events : List Event := []
  tasks : List Task := []
  accepted : List Msg := []
  delivered : List Payload := []
  ended : Bool := false

namespace Endpoint

/-- `nn_fsm_raise`. An item that is in the queue already fails an assertion. -/
def raise (event : Event) (e : Endpoint) : Option Endpoint :=
  if event.item ∈ e.events.map Event.item then none
  else some { e with events := e.events ++ [event] }

/-- `nn_worker_execute`, with the same assertion. -/
def execute (task : Task) (e : Endpoint) : Option Endpoint :=
  if task ∈ e.tasks then none else some { e with tasks := e.tasks ++ [task] }

/-! The socket. -/

def usockAsyncStop (e : Endpoint) : Option Endpoint :=
  (e.execute .stop).bind (·.raise (.usock e.owner .shutdown))

/-- `NN_USOCK_ACTION_ERROR`. -/
def usockActionError (e : Endpoint) : Option Endpoint :=
  match e.usock.state with
  | .active => usockAsyncStop { e with usock := { e.usock with state := .removingFd } }
  | .removingFd => some e
  | .done => some e

/-- The end of `error:` in the ACTIVE state and of the REMOVING_FD state. -/
def usockDone (e : Endpoint) : Option Endpoint :=
  raise (.usock e.owner .error)
    { e with usock := { e.usock with registered := false, state := .done } }

def usockSend (iov : List (List UInt8)) (room : Option ℕ) (e : Endpoint) : Option Endpoint :=
  if e.usock.state ≠ .active then e.usockActionError
  else if usockMaxIovcnt < iov.length then none
  else
    match { e.usock with iov := iov.filter (· ≠ []) }.sendRaw room with
    | none => none
    | some (.ok, u) => raise (.usock e.owner .sent) { e with usock := u }
    | some (.connReset, u) => usockActionError { e with usock := u }
    | some (.again, u) => execute .send { e with usock := u }

def usockRecv (len : ℕ) (offer : Option (List UInt8)) (e : Endpoint) : Option Endpoint :=
  if e.usock.state ≠ .active then e.usockActionError
  else
    match e.usock.recvRaw len offer with
    | (none, u) => usockActionError { e with usock := u }
    | (some bytes, u) =>
        if bytes.length = len then
          raise (.usock e.owner .received) { e with usock := { u with buf := bytes } }
        else
          execute .recv
            { e with usock := { u with buf := bytes, len := len - bytes.length } }

def usockFdIn (offer : Option (List UInt8)) (e : Endpoint) : Option Endpoint :=
  match e.usock.state with
  | .active =>
      match e.usock.recvRaw e.usock.len offer with
      | (none, u) => usockDone { e with usock := u }
      | (some bytes, u) =>
          let u := { u with buf := u.buf ++ bytes, len := u.len - bytes.length }
          if u.len = 0 then
            raise (.usock e.owner .received) { e with usock := { u with pollIn := false } }
          else some { e with usock := u }
  | .removingFd => some e
  | .done => some e

def usockFdOut (room : Option ℕ) (e : Endpoint) : Option Endpoint :=
  match e.usock.state with
  | .active =>
      match e.usock.sendRaw room with
      | none => none
      | some (.ok, u) =>
          raise (.usock e.owner .sent) { e with usock := { u with pollOut := false } }
      | some (.again, u) => some { e with usock := u }
      | some (.connReset, u) => usockDone { e with usock := u }
  | .removingFd => some e
  | .done => some e

def usockFdErr (e : Endpoint) : Option Endpoint :=
  match e.usock.state with
  | .active => e.usockDone
  | .removingFd => some e
  | .done => some e

/-- `NN_USOCK_SRC_TASK_STOP`. -/
def usockTaskStop (e : Endpoint) : Option Endpoint :=
  match e.usock.state with
  | .active => none
  | .removingFd => e.usockDone
  | .done => some e

/-! The timer of the header exchange. -/

def timerStart (e : Endpoint) : Option Endpoint :=
  if e.timer = .idle then some { e with timer := .active } else none

def timerStop (e : Endpoint) : Option Endpoint :=
  if e.timer = .active then execute .timerStop { e with timer := .stopping } else some e

/-- `NN_TIMER_SRC_STOP_TASK`. -/
def timerTaskStop (e : Endpoint) : Option Endpoint :=
  if e.timer = .stopping then raise (.timer .stopped) { e with timer := .idle } else none

/-! The pipe and the socket it belongs to. -/

def exclRm (e : Endpoint) : Option Endpoint :=
  if e.excl.pipe then some { e with excl := {} } else none

def exclIn (e : Endpoint) : Option Endpoint :=
  if ¬ e.excl.inpipe ∧ e.excl.pipe then some { e with excl := { e.excl with inpipe := true } }
  else none

def exclOut (e : Endpoint) : Option Endpoint :=
  if ¬ e.excl.outpipe ∧ e.excl.pipe then some { e with excl := { e.excl with outpipe := true } }
  else none

/-- The answer is whether `nn_excl_add` takes the pipe. -/
def pipebaseStart (e : Endpoint) : Option (Bool × Endpoint) :=
  if e.pipebase.state ≠ .idle then none
  else if e.excl.pipe then some (false, { e with pipebase := ⟨.failed, .async, .idle⟩ })
  else
    (raise .pipeOut { e with
      pipebase := ⟨.active, .async, .idle⟩
      excl := { e.excl with pipe := true } }).map (true, ·)

def pipebaseStop (e : Endpoint) : Option Endpoint :=
  if e.pipebase.state = .active then
    e.exclRm.map fun e => { e with pipebase := { e.pipebase with state := .idle } }
  else some { e with pipebase := { e.pipebase with state := .idle } }

def pipebaseReceived (e : Endpoint) : Option Endpoint :=
  match e.pipebase.instate with
  | .receiving => some { e with pipebase := { e.pipebase with instate := .received } }
  | .async => raise .pipeIn { e with pipebase := { e.pipebase with instate := .idle } }
  | _ => none

def pipebaseSent (e : Endpoint) : Option Endpoint :=
  match e.pipebase.outstate with
  | .sending => some { e with pipebase := { e.pipebase with outstate := .sent } }
  | .async => raise .pipeOut { e with pipebase := { e.pipebase with outstate := .idle } }
  | _ => none

/-! The header exchange. -/

/-- `"\0SP\0"`, the protocol of the socket (`NN_PAIR`) and two reserved bytes. -/
def protohdr : List UInt8 := [0, 83, 80, 0] ++ puts 16 ++ [0, 0]

/-- `nn_sock_ispeer` for a pair. -/
def ispeer (socktype : UInt16) : Bool := (16 &&& 0xfff0) = (socktype &&& 0xfff0) && socktype = 16

def streamhdrStart (room : Option ℕ) (e : Endpoint) : Option Endpoint :=
  if e.streamhdr ≠ .idle then none
  else
    (timerStart { e with owner := .streamhdr }).bind fun e =>
      (e.usockSend [protohdr] room).map fun e => { e with streamhdr := .sending }

/-- Stops the timer and goes to one of the two states that wait for it. -/
def streamhdrStopTimer (state : StreamhdrState) (e : Endpoint) : Option Endpoint :=
  e.timerStop.map fun e => { e with streamhdr := state }

def streamhdrUsock (type : UsockEvent) (offer : Option (List UInt8)) (e : Endpoint) :
    Option Endpoint :=
  match e.streamhdr, type with
  | .sending, .sent => (e.usockRecv 8 offer).map fun e => { e with streamhdr := .receiving }
  | .sending, .shutdown => some e
  | .sending, .error => e.streamhdrStopTimer .stoppingTimerError
  | .receiving, .received =>
      if e.usock.buf.take 4 = [0, 83, 80, 0] ∧ ispeer (gets (e.usock.buf.drop 4)) then
        e.streamhdrStopTimer .stoppingTimerDone
      else e.streamhdrStopTimer .stoppingTimerError
  | .receiving, .shutdown => some e
  | .receiving, .error => e.streamhdrStopTimer .stoppingTimerError
  | .stoppingTimerError, .error => some e
  | .stoppingTimerDone, .error => some e
  | _, _ => none

def streamhdrTimer (type : TimerEvent) (e : Endpoint) : Option Endpoint :=
  match e.streamhdr, type with
  | .sending, .timeout => e.streamhdrStopTimer .stoppingTimerError
  | .receiving, .timeout => e.streamhdrStopTimer .stoppingTimerError
  | .stoppingTimerError, .stopped =>
      raise (.streamhdr .error) { e with owner := .sipc, streamhdr := .done }
  | .stoppingTimerDone, .stopped =>
      raise (.streamhdr .ok) { e with owner := .sipc, streamhdr := .done }
  | _, _ => none

/-- The timer has stopped by then, so that the machine stops at once. -/
def streamhdrStop (e : Endpoint) : Option Endpoint :=
  if e.timer = .idle then raise (.streamhdr .stopped) { e with streamhdr := .idle } else none

/-! The connection. -/

def sipcStart (room : Option ℕ) (e : Endpoint) : Option Endpoint :=
  if e.sipc.state ≠ .idle then none
  else (e.streamhdrStart room).map fun e => { e with sipc := { e.sipc with state := .protohdr } }

def sipcSend (msg : Msg) (room : Option ℕ) (e : Endpoint) : Option Endpoint :=
  if e.sipc.state = .active ∧ e.sipc.outstate = some .idle then
    (e.usockSend [msgHeader (.ofNat (msg.sphdr.length + msg.body.length)), msg.sphdr, msg.body]
      room).map fun e => { e with sipc := { e.sipc with outstate := some .sending } }
  else none

/-- The message is `inmsg` of the state before. -/
def sipcRecv (offer : Option (List UInt8)) (e : Endpoint) : Option Endpoint :=
  if e.sipc.state = .active ∧ e.sipc.instate = some .hasMsg then
    usockRecv 9 offer { e with sipc := { e.sipc with instate := some .hdr } }
  else none

/-- Raises the error for the owner of the connection. -/
def sipcFail (e : Endpoint) : Option Endpoint :=
  raise .sipcError { e with sipc := { e.sipc with state := .done } }

def sipcReceived (offer : Option (List UInt8)) (e : Endpoint) : Option Endpoint :=
  match e.sipc.instate with
  | some .hdr =>
      if e.usock.buf.head? ≠ some msgNormal then none
      else
        let size := getll e.usock.buf.tail
        if size = 0 then
          pipebaseReceived { e with sipc := { e.sipc with
            instate := some .hasMsg, insize := size, inmsg := .ofBuffer size [] } }
        else
          usockRecv size.toNat offer { e with sipc := { e.sipc with
            instate := some .body, insize := size } }
  | some .body =>
      pipebaseReceived { e with sipc := { e.sipc with
        instate := some .hasMsg, inmsg := .ofBuffer e.sipc.insize e.usock.buf } }
  | _ => none

def sipcUsock (type : UsockEvent) (offer : Option (List UInt8)) (e : Endpoint) :
    Option Endpoint :=
  match e.sipc.state, type with
  | .active, .sent =>
      if e.sipc.outstate = some .sending then
        pipebaseSent { e with sipc := { e.sipc with outstate := some .idle } }
      else none
  | .active, .received => e.sipcReceived offer
  | .active, .shutdown =>
      e.pipebaseStop.map fun e => { e with sipc := { e.sipc with state := .shuttingDown } }
  | .active, .error => e.pipebaseStop.bind sipcFail
  | .shuttingDown, .error => e.sipcFail
  | _, _ => none

def sipcStreamhdr (type : StreamhdrEvent) (offer : Option (List UInt8)) (e : Endpoint) :
    Option Endpoint :=
  match e.sipc.state, type with
  | .protohdr, .ok =>
      e.streamhdrStop.map fun e => { e with sipc := { e.sipc with state := .stoppingStreamhdr } }
  | .protohdr, .error => e.sipcFail
  | .stoppingStreamhdr, .stopped =>
      match e.pipebaseStart with
      | none => none
      | some (false, e) => e.sipcFail
      | some (true, e) =>
          (usockRecv 9 offer { e with sipc := { e.sipc with instate := some .hdr } }).map fun e =>
            { e with sipc := { e.sipc with outstate := some .idle, state := .active } }
  | _, _ => none

/-! The calls of the program. -/

/-- The answer is whether the pipe is to be released. -/
def pipeSend (msg : Msg) (room : Option ℕ) (e : Endpoint) : Option (Bool × Endpoint) :=
  if e.pipebase.outstate ≠ .idle then none
  else
    match sipcSend msg room { e with pipebase := { e.pipebase with outstate := .sending } } with
    | none => none
    | some e =>
        if e.pipebase.outstate = .sent then
          some (false, { e with pipebase := { e.pipebase with outstate := .idle } })
        else if e.pipebase.outstate = .sending then
          some (true, { e with pipebase := { e.pipebase with outstate := .async } })
        else none

def pipeRecv (offer : Option (List UInt8)) (e : Endpoint) : Option (Bool × Endpoint) :=
  if e.pipebase.instate ≠ .idle then none
  else
    match sipcRecv offer { e with pipebase := { e.pipebase with instate := .receiving } } with
    | none => none
    | some e =>
        if e.pipebase.instate = .received then
          some (false, { e with pipebase := { e.pipebase with instate := .idle } })
        else if e.pipebase.instate = .receiving then
          some (true, { e with pipebase := { e.pipebase with instate := .async } })
        else none

/-- Nothing is done where the answer is `EAGAIN`. -/
def exclSend (msg : Msg) (room : Option ℕ) (e : Endpoint) : Option Endpoint :=
  if e.excl.outpipe then
    (e.pipeSend msg room).map fun (release, e) =>
      { e with
        excl := { e.excl with outpipe := !release }
        accepted := e.accepted ++ [msg] }
  else some e

def exclRecv (offer : Option (List UInt8)) (e : Endpoint) : Option Endpoint :=
  if e.excl.inpipe then
    (e.pipeRecv offer).map fun (release, e') =>
      { e' with
        excl := { e'.excl with inpipe := !release }
        delivered := e'.delivered ++ [e.sipc.inmsg] }
  else some e

/-! The context and the worker. -/

def process (event : Event) (offer : Option (List UInt8)) (e : Endpoint) : Option Endpoint :=
  match event with
  | .usock .streamhdr type => e.streamhdrUsock type offer
  | .usock .sipc type => e.sipcUsock type offer
  | .timer type => e.streamhdrTimer type
  | .streamhdr type => e.sipcStreamhdr type offer
  | .pipeIn => e.exclIn
  | .pipeOut => e.exclOut
  -- The owner stops all of the connection before it leaves the context.
  | .sipcError => some { e with ended := true }

/-- The worker takes the first task from its queue. -/
def workerTask (e : Endpoint) : Option Endpoint :=
  match e.tasks with
  | [] => some e
  | .send :: tasks => some { e with tasks := tasks, usock := { e.usock with pollOut := true } }
  | .recv :: tasks => some { e with tasks := tasks, usock := { e.usock with pollIn := true } }
  | .stop :: tasks => usockTaskStop { e with tasks := tasks }
  | .timerStop :: tasks => timerTaskStop { e with tasks := tasks }

/-- Whether the connection is the worker's business. -/
def served (e : Endpoint) : Bool := e.sipc.state ≠ .idle && !e.ended

end Endpoint

end Riff.Nanomsg
