import Riff.Nanomsg.Endpoint

set_option autoImplicit false

namespace Riff.Nanomsg

/-- A pair socket with one connection. `held` says whether some thread is in its context,
`aborted` whether an assertion has failed. -/
structure Socket where
  line : Endpoint := {}
  flagIn : Bool := false
  flagOut : Bool := false
  rcvfd : Bool := false
  sndfd : Bool := false
  held : Bool := false
  aborted : Bool := false

/-- What a thread does next: it starts the connection, calls for sending or receiving, is
the worker with a task, an expired timer or an event of the descriptor, or goes on with
leaving the context. -/
inductive Turn
  | start (room : Option ℕ)
  | send (msg : Msg) (woken : Bool) (room : Option ℕ)
  | recv (woken : Bool) (offer : Option (List UInt8))
  | task
  | timeout
  | fdIn (offer : Option (List UInt8))
  | fdOut (room : Option ℕ)
  | fdErr
  | leave (offer : Option (List UInt8))

def Turn.leaves : Turn → Bool
  | .leave _ => true
  | _ => false

namespace Socket

/-- A thread enters the context and does something with the connection. -/
def enter (s : Socket) (action : Endpoint → Option Endpoint) : Option Socket :=
  (action s.line).map fun line => { s with line := line, held := true }

/-- One round of the loop of `nn_sock_send`, after a wait or not. -/
def sockSend (msg : Msg) (woken : Bool) (room : Option ℕ) (s : Socket) : Option Socket :=
  enter { s with flagOut := s.flagOut || woken && s.sndfd } (·.exclSend msg room)

/-- One round of the loop of `nn_sock_recv`, after a wait or not. -/
def sockRecv (woken : Bool) (offer : Option (List UInt8)) (s : Socket) : Option Socket :=
  enter { s with flagIn := s.flagIn || woken && s.rcvfd } (·.exclRecv offer)

/-- A flag of the socket and its descriptor, as `nn_sock_onleave` sets them. Taking back a
signal that is not there fails an assertion. -/
def signal (possible flag fd : Bool) : Option (Bool × Bool) :=
  match possible, flag, fd with
  | true, true, fd => some (true, fd)
  | true, false, _ => some (true, true)
  | false, true, true => some (false, false)
  | false, true, false => none
  | false, false, fd => some (false, fd)

def sockOnleave (s : Socket) : Option Socket :=
  match signal s.line.excl.inpipe s.flagIn s.rcvfd,
    signal s.line.excl.outpipe s.flagOut s.sndfd with
  | some (flagIn, rcvfd), some (flagOut, sndfd) =>
      some { s with flagIn := flagIn, rcvfd := rcvfd, flagOut := flagOut, sndfd := sndfd }
  | _, _ => none

/-- One turn of the loop of `nn_ctx_leave`, and what comes after it. -/
def ctxLeave (offer : Option (List UInt8)) (s : Socket) : Option Socket :=
  match s.line.events with
  | event :: events => s.enter fun e => Endpoint.process event offer { e with events := events }
  | [] => s.sockOnleave.map fun s => { s with held := false }

def act : Turn → Socket → Option Socket
  | .start room, s => s.enter (·.sipcStart room)
  | .send msg woken room, s => s.sockSend msg woken room
  | .recv woken offer, s => s.sockRecv woken offer
  | .task, s => s.enter (·.workerTask)
  | .timeout, s => s.enter (·.raise (.timer .timeout))
  | .fdIn offer, s => s.enter (·.usockFdIn offer)
  | .fdOut room, s => s.enter (·.usockFdOut room)
  | .fdErr, s => s.enter (·.usockFdErr)
  | .leave offer, s => s.ctxLeave offer

def may : Turn → Socket → Bool
  | .start _, s => s.line.sipc.state = .idle
  | .send .., _ => true
  | .recv .., _ => true
  | .task, s => s.line.served && !s.line.tasks.isEmpty
  | .timeout, s => s.line.served && s.line.timer = .active
  | .fdIn _, s => s.line.served && s.line.usock.registered && s.line.usock.pollIn
  | .fdOut _, s => s.line.served && s.line.usock.registered && s.line.usock.pollOut
  | .fdErr, s => s.line.served && s.line.usock.registered
  | .leave _, _ => true

/-- One step of a thread. Only the one that is in the context can leave it, and no other
can enter meanwhile. -/
def step (turn : Turn) (s : Socket) : Option Socket :=
  if !s.aborted && s.held == turn.leaves && may turn s then
    some ((act turn s).getD { s with aborted := true })
  else none

end Socket

end Riff.Nanomsg
