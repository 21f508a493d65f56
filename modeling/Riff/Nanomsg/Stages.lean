import Riff.Nanomsg.Transfers

set_option autoImplicit false

namespace Riff.Nanomsg

/-- The worker is not asked to poll, and does not. -/
structure Idles (task : Task) (tasks : List Task) (poll : Bool) : Prop where
  unasked : task ∉ tasks
  unpolled : poll = false

/-- The worker has been asked to poll, or does. -/
def Awaits (task : Task) (tasks : List Task) (poll : Bool) : Prop :=
  task ∈ tasks ∧ poll = false ∨ task ∉ tasks ∧ poll = true

structure OutClear (u : Usock) (tasks : List Task) : Prop where
  iov : u.iov = []
  idles : Idles .send tasks u.pollOut

/-- Some bytes are left to send, which the worker will try. -/
structure OutBusy (u : Usock) (tasks : List Task) : Prop where
  more : u.iov ≠ []
  nonempty : [] ∉ u.iov
  awaits : Awaits .send tasks u.pollOut

/-- A request for `n` bytes that is not fulfilled, which the worker will go on with. -/
structure InBusy (u : Usock) (tasks : List Task) (n : ℕ) : Prop where
  wants : 0 < u.len
  total : u.buf.length + u.len = n
  batch : u.batch = []
  awaits : Awaits .recv tasks u.pollIn

/-- A request to send, with the event that it leads to. -/
inductive Transfer (u : Usock) (tasks : List Task) (owner : Owner) : List Event → Prop
  | busy (busy : OutBusy u tasks) : Transfer u tasks owner []
  | finished (clear : OutClear u tasks) : Transfer u tasks owner [.usock owner .sent]

/-- A request for `n` bytes, with the event that it leads to. -/
inductive Request (u : Usock) (tasks : List Task) (owner : Owner) (n : ℕ) : List Event → Prop
  | busy (busy : InBusy u tasks n) : Request u tasks owner n []
  | filled (clear : Idles .recv tasks u.pollIn) (length : u.buf.length = n) :
      Request u tasks owner n [.usock owner .received]

/-- The sending half of an established connection. -/
inductive Outbound (e : Endpoint) : List Event → Prop
  | idle (outstate : e.sipc.outstate = some .idle) (base : e.pipebase.outstate = .idle)
      (pipe : e.excl.outpipe = true) (clear : OutClear e.usock e.tasks) : Outbound e []
  | announced (outstate : e.sipc.outstate = some .idle) (base : e.pipebase.outstate = .idle)
      (pipe : e.excl.outpipe = false) (clear : OutClear e.usock e.tasks) : Outbound e [.pipeOut]
  | sending {events : List Event} (outstate : e.sipc.outstate = some .sending)
      (base : e.pipebase.outstate = .async) (pipe : e.excl.outpipe = false)
      (transfer : Transfer e.usock e.tasks .sipc events) : Outbound e events

/-- The bytes of what has been delivered, with the header before them. -/
def Endpoint.consumed (e : Endpoint) : List UInt8 :=
  Endpoint.protohdr ++ framing.stream e.delivered

/-- The receiving half of an established connection. -/
inductive Inbound (e : Endpoint) : List Event → Prop
  | hasMsg (instate : e.sipc.instate = some .hasMsg) (base : e.pipebase.instate = .idle)
      (pipe : e.excl.inpipe = true) (clear : Idles .recv e.tasks e.usock.pollIn)
      (parsed : e.usock.received = e.consumed ++ frame e.sipc.inmsg ++ e.usock.batch) :
      Inbound e []
  | announced (instate : e.sipc.instate = some .hasMsg) (base : e.pipebase.instate = .idle)
      (pipe : e.excl.inpipe = false) (clear : Idles .recv e.tasks e.usock.pollIn)
      (parsed : e.usock.received = e.consumed ++ frame e.sipc.inmsg ++ e.usock.batch) :
      Inbound e [.pipeIn]
  | hdr {events : List Event} (instate : e.sipc.instate = some .hdr)
      (base : e.pipebase.instate = .async) (pipe : e.excl.inpipe = false)
      (request : Request e.usock e.tasks .sipc 9 events)
      (parsed : e.usock.received = e.consumed ++ e.usock.buf ++ e.usock.batch) :
      Inbound e events
  | body {events : List Event} (instate : e.sipc.instate = some .body)
      (base : e.pipebase.instate = .async) (pipe : e.excl.inpipe = false)
      (request : Request e.usock e.tasks .sipc e.sipc.insize.toNat events)
      (parsed : e.usock.received =
        e.consumed ++ msgHeader e.sipc.insize ++ e.usock.buf ++ e.usock.batch) :
      Inbound e events

/-- A socket that is being given up, with the events that this leads to. -/
inductive Dying (state : UsockState) (owner : Owner) : List Event → Prop
  | told (removing : state = .removingFd) : Dying state owner [.usock owner .shutdown]
  | waits (removing : state = .removingFd) : Dying state owner []
  | gone (done : state = .done) : Dying state owner [.usock owner .error]

/-- Nothing but the state of the connection has changed yet. -/
structure Early (state : SipcState) (e : Endpoint) : Prop where
  sipc : e.sipc = { state := state }
  pipebase : e.pipebase = {}
  excl : e.excl = {}
  accepted : e.accepted = []
  delivered : e.delivered = []
  goesOn : e.ended = false

/-- The headers have been exchanged, and the socket is at rest or has failed since. -/
def Ready (e : Endpoint) : Prop :=
  e.usock.state = .done ∨
    e.usock.state = .active ∧ OutClear e.usock e.tasks ∧ Idles .recv e.tasks e.usock.pollIn ∧
      e.usock.received = Endpoint.protohdr ++ e.usock.batch

/-- The pipe is in use. -/
structure Live (e : Endpoint) : Prop where
  owner : e.owner = .sipc
  timer : e.timer = .idle
  state : e.sipc.state = .active
  base : e.pipebase.state = .active
  pipe : e.excl.pipe = true
  goesOn : e.ended = false

/-- How far a connection can have come, with the events that are then in the queue. -/
inductive Stage (e : Endpoint) : Prop
  | fresh (early : Early .idle e) (owner : e.owner = .sipc) (timer : e.timer = .idle)
      (state : e.streamhdr = .idle) (usock : e.usock = {}) (tasks : e.tasks = [])
      (events : e.events = [])
  | greeting (early : Early .protohdr e) (owner : e.owner = .streamhdr)
      (timer : e.timer = .active) (state : e.streamhdr = .sending)
      (active : e.usock.state = .active)
      (transfer : Transfer e.usock e.tasks .streamhdr e.events)
      (clear : Idles .recv e.tasks e.usock.pollIn) (received : e.usock.received = [])
      (batch : e.usock.batch = [])
  | answered (early : Early .protohdr e) (owner : e.owner = .streamhdr)
      (timer : e.timer = .active) (state : e.streamhdr = .receiving)
      (active : e.usock.state = .active) (clear : OutClear e.usock e.tasks)
      (request : Request e.usock e.tasks .streamhdr 8 e.events)
      (received : e.usock.received = e.usock.buf ++ e.usock.batch)
  | refused (early : Early .protohdr e) (owner : e.owner = .streamhdr)
      (timer : e.timer = .active) (state : e.streamhdr = .sending ∨ e.streamhdr = .receiving)
      (dying : Dying e.usock.state .streamhdr e.events)
  | checked (early : Early .protohdr e) (owner : e.owner = .streamhdr)
      (state : e.streamhdr = .stoppingTimerDone) (ready : Ready e)
      (events : e.timer = .stopping ∧ e.events = [] ∨
        e.timer = .stopping ∧ e.usock.state = .done ∧
          e.events = [.usock .streamhdr .error] ∨
        e.timer = .idle ∧ e.events = [.timer .stopped])
  | failed (early : Early .protohdr e) (owner : e.owner = .streamhdr)
      (state : e.streamhdr = .stoppingTimerError) (done : e.usock.state = .done)
      (events : e.timer = .stopping ∧ e.events = [] ∨
        e.timer = .idle ∧ e.events = [.timer .stopped])
  | greeted (early : Early .protohdr e) (owner : e.owner = .sipc) (timer : e.timer = .idle)
      (state : e.streamhdr = .done) (ready : Ready e) (events : e.events = [.streamhdr .ok])
  | ungreeted (early : Early .protohdr e) (done : e.usock.state = .done)
      (timer : e.timer = .idle) (events : e.events = [.streamhdr .error])
  | opening (early : Early .stoppingStreamhdr e) (owner : e.owner = .sipc)
      (timer : e.timer = .idle) (ready : Ready e) (events : e.events = [.streamhdr .stopped])
  | established (outs ins : List Event) (live : Live e) (active : e.usock.state = .active)
      (outbound : Outbound e outs) (inbound : Inbound e ins) (events : e.events = outs ++ ins)
      (order : outs = [] ∨ outs = [.pipeOut] ∨ ins = [])
  | breaking (front : List Event) {events : List Event} (live : Live e)
      (dying : Dying e.usock.state .sipc events) (some : events ≠ [])
      (split : e.events = front ++ events)
      (order : front = [] ∨ front = [.pipeOut] ∧ e.excl.outpipe = false)
  | dead (live : Live e) (done : e.usock.state = .done)
      (instate : e.sipc.instate = some .hdr) (pipe : e.excl.inpipe = false)
      (events : e.events = [] ∧ (e.excl.outpipe = true →
          e.sipc.outstate = some .idle ∧ e.pipebase.outstate = .idle) ∨
        e.events = [.pipeOut] ∧ e.excl.outpipe = false ∧ e.sipc.outstate = some .idle ∧
          e.pipebase.outstate = .idle)
  | closing (owner : e.owner = .sipc) (timer : e.timer = .idle)
      (state : e.sipc.state = .shuttingDown) (excl : e.excl = {}) (goesOn : e.ended = false)
      (events : e.usock.state = .removingFd ∧ e.events = [] ∨
        e.usock.state = .done ∧ e.events = [.usock .sipc .error])
  | ended (state : e.sipc.state = .done) (excl : e.excl = {}) (done : e.usock.state = .done)
      (events : e.ended = false ∧ e.events = [.sipcError] ∨ e.ended = true ∧ e.events = [])

/-- The tasks that are in the worker's queue because of the state of things. -/
structure Booked (e : Endpoint) : Prop where
  nodup : e.tasks.Nodup
  stop : .stop ∈ e.tasks ↔ e.usock.state = .removingFd
  timerStop : .timerStop ∈ e.tasks ↔ e.timer = .stopping

/-- All that the other end can be meant to get. -/
def Endpoint.emission (e : Endpoint) : List UInt8 :=
  if e.sipc.state = .idle then []
  else Endpoint.protohdr ++ framing.stream (e.accepted.map Msg.payload)

/-- Up to a loss when the socket has failed, what the kernel has taken and what is left to
send are what was meant to be sent. -/
def Emits (e : Endpoint) : Prop :=
  ∃ lost, e.usock.sent ++ e.usock.iov.flatten ++ lost = e.emission ∧
    (e.usock.state = .active → lost = [])

/-- What has been delivered had come from the kernel. -/
def Delivers (e : Endpoint) : Prop := e.delivered = [] ∨ e.consumed <+: e.usock.received

structure Inv (e : Endpoint) : Prop where
  stage : Stage e
  booked : Booked e
  emits : Emits e
  delivers : Delivers e

end Riff.Nanomsg
