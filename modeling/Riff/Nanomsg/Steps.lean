import Riff.Nanomsg.Stages

set_option autoImplicit false

namespace Riff.Nanomsg

variable {task other : Task} {tasks : List Task} {poll : Bool}

theorem Idles.push (idles : Idles task tasks poll) (differ : task ≠ other) :
    Idles task (tasks ++ [other]) poll where
  unasked := by simp [idles.unasked, differ]
  unpolled := idles.unpolled

theorem Idles.pop (idles : Idles task (other :: tasks) poll) : Idles task tasks poll where
  unasked := fun member => idles.unasked (List.mem_cons_of_mem other member)
  unpolled := idles.unpolled

theorem Idles.ask (idles : Idles task tasks poll) : Awaits task (tasks ++ [task]) poll :=
  .inl ⟨by simp, idles.unpolled⟩

theorem Awaits.push (awaits : Awaits task tasks poll) (differ : task ≠ other) :
    Awaits task (tasks ++ [other]) poll := by
  rcases awaits with ⟨asked, unpolled⟩ | ⟨unasked, polled⟩
  · exact .inl ⟨by simp [asked], unpolled⟩
  · exact .inr ⟨by simp [unasked, differ], polled⟩

theorem Awaits.pop (awaits : Awaits task (other :: tasks) poll) (differ : task ≠ other) :
    Awaits task tasks poll := by
  rcases awaits with ⟨asked, unpolled⟩ | ⟨unasked, polled⟩
  · exact .inl ⟨List.mem_of_ne_of_mem differ asked, unpolled⟩
  · exact .inr ⟨fun member => unasked (List.mem_cons_of_mem other member), polled⟩

theorem Awaits.take (nodup : (task :: tasks).Nodup) : Awaits task tasks true :=
  .inr ⟨(List.nodup_cons.mp nodup).1, rfl⟩

theorem Awaits.served (awaits : Awaits task tasks true) : Idles task tasks false := by
  rcases awaits with ⟨_, unpolled⟩ | ⟨unasked, _⟩
  · cases unpolled
  · exact ⟨unasked, rfl⟩

theorem OutClear.push {u : Usock} (clear : OutClear u tasks) (differ : .send ≠ other) :
    OutClear u (tasks ++ [other]) := ⟨clear.iov, clear.idles.push differ⟩

section Bookkeeping

variable {e e' : Endpoint} {bytes : List UInt8} {len : ℕ}

theorem Booked.congr (booked : Booked e) (tasks : e'.tasks = e.tasks)
    (state : e'.usock.state = .removingFd ↔ e.usock.state = .removingFd)
    (timer : e'.timer = .stopping ↔ e.timer = .stopping) : Booked e' where
  nodup := tasks ▸ booked.nodup
  stop := by rw [tasks, state, booked.stop]
  timerStop := by rw [tasks, timer, booked.timerStop]

theorem nodup_push (nodup : tasks.Nodup) (new : task ∉ tasks) : (tasks ++ [task]).Nodup := by
  rw [List.nodup_append]
  refine ⟨nodup, by simp, ?_⟩
  intro a member b last same
  cases List.mem_singleton.mp last
  exact new (same ▸ member)

theorem Booked.stopless (booked : Booked e) (active : e.usock.state = .active) :
    .stop ∉ e.tasks := by
  rw [booked.stop, active]
  exact UsockState.noConfusion

theorem Booked.broken {u : Usock} (booked : Booked e) (active : e.usock.state = .active) :
    Booked (e.broken u) where
  nodup := nodup_push booked.nodup (booked.stopless active)
  stop := by simp [Endpoint.broken]
  timerStop := by simp [Endpoint.broken, booked.timerStop]

theorem Endpoint.Sends.booked (sends : e.Sends bytes e') (booked : Booked e)
    (active : e.usock.state = .active) (new : .send ∉ e.tasks) : Booked e' := by
  cases sends with
  | whole => exact booked.congr rfl .rfl .rfl
  | partly split more nonempty =>
      refine ⟨nodup_push booked.nodup new, ?_, ?_⟩
      · simp [booked.stop]
      · simp [booked.timerStop]
  | broken unsent => exact booked.broken active

theorem Endpoint.Receives.booked (receives : e.Receives len e') (booked : Booked e)
    (active : e.usock.state = .active) (new : .recv ∉ e.tasks) : Booked e' := by
  cases receives with
  | whole order length => exact booked.congr rfl .rfl .rfl
  | partly order length =>
      refine ⟨nodup_push booked.nodup new, ?_, ?_⟩
      · simp [booked.stop]
      · simp [booked.timerStop]
  | broken => exact booked.broken active

/-- Bytes go from the program to the kernel and nowhere else. -/
theorem Emits.congr (emits : Emits e)
    (bytes : e'.usock.sent ++ e'.usock.iov.flatten = e.usock.sent ++ e.usock.iov.flatten)
    (emission : e'.emission = e.emission)
    (active : e'.usock.state = .active → e.usock.state = .active) : Emits e' := by
  obtain ⟨lost, whole, none⟩ := emits
  exact ⟨lost, by rw [bytes, whole, emission], fun still => none (active still)⟩

theorem Endpoint.Sends.conserves (sends : e.Sends bytes e') :
    e'.usock.sent ++ e'.usock.iov.flatten = e.usock.sent ++ bytes := by
  cases sends with
  | whole => simp
  | partly split more nonempty => simp [split]
  | broken unsent => simp [Endpoint.broken, unsent]

theorem Endpoint.Receives.conserves (receives : e.Receives len e') :
    e'.usock.sent ++ e'.usock.iov.flatten = e.usock.sent ++ e.usock.iov.flatten := by
  cases receives with
  | whole order length => rfl
  | partly order length => rfl
  | broken => rfl

theorem Endpoint.Receives.grows (receives : e.Receives len e') :
    e.usock.received <+: e'.usock.received := by
  cases receives with
  | whole order length => exact List.prefix_append _ _
  | partly order length => exact List.prefix_append _ _
  | broken => exact List.prefix_rfl

theorem Delivers.congr (delivers : Delivers e) (delivered : e'.delivered = e.delivered)
    (grows : e.usock.received <+: e'.usock.received) : Delivers e' := by
  rcases delivers with none | consumed
  · exact .inl (delivered.trans none)
  · right
    rw [Endpoint.consumed, delivered]
    exact consumed.trans grows

theorem Early.move {state state' : SipcState} (early : Early state e)
    (sipc : e'.sipc = { e.sipc with state := state' }) (pipebase : e'.pipebase = e.pipebase)
    (excl : e'.excl = e.excl) (accepted : e'.accepted = e.accepted)
    (delivered : e'.delivered = e.delivered) (ended : e'.ended = e.ended) : Early state' e' where
  sipc := by rw [sipc, early.sipc]
  pipebase := pipebase.trans early.pipebase
  excl := excl.trans early.excl
  accepted := accepted.trans early.accepted
  delivered := delivered.trans early.delivered
  goesOn := ended.trans early.goesOn

theorem Early.congr {state : SipcState} (early : Early state e) (sipc : e'.sipc = e.sipc)
    (pipebase : e'.pipebase = e.pipebase) (excl : e'.excl = e.excl)
    (accepted : e'.accepted = e.accepted) (delivered : e'.delivered = e.delivered)
    (ended : e'.ended = e.ended) : Early state e' :=
  early.move (by rw [sipc, early.sipc]) pipebase excl accepted delivered ended

theorem Live.congr (live : Live e) (owner : e'.owner = e.owner) (timer : e'.timer = e.timer)
    (state : e'.sipc.state = e.sipc.state) (base : e'.pipebase.state = e.pipebase.state)
    (pipe : e'.excl.pipe = e.excl.pipe) (ended : e'.ended = e.ended) : Live e' where
  owner := owner.trans live.owner
  timer := timer.trans live.timer
  state := state.trans live.state
  base := base.trans live.base
  pipe := pipe.trans live.pipe
  goesOn := ended.trans live.goesOn

/-- What the sending half depends on. -/
theorem Outbound.congr {events : List Event} (outbound : Outbound e events)
    (outstate : e'.sipc.outstate = e.sipc.outstate)
    (base : e'.pipebase.outstate = e.pipebase.outstate)
    (pipe : e'.excl.outpipe = e.excl.outpipe) (iov : e'.usock.iov = e.usock.iov)
    (poll : e'.usock.pollOut = e.usock.pollOut) (asked : .send ∈ e'.tasks ↔ .send ∈ e.tasks) :
    Outbound e' events := by
  have same : OutClear e.usock e.tasks → OutClear e'.usock e'.tasks := by
    intro clear
    refine ⟨iov.trans clear.iov, ?_, poll.trans clear.idles.unpolled⟩
    rw [asked]
    exact clear.idles.unasked
  cases outbound with
  | idle outstate' base' pipe' clear =>
      exact .idle (outstate.trans outstate') (base.trans base') (pipe.trans pipe') (same clear)
  | announced outstate' base' pipe' clear =>
      exact .announced (outstate.trans outstate') (base.trans base') (pipe.trans pipe') (same clear)
  | sending outstate' base' pipe' transfer =>
      refine .sending (outstate.trans outstate') (base.trans base') (pipe.trans pipe') ?_
      cases transfer with
      | busy busy =>
          refine .busy ⟨by rw [iov]; exact busy.more, by rw [iov]; exact busy.nonempty, ?_⟩
          rw [Awaits, asked, poll]
          exact busy.awaits
      | finished clear => exact .finished (same clear)

/-- What the receiving half depends on. -/
theorem Inbound.congr {events : List Event} (inbound : Inbound e events)
    (instate : e'.sipc.instate = e.sipc.instate) (insize : e'.sipc.insize = e.sipc.insize)
    (inmsg : e'.sipc.inmsg = e.sipc.inmsg) (base : e'.pipebase.instate = e.pipebase.instate)
    (pipe : e'.excl.inpipe = e.excl.inpipe) (buf : e'.usock.buf = e.usock.buf)
    (len : e'.usock.len = e.usock.len) (batch : e'.usock.batch = e.usock.batch)
    (received : e'.usock.received = e.usock.received) (poll : e'.usock.pollIn = e.usock.pollIn)
    (asked : .recv ∈ e'.tasks ↔ .recv ∈ e.tasks) (delivered : e'.delivered = e.delivered) :
    Inbound e' events := by
  have consumed : e'.consumed = e.consumed := by rw [Endpoint.consumed, delivered]; rfl
  have same : Idles .recv e.tasks e.usock.pollIn → Idles .recv e'.tasks e'.usock.pollIn := by
    intro clear
    refine ⟨?_, poll.trans clear.unpolled⟩
    rw [asked]
    exact clear.unasked
  have asks {owner : Owner} {n : ℕ} {events : List Event} :
      Request e.usock e.tasks owner n events → Request e'.usock e'.tasks owner n events := by
    intro request
    cases request with
    | busy busy =>
        refine .busy ⟨by rw [len]; exact busy.wants, by rw [buf, len]; exact busy.total,
          batch.trans busy.batch, ?_⟩
        rw [Awaits, asked, poll]
        exact busy.awaits
    | filled clear length => exact .filled (same clear) (buf ▸ length)
  cases inbound with
  | hasMsg instate' base' pipe' clear parsed =>
      refine .hasMsg (instate.trans instate') (base.trans base') (pipe.trans pipe') (same clear) ?_
      rw [received, consumed, inmsg, batch, parsed]
  | announced instate' base' pipe' clear parsed =>
      refine .announced (instate.trans instate') (base.trans base') (pipe.trans pipe')
        (same clear) ?_
      rw [received, consumed, inmsg, batch, parsed]
  | hdr instate' base' pipe' request parsed =>
      refine .hdr (instate.trans instate') (base.trans base') (pipe.trans pipe') (asks request) ?_
      rw [received, consumed, buf, batch, parsed]
  | body instate' base' pipe' request parsed =>
      refine .body (instate.trans instate') (base.trans base') (pipe.trans pipe') ?_ ?_
      · rw [insize]
        exact asks request
      · rw [received, consumed, insize, buf, batch, parsed]

end Bookkeeping

namespace Inv

variable {e : Endpoint}

theorem sipcStart_eq (idle : e.sipc.state = .idle) (state : e.streamhdr = .idle)
    (timer : e.timer = .idle) (room : Option ℕ) :
    e.sipcStart room =
      (Endpoint.usockSend [Endpoint.protohdr] room
        { e with owner := .streamhdr, timer := .active }).map fun e =>
          { e with streamhdr := .sending, sipc := { e.sipc with state := .protohdr } } := by
  rw [Endpoint.sipcStart, if_neg (not_not_intro idle), Endpoint.streamhdrStart,
    if_neg (not_not_intro state), Endpoint.timerStart, if_pos timer, Option.bind_some,
    Option.map_map]
  rfl

theorem start (inv : Inv e) (idle : e.sipc.state = .idle) (room : Option ℕ) :
    ∃ e', e.sipcStart room = some e' ∧ Inv e' := by
  obtain ⟨stage, booked, emits, delivers⟩ := inv
  cases stage with
  | fresh early owner timer state usock tasks events =>
      obtain ⟨e', sent, sends⟩ := Endpoint.usockSend_sends
        (e := { e with owner := .streamhdr, timer := .active }) [Endpoint.protohdr] room
        (by simp [usock]) (by decide) (by simp [Endpoint.Quiet, events]) (by simp [tasks])
        (by simp [tasks])
      refine ⟨_, by rw [sipcStart_eq idle state timer, sent, Option.map_some], ?_⟩
      have booked' := sends.booked (booked.congr rfl .rfl (by simp [timer])) (by simp [usock])
        (by simp [tasks])
      have bytes := sends.conserves
      refine ⟨?_, booked'.congr rfl .rfl .rfl, ⟨[], ?_, fun _ => rfl⟩, ?_⟩
      · cases sends with
        | whole =>
            refine .greeting (early.move rfl rfl rfl rfl rfl rfl) rfl rfl rfl (by simp [usock])
              ?_ ⟨by simp [tasks], by simp [usock]⟩ (by simp [usock]) (by simp [usock])
            simpa [events] using .finished ⟨rfl, by simp [tasks], by simp [usock]⟩
        | partly split more nonempty =>
            refine .greeting (early.move rfl rfl rfl rfl rfl rfl) rfl rfl rfl (by simp [usock])
              ?_ ⟨by simp [tasks], by simp [usock]⟩ (by simp [usock]) (by simp [usock])
            simpa [events] using .busy ⟨more, nonempty, .inl ⟨by simp, by simp [usock]⟩⟩
        | broken unsent =>
            refine .refused (early.move rfl rfl rfl rfl rfl rfl) rfl rfl (.inl rfl) ?_
            simpa [events, Endpoint.broken] using .told rfl
      · cases sends <;> simp_all [Endpoint.emission, Endpoint.broken, early.accepted]
      · cases sends <;> exact .inl early.delivered
  | greeting early | answered early | refused early | checked early | failed early
  | greeted early | ungreeted early | opening early => simp [early.sipc] at idle
  | established outs ins live => simp [live.state] at idle
  | breaking front live => simp [live.state] at idle
  | dead live => simp [live.state] at idle
  | closing owner timer state => simp [state] at idle
  | ended state => simp [state] at idle

theorem exclSend_eq {e' : Endpoint} {msg : Msg} {room : Option ℕ} (pipe : e.excl.outpipe = true)
    (base : e.pipebase.outstate = .idle) (state : e.sipc.state = .active)
    (outstate : e.sipc.outstate = some .idle)
    (sent : Endpoint.usockSend [msgHeader msg.payload.size, msg.sphdr, msg.body] room
      { e with pipebase := { e.pipebase with outstate := .sending } } = some e')
    (same : e'.pipebase.outstate = .sending) :
    e.exclSend msg room = some { e' with
      sipc := { e'.sipc with outstate := some .sending }
      pipebase := { e'.pipebase with outstate := .async }
      excl := { e'.excl with outpipe := false }
      accepted := e'.accepted ++ [msg] } := by
  have size : UInt64.ofNat (msg.sphdr.length + msg.body.length) = msg.payload.size := by
    rw [Payload.size, Msg.payload, List.length_append]
  rw [Endpoint.exclSend, if_pos pipe, Endpoint.pipeSend, if_neg (not_not_intro base),
    Endpoint.sipcSend, if_pos ⟨state, outstate⟩, size, sent]
  simp [same]

theorem emission_push {e' : Endpoint} (msg : Msg) (state : e'.sipc.state ≠ .idle)
    (state' : e.sipc.state ≠ .idle) (accepted : e'.accepted = e.accepted ++ [msg]) :
    e'.emission = e.emission ++ frame msg.payload := by
  rw [Endpoint.emission, Endpoint.emission, if_neg state, if_neg state', accepted]
  simp [framing]

theorem send_established {outs ins : List Event} (live : Live e)
    (active : e.usock.state = .active) (outbound : Outbound e outs) (inbound : Inbound e ins)
    (events : e.events = outs ++ ins) (booked : Booked e) (emits : Emits e)
    (delivers : Delivers e) (free : e.events = []) (pipe : e.excl.outpipe = true) (msg : Msg)
    (room : Option ℕ) : ∃ e', e.exclSend msg room = some e' ∧ Inv e' := by
  rw [free] at events
  obtain ⟨rfl, rfl⟩ := List.append_eq_nil_iff.mp events.symm
  cases outbound with
  | sending outstate base unset transfer => exact absurd pipe (by simp [unset])
  | idle outstate base _ clear =>
      obtain ⟨e', sent, sends⟩ := Endpoint.usockSend_sends
        (e := { e with pipebase := { e.pipebase with outstate := .sending } })
        [msgHeader msg.payload.size, msg.sphdr, msg.body] room active
        (by simp [usockMaxIovcnt]) (by simp [Endpoint.Quiet, free]) clear.idles.unasked
        (booked.stopless active)
      have booked' := sends.booked (booked.congr rfl .rfl .rfl) active clear.idles.unasked
      have bytes := sends.conserves
      have framed : [msgHeader msg.payload.size, msg.sphdr, msg.body].flatten =
          frame msg.payload := by
        simp [frame, Msg.payload]
      rw [framed] at sends bytes
      refine ⟨_, exclSend_eq pipe base live.state outstate sent (by cases sends <;> rfl), ?_,
        booked'.congr rfl .rfl .rfl, ⟨[], ?_, fun _ => rfl⟩, ?_⟩
      · cases sends with
        | whole =>
            refine .established [.usock .sipc .sent] []
              (live.congr rfl rfl rfl rfl rfl rfl) active (.sending rfl rfl rfl (.finished
                ⟨rfl, clear.idles⟩))
              (inbound.congr rfl rfl rfl rfl rfl rfl rfl rfl rfl rfl .rfl rfl) ?_ (.inr (.inr rfl))
            simp [free, live.owner]
        | partly split more nonempty =>
            refine .established [] [] (live.congr rfl rfl rfl rfl rfl rfl)
              active (.sending rfl rfl rfl (.busy ⟨more, nonempty, clear.idles.ask⟩))
              (inbound.congr rfl rfl rfl rfl rfl rfl rfl rfl rfl rfl ?_ rfl) free (.inl rfl)
            simp
        | broken unsent =>
            refine .breaking [] (live.congr rfl rfl rfl rfl rfl rfl) (.told rfl)
              (List.cons_ne_nil _ _) ?_ (.inl rfl)
            simp [Endpoint.broken, free, live.owner]
      · obtain ⟨lost, whole, none⟩ := emits
        rw [clear.iov, none active, List.flatten_nil, List.append_nil, List.append_nil] at whole
        rw [List.append_nil, emission_push (e := e) msg ?_ ?_ ?_, ← whole]
        · exact bytes
        · cases sends <;> simp [Endpoint.broken, live.state]
        · simp [live.state]
        · cases sends <;> rfl
      · exact delivers.congr (by cases sends <;> rfl) (by cases sends <;> exact List.prefix_rfl)

theorem send_dead (live : Live e) (done : e.usock.state = .done)
    (instate : e.sipc.instate = some .hdr) (inpipe : e.excl.inpipe = false)
    (outstate : e.sipc.outstate = some .idle) (base : e.pipebase.outstate = .idle)
    (booked : Booked e) (emits : Emits e) (delivers : Delivers e) (free : e.events = [])
    (pipe : e.excl.outpipe = true) (msg : Msg) (room : Option ℕ) :
    ∃ e', e.exclSend msg room = some e' ∧ Inv e' := by
  refine ⟨_, exclSend_eq pipe base live.state outstate
    (Endpoint.usockSend_idle (by simp [done])) rfl, ?_, booked.congr rfl .rfl .rfl, ?_,
    delivers.congr rfl List.prefix_rfl⟩
  · exact .dead (live.congr rfl rfl rfl rfl rfl rfl) done instate inpipe
      (.inl ⟨free, by simp⟩)
  · obtain ⟨lost, whole, _⟩ := emits
    refine ⟨lost ++ frame msg.payload, ?_, by simp [done]⟩
    rw [emission_push (e := e) msg (by simp [live.state]) (by simp [live.state]) rfl,
      ← whole]
    simp

theorem send (inv : Inv e) (free : e.events = []) (msg : Msg) (room : Option ℕ) :
    ∃ e', e.exclSend msg room = some e' ∧ Inv e' := by
  by_cases pipe : e.excl.outpipe = true
  · obtain ⟨stage, booked, emits, delivers⟩ := inv
    have unset {p : Prop} (excl : e.excl = {}) : p := by simp [excl] at pipe
    cases stage with
    | fresh early | greeting early | answered early | refused early | checked early
    | failed early | greeted early | ungreeted early | opening early => exact unset early.excl
    | established outs ins live active outbound inbound events order =>
        exact send_established live active outbound inbound events booked emits delivers free pipe
          msg room
    | breaking front live dying some split order =>
        rw [free] at split
        exact absurd (List.append_eq_nil_iff.mp split.symm).2 some
    | dead live done instate inpipe events =>
        rcases events with ⟨_, idle⟩ | ⟨_, absent, _⟩
        · exact send_dead live done instate inpipe (idle pipe).1 (idle pipe).2 booked emits
            delivers free pipe msg room
        · simp [absent] at pipe
    | closing owner timer state excl => exact unset excl
    | ended state excl => exact unset excl
  · exact ⟨e, by rw [Endpoint.exclSend, if_neg pipe], inv⟩

theorem exclRecv_eq {e' : Endpoint} {offer : Option (List UInt8)} (pipe : e.excl.inpipe = true)
    (base : e.pipebase.instate = .idle) (state : e.sipc.state = .active)
    (instate : e.sipc.instate = some .hasMsg)
    (asked : Endpoint.usockRecv 9 offer { e with
      sipc := { e.sipc with instate := some .hdr }
      pipebase := { e.pipebase with instate := .receiving } } = some e')
    (same : e'.pipebase.instate = .receiving) :
    e.exclRecv offer = some { e' with
      pipebase := { e'.pipebase with instate := .async }
      excl := { e'.excl with inpipe := false }
      delivered := e'.delivered ++ [e.sipc.inmsg] } := by
  rw [Endpoint.exclRecv, if_pos pipe, Endpoint.pipeRecv, if_neg (not_not_intro base),
    Endpoint.sipcRecv, if_pos ⟨state, instate⟩, asked]
  simp [same]

theorem consumed_push {e' : Endpoint} {p : Payload}
    (delivered : e'.delivered = e.delivered ++ [p]) : e'.consumed = e.consumed ++ frame p := by
  rw [Endpoint.consumed, Endpoint.consumed, delivered]
  simp [framing]

theorem recv_established {outs ins : List Event} (live : Live e)
    (active : e.usock.state = .active) (outbound : Outbound e outs) (inbound : Inbound e ins)
    (events : e.events = outs ++ ins) (booked : Booked e) (emits : Emits e)
    (free : e.events = []) (pipe : e.excl.inpipe = true) (offer : Option (List UInt8)) :
    ∃ e', e.exclRecv offer = some e' ∧ Inv e' := by
  rw [free] at events
  obtain ⟨rfl, rfl⟩ := List.append_eq_nil_iff.mp events.symm
  cases inbound with
  | hdr instate base unset request parsed => simp [unset] at pipe
  | body instate base unset request parsed => simp [unset] at pipe
  | hasMsg instate base _ clear parsed =>
      obtain ⟨e', asked, receives⟩ := Endpoint.usockRecv_receives
        (e := { e with
          sipc := { e.sipc with instate := some .hdr }
          pipebase := { e.pipebase with instate := .receiving } })
        offer (show 0 < 9 by decide) active (by simp [Endpoint.Quiet, free])
        clear.unasked (booked.stopless active)
      have booked' := receives.booked (booked.congr rfl .rfl .rfl) active clear.unasked
      have bytes := receives.conserves
      have grows := receives.grows
      have delivered : e'.delivered = e.delivered := by cases receives <;> rfl
      refine ⟨_, exclRecv_eq pipe base live.state instate asked (by cases receives <;> rfl), ?_,
        booked'.congr rfl .rfl .rfl, emits.congr bytes ?_ ?_, .inr ?_⟩
      · cases receives with
        | whole order length =>
            refine .established [] [.usock .sipc .received]
              (live.congr rfl rfl rfl rfl rfl rfl) active
              (outbound.congr rfl rfl rfl rfl rfl .rfl)
              (.hdr rfl rfl rfl (.filled clear length) ?_) ?_ (.inl rfl)
            · rw [consumed_push (e := e) (p := e.sipc.inmsg) rfl, parsed]
              simp only [List.append_assoc, order]
            · simp [free, live.owner]
        | partly order length =>
            refine .established [] [] (live.congr rfl rfl rfl rfl rfl rfl)
              active (outbound.congr rfl rfl rfl rfl rfl (by simp))
              (.hdr rfl rfl rfl (.busy ⟨?_, ?_, rfl, clear.ask⟩) ?_) free (.inl rfl)
            · exact Nat.sub_pos_of_lt length
            · exact Nat.add_sub_cancel' (Nat.le_of_lt length)
            · rw [consumed_push (e := e) (p := e.sipc.inmsg) rfl, parsed]
              simp only [List.append_assoc, List.append_nil, order]
        | broken =>
            refine .breaking [] (live.congr rfl rfl rfl rfl rfl rfl) (.told rfl)
              (List.cons_ne_nil _ _) ?_ (.inl rfl)
            simp [Endpoint.broken, free, live.owner]
      · cases receives <;> rfl
      · cases receives <;> simp [active]
      · rw [consumed_push (e := e) (p := e.sipc.inmsg) (by rw [delivered])]
        exact (parsed ▸ List.prefix_append _ _ : _ <+: e.usock.received).trans grows

theorem recv (inv : Inv e) (free : e.events = []) (offer : Option (List UInt8)) :
    ∃ e', e.exclRecv offer = some e' ∧ Inv e' := by
  by_cases pipe : e.excl.inpipe = true
  · obtain ⟨stage, booked, emits, delivers⟩ := inv
    have unset {p : Prop} (excl : e.excl = {}) : p := by simp [excl] at pipe
    cases stage with
    | fresh early | greeting early | answered early | refused early | checked early
    | failed early | greeted early | ungreeted early | opening early => exact unset early.excl
    | established outs ins live active outbound inbound events order =>
        exact recv_established live active outbound inbound events booked emits free pipe offer
    | breaking front live dying some split order =>
        rw [free] at split
        exact absurd (List.append_eq_nil_iff.mp split.symm).2 some
    | dead live done instate inpipe => simp [inpipe] at pipe
    | closing owner timer state excl => exact unset excl
    | ended state excl => exact unset excl
  · exact ⟨e, by rw [Endpoint.exclRecv, if_neg pipe], inv⟩

/-- What a task for polling changes. -/
structure Repolls (e : Endpoint) (tasks : List Task) (pollIn pollOut : Bool) : Prop where
  outClear : Idles .send e.tasks e.usock.pollOut → Idles .send tasks pollOut
  outBusy : Awaits .send e.tasks e.usock.pollOut → Awaits .send tasks pollOut
  inClear : Idles .recv e.tasks e.usock.pollIn → Idles .recv tasks pollIn
  inBusy : Awaits .recv e.tasks e.usock.pollIn → Awaits .recv tasks pollIn

theorem stage_repolls {tasks : List Task} {pollIn pollOut : Bool} (stage : Stage e)
    (free : e.events = []) (started : e.sipc.state ≠ .idle)
    (repolls : Repolls e tasks pollIn pollOut) :
    Stage { e with
      tasks := tasks, usock := { e.usock with pollIn := pollIn, pollOut := pollOut } } := by
  have out (clear : OutClear e.usock e.tasks) :
      OutClear { e.usock with pollIn := pollIn, pollOut := pollOut } tasks :=
    ⟨clear.iov, repolls.outClear clear.idles⟩
  have transfer {owner : Owner} {events : List Event} :
      Transfer e.usock e.tasks owner events →
        Transfer { e.usock with pollIn := pollIn, pollOut := pollOut } tasks owner events := by
    rintro (⟨more, nonempty, awaits⟩ | clear)
    · exact .busy ⟨more, nonempty, repolls.outBusy awaits⟩
    · exact .finished (out clear)
  have request {owner : Owner} {n : ℕ} {events : List Event} :
      Request e.usock e.tasks owner n events →
        Request { e.usock with pollIn := pollIn, pollOut := pollOut } tasks owner n events := by
    rintro (⟨wants, total, batch, awaits⟩ | ⟨clear, length⟩)
    · exact .busy ⟨wants, total, batch, repolls.inBusy awaits⟩
    · exact .filled (repolls.inClear clear) length
  have ready (ready : Ready e) : Ready { e with
      tasks := tasks, usock := { e.usock with pollIn := pollIn, pollOut := pollOut } } := by
    rcases ready with done | ⟨active, clear, idles, parsed⟩
    · exact .inl done
    · exact .inr ⟨active, out clear, repolls.inClear idles, parsed⟩
  cases stage with
  | fresh early => exact absurd (by rw [early.sipc]) started
  | greeting early owner timer state active moving clear received batch =>
      exact .greeting (early.congr rfl rfl rfl rfl rfl rfl) owner timer state active
        (transfer moving) (repolls.inClear clear) received batch
  | answered early owner timer state active clear asking received =>
      exact .answered (early.congr rfl rfl rfl rfl rfl rfl) owner timer state active (out clear)
        (request asking) received
  | refused early owner timer state dying =>
      exact .refused (early.congr rfl rfl rfl rfl rfl rfl) owner timer state dying
  | checked early owner state waits events =>
      exact .checked (early.congr rfl rfl rfl rfl rfl rfl) owner state (ready waits) events
  | failed early owner state done events =>
      exact .failed (early.congr rfl rfl rfl rfl rfl rfl) owner state done events
  | greeted early owner timer state ready events => simp [events] at free
  | ungreeted early done timer events => simp [events] at free
  | opening early owner timer ready events => simp [events] at free
  | established outs ins live active outbound inbound events order =>
      refine .established outs ins (live.congr rfl rfl rfl rfl rfl rfl) active ?_ ?_ events order
      · cases outbound with
        | idle outstate base pipe clear => exact .idle outstate base pipe (out clear)
        | announced outstate base pipe clear => exact .announced outstate base pipe (out clear)
        | sending outstate base pipe moving => exact .sending outstate base pipe (transfer moving)
      · cases inbound with
        | hasMsg instate base pipe clear parsed =>
            exact .hasMsg instate base pipe (repolls.inClear clear) parsed
        | announced instate base pipe clear parsed =>
            exact .announced instate base pipe (repolls.inClear clear) parsed
        | hdr instate base pipe asking parsed =>
            exact .hdr instate base pipe (request asking) parsed
        | body instate base pipe asking parsed =>
            exact .body instate base pipe (request asking) parsed
  | breaking front live dying some split order =>
      exact .breaking front (live.congr rfl rfl rfl rfl rfl rfl) dying some split order
  | dead live done instate pipe events =>
      exact .dead (live.congr rfl rfl rfl rfl rfl rfl) done instate pipe events
  | closing owner timer state excl goesOn events =>
      exact .closing owner timer state excl goesOn events
  | ended state excl done events => exact .ended state excl done events

theorem repolls {tasks : List Task} (pollIn pollOut : Bool) (inv : Inv e) (free : e.events = [])
    (started : e.sipc.state ≠ .idle) (repolls : Repolls e tasks pollIn pollOut)
    (nodup : tasks.Nodup) (stop : .stop ∈ tasks ↔ .stop ∈ e.tasks)
    (timerStop : .timerStop ∈ tasks ↔ .timerStop ∈ e.tasks) :
    Inv { e with
      tasks := tasks, usock := { e.usock with pollIn := pollIn, pollOut := pollOut } } where
  stage := stage_repolls inv.stage free started repolls
  booked := ⟨nodup, stop.trans inv.booked.stop, timerStop.trans inv.booked.timerStop⟩
  emits := inv.emits.congr rfl rfl id
  delivers := inv.delivers.congr rfl List.prefix_rfl

theorem task_stop {tasks : List Task} (inv : Inv e) (free : e.events = [])
    (going : e.ended = false) (first : e.tasks = .stop :: tasks) :
    ∃ e', Endpoint.usockTaskStop { e with tasks := tasks } = some e' ∧ Inv e' := by
  obtain ⟨stage, booked, emits, delivers⟩ := inv
  have removing : e.usock.state = .removingFd := by
    rw [← booked.stop, first]
    exact List.mem_cons_self
  have nodup := booked.nodup
  rw [first] at nodup
  refine ⟨{ e with
    tasks := tasks, usock := { e.usock with registered := false, state := .done }
    events := [.usock e.owner .error] }, ?_, ?_, ⟨(List.nodup_cons.mp nodup).2, ?_, ?_⟩,
    emits.congr rfl rfl (by simp), delivers.congr rfl List.prefix_rfl⟩
  · simp only [Endpoint.usockTaskStop, removing, Endpoint.usockDone]
    rw [Endpoint.raise_eq (by simp [free])]
    simp [free]
  · cases stage with
    | fresh early owner timer state usock => simp [usock] at removing
    | greeting early owner timer state active => simp [active] at removing
    | answered early owner timer state active => simp [active] at removing
    | refused early owner timer state dying =>
        exact .refused (early.congr rfl rfl rfl rfl rfl rfl) owner timer state
          (by rw [owner]; exact .gone rfl)
    | checked early owner state ready =>
        rcases ready with done | ⟨active, _⟩
        · simp [done] at removing
        · simp [active] at removing
    | failed early owner state done => simp [done] at removing
    | greeted early owner timer state ready events => simp [events] at free
    | ungreeted early done => simp [done] at removing
    | opening early owner timer ready events => simp [events] at free
    | established outs ins live active => simp [active] at removing
    | breaking front live dying some split =>
        rw [free] at split
        exact absurd (List.append_eq_nil_iff.mp split.symm).2 some
    | dead live done => simp [done] at removing
    | closing owner timer state excl goesOn =>
        exact .closing owner timer state excl goesOn (.inr ⟨rfl, by rw [owner]⟩)
    | ended state excl done events =>
        rcases events with ⟨_, events⟩ | ⟨ended, _⟩
        · simp [events] at free
        · simp [ended] at going
  · simp only [reduceCtorEq, iff_false]
    exact (List.nodup_cons.mp nodup).1
  · rw [← booked.timerStop, first]
    simp

theorem task_timerStop {tasks : List Task} (inv : Inv e) (free : e.events = [])
    (going : e.ended = false) (first : e.tasks = .timerStop :: tasks) :
    ∃ e', Endpoint.timerTaskStop { e with tasks := tasks } = some e' ∧ Inv e' := by
  obtain ⟨stage, booked, emits, delivers⟩ := inv
  have stopping : e.timer = .stopping := by
    rw [← booked.timerStop, first]
    exact List.mem_cons_self
  have nodup := booked.nodup
  rw [first] at nodup
  have idles {task : Task} {poll : Bool} (idles : Idles task e.tasks poll) :
      Idles task tasks poll := Idles.pop (first ▸ idles)
  refine ⟨{ e with tasks := tasks, timer := .idle, events := [.timer .stopped] }, ?_, ?_,
    ⟨(List.nodup_cons.mp nodup).2, ?_, ?_⟩, emits.congr rfl rfl id,
    delivers.congr rfl List.prefix_rfl⟩
  · rw [Endpoint.timerTaskStop, if_pos stopping, Endpoint.raise_eq (by simp [free])]
    simp [free]
  · cases stage with
    | fresh early owner timer => simp [timer] at stopping
    | greeting early owner timer => simp [timer] at stopping
    | answered early owner timer => simp [timer] at stopping
    | refused early owner timer => simp [timer] at stopping
    | checked early owner state ready =>
        refine .checked (early.congr rfl rfl rfl rfl rfl rfl) owner state ?_
          (.inr (.inr ⟨rfl, rfl⟩))
        rcases ready with done | ⟨active, clear, idle, parsed⟩
        · exact .inl done
        · exact .inr ⟨active, ⟨clear.iov, idles clear.idles⟩, idles idle, parsed⟩
    | failed early owner state done =>
        exact .failed (early.congr rfl rfl rfl rfl rfl rfl) owner state done (.inr ⟨rfl, rfl⟩)
    | greeted early owner timer => simp [timer] at stopping
    | ungreeted early done timer => simp [timer] at stopping
    | opening early owner timer => simp [timer] at stopping
    | established outs ins live => simp [live.timer] at stopping
    | breaking front live => simp [live.timer] at stopping
    | dead live => simp [live.timer] at stopping
    | closing owner timer => simp [timer] at stopping
    | ended state excl done events =>
        rcases events with ⟨_, events⟩ | ⟨ended, _⟩
        · simp [events] at free
        · simp [ended] at going
  · rw [← booked.stop, first]
    simp
  · simp only [reduceCtorEq, iff_false]
    exact (List.nodup_cons.mp nodup).1

theorem workerTask (inv : Inv e) (free : e.events = []) (served : e.served = true) :
    ∃ e', e.workerTask = some e' ∧ Inv e' := by
  obtain ⟨started, going⟩ : e.sipc.state ≠ .idle ∧ e.ended = false := by
    simpa [Endpoint.served] using served
  have nodup := inv.booked.nodup
  rw [Endpoint.workerTask]
  split
  · exact ⟨e, rfl, inv⟩
  · rename_i tasks first
    rw [first] at nodup
    refine ⟨_, rfl, repolls e.usock.pollIn true inv free started ⟨?_, ?_, ?_, ?_⟩
      (List.nodup_cons.mp nodup).2 (by simp [first]) (by simp [first])⟩
    · intro idles
      exact absurd (first ▸ List.mem_cons_self) idles.unasked
    · exact fun _ => .take nodup
    · exact fun idles => Idles.pop (first ▸ idles)
    · exact fun awaits => Awaits.pop (first ▸ awaits) (by decide)
  · rename_i tasks first
    rw [first] at nodup
    refine ⟨_, rfl, repolls true e.usock.pollOut inv free started ⟨?_, ?_, ?_, ?_⟩
      (List.nodup_cons.mp nodup).2 (by simp [first]) (by simp [first])⟩
    · exact fun idles => Idles.pop (first ▸ idles)
    · exact fun awaits => Awaits.pop (first ▸ awaits) (by decide)
    · intro idles
      exact absurd (first ▸ List.mem_cons_self) idles.unasked
    · exact fun _ => .take nodup
  · rename_i tasks first
    exact inv.task_stop free going first
  · rename_i tasks first
    exact inv.task_timerStop free going first

/-- What a failing call of the kernel leaves of a socket that the worker serves. -/
def lose (u : Usock) (e : Endpoint) : Endpoint :=
  { e with
    usock := { u with registered := false, state := .done }
    events := [.usock e.owner .error] }

theorem usockDone_eq {u : Usock} (free : e.events = []) :
    Endpoint.usockDone { e with usock := u } = some (lose u e) := by
  rw [Endpoint.usockDone, Endpoint.raise_eq (by simp [free])]
  simp [free, lose]

theorem lost {u : Usock} (inv : Inv e) (free : e.events = []) (served : e.served = true)
    (active : e.usock.state = .active) (sent : u.sent = e.usock.sent)
    (iov : u.iov = e.usock.iov) (received : u.received = e.usock.received) :
    Inv (lose u e) := by
  obtain ⟨started, going⟩ : e.sipc.state ≠ .idle ∧ e.ended = false := by
    simpa [Endpoint.served] using served
  obtain ⟨stage, booked, emits, delivers⟩ := inv
  refine ⟨?_, booked.congr rfl (by simp [lose, active]) .rfl,
    emits.congr (by simp [lose, sent, iov]) rfl (by simp [lose]),
    delivers.congr rfl (by simp [lose, received])⟩
  cases stage with
  | fresh early => exact absurd (by rw [early.sipc]) started
  | greeting early owner timer state =>
      exact .refused (early.congr rfl rfl rfl rfl rfl rfl) owner timer (.inl state)
        (by rw [lose, owner]; exact .gone rfl)
  | answered early owner timer state =>
      exact .refused (early.congr rfl rfl rfl rfl rfl rfl) owner timer (.inr state)
        (by rw [lose, owner]; exact .gone rfl)
  | refused early owner timer state dying =>
      rw [active] at dying
      generalize e.events = events at dying
      cases dying <;> contradiction
  | checked early owner state ready events =>
      rcases events with ⟨timer, _⟩ | ⟨_, done, _⟩ | ⟨_, events⟩
      · refine .checked (early.congr rfl rfl rfl rfl rfl rfl) owner state (.inl rfl)
          (.inr (.inl ⟨timer, rfl, ?_⟩))
        rw [lose, owner]
      · simp [active] at done
      · simp [events] at free
  | failed early owner state done => simp [active] at done
  | greeted early owner timer state ready events => simp [events] at free
  | ungreeted early done => simp [active] at done
  | opening early owner timer ready events => simp [events] at free
  | established outs ins live =>
      refine .breaking [] (live.congr rfl rfl rfl rfl rfl rfl) (.gone rfl) (List.cons_ne_nil _ _)
        ?_ (.inl rfl)
      rw [lose, live.owner]
      rfl
  | breaking front live dying =>
      rw [active] at dying
      cases dying <;> contradiction
  | dead live done => simp [active] at done
  | closing owner timer state excl goesOn events =>
      rcases events with ⟨removing, _⟩ | ⟨done, _⟩
      · simp [active] at removing
      · simp [active] at done
  | ended state excl done events =>
      rcases events with ⟨_, events⟩ | ⟨ended, _⟩
      · simp [events] at free
      · simp [ended] at going

theorem fdErr (inv : Inv e) (free : e.events = []) (served : e.served = true) :
    ∃ e', e.usockFdErr = some e' ∧ Inv e' := by
  rw [Endpoint.usockFdErr]
  split
  · rename_i active
    exact ⟨_, usockDone_eq free, inv.lost free served active rfl rfl rfl⟩
  · exact ⟨e, rfl, inv⟩
  · exact ⟨e, rfl, inv⟩

/-- Where the worker polls in order to send: for the header, or for a message. -/
theorem polling_out (stage : Stage e) (free : e.events = []) (served : e.served = true)
    (active : e.usock.state = .active) (poll : e.usock.pollOut = true) :
    OutBusy e.usock e.tasks ∧
      (Early .protohdr e ∧ e.owner = .streamhdr ∧ e.timer = .active ∧ e.streamhdr = .sending ∧
          Idles .recv e.tasks e.usock.pollIn ∧ e.usock.received = [] ∧ e.usock.batch = [] ∨
        Live e ∧ e.sipc.outstate = some .sending ∧ e.pipebase.outstate = .async ∧
          e.excl.outpipe = false ∧ Inbound e []) := by
  obtain ⟨started, going⟩ : e.sipc.state ≠ .idle ∧ e.ended = false := by
    simpa [Endpoint.served] using served
  have still {tasks : List Task} {p : Prop} (idles : Idles .send tasks e.usock.pollOut) : p := by
    simp [poll] at idles
    exact absurd idles.unpolled (by decide)
  cases stage with
  | fresh early => exact absurd (by rw [early.sipc]) started
  | greeting early owner timer state _ transfer clear received batch =>
      generalize e.events = events at transfer free
      cases transfer with
      | busy busy => exact ⟨busy, .inl ⟨early, owner, timer, state, clear, received, batch⟩⟩
      | finished clear' => exact still clear'.idles
  | answered early owner timer state _ clear => exact still clear.idles
  | refused early owner timer state dying =>
      rw [active] at dying
      generalize e.events = events at dying
      cases dying <;> contradiction
  | checked early owner state ready events =>
      rcases ready with done | ⟨_, clear, _⟩
      · simp [active] at done
      · exact still clear.idles
  | failed early owner state done => simp [active] at done
  | greeted early owner timer state ready events => simp [events] at free
  | ungreeted early done => simp [active] at done
  | opening early owner timer ready events => simp [events] at free
  | established outs ins live _ outbound inbound events =>
      rw [free] at events
      obtain ⟨rfl, rfl⟩ := List.append_eq_nil_iff.mp events.symm
      cases outbound with
      | idle outstate base pipe clear => exact still clear.idles
      | sending outstate base pipe transfer =>
          cases transfer with
          | busy busy => exact ⟨busy, .inr ⟨live, outstate, base, pipe, inbound⟩⟩
  | breaking front live dying =>
      rw [active] at dying
      cases dying <;> contradiction
  | dead live done => simp [active] at done
  | closing owner timer state excl goesOn events =>
      rcases events with ⟨removing, _⟩ | ⟨done, _⟩
      · simp [active] at removing
      · simp [active] at done
  | ended state excl done events =>
      rcases events with ⟨_, events⟩ | ⟨ended, _⟩
      · simp [events] at free
      · simp [ended] at going

theorem fdOut (inv : Inv e) (free : e.events = []) (served : e.served = true)
    (poll : e.usock.pollOut = true) (room : Option ℕ) :
    ∃ e', e.usockFdOut room = some e' ∧ Inv e' := by
  rw [Endpoint.usockFdOut]
  split
  · rename_i active
    obtain ⟨busy, place⟩ := polling_out inv.stage free served active poll
    cases room with
    | none => exact ⟨_, usockDone_eq free, inv.lost free served active rfl rfl rfl⟩
    | some room =>
        obtain ⟨stage, booked, emits, delivers⟩ := inv
        obtain ⟨now, later, rest, split, _, left, nonempty, sent⟩ :=
          Usock.sendRaw_eq busy.nonempty room
        rw [sent]
        by_cases all : later = []
        · subst all
          cases eq_nil_of_flatten nonempty left
          refine ⟨{ e with
            usock := { e.usock with iov := [], sent := e.usock.sent ++ now, pollOut := false }
            events := [.usock e.owner .sent] }, ?_, ?_, booked.congr rfl .rfl .rfl,
            emits.congr (by simp [split]) rfl id, delivers.congr rfl List.prefix_rfl⟩
          · simp only [↓reduceIte]
            rw [Endpoint.raise_eq (by simp [free])]
            simp [free]
          · have clear : OutClear
                { e.usock with iov := [], sent := e.usock.sent ++ now, pollOut := false } e.tasks :=
              ⟨rfl, (poll ▸ busy.awaits).served⟩
            rcases place with ⟨early, owner, timer, state, idles, received, batch⟩ |
              ⟨live, outstate, base, pipe, inbound⟩
            · refine .greeting (early.congr rfl rfl rfl rfl rfl rfl) owner timer state active ?_
                idles received batch
              rw [owner]
              exact .finished clear
            · refine .established [.usock .sipc .sent] [] (live.congr rfl rfl rfl rfl rfl rfl)
                active (.sending outstate base pipe (.finished clear))
                (inbound.congr rfl rfl rfl rfl rfl rfl rfl rfl rfl rfl .rfl rfl) ?_
                (.inr (.inr rfl))
              rw [live.owner]
              rfl
        · refine ⟨{ e with usock := { e.usock with iov := rest, sent := e.usock.sent ++ now } },
            ?_, ?_, booked.congr rfl .rfl .rfl, emits.congr (by simp [split, left]) rfl id,
            delivers.congr rfl List.prefix_rfl⟩
          · simp only [all, ↓reduceIte]
          · have busy' :
                OutBusy { e.usock with iov := rest, sent := e.usock.sent ++ now } e.tasks := by
              refine ⟨?_, nonempty, busy.awaits⟩
              rintro rfl
              exact all left.symm
            rcases place with ⟨early, owner, timer, state, idles, received, batch⟩ |
              ⟨live, outstate, base, pipe, inbound⟩
            · refine .greeting (early.congr rfl rfl rfl rfl rfl rfl) owner timer state active ?_
                idles received batch
              rw [free]
              exact .busy busy'
            · exact .established [] [] (live.congr rfl rfl rfl rfl rfl rfl)
                active (.sending outstate base pipe (.busy busy'))
                (inbound.congr rfl rfl rfl rfl rfl rfl rfl rfl rfl rfl .rfl rfl) free (.inl rfl)
  · exact ⟨e, rfl, inv⟩
  · exact ⟨e, rfl, inv⟩

/-- What the worker's call of the kernel leaves of a request for `n` bytes. -/
inductive Takes (e : Endpoint) (n : ℕ) : Endpoint → Prop
  | whole {bytes batch : List UInt8} {len : ℕ} (length : (e.usock.buf ++ bytes).length = n) :
      Takes e n { e with
        usock := { e.usock with
          buf := e.usock.buf ++ bytes, len := len, batch := batch, pollIn := false
          received := e.usock.received ++ (bytes ++ batch) }
        events := [.usock e.owner .received] }
  | partly {bytes : List UInt8} {len : ℕ} (wants : 0 < len)
      (length : (e.usock.buf ++ bytes).length + len = n) :
      Takes e n { e with
        usock := { e.usock with
          buf := e.usock.buf ++ bytes, len := len, batch := []
          received := e.usock.received ++ bytes } }

theorem fdIn_takes {n : ℕ} (free : e.events = []) (active : e.usock.state = .active)
    (busy : InBusy e.usock e.tasks n) (offer : Option (List UInt8)) :
    (∃ batch, e.usockFdIn offer = some (lose { e.usock with batch := batch } e)) ∨
      ∃ e', e.usockFdIn offer = some e' ∧ Takes e n e' := by
  have total := busy.total
  simp only [Endpoint.usockFdIn, active]
  rcases e.usock.recvRaw_eq busy.wants offer with
    ⟨batch, failed⟩ | ⟨bytes, batch, given, order, within, whole, received⟩
  · left
    rw [failed]
    exact ⟨batch, usockDone_eq free⟩
  · right
    rw [busy.batch, List.nil_append] at order
    rw [received, order]
    by_cases all : e.usock.len - bytes.length = 0
    · simp only [all, ↓reduceIte]
      rw [Endpoint.raise_eq (by simp [free]), free]
      refine ⟨_, rfl, .whole ?_⟩
      rw [List.length_append]
      omega
    · have empty : batch = [] := whole.resolve_left (by omega)
      subst empty
      simp only [all, ↓reduceIte, List.append_nil]
      refine ⟨_, rfl, .partly (Nat.pos_of_ne_zero all) ?_⟩
      rw [List.length_append]
      omega

/-- Where the worker polls in order to receive: for the header of the stream, for that of
a message, or for its body. -/
theorem polling_in (stage : Stage e) (free : e.events = []) (served : e.served = true)
    (active : e.usock.state = .active) (poll : e.usock.pollIn = true) :
    (InBusy e.usock e.tasks 8 ∧ Early .protohdr e ∧ e.owner = .streamhdr ∧ e.timer = .active ∧
        e.streamhdr = .receiving ∧ OutClear e.usock e.tasks ∧
        e.usock.received = e.usock.buf ++ e.usock.batch) ∨
      (∃ n, InBusy e.usock e.tasks n ∧ Live e ∧ Outbound e [] ∧ e.pipebase.instate = .async ∧
        e.excl.inpipe = false ∧
        (e.sipc.instate = some .hdr ∧ n = 9 ∧
            e.usock.received = e.consumed ++ e.usock.buf ++ e.usock.batch ∨
          e.sipc.instate = some .body ∧ n = e.sipc.insize.toNat ∧
            e.usock.received =
              e.consumed ++ msgHeader e.sipc.insize ++ e.usock.buf ++ e.usock.batch)) := by
  obtain ⟨started, going⟩ : e.sipc.state ≠ .idle ∧ e.ended = false := by
    simpa [Endpoint.served] using served
  have still {tasks : List Task} {p : Prop} (idles : Idles .recv tasks e.usock.pollIn) : p := by
    simp [poll] at idles
    exact absurd idles.unpolled (by decide)
  have open_ {owner : Owner} {n : ℕ} (request : Request e.usock e.tasks owner n []) :
      InBusy e.usock e.tasks n := by
    cases request with
    | busy busy => exact busy
  cases stage with
  | fresh early => exact absurd (by rw [early.sipc]) started
  | greeting early owner timer state _ transfer clear => exact still clear
  | answered early owner timer state _ clear request received =>
      rw [free] at request
      exact .inl ⟨open_ request, early, owner, timer, state, clear, received⟩
  | refused early owner timer state dying =>
      rw [active] at dying
      generalize e.events = events at dying
      cases dying <;> contradiction
  | checked early owner state ready events =>
      rcases ready with done | ⟨_, _, clear, _⟩
      · simp [active] at done
      · exact still clear
  | failed early owner state done => simp [active] at done
  | greeted early owner timer state ready events => simp [events] at free
  | ungreeted early done => simp [active] at done
  | opening early owner timer ready events => simp [events] at free
  | established outs ins live _ outbound inbound events =>
      rw [free] at events
      obtain ⟨rfl, rfl⟩ := List.append_eq_nil_iff.mp events.symm
      right
      cases inbound with
      | hasMsg instate base pipe clear => exact still clear
      | hdr instate base pipe request parsed =>
          exact ⟨9, open_ request, live, outbound, base, pipe, .inl ⟨instate, rfl, parsed⟩⟩
      | body instate base pipe request parsed =>
          exact ⟨_, open_ request, live, outbound, base, pipe, .inr ⟨instate, rfl, parsed⟩⟩
  | breaking front live dying =>
      rw [active] at dying
      cases dying <;> contradiction
  | dead live done => simp [active] at done
  | closing owner timer state excl goesOn events =>
      rcases events with ⟨removing, _⟩ | ⟨done, _⟩
      · simp [active] at removing
      · simp [active] at done
  | ended state excl done events =>
      rcases events with ⟨_, events⟩ | ⟨ended, _⟩
      · simp [events] at free
      · simp [ended] at going

theorem fdIn (inv : Inv e) (free : e.events = []) (served : e.served = true)
    (poll : e.usock.pollIn = true) (offer : Option (List UInt8)) :
    ∃ e', e.usockFdIn offer = some e' ∧ Inv e' := by
  cases active : e.usock.state with
  | removingFd => exact ⟨e, by simp only [Endpoint.usockFdIn, active], inv⟩
  | done => exact ⟨e, by simp only [Endpoint.usockFdIn, active], inv⟩
  | active =>
      rcases polling_in inv.stage free served active poll with
        ⟨busy, early, owner, timer, state, clear, received⟩ |
        ⟨n, busy, live, outbound, base, pipe, place⟩
      · rcases fdIn_takes free active busy offer with ⟨batch, failed⟩ | ⟨e', taken, takes⟩
        · exact ⟨_, failed, inv.lost free served active rfl rfl rfl⟩
        · obtain ⟨stage, booked, emits, delivers⟩ := inv
          refine ⟨e', taken, ?_⟩
          rw [busy.batch, List.append_nil] at received
          cases takes with
          | whole length =>
              refine ⟨.answered (early.congr rfl rfl rfl rfl rfl rfl) owner timer state active
                ⟨clear.iov, clear.idles⟩ ?_ ?_, booked.congr rfl .rfl .rfl, emits.congr rfl rfl id,
                delivers.congr rfl (List.prefix_append _ _)⟩
              · rw [owner]
                exact .filled (poll ▸ busy.awaits).served length
              · simp only [received, List.append_assoc]
          | partly wants length =>
              refine ⟨.answered (early.congr rfl rfl rfl rfl rfl rfl) owner timer state active
                ⟨clear.iov, clear.idles⟩ ?_ ?_, booked.congr rfl .rfl .rfl, emits.congr rfl rfl id,
                delivers.congr rfl (List.prefix_append _ _)⟩
              · rw [free]
                exact .busy ⟨wants, length, rfl, busy.awaits⟩
              · simp only [received, List.append_nil]
      · rcases fdIn_takes free active busy offer with ⟨batch, failed⟩ | ⟨e', taken, takes⟩
        · exact ⟨_, failed, inv.lost free served active rfl rfl rfl⟩
        · obtain ⟨stage, booked, emits, delivers⟩ := inv
          refine ⟨e', taken, ?_⟩
          rw [busy.batch] at place
          simp only [List.append_nil] at place
          cases takes with
          | whole length =>
              refine ⟨.established [] [.usock .sipc .received] (live.congr rfl rfl rfl rfl rfl rfl)
                active (outbound.congr rfl rfl rfl rfl rfl .rfl) ?_ (by rw [live.owner]; rfl)
                (.inl rfl), booked.congr rfl .rfl .rfl, emits.congr rfl rfl id,
                delivers.congr rfl (List.prefix_append _ _)⟩
              rcases place with ⟨instate, rfl, parsed⟩ | ⟨instate, rfl, parsed⟩
              · refine .hdr instate base pipe (.filled (poll ▸ busy.awaits).served length) ?_
                simp only [parsed, List.append_assoc]
                rfl
              · refine .body instate base pipe (.filled (poll ▸ busy.awaits).served length) ?_
                simp only [parsed, List.append_assoc]
                rfl
          | partly wants length =>
              refine ⟨.established [] [] (live.congr rfl rfl rfl rfl rfl rfl)
                active (outbound.congr rfl rfl rfl rfl rfl .rfl) ?_ free
                (.inl rfl), booked.congr rfl .rfl .rfl, emits.congr rfl rfl id,
                delivers.congr rfl (List.prefix_append _ _)⟩
              rcases place with ⟨instate, rfl, parsed⟩ | ⟨instate, rfl, parsed⟩
              · refine .hdr instate base pipe (.busy ⟨wants, length, rfl, busy.awaits⟩) ?_
                simp only [parsed, List.append_assoc, List.append_nil]
                rfl
              · refine .body instate base pipe (.busy ⟨wants, length, rfl, busy.awaits⟩) ?_
                simp only [parsed, List.append_assoc, List.append_nil]
                rfl

end Inv

end Riff.Nanomsg
