import Riff.Nanomsg.Steps

set_option autoImplicit false

namespace Riff.Nanomsg

/-- What has come from the kernel is the beginning of what an end of a connection sends. -/
def Wellformed (e : Endpoint) : Prop :=
  ∃ ps, e.usock.received <+: Endpoint.protohdr ++ framing.stream ps

variable {e : Endpoint}

theorem buf_eq_protohdr (formed : Wellformed e) (length : e.usock.buf.length = 8)
    (received : e.usock.received = e.usock.buf ++ e.usock.batch) :
    e.usock.buf = Endpoint.protohdr := by
  obtain ⟨ps, starts⟩ := formed
  rw [received] at starts
  have first : e.usock.buf <+: Endpoint.protohdr ++ framing.stream ps :=
    (List.prefix_append _ _).trans starts
  have short : e.usock.buf <+: Endpoint.protohdr :=
    List.prefix_of_prefix_length_le first (List.prefix_append _ _) (by rw [length]; decide)
  exact short.eq_of_length (by rw [length]; rfl)

theorem buf_eq_msgHeader (formed : Wellformed e) (length : e.usock.buf.length = 9)
    (parsed : e.usock.received = e.consumed ++ e.usock.buf ++ e.usock.batch) :
    ∃ size, e.usock.buf = msgHeader size := by
  obtain ⟨ps, starts⟩ := formed
  rw [parsed, Endpoint.consumed, List.append_assoc, List.append_assoc,
    List.prefix_append_right_inj] at starts
  obtain ⟨later, rfl, inside⟩ := PrefixCode.stream_prefix starts
  cases later with
  | nil =>
      have empty := (List.append_eq_nil_iff.mp (List.prefix_nil.mp inside)).1
      simp [empty] at length
  | cons p later =>
      refine ⟨p.size, ?_⟩
      have first : e.usock.buf <+: msgHeader p.size ++ (p.bytes ++ framing.stream later) := by
        rw [← List.append_assoc]
        exact (List.prefix_append _ _).trans inside
      have short : e.usock.buf <+: msgHeader p.size :=
        List.prefix_of_prefix_length_le first (List.prefix_append _ _) (by rw [length]; rfl)
      exact short.eq_of_length length

namespace Inv

theorem process_greeting (early : Early .protohdr e) (owner : e.owner = .streamhdr)
    (timer : e.timer = .active) (state : e.streamhdr = .sending)
    (active : e.usock.state = .active) (out : OutClear e.usock e.tasks)
    (clear : Idles .recv e.tasks e.usock.pollIn) (received : e.usock.received = [])
    (batch : e.usock.batch = []) (booked : Booked e) (emits : Emits e)
    (offer : Option (List UInt8)) :
    ∃ e', Endpoint.streamhdrUsock .sent offer { e with events := [] } = some e' ∧ Inv e' := by
  obtain ⟨e', asked, receives⟩ := Endpoint.usockRecv_receives (e := { e with events := [] })
    offer (show 0 < 8 by decide) active (by simp [Endpoint.Quiet]) clear.unasked
    (booked.stopless active)
  have booked' := receives.booked (booked.congr rfl .rfl .rfl) active clear.unasked
  have bytes := receives.conserves
  refine ⟨_, by rw [Endpoint.streamhdrUsock_sent (by exact state), asked, Option.map_some], ?_⟩
  refine ⟨?_, booked'.congr rfl .rfl .rfl, emits.congr bytes ?_ ?_, .inl ?_⟩
  · cases receives with
    | whole order length =>
        refine .answered (early.congr rfl rfl rfl rfl rfl rfl) owner timer rfl active
          ⟨out.iov, out.idles⟩ ?_ ?_
        · simpa [owner] using .filled clear length
        · simpa [received, batch] using order
    | partly order length =>
        refine .answered (early.congr rfl rfl rfl rfl rfl rfl) owner timer rfl active
          ⟨out.iov, out.idles.push (by decide)⟩
          (.busy ⟨Nat.sub_pos_of_lt length, Nat.add_sub_cancel' (Nat.le_of_lt length), rfl,
            clear.ask⟩) ?_
        simpa [received, batch] using order
    | broken =>
        refine .refused (early.congr rfl rfl rfl rfl rfl rfl) owner timer (.inr rfl) ?_
        simpa [Endpoint.broken, owner] using .told rfl
  · cases receives <;> rfl
  · cases receives <;> simp [active]
  · cases receives <;> exact early.delivered

/-- The answer of the other end is its header, so that the timer can be stopped. -/
theorem process_answered (early : Early .protohdr e) (owner : e.owner = .streamhdr)
    (timer : e.timer = .active) (state : e.streamhdr = .receiving)
    (active : e.usock.state = .active) (out : OutClear e.usock e.tasks)
    (clear : Idles .recv e.tasks e.usock.pollIn) (length : e.usock.buf.length = 8)
    (received : e.usock.received = e.usock.buf ++ e.usock.batch) (booked : Booked e)
    (emits : Emits e) (formed : Wellformed e) (offer : Option (List UInt8)) :
    ∃ e', Endpoint.streamhdrUsock .received offer { e with events := [] } = some e' ∧ Inv e' := by
  have header := buf_eq_protohdr formed length received
  have new : .timerStop ∉ e.tasks := by
    rw [booked.timerStop, timer]
    exact TimerState.noConfusion
  refine ⟨_, Eq.trans (Endpoint.streamhdrUsock_received state header)
    (Endpoint.streamhdrStopTimer_eq timer new), ?_⟩
  refine ⟨?_, ⟨nodup_push booked.nodup new, ?_, ?_⟩,
    emits.congr rfl rfl id, .inl early.delivered⟩
  · refine .checked (early.congr rfl rfl rfl rfl rfl rfl) owner rfl (.inr ⟨active, ?_, ?_, ?_⟩)
      (.inl ⟨rfl, rfl⟩)
    · exact ⟨out.iov, out.idles.push (by decide)⟩
    · exact clear.push (by decide)
    · rw [← header]
      exact received
  · simp [booked.stop]
  · simp

theorem process_refused (early : Early .protohdr e) (owner : e.owner = .streamhdr)
    (timer : e.timer = .active) (state : e.streamhdr = .sending ∨ e.streamhdr = .receiving)
    (done : e.usock.state = .done) (booked : Booked e) (emits : Emits e)
    (offer : Option (List UInt8)) :
    ∃ e', Endpoint.streamhdrUsock .error offer { e with events := [] } = some e' ∧ Inv e' := by
  have new : .timerStop ∉ e.tasks := by
    rw [booked.timerStop, timer]
    exact TimerState.noConfusion
  refine ⟨_, Eq.trans (Endpoint.streamhdrUsock_error state)
    (Endpoint.streamhdrStopTimer_eq timer new), ?_⟩
  refine ⟨?_, ⟨nodup_push booked.nodup new, ?_, ?_⟩,
    emits.congr rfl rfl id, .inl early.delivered⟩
  · exact .failed (early.congr rfl rfl rfl rfl rfl rfl) owner rfl done (.inl ⟨rfl, rfl⟩)
  · simp [booked.stop]
  · simp

theorem process_checked (early : Early .protohdr e) (state : e.streamhdr = .stoppingTimerDone)
    (timer : e.timer = .idle) (ready : Ready e) (booked : Booked e) (emits : Emits e) :
    ∃ e', Endpoint.streamhdrTimer .stopped { e with events := [] } = some e' ∧ Inv e' := by
  refine ⟨_, Eq.trans (Endpoint.streamhdrTimer_done state) (Endpoint.raise_eq (by simp)), ?_⟩
  refine ⟨?_, booked.congr rfl .rfl .rfl, emits.congr rfl rfl id, .inl early.delivered⟩
  exact .greeted (early.congr rfl rfl rfl rfl rfl rfl) rfl timer rfl ready rfl

theorem process_failed (early : Early .protohdr e) (state : e.streamhdr = .stoppingTimerError)
    (timer : e.timer = .idle) (done : e.usock.state = .done) (booked : Booked e)
    (emits : Emits e) :
    ∃ e', Endpoint.streamhdrTimer .stopped { e with events := [] } = some e' ∧ Inv e' := by
  refine ⟨_, Eq.trans (Endpoint.streamhdrTimer_error state) (Endpoint.raise_eq (by simp)), ?_⟩
  refine ⟨?_, booked.congr rfl .rfl .rfl, emits.congr rfl rfl id, .inl early.delivered⟩
  exact .ungreeted (early.congr rfl rfl rfl rfl rfl rfl) done timer rfl

theorem emission_congr {e' : Endpoint} (state : e.sipc.state ≠ .idle)
    (state' : e'.sipc.state ≠ .idle) (accepted : e'.accepted = e.accepted) :
    e'.emission = e.emission := by
  rw [Endpoint.emission, Endpoint.emission, if_neg state, if_neg state', accepted]

theorem process_greeted (early : Early .protohdr e) (owner : e.owner = .sipc)
    (timer : e.timer = .idle) (ready : Ready e) (booked : Booked e) (emits : Emits e)
    (offer : Option (List UInt8)) :
    ∃ e', Endpoint.sipcStreamhdr .ok offer { e with events := [] } = some e' ∧ Inv e' := by
  have state : e.sipc.state = .protohdr := by rw [early.sipc]
  refine ⟨{ e with
    streamhdr := .idle, events := [.streamhdr .stopped]
    sipc := { e.sipc with state := .stoppingStreamhdr } }, ?_, ?_, ?_, ?_, ?_⟩
  · rw [Endpoint.sipcStreamhdr_ok (by exact state), Endpoint.streamhdrStop,
      if_pos (by exact timer), Endpoint.raise_eq (by simp)]
    rfl
  · exact .opening (early.move rfl rfl rfl rfl rfl rfl) owner timer ready rfl
  · exact booked.congr rfl .rfl .rfl
  · exact emits.congr rfl (emission_congr (by simp [state]) (by simp) rfl) id
  · exact .inl early.delivered

/-- Whatever has failed, the owner is told once. -/
theorem process_fail (excl : e.excl = {}) (started : e.sipc.state ≠ .idle)
    (done : e.usock.state = .done) (free : e.events = []) (booked : Booked e)
    (emits : Emits e) (delivers : Delivers e) :
    ∃ e', e.sipcFail = some e' ∧ e'.ended = e.ended ∧ (e.ended = false → Inv e') := by
  refine ⟨_, Endpoint.sipcFail_eq free, rfl, fun going => ⟨?_, ?_, ?_, ?_⟩⟩
  · exact .ended rfl excl done (.inl ⟨going, rfl⟩)
  · exact booked.congr rfl .rfl .rfl
  · exact emits.congr rfl (emission_congr started (by simp) rfl) id
  · exact delivers.congr rfl List.prefix_rfl

theorem process_opening (early : Early .stoppingStreamhdr e) (owner : e.owner = .sipc)
    (timer : e.timer = .idle) (ready : Ready e) (booked : Booked e) (emits : Emits e)
    (offer : Option (List UInt8)) :
    ∃ e', Endpoint.sipcStreamhdr .stopped offer { e with events := [] } = some e' ∧ Inv e' := by
  have state : e.sipc.state = .stoppingStreamhdr := by rw [early.sipc]
  have started : Endpoint.pipebaseStart { e with events := [] } = some (true, { e with
      pipebase := ⟨.active, .async, .idle⟩, excl := { pipe := true }, events := [.pipeOut] }) := by
    rw [Endpoint.pipebaseStart, if_neg (by simp [early.pipebase]), if_neg (by simp [early.excl]),
      Endpoint.raise_eq (by simp)]
    simp [early.excl]
  have live {e' : Endpoint} (owner' : e'.owner = e.owner) (timer' : e'.timer = e.timer)
      (state : e'.sipc.state = .active) (base : e'.pipebase.state = .active)
      (pipe : e'.excl.pipe = true) (ended : e'.ended = e.ended) : Live e' :=
    ⟨owner'.trans owner, timer'.trans timer, state, base, pipe, ended.trans early.goesOn⟩
  rw [Endpoint.sipcStreamhdr_stopped (by exact state) started]
  have unmoved {e' : Endpoint} (state' : e'.sipc.state ≠ .idle)
      (accepted : e'.accepted = e.accepted) : e'.emission = e.emission :=
    emission_congr (by simp [state]) state' accepted
  rcases ready with done | ⟨active, out, clear, parsed⟩
  · rw [Endpoint.usockRecv_idle (by simp [done])]
    refine ⟨_, rfl, ?_, booked.congr rfl .rfl .rfl, emits.congr rfl (unmoved (by simp) rfl) id,
      .inl early.delivered⟩
    exact .dead (live rfl rfl rfl rfl rfl rfl) done rfl rfl (.inr ⟨rfl, rfl, rfl, rfl⟩)
  · have consumed {e' : Endpoint} (delivered : e'.delivered = e.delivered) :
        e'.consumed = Endpoint.protohdr := by
      rw [Endpoint.consumed, delivered, early.delivered, PrefixCode.stream_nil, List.append_nil]
    obtain ⟨e', asked, receives⟩ := Endpoint.usockRecv_receives (e := { e with
        pipebase := ⟨.active, .async, .idle⟩, excl := { pipe := true }, events := [.pipeOut]
        sipc := { e.sipc with instate := some .hdr } })
      offer (show 0 < 9 by decide) active (by simp [Endpoint.Quiet]) clear.unasked
      (booked.stopless active)
    have booked' := receives.booked (booked.congr rfl .rfl .rfl) active clear.unasked
    have bytes := receives.conserves
    rw [asked]
    refine ⟨_, rfl, ?_, booked'.congr rfl .rfl .rfl, emits.congr bytes (unmoved (by simp) ?_) ?_,
      .inl ?_⟩
    · cases receives with
      | whole order length =>
          refine .established [.pipeOut] [.usock .sipc .received] (live rfl rfl rfl rfl rfl rfl)
            active (.announced rfl rfl rfl ⟨out.iov, out.idles⟩)
            (.hdr rfl rfl rfl (.filled clear length) ?_) ?_ (.inr (.inl rfl))
          · rw [consumed (by rfl)]
            simp only [parsed, List.append_assoc, order]
          · simp [owner]
      | partly order length =>
          refine .established [.pipeOut] [] (live rfl rfl rfl rfl rfl rfl)
            active (.announced rfl rfl rfl ⟨out.iov, out.idles.push (by decide)⟩)
            (.hdr rfl rfl rfl (.busy ⟨Nat.sub_pos_of_lt length,
              Nat.add_sub_cancel' (Nat.le_of_lt length), rfl, clear.ask⟩) ?_) rfl
            (.inr (.inl rfl))
          rw [consumed (by rfl)]
          simp only [parsed, List.append_assoc, List.append_nil, order]
      | broken =>
          refine .breaking [.pipeOut] (live rfl rfl rfl rfl rfl rfl) (.told rfl)
            (List.cons_ne_nil _ _) ?_ (.inr ⟨rfl, rfl⟩)
          simp [Endpoint.broken, owner]
    · cases receives <;> rfl
    · cases receives <;> simp [active]
    · cases receives <;> exact early.delivered

theorem process_sent (live : Live e) (active : e.usock.state = .active)
    (outstate : e.sipc.outstate = some .sending) (base : e.pipebase.outstate = .async)
    (pipe : e.excl.outpipe = false) (clear : OutClear e.usock e.tasks) (inbound : Inbound e [])
    (booked : Booked e) (emits : Emits e) (delivers : Delivers e)
    (offer : Option (List UInt8)) :
    ∃ e', Endpoint.sipcUsock .sent offer { e with events := [] } = some e' ∧ Inv e' := by
  refine ⟨_, Eq.trans (Endpoint.sipcUsock_sent live.state outstate)
    (Endpoint.pipebaseSent_eq base rfl), ?_⟩
  refine ⟨?_, booked.congr rfl .rfl .rfl, emits.congr rfl rfl id,
    delivers.congr rfl List.prefix_rfl⟩
  exact .established [.pipeOut] [] (live.congr rfl rfl rfl rfl rfl rfl) active
    (.announced rfl rfl pipe ⟨clear.iov, clear.idles⟩)
    (inbound.congr rfl rfl rfl rfl rfl rfl rfl rfl rfl rfl .rfl rfl) rfl (.inr (.inl rfl))

/-- The message is complete. -/
theorem process_complete {p : Payload} (live : Live e)
    (active : e.usock.state = .active) (outbound : Outbound e [])
    (base : e.pipebase.instate = .async) (pipe : e.excl.inpipe = false)
    (clear : Idles .recv e.tasks e.usock.pollIn)
    (parsed : e.usock.received = e.consumed ++ frame p ++ e.usock.batch) (booked : Booked e)
    (emits : Emits e) (delivers : Delivers e) (size : UInt64) :
    ∃ e', Endpoint.pipebaseReceived { e with
        events := []
        sipc := { e.sipc with instate := some .hasMsg, insize := size, inmsg := p } } =
      some e' ∧ Inv e' := by
  refine ⟨_, Endpoint.pipebaseReceived_eq base rfl, ?_⟩
  refine ⟨?_, booked.congr rfl .rfl .rfl, emits.congr rfl rfl id,
    delivers.congr rfl List.prefix_rfl⟩
  exact .established [] [.pipeIn] (live.congr rfl rfl rfl rfl rfl rfl) active
    (outbound.congr rfl rfl rfl rfl rfl .rfl) (.announced rfl rfl pipe clear parsed) rfl (.inl rfl)

theorem process_hdr (live : Live e) (active : e.usock.state = .active) (outbound : Outbound e [])
    (instate : e.sipc.instate = some .hdr) (base : e.pipebase.instate = .async)
    (pipe : e.excl.inpipe = false) (clear : Idles .recv e.tasks e.usock.pollIn)
    (length : e.usock.buf.length = 9)
    (parsed : e.usock.received = e.consumed ++ e.usock.buf ++ e.usock.batch) (booked : Booked e)
    (emits : Emits e) (delivers : Delivers e) (formed : Wellformed e)
    (offer : Option (List UInt8)) :
    ∃ e', Endpoint.sipcUsock .received offer { e with events := [] } = some e' ∧ Inv e' := by
  obtain ⟨size, header⟩ := buf_eq_msgHeader formed length parsed
  rw [Endpoint.sipcUsock_received (by exact live.state)]
  by_cases none : size = 0
  · subst none
    rw [Endpoint.sipcReceived_empty (by exact instate) (by exact header)]
    refine process_complete live active outbound base pipe clear ?_ booked emits delivers 0
    rw [parsed, header, frame_ofBuffer rfl, List.append_nil]
  · have positive : 0 < size.toNat := by
      apply Nat.pos_of_ne_zero
      intro zero
      exact none (UInt64.toNat.inj zero)
    obtain ⟨e', asked, receives⟩ := Endpoint.usockRecv_receives (e := { e with
        events := [], sipc := { e.sipc with instate := some .body, insize := size } })
      offer positive active (by simp [Endpoint.Quiet]) clear.unasked (booked.stopless active)
    have booked' := receives.booked (booked.congr rfl .rfl .rfl) active clear.unasked
    have bytes := receives.conserves
    have grows := receives.grows
    rw [Endpoint.sipcReceived_hdr (by exact instate) (by exact header) none]
    refine ⟨e', asked, ?_, booked', emits.congr bytes ?_ ?_, delivers.congr ?_ grows⟩
    · cases receives with
      | whole order size =>
          refine .established [] [.usock .sipc .received] (live.congr rfl rfl rfl rfl rfl rfl)
            active (outbound.congr rfl rfl rfl rfl rfl .rfl)
            (.body rfl base pipe (.filled clear size) ?_) ?_ (.inl rfl)
          · simp only [parsed, header, List.append_assoc, order]
            rfl
          · simp [live.owner]
      | partly order size =>
          refine .established [] [] (live.congr rfl rfl rfl rfl rfl rfl)
            active (outbound.congr rfl rfl rfl rfl rfl (by simp))
            (.body rfl base pipe (.busy ⟨Nat.sub_pos_of_lt size,
              Nat.add_sub_cancel' (Nat.le_of_lt size), rfl, clear.ask⟩) ?_) rfl (.inl rfl)
          simp only [parsed, header, List.append_assoc, List.append_nil, order]
          rfl
      | broken =>
          refine .breaking [] (live.congr rfl rfl rfl rfl rfl rfl) (.told rfl)
            (List.cons_ne_nil _ _) ?_ (.inl rfl)
          simp [Endpoint.broken, live.owner]
    · cases receives <;> rfl
    · cases receives <;> simp [active]
    · cases receives <;> rfl

theorem process_body (live : Live e) (active : e.usock.state = .active)
    (outbound : Outbound e []) (instate : e.sipc.instate = some .body)
    (base : e.pipebase.instate = .async) (pipe : e.excl.inpipe = false)
    (clear : Idles .recv e.tasks e.usock.pollIn)
    (length : e.usock.buf.length = e.sipc.insize.toNat)
    (parsed : e.usock.received =
      e.consumed ++ msgHeader e.sipc.insize ++ e.usock.buf ++ e.usock.batch)
    (booked : Booked e) (emits : Emits e) (delivers : Delivers e)
    (offer : Option (List UInt8)) :
    ∃ e', Endpoint.sipcUsock .received offer { e with events := [] } = some e' ∧ Inv e' := by
  rw [Endpoint.sipcUsock_received (by exact live.state),
    Endpoint.sipcReceived_body (by exact instate)]
  refine process_complete live active outbound base pipe clear ?_ booked emits delivers
    e.sipc.insize
  rw [parsed, frame_ofBuffer (by exact length)]
  simp only [List.append_assoc]

theorem process_established {outs ins rest : List Event} {event : Event} (live : Live e)
    (active : e.usock.state = .active) (outbound : Outbound e outs) (inbound : Inbound e ins)
    (events : outs ++ ins = event :: rest) (order : outs = [] ∨ outs = [.pipeOut] ∨ ins = [])
    (booked : Booked e) (emits : Emits e) (delivers : Delivers e) (formed : Wellformed e)
    (offer : Option (List UInt8)) :
    ∃ e', Endpoint.process event offer { e with events := rest } = some e' ∧ Inv e' := by
  have incoming {event : Event} {rest : List Event} (outbound : Outbound e [])
      (inbound : Inbound e (event :: rest)) :
      ∃ e', Endpoint.process event offer { e with events := rest } = some e' ∧ Inv e' := by
    cases inbound with
    | announced instate base pipe clear parsed =>
        refine ⟨{ e with events := [], excl := { e.excl with inpipe := true } }, ?_, ?_,
          booked.congr rfl .rfl .rfl, emits.congr rfl rfl id, delivers.congr rfl List.prefix_rfl⟩
        · exact if_pos ⟨by simp [pipe], live.pipe⟩
        · exact .established [] [] (live.congr rfl rfl rfl rfl rfl rfl) active
            (outbound.congr rfl rfl rfl rfl rfl .rfl) (.hasMsg instate base rfl clear parsed) rfl
            (.inl rfl)
    | hdr instate base pipe request parsed =>
        cases request with
        | filled clear length =>
            exact process_hdr live active outbound instate base pipe clear length parsed booked
              emits delivers formed offer
    | body instate base pipe request parsed =>
        cases request with
        | filled clear length =>
            exact process_body live active outbound instate base pipe clear length parsed booked
              emits delivers offer
  cases outbound with
  | idle outstate base pipe clear =>
      cases events
      exact incoming (.idle outstate base pipe clear) inbound
  | announced outstate base pipe clear =>
      cases events
      refine ⟨{ e with events := ins, excl := { e.excl with outpipe := true } }, ?_, ?_,
        booked.congr rfl .rfl .rfl, emits.congr rfl rfl id, delivers.congr rfl List.prefix_rfl⟩
      · exact if_pos ⟨by simp [pipe], live.pipe⟩
      · exact .established [] ins (live.congr rfl rfl rfl rfl rfl rfl) active
          (.idle outstate base rfl ⟨clear.iov, clear.idles⟩)
          (inbound.congr rfl rfl rfl rfl rfl rfl rfl rfl rfl rfl .rfl rfl) rfl (.inl rfl)
  | sending outstate base pipe transfer =>
      cases transfer with
      | busy busy =>
          cases events
          exact incoming (.sending outstate base pipe (.busy busy)) inbound
      | finished clear =>
          have none : ins = [] := by simpa using order
          subst none
          cases events
          exact process_sent live active outstate base pipe clear inbound booked emits delivers
            offer

/-- A failure is the last event in the queue, so that the pipe has announced itself before
it is taken away. -/
theorem process_breaking {front events rest : List Event} {event : Event} (live : Live e)
    (dying : Dying e.usock.state .sipc events) (some_ : events ≠ [])
    (split : front ++ events = event :: rest)
    (order : front = [] ∨ front = [.pipeOut] ∧ e.excl.outpipe = false) (booked : Booked e)
    (emits : Emits e) (delivers : Delivers e) (offer : Option (List UInt8)) :
    ∃ e', Endpoint.process event offer { e with events := rest } = some e' ∧ Inv e' := by
  have started : e.sipc.state ≠ .idle := by simp [live.state]
  rcases order with rfl | ⟨rfl, pipe⟩
  · cases dying with
    | waits removing => exact absurd rfl some_
    | told removing =>
        cases split
        refine ⟨{ e with
          events := [], excl := {}, pipebase := { e.pipebase with state := .idle }
          sipc := { e.sipc with state := .shuttingDown } }, ?_, ?_,
          booked.congr rfl .rfl .rfl, emits.congr rfl (emission_congr started (by simp) rfl) id,
          delivers.congr rfl List.prefix_rfl⟩
        · refine Eq.trans (Endpoint.sipcUsock_shutdown live.state) ?_
          rw [Endpoint.pipebaseStop_eq (by exact live.base) (by exact live.pipe), Option.map_some]
        · exact .closing live.owner live.timer rfl rfl live.goesOn (.inl ⟨removing, rfl⟩)
    | gone done =>
        cases split
        obtain ⟨e', failed, _, inv⟩ := process_fail
          (e := { e with events := [], excl := {}, pipebase := { e.pipebase with state := .idle } })
          rfl started done rfl (booked.congr rfl .rfl .rfl) (emits.congr rfl rfl id)
          (delivers.congr rfl List.prefix_rfl)
        refine ⟨e', Eq.trans (Endpoint.sipcUsock_error live.state) ?_, inv live.goesOn⟩
        rw [Endpoint.pipebaseStop_eq (by exact live.base) (by exact live.pipe), Option.bind_some]
        exact failed
  · cases split
    refine ⟨{ e with events := events, excl := { e.excl with outpipe := true } }, ?_, ?_,
      booked.congr rfl .rfl .rfl, emits.congr rfl rfl id, delivers.congr rfl List.prefix_rfl⟩
    · exact if_pos ⟨by simp [pipe], live.pipe⟩
    · exact .breaking [] (live.congr rfl rfl rfl rfl rfl rfl) dying some_ rfl (.inl rfl)

theorem process {event : Event} {rest : List Event} (inv : Inv e)
    (events : e.events = event :: rest) (formed : Wellformed e) (offer : Option (List UInt8)) :
    ∃ e', Endpoint.process event offer { e with events := rest } = some e' ∧ Inv e' := by
  obtain ⟨stage, booked, emits, delivers⟩ := inv
  cases stage with
  | fresh early owner timer state usock tasks none => simp [none] at events
  | greeting early owner timer state active transfer clear received batch =>
      rw [events] at transfer
      cases transfer with
      | finished out =>
          exact process_greeting early owner timer state active out clear received batch booked
            emits offer
  | answered early owner timer state active clear request received =>
      rw [events] at request
      cases request with
      | filled idles length =>
          exact process_answered early owner timer state active clear idles length received booked
            emits formed offer
  | refused early owner timer state dying =>
      rw [events] at dying
      cases dying with
      | told removing =>
          refine ⟨_, Endpoint.streamhdrUsock_shutdown (by exact state), ?_⟩
          refine ⟨?_, booked.congr rfl .rfl .rfl, emits.congr rfl rfl id, .inl early.delivered⟩
          exact .refused (early.congr rfl rfl rfl rfl rfl rfl) owner timer state (.waits removing)
      | gone done => exact process_refused early owner timer state done booked emits offer
  | checked early owner state ready queued =>
      rcases queued with ⟨_, none⟩ | ⟨timer, done, one⟩ | ⟨timer, one⟩
      · simp [none] at events
      · cases one.symm.trans events
        refine ⟨_, Endpoint.streamhdrUsock_ignored (by exact state), ?_⟩
        refine ⟨?_, booked.congr rfl .rfl .rfl, emits.congr rfl rfl id, .inl early.delivered⟩
        exact .checked (early.congr rfl rfl rfl rfl rfl rfl) owner state (.inl done)
          (.inl ⟨timer, rfl⟩)
      · cases one.symm.trans events
        exact process_checked early state timer ready booked emits
  | failed early owner state done queued =>
      rcases queued with ⟨_, none⟩ | ⟨timer, one⟩
      · simp [none] at events
      · cases one.symm.trans events
        exact process_failed early state timer done booked emits
  | greeted early owner timer state ready one =>
      cases one.symm.trans events
      exact process_greeted early owner timer ready booked emits offer
  | ungreeted early done timer one =>
      cases one.symm.trans events
      have started : e.sipc.state = .protohdr := by rw [early.sipc]
      obtain ⟨e', failed, _, inv⟩ := process_fail (e := { e with events := [] }) early.excl
        (by simp [started]) done rfl (booked.congr rfl .rfl .rfl) (emits.congr rfl rfl id)
        (delivers.congr rfl List.prefix_rfl)
      exact ⟨e', Eq.trans (Endpoint.sipcStreamhdr_error started) failed, inv early.goesOn⟩
  | opening early owner timer ready one =>
      cases one.symm.trans events
      exact process_opening early owner timer ready booked emits offer
  | established outs ins live active outbound inbound split order =>
      exact process_established live active outbound inbound (split.symm.trans events) order booked
        emits delivers formed offer
  | breaking front live dying some_ split order =>
      exact process_breaking live dying some_ (split.symm.trans events) order booked emits
        delivers offer
  | dead live done instate pipe queued =>
      rcases queued with ⟨none, _⟩ | ⟨one, outpipe, idle⟩
      · simp [none] at events
      · cases one.symm.trans events
        refine ⟨{ e with events := [], excl := { e.excl with outpipe := true } }, ?_, ?_,
          booked.congr rfl .rfl .rfl, emits.congr rfl rfl id,
          delivers.congr rfl List.prefix_rfl⟩
        · exact if_pos ⟨by simp [outpipe], live.pipe⟩
        · exact .dead (live.congr rfl rfl rfl rfl rfl rfl) done instate pipe
            (.inl ⟨rfl, fun _ => idle⟩)
  | closing owner timer state excl goesOn queued =>
      rcases queued with ⟨_, none⟩ | ⟨done, one⟩
      · simp [none] at events
      · cases one.symm.trans events
        obtain ⟨e', failed, _, inv⟩ := process_fail (e := { e with events := [] }) excl
          (by simp [state]) done rfl (booked.congr rfl .rfl .rfl) (emits.congr rfl rfl id)
          (delivers.congr rfl List.prefix_rfl)
        exact ⟨e', Eq.trans (Endpoint.sipcUsock_closed state) failed, inv goesOn⟩
  | ended state excl done queued =>
      rcases queued with ⟨_, one⟩ | ⟨_, none⟩
      · cases one.symm.trans events
        exact ⟨_, rfl, .ended state excl done (.inr ⟨rfl, rfl⟩), booked.congr rfl .rfl .rfl,
          emits.congr rfl rfl id, delivers.congr rfl List.prefix_rfl⟩
      · simp [none] at events

end Inv

end Riff.Nanomsg
