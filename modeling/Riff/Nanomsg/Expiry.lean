import Riff.Nanomsg.Events

set_option autoImplicit false

namespace Riff.Nanomsg

/-- The header exchange has been given up because the timer expired. From then on the
machines may meet events that they do not expect, but no message comes to pass. -/
structure Barred (e : Endpoint) : Prop where
  excl : e.excl = {}
  accepted : e.accepted = []
  delivered : e.delivered = []
  state : e.sipc.state = .protohdr ∨ e.sipc.state = .done
  streamhdr : e.streamhdr = .stoppingTimerError ∨ e.streamhdr = .done
  unanswered : .streamhdr .ok ∉ e.events
  unstopped : .streamhdr .stopped ∉ e.events
  sent : e.usock.sent ++ e.usock.iov.flatten <+: Endpoint.protohdr
  whole : e.usock.state = .active → [] ∉ e.usock.iov

/-- The timer has just expired. -/
structure Alarmed (e : Endpoint) : Prop where
  events : e.events = [.timer .timeout]
  timer : e.timer = .active
  goesOn : e.ended = false
  inv : Inv { e with events := [] }

variable {e e' : Endpoint}

namespace Barred

theorem raise {event : Event} (barred : Barred e) (raised : e.raise event = some e')
    (answer : event ≠ .streamhdr .ok) (stop : event ≠ .streamhdr .stopped) : Barred e' := by
  cases Endpoint.raise_some raised
  refine ⟨barred.excl, barred.accepted, barred.delivered, barred.state, barred.streamhdr,
    ?_, ?_, barred.sent, barred.whole⟩
  · simp [barred.unanswered, answer.symm]
  · simp [barred.unstopped, stop.symm]

theorem congr (barred : Barred e) (excl : e'.excl = e.excl) (accepted : e'.accepted = e.accepted)
    (delivered : e'.delivered = e.delivered) (state : e'.sipc.state = e.sipc.state)
    (streamhdr : e'.streamhdr = e.streamhdr) (events : e'.events = e.events)
    (sent : e'.usock.sent ++ e'.usock.iov.flatten = e.usock.sent ++ e.usock.iov.flatten)
    (whole : e'.usock.state = .active → [] ∉ e'.usock.iov) : Barred e' where
  excl := excl.trans barred.excl
  accepted := accepted.trans barred.accepted
  delivered := delivered.trans barred.delivered
  state := by rw [state]; exact barred.state
  streamhdr := by rw [streamhdr]; exact barred.streamhdr
  unanswered := by rw [events]; exact barred.unanswered
  unstopped := by rw [events]; exact barred.unstopped
  sent := by rw [sent]; exact barred.sent
  whole := whole

theorem done {u : Usock} (barred : Barred e) (sent : u.sent = e.usock.sent)
    (iov : u.iov = e.usock.iov) (failed : Endpoint.usockDone { e with usock := u } = some e') :
    Barred e' := by
  rw [Endpoint.usockDone] at failed
  refine raise (barred.congr (by rfl) (by rfl) (by rfl) (by rfl) (by rfl) (by rfl) ?_ ?_) failed
    (by simp) (by simp)
  · simp only [sent, iov]
  · intro active
    cases active

theorem fdErr (barred : Barred e) (worked : e.usockFdErr = some e') : Barred e' := by
  rw [Endpoint.usockFdErr] at worked
  split at worked
  · exact barred.done rfl rfl worked
  · exact Option.some.inj worked ▸ barred
  · exact Option.some.inj worked ▸ barred

theorem fdOut {room : Option ℕ} (barred : Barred e) (worked : e.usockFdOut room = some e') :
    Barred e' := by
  rw [Endpoint.usockFdOut] at worked
  split at worked
  · rename_i active
    cases room with
    | none => exact barred.done rfl rfl worked
    | some room =>
        obtain ⟨now, later, rest, split, _, left, whole, sent⟩ :=
          Usock.sendRaw_eq (barred.whole active) room
        rw [sent] at worked
        by_cases all : later = []
        · simp only [all, ↓reduceIte] at worked
          refine raise (by
            exact barred.congr rfl rfl rfl rfl rfl rfl (by simp [split, left]) fun _ => whole)
            worked (by simp) (by simp)
        · simp only [all, ↓reduceIte] at worked
          cases worked
          exact barred.congr rfl rfl rfl rfl rfl rfl (by simp [split, left]) fun _ => whole
  · exact Option.some.inj worked ▸ barred
  · exact Option.some.inj worked ▸ barred

theorem fdIn {offer : Option (List UInt8)} (barred : Barred e)
    (worked : e.usockFdIn offer = some e') : Barred e' := by
  rw [Endpoint.usockFdIn] at worked
  split at worked
  · rename_i active
    obtain ⟨batch, given, _, frame, _⟩ := e.usock.recvRaw_frame e.usock.len offer
    split at worked
    · rename_i u failed
      rw [failed] at frame
      cases frame
      exact barred.done (by rfl) (by rfl) worked
    · rename_i bytes u taken
      rw [taken] at frame
      cases frame
      simp only at worked
      split at worked
      · exact raise (by exact barred.congr rfl rfl rfl rfl rfl rfl rfl barred.whole) worked
          (by simp) (by simp)
      · cases worked
        exact barred.congr rfl rfl rfl rfl rfl rfl rfl barred.whole
  · exact Option.some.inj worked ▸ barred
  · exact Option.some.inj worked ▸ barred

theorem workerTask (barred : Barred e) (worked : e.workerTask = some e') : Barred e' := by
  rw [Endpoint.workerTask] at worked
  split at worked
  · exact Option.some.inj worked ▸ barred
  · cases worked
    exact barred.congr rfl rfl rfl rfl rfl rfl rfl barred.whole
  · cases worked
    exact barred.congr rfl rfl rfl rfl rfl rfl rfl barred.whole
  · rename_i tasks _
    have popped : Barred { e with tasks := tasks } :=
      barred.congr rfl rfl rfl rfl rfl rfl rfl barred.whole
    rw [Endpoint.usockTaskStop] at worked
    split at worked
    · cases worked
    · exact popped.done (by rfl) (by rfl) worked
    · exact Option.some.inj worked ▸ popped
  · rw [Endpoint.timerTaskStop] at worked
    split at worked
    · exact raise (by exact barred.congr rfl rfl rfl rfl rfl rfl rfl barred.whole) worked
        (by simp) (by simp)
    · cases worked

theorem process {event : Event} {rest : List Event} {offer : Option (List UInt8)}
    (barred : Barred e) (events : e.events = event :: rest)
    (worked : Endpoint.process event offer { e with events := rest } = some e') : Barred e' := by
  have unanswered := barred.unanswered
  have unstopped := barred.unstopped
  rw [events] at unanswered unstopped
  have popped : Barred { e with events := rest } :=
    ⟨barred.excl, barred.accepted, barred.delivered, barred.state, barred.streamhdr,
      fun member => unanswered (List.mem_cons_of_mem _ member),
      fun member => unstopped (List.mem_cons_of_mem _ member), barred.sent, barred.whole⟩
  cases event with
  | usock owner type =>
      cases owner with
      | streamhdr =>
          have state := barred.streamhdr
          simp only [Endpoint.process, Endpoint.streamhdrUsock] at worked
          split at worked <;> simp_all
      | sipc =>
          have state := barred.state
          simp only [Endpoint.process, Endpoint.sipcUsock] at worked
          split at worked <;> simp_all
  | timer type =>
      have state := barred.streamhdr
      simp only [Endpoint.process, Endpoint.streamhdrTimer] at worked
      split at worked
      · simp_all
      · simp_all
      · refine raise (e := { e with events := rest, owner := .sipc, streamhdr := .done }) ?_ worked
          (by simp) (by simp)
        exact ⟨barred.excl, barred.accepted, barred.delivered, barred.state, .inr rfl,
          popped.unanswered, popped.unstopped, barred.sent, barred.whole⟩
      · simp_all
      · cases worked
  | streamhdr type =>
      have state := barred.state
      cases type with
      | ok => exact absurd List.mem_cons_self unanswered
      | stopped => exact absurd List.mem_cons_self unstopped
      | error =>
          simp only [Endpoint.process, Endpoint.sipcStreamhdr] at worked
          split at worked
          · simp_all
          · refine raise (e := { e with events := rest, sipc := { e.sipc with state := .done } }) ?_
              worked (by simp) (by simp)
            exact ⟨barred.excl, barred.accepted, barred.delivered, .inr rfl, barred.streamhdr,
              popped.unanswered, popped.unstopped, barred.sent, barred.whole⟩
          · simp_all
          · cases worked
  | pipeIn => simp [Endpoint.process, Endpoint.exclIn, barred.excl] at worked
  | pipeOut => simp [Endpoint.process, Endpoint.exclOut, barred.excl] at worked
  | sipcError =>
      cases worked
      exact ⟨barred.excl, barred.accepted, barred.delivered, barred.state, barred.streamhdr,
        popped.unanswered, popped.unstopped, barred.sent, barred.whole⟩

end Barred

namespace Alarmed

theorem goes_off (inv : Inv e) (free : e.events = []) (served : e.served = true)
    (timer : e.timer = .active) :
    ∃ e', e.raise (.timer .timeout) = some e' ∧ Alarmed e' := by
  have goesOn : e.ended = false := by
    simp only [Endpoint.served, Bool.and_eq_true, Bool.not_eq_true'] at served
    exact served.2
  refine ⟨_, Endpoint.raise_eq (by simp [free]), by simp [free], timer, goesOn, ?_⟩
  have same : { e with events := [] } = e := by
    cases e
    cases free
    rfl
  exact same ▸ inv

/-- The header exchange is given up. -/
theorem gives_up (early : Early .protohdr e) (free : e.events = []) (timer : e.timer = .active)
    (state : e.streamhdr = .sending ∨ e.streamhdr = .receiving) (booked : Booked e)
    (emits : Emits e) (whole : e.usock.state = .active → [] ∉ e.usock.iov) :
    ∃ e', e.streamhdrTimer .timeout = some e' ∧ Barred e' := by
  have new : .timerStop ∉ e.tasks := by simp [booked.timerStop, timer]
  have expired : e.streamhdrTimer .timeout = e.streamhdrStopTimer .stoppingTimerError := by
    rcases state with state | state <;> simp only [Endpoint.streamhdrTimer, state]
  obtain ⟨lost, all, _⟩ := emits
  have emission : e.emission = Endpoint.protohdr := by
    simp [Endpoint.emission, early.sipc, early.accepted]
  refine ⟨_, expired.trans (Endpoint.streamhdrStopTimer_eq timer new), ?_⟩
  constructor
  case excl => exact early.excl
  case accepted => exact early.accepted
  case delivered => exact early.delivered
  case state => exact .inl (by simp [early.sipc])
  case streamhdr => exact .inl rfl
  case unanswered => simp [free]
  case unstopped => simp [free]
  case sent => exact ⟨lost, all.trans emission⟩
  case whole => exact whole

theorem process {event : Event} {rest : List Event} (alarmed : Alarmed e)
    (events : e.events = event :: rest) (offer : Option (List UInt8)) :
    ∃ e', Endpoint.process event offer { e with events := rest } = some e' ∧ Barred e' := by
  obtain ⟨alarm, timer, goesOn, stage, booked, emits, delivers⟩ := alarmed
  cases alarm.symm.trans events
  cases stage with
  | fresh early owner idle state usock tasks events => cases timer.symm.trans idle
  | greeting early owner timer state active transfer clear received batch =>
      cases transfer with
      | busy busy => exact gives_up early rfl timer (.inl state) booked emits fun _ => busy.nonempty
  | answered early owner timer state active clear request received =>
      refine gives_up early rfl timer (.inr state) booked emits fun _ => ?_
      rw [clear.iov]
      exact List.not_mem_nil
  | refused early owner timer state dying =>
      refine gives_up early rfl timer state booked emits fun active => ?_
      cases dying with
      | waits removing => cases active.symm.trans removing
  | checked early owner state ready events =>
      rcases events with ⟨stopping, _⟩ | ⟨stopping, _⟩ | ⟨idle, _⟩
      · cases timer.symm.trans stopping
      · cases timer.symm.trans stopping
      · cases timer.symm.trans idle
  | failed early owner state done events =>
      rcases events with ⟨stopping, _⟩ | ⟨idle, _⟩
      · cases timer.symm.trans stopping
      · cases timer.symm.trans idle
  | greeted early owner idle state ready events => cases timer.symm.trans idle
  | ungreeted early done idle events => cases timer.symm.trans idle
  | opening early owner idle ready events => cases timer.symm.trans idle
  | established outs ins live active outbound inbound events order =>
      cases timer.symm.trans live.timer
  | breaking front live dying some split order => cases timer.symm.trans live.timer
  | dead live done instate pipe events => cases timer.symm.trans live.timer
  | closing owner idle state excl goesOn events => cases timer.symm.trans idle
  | ended state excl done events =>
      rcases events with ⟨_, some⟩ | ⟨ended, _⟩
      · cases some
      · cases goesOn.symm.trans ended

end Alarmed

end Riff.Nanomsg
