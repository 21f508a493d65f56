import Riff.FirstBegin
import Riff.Monitoring
import Riff.Responses

set_option autoImplicit false

namespace Riff

open Exact Transition

variable {n : ℕ} {p : Params n} {s t : State n}

/-- What both sides may rely on. A call of `getSample()` takes one message, which is the
response to the request it has just made, or STOP. -/
structure Agreeing (p : Params n) (s : State n) : Prop where
  greeting : s.monitor.pc = .waiting → ∀ packet channel,
    s.toMonitor.recv = some (packet, channel) → packet.message.type = .start
  requests : s.support = .receiving → ∀ packet channel,
    s.toApplication.recv = some (packet, channel) → packet.message.type = .sampleReq
  replies : s.monitor.pc = .receiving → ∀ packet channel,
    s.toMonitor.recv = some (packet, channel) →
      packet.message.type = .sampleRes ∧ packet.number = s.monitor.requests ∨
        packet.message.type = .stop
  expected : s.monitor.pc ≠ .failed
  one : s.monitor.pc = .requesting ∨ s.monitor.pc = .finished →
    s.toMonitor.taken = s.monitor.requests + 1
  responses : ∀ k r, s.ledger.responses[k]? = some r → r.request = k + 1 ∧ Complete p s k r
  samples : s.monitor.samples = (s.ledger.responses.take s.monitor.samples.length).map
    fun r => r.message.payload.toSample
  last : ∀ before packet after, s.toMonitor.sent = before ++ packet :: after →
    packet.message.type = .stop → after = []
  totals : s.monitor.pc = .finished →
    s.monitor.executionTime = s.executionTime ∧ s.monitor.totalTasks = s.totalTasks

theorem Greeting.greeting (greeting : Greeting s) (pc : s.monitor.pc = .waiting) {packet : Packet}
    {channel : Channel Packet} (taken : s.toMonitor.recv = some (packet, channel)) :
    packet.message.type = .start := by
  obtain ⟨next, _, _⟩ := Channel.recv_eq_some (Channel.recv_map Packet.signal taken)
  cases greeting with
  | silent _ sent _ => simp [Channel.next, sent] at next
  | regular sent hears =>
      have asking : s.session.asking = .waiting :=
        congrArg MonitorPc.asking pc
      simp only [Session.Hears, asking] at hears
      change s.session.toMonitor.next = _ at next
      rw [Channel.next, sent, hears.1, List.getElem?_cons_zero] at next
      exact (congrArg Signal.type (Option.some.inj next)).symm

theorem Greeting.replies (greeting : Greeting s) (pc : s.monitor.pc = .receiving) {packet : Packet}
    {channel : Channel Packet} (taken : s.toMonitor.recv = some (packet, channel)) :
    packet.message.type = .sampleRes ∧ packet.number = s.monitor.requests ∨
      packet.message.type = .stop := by
  obtain ⟨next, _, _⟩ := Channel.recv_eq_some (Channel.recv_map Packet.signal taken)
  cases greeting with
  | silent _ _ waiting => rw [pc] at waiting; cases waiting
  | regular sent hears =>
      have asking : s.session.asking = .receiving :=
        congrArg MonitorPc.asking pc
      rcases Session.Opening.next_reply asking sent next hears with ⟨_, reply⟩ | ⟨_, _, stop⟩
      · exact .inl ⟨congrArg Signal.type reply, congrArg Signal.number reply⟩
      · exact .inr (congrArg Signal.type stop)

theorem Greeting.one (greeting : Greeting s)
    (between : s.monitor.pc = .requesting ∨ s.monitor.pc = .finished) :
    s.toMonitor.taken = s.monitor.requests + 1 := by
  cases greeting with
  | silent _ _ waiting => rcases between with pc | pc <;> rw [pc] at waiting <;> cases waiting
  | regular _ hears =>
      rcases between with pc | pc
      · have asking : s.session.asking = .requesting := congrArg MonitorPc.asking pc
        simp only [Session.Hears, asking] at hears
        exact hears.1
      · have asking : s.session.asking = .finished := congrArg MonitorPc.asking pc
        simp only [Session.Hears, asking] at hears
        exact hears.1

/-- Where a value can only be the last one, nothing follows it. -/
theorem nothing_after {α : Type*} {front last before after : List α} {a : α}
    (same : front ++ last = before ++ a :: after) (absent : a ∉ front) (single : last.length ≤ 1) :
    after = [] := by
  rcases List.eq_nil_or_concat after with none | ⟨more, b, rfl⟩
  · exact none
  · exfalso
    rw [List.concat_eq_append, ← List.cons_append, ← List.append_assoc] at same
    have front_eq : front = before ++ a :: more ∨ front = before ++ a :: more ++ [b] := by
      match last, single with
      | [], _ => exact .inr (by rwa [List.append_nil] at same)
      | [c], _ => exact .inl (List.append_inj_left' same rfl)
    apply absent
    rcases front_eq with rfl | rfl <;> simp

theorem Session.stops_length (closing : Closing) : closing.stops.length ≤ 1 := by
  cases closing <;> simp [Closing.stops]

theorem Greeting.last (greeting : Greeting s) {before after : List Packet} {packet : Packet}
    (sent : s.toMonitor.sent = before ++ packet :: after) (stop : packet.message.type = .stop) :
    after = [] := by
  cases greeting with
  | silent _ none _ => simp [none] at sent
  | regular signals _ =>
      change s.toMonitor.sent.map Packet.signal = _ at signals
      rw [sent, List.map_append, List.map_cons, ← List.cons_append] at signals
      refine List.map_eq_nil_iff.mp (nothing_after signals.symm ?_ (Session.stops_length _))
      have type : packet.signal.type = .stop := stop
      simp only [List.mem_cons, Session.replies, List.mem_map, List.mem_range, not_or, not_exists,
        not_and]
      refine ⟨?_, ?_⟩
      · intro start
        rw [start] at type
        cases type
      · intro k _ reply
        rw [← reply] at type
        cases type

theorem Session.replies_filter (count : ℕ) :
    (replies count).filter (fun signal => signal.type = .sampleRes) = replies count := by
  apply List.filter_eq_self.mpr
  intro signal member
  obtain ⟨k, _, rfl⟩ := List.mem_map.mp member
  rfl

theorem Session.stops_filter (closing : Closing) :
    closing.stops.filter (fun signal => signal.type = .sampleRes) = [] := by
  cases closing <;> rfl

/-- The signals of the responses that were sent. -/
theorem Greeting.responses (greeting : Greeting s) (owned : Owned p s) :
    s.ledger.responses.map (fun r => r.packet.signal) =
      Session.replies s.ledger.responses.length := by
  have sent := owned.sent
  cases greeting with
  | silent _ none _ =>
      rw [none, List.filter_nil] at sent
      rw [List.map_eq_nil_iff.mp sent.symm]
      rfl
  | regular signals _ =>
      have filtered := congrArg (List.filter fun signal => signal.type = .sampleRes) signals
      change (s.toMonitor.sent.map Packet.signal).filter _ = _ at filtered
      rw [List.filter_map, List.filter_cons_of_neg (by simp), List.filter_append,
        Session.replies_filter, Session.stops_filter, List.append_nil] at filtered
      change (s.toMonitor.sent.filter fun packet => packet.message.type = .sampleRes).map
        Packet.signal = _ at filtered
      rwa [sent, List.map_map] at filtered

theorem Greeting.request (greeting : Greeting s) (owned : Owned p s) {k : ℕ} {r : Response n}
    (found : s.ledger.responses[k]? = some r) : r.request = k + 1 := by
  have signal := congrArg (fun signals : List Signal => signals[k]?) (greeting.responses owned)
  have inside : k < s.ledger.responses.length := (List.getElem?_eq_some_iff.mp found).1
  simp only [List.getElem?_map, found, Option.map_some, Session.replies, List.getElem?_range inside,
    Option.some.injEq] at signal
  exact congrArg Signal.number signal

/-- In every run of a program with a `begin()`, with every interleaving. -/
theorem session_agrees (orderly : p.orderly = true) (sends : ∀ k, p.startSends k = true)
    (begins : ∃ i, .beginCall ∈ p.program i) (reachable : (machine p).system.Reachable s) :
    Agreeing p s := by
  obtain ⟨i, begins⟩ := begins
  have owned := reachable_owned reachable
  have informed := reachable_informed reachable
  have greeting := reachable_greeting orderly sends begins reachable
  refine ⟨fun pc packet channel taken => greeting.greeting pc taken, ?_,
    fun pc packet channel taken => greeting.replies pc taken, greeting.expected, greeting.one,
    fun k r found => ⟨greeting.request owned found, owned.complete found⟩,
    reachable_samples reachable,
    fun before packet after sent stop => greeting.last sent stop,
    (reachable_summed reachable).totals informed⟩
  intro pc packet channel taken
  obtain ⟨next, _, _⟩ := Channel.recv_eq_some (Channel.recv_map Packet.signal taken)
  have request := (reachable_session reachable).next_request (congrArg SupportPc.serving pc) next
  exact congrArg Signal.type request.2

/-- The monitor gets one sample, and STOP in answer to its second request. -/
def stopAfterOne : List (Party 1) :=
  oneRequest 0 ++ [.monitor, .monitor, .main, .main] ++ List.replicate 12 .support ++
    [.main, .main, .monitor, .monitor]

theorem session_agrees_twoCalls :
    ∃ s, (machine twoCalls).system.Reachable s ∧ s.monitor.samples.length = 1 ∧
      s.monitor.totalTasks = 2 ∧ s.totalTasks = 2 := by
  have run : ((machine twoCalls).follow stopAfterOne (machine twoCalls).start).map
        (fun s => (s.monitor.pc.asking, s.monitor.samples.length, s.monitor.totalTasks)) =
      some (.finished, 1, 2) := by
    decide +kernel
  obtain ⟨s, reachable, seen⟩ := Machine.reachable_of_observed run
  simp only [Prod.mk.injEq] at seen
  obtain ⟨asking, samples, told⟩ := seen
  have agreeing := session_agrees (p := twoCalls) rfl (fun _ => rfl) ⟨0, .head _⟩ reachable
  have totals := agreeing.totals (MonitorPc.asking_finished.mp asking)
  exact ⟨s, reachable, samples, told, totals.2.symm.trans told⟩

end Riff
