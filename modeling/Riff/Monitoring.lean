import Riff.Conversation
import Riff.Ownership

set_option autoImplicit false

namespace Riff

open Exact Transition

variable {n : ℕ} {p : Params n} {s t : State n}

/-- The samples in a list of messages. -/
def samplesOf (packets : List Packet) : List ApplicationSample :=
  (packets.filter fun packet => packet.message.type = .sampleRes).map fun packet =>
    packet.message.payload.toSample

theorem samplesOf_append (first second : List Packet) :
    samplesOf (first ++ second) = samplesOf first ++ samplesOf second := by
  simp only [samplesOf, List.filter_append, List.map_append]

/-- What the monitor knows is what it has received since the greeting. -/
structure Informed (s : State n) : Prop where
  waiting : s.monitor.pc = .waiting ↔ s.toMonitor.taken = 0
  samples : s.monitor.samples = samplesOf (s.toMonitor.received.drop 1)
  summary : (∃ m, s.monitor.pc = .acking m) ∨ s.monitor.pc = .finished →
    ∃ packet ∈ s.toMonitor.sent, packet.message.type = .stop ∧
      packet.message.payload.toSummary = (s.monitor.executionTime, s.monitor.totalTasks)

/-- What STOP says. -/
structure Summed (s : State n) : Prop where
  unsaid : s.main.closing.stops = [] → ∀ packet ∈ s.toMonitor.sent, packet.message.type ≠ .stop
  said : ∀ packet ∈ s.toMonitor.sent, packet.message.type = .stop →
    packet.message.payload = .summary s.executionTime s.totalTasks

theorem Informed.of_sent (informed : Informed s) (monitor : t.monitor = s.monitor)
    (taken : t.toMonitor.taken = s.toMonitor.taken)
    (received : t.toMonitor.received = s.toMonitor.received)
    (sent : s.toMonitor.sent ⊆ t.toMonitor.sent) : Informed t := by
  refine ⟨?_, ?_, ?_⟩
  · rw [monitor, taken]
    exact informed.waiting
  · rw [monitor, received]
    exact informed.samples
  · rw [monitor]
    intro heard
    obtain ⟨packet, member, said⟩ := informed.summary heard
    exact ⟨packet, sent member, said⟩

theorem Informed.send (informed : Informed s) (monitor : t.monitor = s.monitor) {packet : Packet}
    (toMonitor : t.toMonitor = s.toMonitor.send packet) : Informed t := by
  refine informed.of_sent monitor ?_ ?_ ?_
  · rw [toMonitor, Channel.send_taken]
  · rw [toMonitor, Channel.received_send]
  · rw [toMonitor, Channel.send_sent]
    exact List.subset_append_left _ _

theorem Informed.worker {i : Fin n} (informed : Informed s) (moves : WorkerMoves p i s t) :
    Informed t := by
  cases moves with
  | announced pc _ => exact informed.send rfl rfl
  | _ => exact informed.of_sent rfl rfl rfl (List.Subset.refl _)

theorem Informed.support (informed : Informed s) (moves : SupportMoves p s t) : Informed t := by
  cases moves with
  | sends pc => exact informed.send rfl rfl
  | _ => exact informed.of_sent rfl rfl rfl (List.Subset.refl _)

theorem Informed.main (informed : Informed s) (moves : MainMoves p s t) : Informed t := by
  cases moves with
  | sends pc => exact informed.send rfl rfl
  | _ => exact informed.of_sent rfl rfl rfl (List.Subset.refl _)

/-- The samples after one more message. -/
theorem Informed.samples_recv (informed : Informed s) {packet : Packet} {channel : Channel Packet}
    (greeted : s.monitor.pc ≠ .waiting) (taken : s.toMonitor.recv = some (packet, channel)) :
    samplesOf (channel.received.drop 1) = s.monitor.samples ++ samplesOf [packet] := by
  have some : 1 ≤ s.toMonitor.received.length := by
    have within := s.toMonitor.within
    have taken := mt informed.waiting.mpr greeted
    rw [Channel.received, List.length_take]
    omega
  rw [Channel.received_of_recv taken, List.drop_append_of_le_length some, samplesOf_append,
    informed.samples]

theorem Informed.monitor (informed : Informed s) (moves : MonitorMoves s t) : Informed t := by
  have same := moves.sent
  cases moves with
  | @greets packet channel pc taken =>
      obtain ⟨next, sent, count⟩ := Channel.recv_eq_some taken
      have none : s.toMonitor.taken = 0 := informed.waiting.mp pc
      refine ⟨by simp [count], ?_, by simp⟩
      have first : s.toMonitor.received = [] := by rw [Channel.received, none, List.take_zero]
      simp only [Channel.received_of_recv taken, first, informed.samples]
      rfl
  | asks pc =>
      refine ⟨?_, informed.samples, by simp⟩
      have waiting := informed.waiting
      simpa [pc] using waiting
  | @returns packet channel pc taken type =>
      obtain ⟨next, sent, count⟩ := Channel.recv_eq_some taken
      refine ⟨by simp [count], ?_, by simp⟩
      rw [informed.samples_recv (by rw [pc]; exact MonitorPc.noConfusion) taken]
      simp [samplesOf, type]
  | @stops packet channel pc taken type =>
      obtain ⟨next, sent, count⟩ := Channel.recv_eq_some taken
      refine ⟨by simp [count], ?_, fun _ => ⟨packet, ?_, type, rfl⟩⟩
      · rw [informed.samples_recv (by rw [pc]; exact MonitorPc.noConfusion) taken]
        simp [samplesOf, type]
      · rw [same]
        exact List.mem_of_getElem? next
  | @fails packet channel pc taken noSample noStop =>
      obtain ⟨next, sent, count⟩ := Channel.recv_eq_some taken
      refine ⟨by simp [count], ?_, by simp⟩
      rw [informed.samples_recv (by rw [pc]; exact MonitorPc.noConfusion) taken]
      simp [samplesOf, noSample]
  | @acks m pc =>
      refine ⟨?_, informed.samples, fun _ => informed.summary (.inl ⟨m, pc⟩)⟩
      have waiting := informed.waiting
      simpa [pc] using waiting

theorem reachable_informed (reachable : (machine p).system.Reachable s) : Informed s := by
  refine reachable.invariant Informed ⟨?_, rfl, ?_⟩ ?_
  · exact ⟨fun _ => rfl, fun _ => rfl⟩
  · rintro (⟨m, pc⟩ | pc) <;> cases pc
  · intro u v _ informed step
    rcases moves_of_step step with ⟨i, moves⟩ | moves | moves | moves
    · exact informed.worker moves
    · exact informed.support moves
    · exact informed.main moves
    · exact informed.monitor moves

theorem Summed.of_sent (summed : Summed s) (main : t.main = s.main)
    (executionTime : t.executionTime = s.executionTime) (totalTasks : t.totalTasks = s.totalTasks)
    (sent : ∀ packet ∈ t.toMonitor.sent, packet.message.type = .stop →
      packet ∈ s.toMonitor.sent) : Summed t := by
  refine ⟨?_, ?_⟩
  · intro unsaid packet member stop
    rw [main] at unsaid
    exact summed.unsaid unsaid packet (sent packet member stop) stop
  · intro packet member stop
    rw [executionTime, totalTasks]
    exact summed.said packet (sent packet member stop) stop

theorem Summed.send (summed : Summed s) (main : t.main = s.main)
    (executionTime : t.executionTime = s.executionTime) (totalTasks : t.totalTasks = s.totalTasks)
    {packet : Packet} (toMonitor : t.toMonitor = s.toMonitor.send packet)
    (other : packet.message.type ≠ .stop) : Summed t := by
  apply summed.of_sent main executionTime totalTasks
  intro packet member stop
  rw [toMonitor, Channel.send_sent] at member
  rcases List.mem_append.mp member with earlier | last
  · exact earlier
  · rw [List.mem_singleton.mp last] at stop
    exact absurd stop other

theorem Summed.worker {i : Fin n} (summed : Summed s) (moves : WorkerMoves p i s t) : Summed t := by
  cases moves with
  | announced pc _ => exact summed.send rfl rfl rfl rfl MessageType.noConfusion
  | _ => exact summed.of_sent rfl rfl rfl fun _ member _ => member

theorem Summed.support (summed : Summed s) (moves : SupportMoves p s t) (labelled : Labelled s) :
    Summed t := by
  cases moves with
  | @sends m pc =>
      refine summed.send rfl rfl rfl rfl ?_
      rw [labelled m (.inr pc)]
      exact MessageType.noConfusion
  | _ => exact summed.of_sent rfl rfl rfl fun _ member _ => member

theorem Summed.main (summed : Summed s) (moves : MainMoves p s t) : Summed t := by
  cases moves with
  | summarises pc allowed =>
      have none := summed.unsaid (by rw [pc]; rfl)
      exact ⟨fun _ => none, fun packet member stop => absurd stop (none packet member)⟩
  | stops pc =>
      have none := summed.unsaid (by rw [pc]; rfl)
      exact ⟨fun _ => none, fun packet member stop => absurd stop (none packet member)⟩
  | joins pc returned =>
      have none := summed.unsaid (by rw [pc]; rfl)
      exact ⟨fun _ => none, fun packet member stop => absurd stop (none packet member)⟩
  | sends pc =>
      have none := summed.unsaid (by rw [pc]; rfl)
      refine ⟨fun unsaid => absurd unsaid (List.cons_ne_nil _ _), ?_⟩
      intro packet member stop
      rw [Channel.send_sent] at member
      rcases List.mem_append.mp member with earlier | last
      · exact absurd stop (none packet earlier)
      · rw [List.mem_singleton.mp last]
        rfl
  | receives pc taken =>
      exact ⟨fun unsaid => absurd unsaid (List.cons_ne_nil _ _), summed.said⟩

theorem Summed.monitor (summed : Summed s) (moves : MonitorMoves s t) : Summed t := by
  have same := moves.sent
  cases moves <;>
    exact summed.of_sent rfl rfl rfl fun packet member _ => same ▸ member

theorem reachable_summed (reachable : (machine p).system.Reachable s) : Summed s := by
  refine reachable.invariant Summed ⟨?_, ?_⟩ ?_
  · rintro _ packet ⟨⟩
  · rintro packet ⟨⟩
  · intro u v reached summed step
    rcases moves_of_step step with ⟨i, moves⟩ | moves | moves | moves
    · exact summed.worker moves
    · exact summed.support moves (reachable_starting reached).2
    · exact summed.main moves
    · exact summed.monitor moves

theorem Summed.totals (summed : Summed s) (informed : Informed s)
    (finished : s.monitor.pc = .finished) :
    s.monitor.executionTime = s.executionTime ∧ s.monitor.totalTasks = s.totalTasks := by
  obtain ⟨packet, member, stop, said⟩ := informed.summary (.inr finished)
  rw [summed.said packet member stop] at said
  simp only [Payload.toSummary, Prod.mk.injEq] at said
  exact ⟨said.1.symm, said.2.symm⟩

/-- The first message to the monitor is no response, whatever it is. -/
theorem Session.Coherent.head {c : Session} (coherent : c.Coherent) {signal : Signal}
    (head : c.toMonitor.sent.head? = some signal) : signal.type ≠ .sampleRes := by
  cases coherent.opening with
  | silent sent =>
      rw [sent] at head
      cases head
  | regular sent =>
      rw [sent] at head
      cases head
      exact MessageType.noConfusion
  | misled sent =>
      rcases sent with sent | sent
      · rw [sent] at head
        cases head
        exact MessageType.noConfusion
      · rw [sent] at head
        cases head
        exact MessageType.noConfusion

/-- What the monitor has got are the first responses. -/
theorem reachable_samples (reachable : (machine p).system.Reachable s) :
    s.monitor.samples = (s.ledger.responses.take s.monitor.samples.length).map
      fun r => r.message.payload.toSample := by
  have informed := reachable_informed reachable
  have whole : samplesOf (s.toMonitor.received.drop 1) = samplesOf s.toMonitor.received := by
    cases received : s.toMonitor.received with
    | nil => rfl
    | cons first rest =>
        have start := List.take_prefix s.toMonitor.taken s.toMonitor.sent
        rw [← Channel.received, received] at start
        obtain ⟨more, sent⟩ := start
        have other : first.signal.type ≠ .sampleRes := (reachable_session reachable).head (by
          change (s.toMonitor.sent.map Packet.signal).head? = _
          rw [← sent]
          rfl)
        change first.message.type ≠ .sampleRes at other
        simp [samplesOf, other]
  have part : samplesOf s.toMonitor.received <+: samplesOf s.toMonitor.sent :=
    ((List.take_prefix _ _).filter _).map _
  have all : samplesOf s.toMonitor.sent =
      s.ledger.responses.map fun r => r.message.payload.toSample := by
    rw [samplesOf, (reachable_owned reachable).sent, List.map_map]
    rfl
  rw [← whole, ← informed.samples, all] at part
  rw [List.map_take]
  exact List.prefix_iff_eq_take.mp part

end Riff
