import Riff.Session
import Riff.Start

set_option autoImplicit false

namespace Riff

open Exact Transition

variable {n : ℕ}

def SupportPc.serving : SupportPc n → Serving
  | .testing => .testing
  | .receiving => .receiving
  | .sending _ => .sending
  | .returned => .returned
  | .failed _ => .failed
  | _ => .gathering

def Packet.signal (packet : Packet) : Signal where
  type := packet.message.type
  number := packet.number

def MainPc.closing : MainPc → Closing
  | .working => .working
  | .stopping => .stopping
  | .joining => .joining
  | .sendingStop => .sendingStop
  | .receivingAck => .receivingAck
  | .done consumed => .done consumed.signal

def MonitorPc.asking : MonitorPc → Asking
  | .waiting => .waiting
  | .requesting => .requesting
  | .receiving => .receiving
  | .acking _ => .acking
  | .finished => .finished
  | .failed => .failed

/-- The conversation that the program's threads and the monitor have so far. -/
def State.session (s : State n) : Session where
  stop := s.supportStop
  serving := s.support.serving
  closing := s.main.closing
  asking := s.monitor.pc.asking
  asked := s.monitor.requests
  served := s.ledger.rounds
  current := s.ledger.request
  replied := s.ledger.responses.length
  toMonitor := s.toMonitor.map Packet.signal
  toApplication := s.toApplication.map Packet.signal

/-- Where the support thread, `terminate()` and the monitor stand. -/
def State.places (s : State n) : Serving × Closing × Asking :=
  (s.support.serving, s.main.closing, s.monitor.pc.asking)

theorem SupportPc.serving_testing {pc : SupportPc n} : pc.serving = .testing ↔ pc = .testing := by
  cases pc <;> simp [SupportPc.serving]

theorem SupportPc.serving_sending {pc : SupportPc n} :
    pc.serving = .sending ↔ ∃ m, pc = .sending m := by
  cases pc <;> simp [SupportPc.serving]

theorem MonitorPc.asking_finished {pc : MonitorPc} : pc.asking = .finished ↔ pc = .finished := by
  cases pc <;> simp [MonitorPc.asking]

theorem MainPc.closing_stopping {pc : MainPc} : pc.closing = .stopping ↔ pc = .stopping := by
  cases pc <;> simp [MainPc.closing]

theorem MainPc.closing_done {pc : MainPc} {signal : Signal} :
    pc.closing = .done signal ↔ ∃ consumed, pc = .done consumed ∧ consumed.signal = signal := by
  cases pc <;> simp [MainPc.closing]

/-- One thread that makes two calls. -/
def twoCalls : Params 1 where
  program _ := [.beginCall, .endCall 1, .beginCall, .endCall 1]
  readings k := 1000 * (k + 1)

def onlyWorker : Party 1 := .worker (Fin.last 0)

/-- The monitor's first request is answered, up to the last step but `left` of the
support thread, and the thread is done. -/
def oneRequest (left : ℕ) : List (Party 1) :=
  List.replicate 9 onlyWorker ++ [.support, .monitor, .monitor, .support, .support] ++
    List.replicate 7 onlyWorker ++ List.replicate (11 - left) .support

variable {p : Params n} {s t : State n}

theorem State.startSent_signal (unsent : ¬ s.startSent) :
    ∀ signal ∈ s.session.toMonitor.sent, signal.type ≠ .start := by
  rintro signal member start
  obtain ⟨packet, sent, rfl⟩ := List.mem_map.mp member
  exact unsent ⟨packet, sent, start⟩

theorem WorkerMoves.session {i : Fin n} (moves : WorkerMoves p i s t) (starting : Starting s) :
    t.session = s.session ∨ Session.Step s.session t.session := by
  cases moves with
  | announced pc sends =>
      refine .inr ?_
      change Session.Step s.session { s.session with
        toMonitor := (s.toMonitor.send { message := startMessage p s }).map Packet.signal }
      rw [Channel.map_send]
      exact .greets (s.startSent_signal (starting.unsent pc))
  | _ => exact .inl rfl

theorem SupportMoves.session (moves : SupportMoves p s t) (labelled : Labelled s) :
    t.session = s.session ∨ Session.Step s.session t.session := by
  have place : s.session.serving = s.support.serving := rfl
  cases moves with
  | returns pc stop => exact .inr (.returns (by rw [place, pc]; rfl) stop)
  | listens pc go => exact .inr (.listens (by rw [place, pc]; rfl) go)
  | receives pc taken =>
      exact .inr (.receives (by rw [place, pc]; rfl) (Channel.recv_map _ taken))
  | drops pc stop => exact .inr (.drops (by rw [place, pc]; rfl) stop)
  | decides pc go => exact .inr (.decides (by rw [place, pc]; rfl) go)
  | adjustFails pc go => exact .inr (.fails (by rw [place, pc]; rfl) go)
  | doubtFails pc go => exact .inr (.fails (by rw [place, pc]; rfl) go)
  | @sends m pc =>
      refine .inr ?_
      have signal : Packet.signal { message := m, number := s.ledger.request } =
          { type := .sampleRes, number := s.session.current } := by
        rw [Packet.signal, labelled m (.inr pc)]
        rfl
      change Session.Step s.session { s.session with
        serving := .testing
        replied := (s.ledger.responses ++
          [Response.mk m s.ledger.request s.ledger.rounds s.ledger.parts]).length
        toMonitor := (s.toMonitor.send { message := m, number := s.ledger.request }).map
          Packet.signal }
      rw [Channel.map_send, List.length_append, signal]
      exact .replies (by rw [place, pc]; rfl)
  | _ =>
      refine .inl ?_
      simp [State.session, SupportPc.serving, ‹s.support = _›]

theorem MainMoves.session (moves : MainMoves p s t) :
    t.session = s.session ∨ Session.Step s.session t.session := by
  have place : s.session.closing = s.main.closing := rfl
  right
  cases moves with
  | summarises pc allowed => exact .summarises (by rw [place, pc]; rfl)
  | stops pc => exact .stops (by rw [place, pc]; rfl)
  | joins pc returned =>
      have back : s.session.serving = .returned := by
        change s.support.serving = .returned
        rw [returned]
        rfl
      exact .joins (by rw [place, pc]; rfl) back
  | sends pc =>
      change Session.Step s.session { s.session with
        closing := .receivingAck
        toMonitor := (s.toMonitor.send { message := stopMessage s }).map Packet.signal }
      rw [Channel.map_send]
      exact .announces (by rw [place, pc]; rfl)
  | receives pc taken =>
      exact .consumes (by rw [place, pc]; rfl) (Channel.recv_map Packet.signal taken)

theorem MonitorMoves.session (moves : MonitorMoves s t) :
    t.session = s.session ∨ Session.Step s.session t.session := by
  have place : s.session.asking = s.monitor.pc.asking := rfl
  right
  cases moves with
  | greets pc taken =>
      exact .hears (by rw [place, pc]; rfl) (Channel.recv_map Packet.signal taken)
  | asks pc =>
      change Session.Step s.session { s.session with
        asking := .receiving
        asked := s.monitor.requests + 1
        toApplication := (s.toApplication.send
          { message := { type := .sampleReq }, number := s.monitor.requests + 1 }).map
            Packet.signal }
      rw [Channel.map_send]
      exact .asks (by rw [place, pc]; rfl)
  | returns pc taken type =>
      exact .learns (by rw [place, pc]; rfl) (Channel.recv_map Packet.signal taken) type
  | stops pc taken type =>
      exact .ends (by rw [place, pc]; rfl) (Channel.recv_map Packet.signal taken) type
  | fails pc taken noSample noStop =>
      exact .objects (by rw [place, pc]; rfl) (Channel.recv_map Packet.signal taken) noSample noStop
  | @acks m pc =>
      change Session.Step s.session { s.session with
        asking := .finished
        toApplication := (s.toApplication.send
          { message := { m with type := .stopAck } }).map Packet.signal }
      rw [Channel.map_send]
      exact .acks (by rw [place, pc]; rfl)

/-- Each step of the program is one of the conversation, or none. -/
theorem session_step (reachable : (machine p).system.Reachable s)
    (step : (machine p).system.Step s t) :
    t.session = s.session ∨ Session.system.Step s.session t.session := by
  obtain ⟨starting, labelled⟩ := reachable_starting reachable
  rcases moves_of_step step with ⟨i, moves⟩ | moves | moves | moves
  · exact moves.session starting
  · exact moves.session labelled
  · exact moves.session
  · exact moves.session

theorem session_simulation (p : Params n) :
    System.Simulation (machine p).system Session.system fun s u => s.session = u :=
  .of_abstraction rfl fun _ _ => session_step

theorem session_reaches (reachable : (machine p).system.Reachable s)
    (reaches : (machine p).system.Reaches s t) : Session.system.Reaches s.session t.session :=
  System.Simulation.abstraction_reaches (fun _ _ => session_step) reachable reaches

theorem reachable_session (reachable : (machine p).system.Reachable s) :
    s.session.Coherent := by
  obtain ⟨u, reached, rfl⟩ := (session_simulation p).reachable reachable
  exact Session.reachable_coherent reached

end Riff
