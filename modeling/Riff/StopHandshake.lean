import Riff.Conversation

set_option autoImplicit false

namespace Riff

open Exact Transition

namespace Session

variable {s t : Session}

/-- With the stop flag set: the server is not going to leave a request without a reply. -/
def Answers (s : Session) : Prop :=
  match s.serving with
  | .testing | .returned => s.served = s.replied
  | .sending => True
  | .receiving | .gathering | .failed => False

/-- After the stop flag is set this is settled. -/
theorem Coherent.answers (coherent : Coherent s) (stop : s.stop = true) (step : Step s t) :
    t.stop = true ∧ (Answers t ↔ Answers s) := by
  have serves := coherent.serves
  cases step with
  | returns serving _ => exact ⟨stop, by simp only [Answers, serving]⟩
  | listens serving go => rw [stop] at go; cases go
  | receives serving taken => exact ⟨stop, by simp only [Answers, serving]⟩
  | drops serving _ =>
      refine ⟨stop, ?_⟩
      simp only [Serves, serving] at serves
      simp only [Answers, serving, iff_false]
      omega
  | decides serving go => rw [stop] at go; cases go
  | fails serving go => rw [stop] at go; cases go
  | replies serving =>
      refine ⟨stop, ?_⟩
      simp only [Serves, serving] at serves
      simp only [Answers, serving, iff_true]
      exact serves.1
  | stops closing => exact ⟨rfl, Iff.rfl⟩
  | _ => exact ⟨stop, Iff.rfl⟩

/-- What the application takes for the acknowledgement. -/
theorem Coherent.consumed (coherent : Coherent s) {consumed : Signal}
    (closing : s.closing = .done consumed) :
    consumed.type = .stopAck ∧ s.asking = .finished ↔ ¬ Answers s := by
  have closes := coherent.closes
  have behind := coherent.serves.replied
  simp only [Closes, closing] at closes
  obtain ⟨_, returned, cases⟩ := closes
  simp only [Answers, returned]
  have regular : s.asking = .finished → s.asked = s.replied + 1 := by
    intro finished
    cases coherent.opening with
    | silent _ _ asking => rw [finished] at asking; cases asking
    | regular _ hears =>
        simp only [Hears, finished] at hears
        exact hears.2.1
    | misled _ _ _ _ mishears => simp only [Mishears, finished] at mishears
  have ahead : s.served < s.asked → s.served = s.replied := by
    intro more
    cases coherent.opening with
    | silent _ _ _ asked => omega
    | regular _ hears =>
        have limit : s.asked ≤ s.replied + 1 := by
          unfold Hears at hears
          cases asking : s.asking <;> simp only [asking] at hears <;> omega
        omega
    | misled _ _ replied served _ => omega
  rcases cases with ⟨more, request⟩ | ⟨all, finished, ack⟩
  · simp [request, ahead more]
  · have last := regular finished
    simp only [ack, finished, and_self, true_iff]
    omega

theorem Coherent.later_consumed (coherent : Coherent s) (stop : s.stop = true)
    (reaches : system.Reaches s t) {consumed : Signal} (closing : t.closing = .done consumed) :
    consumed.type = .stopAck ∧ t.asking = .finished ↔ ¬ Answers s := by
  have ⟨last, _, same⟩ := reaches.invariant
    (fun t => Coherent t ∧ t.stop = true ∧ (Answers t ↔ Answers s))
    ⟨coherent, stop, Iff.rfl⟩ fun u v _ ⟨coherent, stop, same⟩ step =>
      have ⟨stopped, next⟩ := coherent.answers stop step
      ⟨coherent.step step, stopped, next.trans same⟩
  rw [last.consumed closing, same]

/-- The moment at which the stop flag is set decides. -/
theorem Coherent.answers_of_go (coherent : Coherent s) (go : s.stop = false) :
    Answers s ↔ s.serving = .testing ∨ s.serving = .sending := by
  have serves := coherent.serves
  unfold Serves at serves
  unfold Answers
  cases serving : s.serving <;> simp_all

end Session

variable {n : ℕ} {p : Params n} {s stopped later : State n}

/-- In every run: `terminate()` consumes the acknowledgement of STOP, which the monitor
has then received, if and only if the support thread was not about to test the stop flag
and not past its last test of it when the flag was set. -/
theorem terminate_consumes_stopAck_iff (reachable : (machine p).system.Reachable s)
    (stopping : s.main = .stopping) (stops : stepMain p s = some stopped)
    (reaches : (machine p).system.Reaches stopped later) {consumed : Packet}
    (done : later.main = .done consumed) :
    consumed.message.type = .stopAck ∧ later.monitor.pc = .finished ↔
      ¬ (s.support = .testing ∨ ∃ m, s.support = .sending m) := by
  have coherent := reachable_session reachable
  have go : s.session.stop = false := by
    have closes := coherent.closes
    have place : s.session.closing = .stopping := by
      change s.main.closing = .stopping
      rw [stopping]
      rfl
    simpa only [Session.Closes, place] using closes
  have next : (machine p).system.Step s stopped := ⟨.main, stops⟩
  have stop : stopped.session.stop = true ∧ (stopped.session.Answers ↔ s.session.Answers) := by
    cases stepMain_moves stops with
    | stops pc => exact ⟨rfl, Iff.rfl⟩
    | summarises pc => cases stopping.symm.trans pc
    | joins pc => cases stopping.symm.trans pc
    | sends pc => cases stopping.symm.trans pc
    | receives pc => cases stopping.symm.trans pc
  have closing : later.session.closing = .done consumed.signal := by
    change later.main.closing = .done consumed.signal
    rw [done]
    rfl
  have settled := (reachable_session (reachable.tail next)).later_consumed stop.1
    (session_reaches (reachable.tail next) reaches) closing
  rw [stop.2, coherent.answers_of_go go] at settled
  change consumed.message.type = .stopAck ∧ later.monitor.pc.asking = .finished ↔
    ¬ (s.support.serving = .testing ∨ s.support.serving = .sending) at settled
  rwa [SupportPc.serving_testing, SupportPc.serving_sending, MonitorPc.asking_finished] at settled

/-- The support thread waits for its first request, and the thread is done. -/
def untilStopping : List (Party 1) := List.replicate 14 onlyWorker ++ [.support, .main]

def requestAfterStop : List (Party 1) :=
  [.monitor, .monitor] ++ List.replicate 12 .support ++ [.main, .main, .monitor, .monitor, .main]

/-- The flag is set while the support thread waits for a request, which then comes. -/
theorem terminate_consumes_stopAck_receiving :
    ∃ s stopped later consumed,
      (machine twoCalls).system.Reachable s ∧ s.main = .stopping ∧
      stepMain twoCalls s = some stopped ∧ (machine twoCalls).system.Reaches stopped later ∧
      later.main = .done consumed ∧ consumed.message.type = .stopAck := by
  have run : ((machine twoCalls).follow untilStopping (machine twoCalls).start).bind
      (fun s => (stepMain twoCalls s).bind fun stopped =>
        ((machine twoCalls).follow requestAfterStop stopped).map fun later =>
          (s.places, later.places)) =
      some ((.receiving, .stopping, .waiting),
        (.returned, .done { type := .stopAck }, .finished)) := by
    decide +kernel
  obtain ⟨s, first, rest⟩ := Option.bind_eq_some_iff.mp run
  obtain ⟨stopped, stops, rest⟩ := Option.bind_eq_some_iff.mp rest
  obtain ⟨later, second, places⟩ := Option.map_eq_some_iff.mp rest
  simp only [State.places, Prod.mk.injEq] at places
  obtain ⟨⟨serving, stopping, _⟩, _, closing, _⟩ := places
  obtain ⟨consumed, done, _⟩ := MainPc.closing_done.mp closing
  have reachable := Machine.reachable_of_follow first
  have main := MainPc.closing_stopping.mp stopping
  have reaches := Machine.reaches_of_follow second
  refine ⟨s, stopped, later, consumed, reachable, main, stops, reaches, done, ?_⟩
  refine ((terminate_consumes_stopAck_iff reachable main stops reaches done).mpr ?_).1
  rw [← SupportPc.serving_testing, ← SupportPc.serving_sending, serving]
  decide

/-- The flag is set when the support thread has just decided to send. -/
def stopBeforeSend : List (Party 1) :=
  oneRequest 2 ++ [.main, .main, .support, .support, .main, .main, .monitor, .monitor, .main]

/-- The monitor takes the response for what it is, asks again, and `terminate()` takes
that request. -/
theorem terminate_consumes_request :
    ¬ ∀ s consumed, (machine twoCalls).system.Reachable s → s.main = .done consumed →
      consumed.message.type = .stopAck ∧ s.monitor.pc = .finished := by
  intro always
  have run : ((machine twoCalls).follow stopBeforeSend (machine twoCalls).start).map
      State.places =
        some (.returned, .done { type := .sampleReq, number := 2 }, .receiving) := by
    decide +kernel
  obtain ⟨s, reachable, places⟩ := Machine.reachable_of_observed run
  simp only [State.places, Prod.mk.injEq] at places
  obtain ⟨_, closing, _⟩ := places
  obtain ⟨consumed, done, signal⟩ := MainPc.closing_done.mp closing
  have ack := (always s consumed reachable done).1
  have request : consumed.message.type = .sampleReq := congrArg Signal.type signal
  rw [request] at ack
  cases ack

end Riff
