import Riff.Conversation

set_option autoImplicit false

namespace Riff

open Exact Transition

variable {n : ℕ} {p : Params n} {s t u v : State n}

theorem MonitorPc.asking_requesting {pc : MonitorPc} :
    pc.asking = .requesting ↔ pc = .requesting := by
  cases pc <;> simp [MonitorPc.asking]

/-! Which replies can be on their way. -/

theorem Closing.stops_type {c : Closing} {signal : Signal} (member : signal ∈ c.stops) :
    signal.type = .stop := by
  cases c with
  | receivingAck => rw [List.mem_singleton.mp member]
  | done consumed => rw [List.mem_singleton.mp member]
  | _ => cases member

theorem reply_number (reachable : (machine p).system.Reachable s) {packet : Packet}
    (member : packet ∈ s.toMonitor.sent) (type : packet.message.type = .sampleRes) :
    packet.number ≤ s.ledger.rounds := by
  have coherent := reachable_session reachable
  have inside : packet.signal ∈ s.session.toMonitor.sent := List.mem_map_of_mem member
  have kind : packet.signal.type = .sampleRes := type
  have behind : s.ledger.responses.length ≤ s.ledger.rounds := coherent.serves.replied
  cases coherent.opening with
  | silent sent _ _ _ =>
      rw [sent] at inside
      cases inside
  | regular sent _ =>
      rw [sent, List.mem_cons, List.mem_append] at inside
      rcases inside with start | reply | stop
      · rw [start] at kind
        cases kind
      · obtain ⟨k, before, same⟩ := List.mem_map.mp reply
        have number : k + 1 = packet.number := congrArg Signal.number same
        have count : k < s.ledger.responses.length := List.mem_range.mp before
        omega
      · rw [Closing.stops_type stop] at kind
        cases kind
  | misled sent _ _ _ _ =>
      rcases sent with sent | sent <;> simp [sent] at inside
      · rw [inside] at kind
        cases kind
      · rcases inside with same | same <;> rw [same] at kind <;> cases kind

/-- The reply that `getSample()` returns is the one to the request that it has made. -/
theorem reply_current (reachable : (machine p).system.Reachable s)
    (receiving : s.monitor.pc = .receiving) {packet : Packet} {channel : Channel Packet}
    (taken : s.toMonitor.recv = some (packet, channel))
    (type : packet.message.type = .sampleRes) : packet.number = s.monitor.requests := by
  have coherent := reachable_session reachable
  have asking : s.session.asking = .receiving := congrArg MonitorPc.asking receiving
  have kind : packet.signal.type = .sampleRes := type
  have next : s.session.toMonitor.next = some packet.signal :=
    (Channel.recv_eq_some (Channel.recv_map Packet.signal taken)).1
  cases coherent.opening with
  | silent _ _ waiting _ => rw [asking] at waiting; cases waiting
  | regular sent hears =>
      rcases Session.Opening.next_reply asking sent next hears with ⟨_, reply⟩ | ⟨_, _, stop⟩
      · exact congrArg Signal.number reply
      · rw [stop] at kind
        cases kind
  | misled sent _ _ _ mishears =>
      rw [Session.Opening.next_misled asking sent next mishears] at kind
      cases kind

/-- A response is sent in answer to the latest request that was received. -/
theorem request_current (reachable : (machine p).system.Reachable s) {m : Message}
    (sending : s.support = .sending m) : s.ledger.request = s.ledger.rounds := by
  have serves := (reachable_session reachable).serves
  have serving : s.session.serving = .sending := congrArg SupportPc.serving sending
  simp only [Session.Serves, serving] at serves
  exact serves.2

/-! The phase and the number of threads that the monitor learns with a sample. -/

/-- Each of them was set at some point of the run between the two states. -/
def InForce (p : Params n) (u s : State n) (phaseId totalThreads : ℕ) : Prop :=
  (∃ v, (machine p).system.Reaches u v ∧ (machine p).system.Reaches v s ∧ v.phaseId = phaseId) ∧
    ∃ v, (machine p).system.Reaches u v ∧ (machine p).system.Reaches v s ∧
      v.totalThreads = totalThreads

theorem InForce.tail {phaseId totalThreads : ℕ} (inForce : InForce p u s phaseId totalThreads)
    (step : (machine p).system.Step s t) : InForce p u t phaseId totalThreads := by
  obtain ⟨⟨v, toPhase, fromPhase, phase⟩, w, toThreads, fromThreads, threads⟩ := inForce
  exact ⟨⟨v, toPhase, fromPhase.tail step, phase⟩, w, toThreads, fromThreads.tail step, threads⟩

/-- What answers a request made later than `u` was written later than `u`. -/
structure Current (p : Params n) (u s : State n) : Prop where
  building : ∀ m, s.support = .deciding m ∨ s.support = .sending m →
    u.monitor.requests < s.ledger.rounds → InForce p u s m.phaseId m.totalThreads
  sent : ∀ packet ∈ s.toMonitor.sent, packet.message.type = .sampleRes →
    u.monitor.requests < packet.number →
      InForce p u s packet.message.phaseId packet.message.totalThreads
  returned : s.monitor.pc = .requesting → u.monitor.requests < s.monitor.requests →
    InForce p u s s.monitor.lastPhaseId s.monitor.lastTotalThreads

theorem Current.initial (reachable : (machine p).system.Reachable u) : Current p u u := by
  have served : u.ledger.rounds ≤ u.monitor.requests := (reachable_session reachable).served
  refine ⟨?_, ?_, ?_⟩
  · intro m _ later
    exact absurd later (Nat.not_lt.mpr served)
  · intro packet member type later
    have number := reply_number reachable member type
    omega
  · intro _ later
    exact absurd later (Nat.lt_irrefl _)

/-- A step that neither answers a request nor takes an answer. -/
theorem Current.congr (current : Current p u s) (step : (machine p).system.Step s t)
    (support : t.support = s.support) (rounds : t.ledger.rounds = s.ledger.rounds)
    (sent : ∀ packet ∈ t.toMonitor.sent, packet.message.type = .sampleRes →
      packet ∈ s.toMonitor.sent)
    (monitor : t.monitor.pc = .requesting → t.monitor = s.monitor) : Current p u t := by
  refine ⟨?_, ?_, ?_⟩
  · intro m place later
    rw [support] at place
    rw [rounds] at later
    exact (current.building m place later).tail step
  · intro packet member type later
    exact (current.sent packet (sent packet member type) type later).tail step
  · intro pc later
    have same := monitor pc
    rw [same] at pc later ⊢
    exact (current.returned pc later).tail step

theorem WorkerMoves.current {i : Fin n} (moves : WorkerMoves p i s t) (current : Current p u s)
    (step : (machine p).system.Step s t) : Current p u t := by
  have frame := moves.frame
  refine current.congr step frame.support frame.rounds ?_ fun _ => frame.monitor
  intro packet member type
  cases moves with
  | announced pc sends =>
      rcases List.mem_append.mp member with earlier | start
      · exact earlier
      · rw [List.mem_singleton.mp start] at type
        cases type
  | _ => exact member

theorem MainMoves.current (moves : MainMoves p s t) (current : Current p u s)
    (step : (machine p).system.Step s t) : Current p u t := by
  have support : t.support = s.support ∧ t.ledger = s.ledger ∧ t.monitor = s.monitor := by
    cases moves <;> exact ⟨rfl, rfl, rfl⟩
  refine current.congr step support.1 (by rw [support.2.1]) ?_ fun _ => support.2.2
  intro packet member type
  cases moves with
  | sends pc =>
      rcases List.mem_append.mp member with earlier | stop
      · exact earlier
      · rw [List.mem_singleton.mp stop] at type
        cases type
  | _ => exact member

theorem SupportMoves.current (moves : SupportMoves p s t) (current : Current p u s)
    (reaches : (machine p).system.Reaches u s) (reachable : (machine p).system.Reachable s)
    (step : (machine p).system.Step s t) : Current p u t := by
  have returned : t.monitor.pc = .requesting → u.monitor.requests < t.monitor.requests →
      InForce p u t t.monitor.lastPhaseId t.monitor.lastTotalThreads := by
    rw [moves.frame.monitor]
    exact fun pc later => (current.returned pc later).tail step
  have sent : t.toMonitor = s.toMonitor → ∀ packet ∈ t.toMonitor.sent,
      packet.message.type = .sampleRes → u.monitor.requests < packet.number →
        InForce p u t packet.message.phaseId packet.message.totalThreads := by
    intro same packet member type later
    rw [same] at member
    exact (current.sent packet member type later).tail step
  cases moves with
  | labels pc =>
      refine ⟨?_, sent rfl, returned⟩
      rintro m (place | place) _
      · cases place
        exact ⟨⟨s, reaches, .single step, rfl⟩, s, reaches, .single step, rfl⟩
      · cases place
  | decides pc go =>
      refine ⟨?_, sent rfl, returned⟩
      rintro m (place | place) later
      · cases place
      · cases place
        exact (current.building _ (.inl pc) later).tail step
  | @sends m pc =>
      refine ⟨?_, ?_, returned⟩
      · rintro _ (place | place) _ <;> cases place
      · intro packet member type later
        rcases List.mem_append.mp member with earlier | this
        · exact (current.sent packet earlier type later).tail step
        · rw [List.mem_singleton.mp this] at later ⊢
          rw [request_current reachable pc] at later
          exact (current.building m (.inr pc) later).tail step
  | _ =>
      refine ⟨?_, sent rfl, returned⟩
      rintro m (place | place) _ <;> cases place

theorem MonitorMoves.current (moves : MonitorMoves s t) (current : Current p u s)
    (reachable : (machine p).system.Reachable s) (past : s.monitor.pc ≠ .waiting)
    (step : (machine p).system.Step s t) : Current p u t := by
  cases moves with
  | greets pc taken => exact absurd pc past
  | asks pc =>
      exact current.congr step rfl rfl (fun _ member _ => member) (fun place => by cases place)
  | @returns packet channel pc taken type =>
      obtain ⟨next, same, _⟩ := Channel.recv_eq_some taken
      have here : packet ∈ s.toMonitor.sent := List.mem_of_getElem? next
      refine ⟨fun m place later => (current.building m place later).tail step, ?_, ?_⟩
      · intro other member type later
        exact (current.sent other (same ▸ member) type later).tail step
      · intro _ later
        rw [← reply_current reachable pc taken type] at later
        exact (current.sent packet here type later).tail step
  | stops pc taken type =>
      exact current.congr step rfl rfl
        (fun _ member _ => (Channel.recv_eq_some taken).2.1 ▸ member) (fun place => by cases place)
  | fails pc taken noSample noStop =>
      exact current.congr step rfl rfl
        (fun _ member _ => (Channel.recv_eq_some taken).2.1 ▸ member) (fun place => by cases place)
  | acks pc =>
      exact current.congr step rfl rfl (fun _ member _ => member) (fun place => by cases place)

theorem reaches_current (reachable : (machine p).system.Reachable u)
    (past : u.monitor.pc ≠ .waiting) (reaches : (machine p).system.Reaches u s) :
    Current p u s ∧ s.monitor.pc ≠ .waiting := by
  apply reaches.invariant (fun s => Current p u s ∧ s.monitor.pc ≠ .waiting)
    ⟨.initial reachable, past⟩
  rintro v w earlier ⟨current, past⟩ step
  have reached := reachable.trans earlier
  rcases moves_of_step step with ⟨i, moves⟩ | moves | moves | moves
  · exact ⟨moves.current current step, moves.frame.monitor ▸ past⟩
  · exact ⟨moves.current current earlier reached step, moves.frame.monitor ▸ past⟩
  · refine ⟨moves.current current step, ?_⟩
    cases moves <;> exact past
  · refine ⟨moves.current current reached past step, ?_⟩
    cases moves <;> exact MonitorPc.noConfusion

/-- The phase and the number of threads that `getSample()` brings back were in force while
it was running. -/
theorem phase_in_force (reachable : (machine p).system.Reachable u)
    (calls : u.monitor.pc = .requesting) (reaches : (machine p).system.Reaches u t)
    (returned : t.monitor.pc = .requesting)
    (one : t.monitor.requests = u.monitor.requests + 1) :
    InForce p u t t.monitor.lastPhaseId t.monitor.lastTotalThreads := by
  have past : u.monitor.pc ≠ .waiting := by
    rw [calls]
    exact MonitorPc.noConfusion
  obtain ⟨current, _⟩ := reaches_current reachable past reaches
  exact current.returned returned (by omega)

/-- A thread announces a phase before its iteration, which the monitor then learns of. -/
def phased : Params 1 where
  program _ := [.setPhaseId 3 4, .beginCall, .endCall 1, .beginCall, .endCall 1]
  readings k := 1000 * (k + 1)

def untilAsked : List (Party 1) := List.replicate 10 onlyWorker ++ [.support, .monitor]

def untilAnswered : List (Party 1) :=
  [.monitor, .support, .support] ++ List.replicate 7 onlyWorker ++ List.replicate 11 .support ++
    [.monitor]

theorem phase_in_force_phased :
    ∃ u t, (machine phased).system.Reachable u ∧ (machine phased).system.Reaches u t ∧
      t.monitor.requests = 1 ∧ InForce phased u t 3 4 := by
  have asked : ((machine phased).follow untilAsked (machine phased).start).map
      (fun s => (s.monitor.pc.asking, s.monitor.requests)) = some (.requesting, 0) := by
    decide +kernel
  have answered : ((machine phased).follow (untilAsked ++ untilAnswered) (machine phased).start).map
      (fun s => (s.monitor.pc.asking, s.monitor.requests, s.monitor.lastPhaseId,
        s.monitor.lastTotalThreads)) = some (.requesting, 1, 3, 4) := by
    decide +kernel
  obtain ⟨u, toAsked, before⟩ := Option.map_eq_some_iff.mp asked
  rw [Machine.follow_append, toAsked, Option.bind_some] at answered
  obtain ⟨t, toAnswered, after⟩ := Option.map_eq_some_iff.mp answered
  simp only [Prod.mk.injEq] at before after
  obtain ⟨calls, none⟩ := before
  obtain ⟨returned, one, phase, threads⟩ := after
  have reachable := Machine.reachable_of_follow toAsked
  have reaches := Machine.reaches_of_follow toAnswered
  have inForce := phase_in_force reachable (MonitorPc.asking_requesting.mp calls) reaches
    (MonitorPc.asking_requesting.mp returned) (by rw [one, none])
  rw [phase, threads] at inForce
  exact ⟨u, t, reachable, reaches, one, inForce⟩

/-! One thread that announces the phases in order. -/

def Op.phase : Op → Option ℕ
  | .setPhaseId phaseId _ => some phaseId
  | _ => none

def phasesOf (ops : List Op) : List ℕ := ops.filterMap Op.phase

@[simp] theorem phasesOf_cons (op : Op) (ops : List Op) :
    phasesOf (op :: ops) = op.phase.toList ++ phasesOf ops := by
  cases phase : op.phase <;> simp [phasesOf, phase]

/-- A call of the program that is one step announces at most its own phase. -/
theorem enter_phase {i : Fin n} (op : Op) (s : State n) :
    ((enter p i op s).workers i).rest = (s.workers i).rest ∧
      (op.phase = some (enter p i op s).phaseId ∨
        op.phase = none ∧ (enter p i op s).phaseId = s.phaseId) := by
  cases op with
  | beginCall =>
      unfold enter
      dsimp only
      split <;> simp [Op.phase]
  | _ => simp [enter, Op.phase]

theorem stepWorker_phase {i : Fin n} (moved : stepWorker p i s = some t) :
    phasesOf (s.workers i).rest = t.phaseId :: phasesOf (t.workers i).rest ∨
      t.phaseId = s.phaseId ∧ phasesOf (t.workers i).rest = phasesOf (s.workers i).rest := by
  by_cases idle : (s.workers i).pc = .idle
  · cases next : (s.workers i).rest with
    | nil =>
        simp only [stepWorker, idle, next] at moved
        cases moved
    | cons op rest =>
        simp only [stepWorker, idle, next] at moved
        cases moved
        obtain ⟨left, announced | ⟨silent, same⟩⟩ := enter_phase (p := p) (i := i) op (s.pop i rest)
        · left
          rw [left, phasesOf_cons, announced]
          simp
        · right
          rw [left, phasesOf_cons, silent, same]
          simp
  · right
    cases stepWorker_moves moved with
    | skipped pc _ _ => exact absurd pc idle
    | entered pc _ _ => exact absurd pc idle
    | ended pc _ _ => exact absurd pc idle
    | stored pc _ => exact absurd pc idle
    | configured pc _ _ => exact absurd pc idle
    | _ => simp

/-- The phases still to come are not before the present one. -/
structure Rising (i : Fin n) (s : State n) : Prop where
  others : ∀ j, j ≠ i → phasesOf (s.workers j).rest = []
  rises : (s.phaseId :: phasesOf (s.workers i).rest).Pairwise (· ≤ ·)

theorem Rising.worker {i j : Fin n} (rising : Rising i s) (moved : stepWorker p j s = some t) :
    Rising i t ∧ s.phaseId ≤ t.phaseId := by
  have frame := (stepWorker_moves moved).frame
  obtain ⟨others, rises⟩ := rising
  by_cases own : j = i
  · subst own
    have elsewhere : ∀ k, k ≠ j → phasesOf (t.workers k).rest = [] := by
      intro k other
      rw [frame.workers k other]
      exact others k other
    rcases stepWorker_phase moved with announced | ⟨same, left⟩
    · rw [announced] at rises
      obtain ⟨first, rest⟩ := List.pairwise_cons.mp rises
      exact ⟨⟨elsewhere, rest⟩, first _ List.mem_cons_self⟩
    · refine ⟨⟨elsewhere, ?_⟩, same.ge⟩
      rw [same, left]
      exact rises
  · have silent := others j own
    have here : t.phaseId = s.phaseId ∧ phasesOf (t.workers j).rest = [] := by
      rcases stepWorker_phase moved with announced | ⟨same, left⟩
      · rw [silent] at announced
        cases announced
      · exact ⟨same, left.trans silent⟩
    refine ⟨⟨?_, ?_⟩, here.1.ge⟩
    · intro k other
      by_cases moving : k = j
      · rw [moving]
        exact here.2
      · rw [frame.workers k moving]
        exact others k other
    · rw [here.1, frame.workers i (Ne.symm own)]
      exact rises

theorem Rising.congr {i : Fin n} (rising : Rising i s) (workers : t.workers = s.workers)
    (phaseId : t.phaseId = s.phaseId) : Rising i t ∧ s.phaseId ≤ t.phaseId := by
  obtain ⟨others, rises⟩ := rising
  refine ⟨⟨?_, ?_⟩, phaseId.ge⟩
  · rw [workers]
    exact others
  · rw [workers, phaseId]
    exact rises

theorem Rising.step {i : Fin n} (rising : Rising i s) (step : (machine p).system.Step s t) :
    Rising i t ∧ s.phaseId ≤ t.phaseId := by
  obtain ⟨party, moved⟩ := step
  cases party with
  | worker j => exact rising.worker moved
  | support =>
      have moves := stepSupport_moves moved
      exact rising.congr moves.frame.workers (by cases moves <;> rfl)
  | main => cases stepMain_moves moved <;> exact rising.congr rfl rfl
  | monitor => cases stepMonitor_moves moved <;> exact rising.congr rfl rfl

theorem Rising.reaches {i : Fin n} (rising : Rising i s)
    (reaches : (machine p).system.Reaches s t) : Rising i t ∧ s.phaseId ≤ t.phaseId := by
  apply reaches.invariant (fun t => Rising i t ∧ s.phaseId ≤ t.phaseId) ⟨rising, Nat.le_refl _⟩
  rintro u v _ ⟨rising, later⟩ step
  obtain ⟨still, next⟩ := rising.step step
  exact ⟨still, later.trans next⟩

end Riff
