import Riff.System
import Riff.ThreadCalls

set_option autoImplicit false

namespace Riff

open Exact Transition

variable {n : ℕ}

/-- Everything a step of a thread can do, with the guards under which it does it. -/
inductive WorkerMoves (p : Params n) (i : Fin n) (s : State n) : State n → Prop
  | skipped {rest : List Op} (pc : (s.workers i).pc = .idle)
      (next : (s.workers i).rest = .beginCall :: rest)
      (far : 1 < (advance (s.threads i)).currentSample) :
      WorkerMoves p i s ((s.pop i rest).setThread i (advance (s.threads i)))
  | entered {rest : List Op} (pc : (s.workers i).pc = .idle)
      (next : (s.workers i).rest = .beginCall :: rest)
      (near : (advance (s.threads i)).currentSample ≤ 1) :
      WorkerMoves p i s (((s.pop i rest).setThread i (advance (s.threads i))).goto i .testing)
  | ended {weight reads : ℕ} {rest : List Op} (pc : (s.workers i).pc = .idle)
      (next : (s.workers i).rest = .endCall weight :: rest) (later : s.reads ≤ reads) :
      WorkerMoves p i s { (s.pop i rest).setThread i
        (endCall (p.readings s.reads) weight (s.threads i)) with reads := reads }
  | stored {index : ℕ} {value : Double} {rest : List Op} (pc : (s.workers i).pc = .idle)
      (next : (s.workers i).rest = .storeCustomValue index value :: rest) :
      WorkerMoves p i s ((s.pop i rest).setThread i
        (storeCustomValue index value (s.threads i)).record)
  | configured {rest : List Op} {op : Op} {phaseId totalThreads : ℕ} {marked : Bool}
      (pc : (s.workers i).pc = .idle) (next : (s.workers i).rest = op :: rest)
      (shared : op.own = false) :
      WorkerMoves p i s { s.pop i rest with
        phaseId := phaseId
        totalThreads := totalThreads
        inconsistentSample := marked }
  | passed (pc : (s.workers i).pc = .testing) (started : s.started = true) :
      WorkerMoves p i s (s.goto i .timing)
  | tested (pc : (s.workers i).pc = .testing) (unstarted : s.started = false) :
      WorkerMoves p i s (s.goto i .locking)
  | locked (pc : (s.workers i).pc = .locking) (free : s.mutex = none) :
      WorkerMoves p i s ({ s with mutex := some i }.goto i .retesting)
  | late (pc : (s.workers i).pc = .retesting) (started : s.started = true) :
      WorkerMoves p i s (s.goto i .unlocking)
  | retested (pc : (s.workers i).pc = .retesting) (unstarted : s.started = false) :
      WorkerMoves p i s (s.goto i .announcing)
  | announced (pc : (s.workers i).pc = .announcing) (sends : p.startSends s.attempts = true) :
      WorkerMoves p i s ({ s with
        attempts := s.attempts + 1
        toMonitor := s.toMonitor.send { message := startMessage p s } }.goto i .marking)
  | unsent (pc : (s.workers i).pc = .announcing) (fails : p.startSends s.attempts = false) :
      WorkerMoves p i s ({ s with attempts := s.attempts + 1 }.goto i .idle)
  | marked (pc : (s.workers i).pc = .marking) :
      WorkerMoves p i s ({ s with started := true }.goto i .unlocking)
  | unlocked (pc : (s.workers i).pc = .unlocking) :
      WorkerMoves p i s ({ s with mutex := none }.goto i .timing)
  | quiet (pc : (s.workers i).pc = .timing)
      (idle : ¬ Evaluates (stamp (p.readings s.reads) (s.threads i))) :
      WorkerMoves p i s (({ s with reads := s.reads + 1 }.setThread i
        (restart (p.readings s.reads) (stamp (p.readings s.reads) (s.threads i)))).goto i .idle)
  | noTasks {error : RuntimeError} (pc : (s.workers i).pc = .timing)
      (evaluates : Evaluates (stamp (p.readings s.reads) (s.threads i)))
      (failed : newSamplingLength p.build p.configuration (p.readings s.reads)
        (measure (p.readings s.reads) (stamp (p.readings s.reads) (s.threads i))) =
          .error error) :
      WorkerMoves p i s (({ s with reads := s.reads + 1 }.setThread i
        (measure (p.readings s.reads) (stamp (p.readings s.reads) (s.threads i)))).goto i .idle)
  | measured {length : ℕ} (pc : (s.workers i).pc = .timing)
      (evaluates : Evaluates (stamp (p.readings s.reads) (s.threads i)))
      (chosen : newSamplingLength p.build p.configuration (p.readings s.reads)
        (measure (p.readings s.reads) (stamp (p.readings s.reads) (s.threads i))) =
          .ok length) :
      WorkerMoves p i s (({ s with reads := s.reads + 1 }.setThread i
        (measure (p.readings s.reads) (stamp (p.readings s.reads) (s.threads i)))).goto i
          (.asking (p.readings s.reads) length))
  | asked {now length : ℕ} (pc : (s.workers i).pc = .asking now length)
      (flag : (s.threads i).consolidate = true) :
      WorkerMoves p i s (s.goto i (.storing now length))
  | kept {now length : ℕ} (pc : (s.workers i).pc = .asking now length)
      (flag : (s.threads i).consolidate = false) :
      WorkerMoves p i s ((s.setThread i (restart now (resize length (s.threads i)))).goto i .idle)
  | rejected {now length : ℕ} {error : RuntimeError} {u : ThreadData}
      (pc : (s.workers i).pc = .storing now length)
      (failed : storeConsolidated p.build p.configuration now (s.threads i) = .threw error u) :
      WorkerMoves p i s ((s.setThread i u).goto i .idle)
  | consolidated {now length : ℕ} {u : ThreadData} (pc : (s.workers i).pc = .storing now length)
      (written : storeConsolidated p.build p.configuration now (s.threads i) = .returned u) :
      WorkerMoves p i s ((s.setThread i u).goto i (.publishing now length s.ledger.rounds))
  | published {now length round : ℕ} (pc : (s.workers i).pc = .publishing now length round) :
      WorkerMoves p i s ({ s.setThread i (restart now (resize length (publish now (s.threads i))))
        with
        ledger := s.ledger.publish i
          { sample := (s.threads i).consolidatedSample, round := round } }.goto i .idle)

theorem stepWorker_moves {p : Params n} {i : Fin n} {s t : State n}
    (moved : stepWorker p i s = some t) : WorkerMoves p i s t := by
  unfold stepWorker at moved
  split at moved
  · rename_i pc
    split at moved
    · cases moved
    · rename_i op rest next
      cases moved
      cases op with
      | beginCall =>
          simp only [enter, State.pop_threads]
          split
          · rename_i far
            exact .skipped pc next far
          · rename_i near
            exact .entered pc next (Nat.le_of_not_lt near)
      | endCall weight =>
          refine .ended pc next ?_
          simp only [State.pop_reads]
          split <;> omega
      | storeCustomValue index value => exact .stored pc next
      | setPhaseId phaseId totalThreads =>
          exact @WorkerMoves.configured n p i s rest _ phaseId totalThreads s.inconsistentSample
            pc next rfl
      | setTotalThreads totalThreads =>
          exact @WorkerMoves.configured n p i s rest _ s.phaseId totalThreads s.inconsistentSample
            pc next rfl
      | markInconsistentSamples =>
          exact @WorkerMoves.configured n p i s rest _ s.phaseId s.totalThreads true
            pc next rfl
  · rename_i pc
    cases moved
    split
    · rename_i started
      exact .passed pc started
    · rename_i unstarted
      exact .tested pc (Bool.eq_false_iff.mpr unstarted)
  · rename_i pc
    split at moved
    · cases moved
    · rename_i free
      cases moved
      exact .locked pc free
  · rename_i pc
    cases moved
    split
    · rename_i started
      exact .late pc started
    · rename_i unstarted
      exact .retested pc (Bool.eq_false_iff.mpr unstarted)
  · rename_i pc
    split at moved
    · rename_i sends
      cases moved
      exact .announced pc sends
    · rename_i fails
      cases moved
      exact .unsent pc (Bool.eq_false_iff.mpr fails)
  · rename_i pc
    cases moved
    exact .marked pc
  · rename_i pc
    cases moved
    exact .unlocked pc
  · rename_i pc
    dsimp only at moved
    split at moved
    · rename_i evaluates
      split at moved
      · rename_i failed
        cases moved
        exact .noTasks pc evaluates failed
      · rename_i chosen
        cases moved
        exact .measured pc evaluates chosen
    · rename_i idle
      cases moved
      exact .quiet pc idle
  · rename_i pc
    split at moved
    · rename_i flag
      cases moved
      exact .asked pc flag
    · rename_i flag
      cases moved
      exact .kept pc (Bool.eq_false_iff.mpr flag)
  · rename_i pc
    split at moved
    · rename_i failed
      cases moved
      exact .rejected pc failed
    · rename_i written
      cases moved
      exact .consolidated pc written
  · rename_i pc
    cases moved
    exact .published pc

/-- What no step of thread `i` touches. -/
structure WorkerFrame (i : Fin n) (s t : State n) : Prop where
  supportStop : t.supportStop = s.supportStop
  support : t.support = s.support
  main : t.main = s.main
  monitor : t.monitor = s.monitor
  toApplication : t.toApplication = s.toApplication
  executionTime : t.executionTime = s.executionTime
  totalTasks : t.totalTasks = s.totalTasks
  rounds : t.ledger.rounds = s.ledger.rounds
  request : t.ledger.request = s.ledger.request
  parts : t.ledger.parts = s.ledger.parts
  folded : t.ledger.folded = s.ledger.folded
  responses : t.ledger.responses = s.ledger.responses
  threads : ∀ j, j ≠ i → t.threads j = s.threads j
  workers : ∀ j, j ≠ i → t.workers j = s.workers j
  publications : ∀ j, j ≠ i → t.ledger.publications j = s.ledger.publications j

theorem WorkerMoves.frame {p : Params n} {i : Fin n} {s t : State n} (moves : WorkerMoves p i s t) :
    WorkerFrame i s t := by
  cases moves <;> constructor <;> intros <;> first | rfl | simp_all [Function.update_of_ne]

inductive SupportMoves (p : Params n) (s : State n) : State n → Prop
  | returns (pc : s.support = .testing) (stop : s.supportStop = true) :
      SupportMoves p s (s.supportTo .returned)
  | listens (pc : s.support = .testing) (go : s.supportStop = false) :
      SupportMoves p s (s.supportTo .receiving)
  | receives {packet : Packet} {channel : Channel Packet} (pc : s.support = .receiving)
      (taken : s.toApplication.recv = some (packet, channel)) :
      SupportMoves p s { s with
        support := .requesting 0
        toApplication := channel
        ledger := { s.ledger with
          rounds := s.ledger.rounds + 1
          request := packet.number
          parts := [] } }
  | requests {i : Fin n} (pc : s.support = .requesting i) :
      SupportMoves p s ((s.setThread i { s.threads i with consolidate := true }).supportTo
        (.requesting (i + 1)))
  | requested {i : ℕ} (pc : s.support = .requesting i) (all : n ≤ i) :
      SupportMoves p s (s.supportTo (.waiting 0 {}))
  | waits {i : Fin n} {g : Gathering} (pc : s.support = .waiting i g)
      (flag : (s.threads i).consolidate = true) :
      SupportMoves p s (s.supportTo (.stopping i g))
  | stored {i : Fin n} {g : Gathering} (pc : s.support = .waiting i g)
      (flag : (s.threads i).consolidate = false) :
      SupportMoves p s (s.supportTo (.rereading i g))
  | gathered {i : ℕ} {g : Gathering} (pc : s.support = .waiting i g) (all : n ≤ i) :
      SupportMoves p s (s.supportTo (.closing g))
  | abandons {i : Fin n} {g : Gathering} (pc : s.support = .stopping i g)
      (stop : s.supportStop = true) : SupportMoves p s (s.supportTo (.rereading i g))
  | waitsOn {i : Fin n} {g : Gathering} (pc : s.support = .stopping i g)
      (go : s.supportStop = false) : SupportMoves p s (s.supportTo (.waiting i g))
  | skips {i : Fin n} {g : Gathering} (pc : s.support = .rereading i g)
      (flag : (s.threads i).consolidate = true) :
      SupportMoves p s (s.supportTo (.waiting (i + 1) g))
  | rereads {i : Fin n} {g : Gathering} (pc : s.support = .rereading i g)
      (flag : (s.threads i).consolidate = false) :
      SupportMoves p s (s.supportTo (.adding i g))
  | adds {i : Fin n} {g : Gathering} (pc : s.support = .adding i g) :
      SupportMoves p s { s.setThread i { s.threads i with consolidatedSample := {} } with
        support := .waiting (i + 1) (g.add (s.threads i).consolidatedSample)
        ledger := { s.ledger with
          folded := Function.update s.ledger.folded i (s.ledger.folded i + 1)
          parts := s.ledger.parts ++ [(i, s.ledger.folded i)] } }
  | misses {g : Gathering} (pc : s.support = .closing g) (some : g.updatedSamples ≠ 0)
      (adjust : p.configuration.adjustThroughput = true) (missing : g.updatedSamples ≠ n) :
      SupportMoves p s (s.supportTo (.adjusting g))
  | closes {g : Gathering} (pc : s.support = .closing g) (some : g.updatedSamples ≠ 0)
      (whole : p.configuration.adjustThroughput = true → g.updatedSamples = n) :
      SupportMoves p s (s.supportTo (.averaging g))
  | doubts {g : Gathering} (pc : s.support = .closing g) (none : g.updatedSamples = 0) :
      SupportMoves p s (s.supportTo (.doubting g))
  | adjusts {g : Gathering} (pc : s.support = .adjusting g) (stop : s.supportStop = true) :
      SupportMoves p s (s.supportTo (.averaging (g.adjust n)))
  | adjustFails {g : Gathering} (pc : s.support = .adjusting g) (go : s.supportStop = false) :
      SupportMoves p s (s.supportTo (.failed .notSupportStop))
  | averages {g : Gathering} (pc : s.support = .averaging g) :
      SupportMoves p s (s.supportTo (.labelling (g.average s.inconsistentSample)))
  | trusts {g : Gathering} (pc : s.support = .doubting g) (stop : s.supportStop = true) :
      SupportMoves p s (s.supportTo (.labelling g))
  | doubtFails {g : Gathering} (pc : s.support = .doubting g) (go : s.supportStop = false) :
      SupportMoves p s (s.supportTo (.failed .notSupportStop))
  | labels {g : Gathering} (pc : s.support = .labelling g) :
      SupportMoves p s (s.supportTo (.deciding (responseMessage p s g)))
  | drops {m : Message} (pc : s.support = .deciding m) (stop : s.supportStop = true) :
      SupportMoves p s (s.supportTo .testing)
  | decides {m : Message} (pc : s.support = .deciding m) (go : s.supportStop = false) :
      SupportMoves p s (s.supportTo (.sending m))
  | sends {m : Message} (pc : s.support = .sending m) :
      SupportMoves p s { s with
        support := .testing
        toMonitor := s.toMonitor.send { message := m, number := s.ledger.request }
        ledger := { s.ledger with
          responses := s.ledger.responses ++
            [⟨m, s.ledger.request, s.ledger.rounds, s.ledger.parts⟩] } }

theorem stepSupport_moves {p : Params n} {s t : State n} (moved : stepSupport p s = some t) :
    SupportMoves p s t := by
  unfold stepSupport at moved
  split at moved
  · rename_i pc
    cases moved
    split
    · rename_i stop
      exact .returns pc stop
    · rename_i go
      exact .listens pc (Bool.eq_false_iff.mpr go)
  · rename_i pc
    split at moved
    · cases moved
    · rename_i taken
      cases moved
      exact .receives pc taken
  · rename_i i pc
    split at moved
    · rename_i inside
      cases moved
      exact .requests (i := ⟨i, inside⟩) pc
    · rename_i all
      cases moved
      exact .requested pc (Nat.le_of_not_lt all)
  · rename_i i g pc
    split at moved
    · rename_i inside
      cases moved
      split
      · rename_i flag
        exact .waits (i := ⟨i, inside⟩) pc flag
      · rename_i flag
        exact .stored (i := ⟨i, inside⟩) pc (Bool.eq_false_iff.mpr flag)
    · rename_i all
      cases moved
      exact .gathered pc (Nat.le_of_not_lt all)
  · rename_i pc
    cases moved
    split
    · rename_i stop
      exact .abandons pc stop
    · rename_i go
      exact .waitsOn pc (Bool.eq_false_iff.mpr go)
  · rename_i pc
    cases moved
    split
    · rename_i flag
      exact .skips pc flag
    · rename_i flag
      exact .rereads pc (Bool.eq_false_iff.mpr flag)
  · rename_i pc
    cases moved
    exact .adds pc
  · rename_i pc
    cases moved
    split
    · rename_i some
      split
      · rename_i both
        exact .misses pc some both.1 both.2
      · rename_i neither
        exact .closes pc some fun adjust => Classical.byContradiction fun missing =>
          neither ⟨adjust, missing⟩
    · rename_i none
      exact .doubts pc (Classical.not_not.mp none)
  · rename_i pc
    cases moved
    split
    · rename_i stop
      exact .adjusts pc stop
    · rename_i go
      exact .adjustFails pc (Bool.eq_false_iff.mpr go)
  · rename_i pc
    cases moved
    exact .averages pc
  · rename_i pc
    cases moved
    split
    · rename_i stop
      exact .trusts pc stop
    · rename_i go
      exact .doubtFails pc (Bool.eq_false_iff.mpr go)
  · rename_i pc
    cases moved
    exact .labels pc
  · rename_i pc
    cases moved
    split
    · rename_i stop
      exact .drops pc stop
    · rename_i go
      exact .decides pc (Bool.eq_false_iff.mpr go)
  · rename_i pc
    cases moved
    exact .sends pc
  · cases moved
  · cases moved

/-- What no step of the support thread touches. -/
structure SupportFrame (s t : State n) : Prop where
  workers : t.workers = s.workers
  reads : t.reads = s.reads
  started : t.started = s.started
  mutex : t.mutex = s.mutex
  supportStop : t.supportStop = s.supportStop
  main : t.main = s.main
  monitor : t.monitor = s.monitor
  executionTime : t.executionTime = s.executionTime
  totalTasks : t.totalTasks = s.totalTasks
  publications : t.ledger.publications = s.ledger.publications

theorem SupportMoves.frame {p : Params n} {s t : State n} (moves : SupportMoves p s t) :
    SupportFrame s t := by
  cases moves <;> constructor <;> rfl

inductive MainMoves (p : Params n) (s : State n) : State n → Prop
  | summarises (pc : s.main = .working)
      (allowed : p.orderly = true → ∀ i, (s.workers i).finished = true) :
      MainMoves p s { s with
        main := .stopping
        threads := fun i => recordSpurious (s.threads i)
        executionTime := (terminateTotals (List.ofFn s.threads)).executionTime
        totalTasks := (terminateTotals (List.ofFn s.threads)).totalTasks }
  | stops (pc : s.main = .stopping) : MainMoves p s { s with main := .joining, supportStop := true }
  | joins (pc : s.main = .joining) (returned : s.support = .returned) :
      MainMoves p s { s with main := .sendingStop }
  | sends (pc : s.main = .sendingStop) :
      MainMoves p s { s with
        main := .receivingAck
        toMonitor := s.toMonitor.send { message := stopMessage s } }
  | receives {packet : Packet} {channel : Channel Packet} (pc : s.main = .receivingAck)
      (taken : s.toApplication.recv = some (packet, channel)) :
      MainMoves p s { s with main := .done packet, toApplication := channel }

theorem stepMain_moves {p : Params n} {s t : State n} (moved : stepMain p s = some t) :
    MainMoves p s t := by
  unfold stepMain at moved
  split at moved
  · rename_i pc
    split at moved
    · rename_i allowed
      cases moved
      exact .summarises pc allowed
    · cases moved
  · rename_i pc
    cases moved
    exact .stops pc
  · rename_i pc
    split at moved
    · rename_i returned
      cases moved
      exact .joins pc returned
    · cases moved
  · rename_i pc
    cases moved
    exact .sends pc
  · rename_i pc
    split at moved
    · cases moved
    · rename_i taken
      cases moved
      exact .receives pc taken
  · cases moved

inductive MonitorMoves (s : State n) : State n → Prop
  | greets {packet : Packet} {channel : Channel Packet} (pc : s.monitor.pc = .waiting)
      (taken : s.toMonitor.recv = some (packet, channel)) :
      MonitorMoves s { s with
        toMonitor := channel
        monitor := { s.monitor with
          pc := .requesting
          pid := packet.message.payload.toPid } }
  | asks (pc : s.monitor.pc = .requesting) :
      MonitorMoves s { s with
        toApplication := s.toApplication.send
          { message := { type := .sampleReq }, number := s.monitor.requests + 1 }
        monitor := { s.monitor with pc := .receiving, requests := s.monitor.requests + 1 } }
  | returns {packet : Packet} {channel : Channel Packet} (pc : s.monitor.pc = .receiving)
      (taken : s.toMonitor.recv = some (packet, channel))
      (type : packet.message.type = .sampleRes) :
      MonitorMoves s { s with
        toMonitor := channel
        monitor := { s.monitor with
          pc := .requesting
          samples := s.monitor.samples ++ [packet.message.payload.toSample]
          lastPhaseId := packet.message.phaseId
          lastTotalThreads := packet.message.totalThreads } }
  | stops {packet : Packet} {channel : Channel Packet} (pc : s.monitor.pc = .receiving)
      (taken : s.toMonitor.recv = some (packet, channel)) (type : packet.message.type = .stop) :
      MonitorMoves s { s with
        toMonitor := channel
        monitor := { s.monitor with
          pc := .acking packet.message
          executionTime := packet.message.payload.toSummary.1
          totalTasks := packet.message.payload.toSummary.2 } }
  | fails {packet : Packet} {channel : Channel Packet} (pc : s.monitor.pc = .receiving)
      (taken : s.toMonitor.recv = some (packet, channel))
      (noSample : packet.message.type ≠ .sampleRes) (noStop : packet.message.type ≠ .stop) :
      MonitorMoves s { s with
        toMonitor := channel
        monitor := { s.monitor with pc := .failed } }
  | acks {m : Message} (pc : s.monitor.pc = .acking m) :
      MonitorMoves s { s with
        toApplication := s.toApplication.send { message := { m with type := .stopAck } }
        monitor := { s.monitor with pc := .finished } }

theorem stepMonitor_moves {s t : State n} (moved : stepMonitor s = some t) : MonitorMoves s t := by
  unfold stepMonitor at moved
  split at moved
  · rename_i pc
    split at moved
    · cases moved
    · rename_i taken
      cases moved
      exact .greets pc taken
  · rename_i pc
    cases moved
    exact .asks pc
  · rename_i pc
    split at moved
    · cases moved
    · rename_i taken
      dsimp only at moved
      split at moved
      · rename_i type
        cases moved
        exact .returns pc taken type
      · rename_i type
        cases moved
        exact .stops pc taken type
      · rename_i noSample noStop
        cases moved
        exact .fails pc taken noSample noStop
  · rename_i pc
    cases moved
    exact .acks pc
  · cases moved
  · cases moved

theorem MonitorMoves.sent {s t : State n} (moves : MonitorMoves s t) :
    t.toMonitor.sent = s.toMonitor.sent := by
  cases moves with
  | greets pc taken => exact (Channel.recv_eq_some taken).2.1
  | asks pc => rfl
  | returns pc taken type => exact (Channel.recv_eq_some taken).2.1
  | stops pc taken type => exact (Channel.recv_eq_some taken).2.1
  | fails pc taken noSample noStop => exact (Channel.recv_eq_some taken).2.1
  | acks pc => rfl

/-- One step of the whole. -/
inductive Moves (p : Params n) (s t : State n) : Prop
  | worker (i : Fin n) (moves : WorkerMoves p i s t)
  | support (moves : SupportMoves p s t)
  | main (moves : MainMoves p s t)
  | monitor (moves : MonitorMoves s t)

theorem moves_of_step {p : Params n} {s t : State n} (step : (machine p).system.Step s t) :
    Moves p s t := by
  obtain ⟨party, moved⟩ := step
  cases party with
  | worker i => exact .worker i (stepWorker_moves moved)
  | support => exact .support (stepSupport_moves moved)
  | main => exact .main (stepMain_moves moved)
  | monitor => exact .monitor (stepMonitor_moves moved)

end Riff
