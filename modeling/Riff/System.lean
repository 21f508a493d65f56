import Riff.Application
import Riff.Support
import Riff.Lib.Channel
import Riff.Lib.Transition

set_option autoImplicit false

namespace Riff

open Exact Transition

/-- What the code of a thread may call on the application. -/
inductive Op where
  | beginCall
  | endCall (weight : ℕ)
  | storeCustomValue (index : ℕ) (value : Double)
  | setPhaseId (phaseId totalThreads : ℕ)
  | setTotalThreads (totalThreads : ℕ)
  | markInconsistentSamples

/-- The calls that change the calling thread's record. -/
def Op.own : Op → Bool
  | .beginCall => true
  | .endCall _ => true
  | .storeCustomValue _ _ => true
  | _ => false

/-- A program and its surroundings. `readings` are the successive clock readings of
all threads, `startSends` tells which attempts to send START succeed, and with
`orderly` the main thread calls `terminate()` only when all threads are done. -/
structure Params (n : ℕ) where
  build : Build := {}
  configuration : ApplicationConfiguration := {}
  aggregator : Option Aggregator := none
  pid : ℕ := 0
  program : Fin n → List Op
  readings : ℕ → ℕ
  startSends : ℕ → Bool := fun _ => true
  orderly : Bool := true

/-- Where a thread stands in `begin()`; every access to shared data is a step of its
own. `round` is the number of requests received when the sample was stored. -/
inductive WorkerPc where
  | idle
  | testing
  | locking
  | retesting
  | announcing
  | marking
  | unlocking
  | timing
  | asking (now length : ℕ)
  | storing (now length : ℕ)
  | publishing (now length round : ℕ)

structure Worker where
  pc : WorkerPc := .idle
  rest : List Op

def Worker.finished (w : Worker) : Bool :=
  match w.pc, w.rest with
  | .idle, [] => true
  | _, _ => false

/-- Where the support thread stands. `waiting` and `requesting` are the two loops
over the threads. -/
inductive SupportPc (n : ℕ) where
  | testing
  | receiving
  | requesting (i : ℕ)
  | waiting (i : ℕ) (g : Gathering)
  | stopping (i : Fin n) (g : Gathering)
  | rereading (i : Fin n) (g : Gathering)
  | adding (i : Fin n) (g : Gathering)
  | closing (g : Gathering)
  | adjusting (g : Gathering)
  | averaging (g : Gathering)
  | doubting (g : Gathering)
  | labelling (g : Gathering)
  | deciding (m : Message)
  | sending (m : Message)
  | returned
  | failed (error : RuntimeError)

/-- A message in a channel. `number` is no part of it: it tells which request this is,
or which request it answers. -/
structure Packet where
  message : Message
  number : ℕ := 0

/-- Where `terminate()` stands. -/
inductive MainPc where
  | working
  | stopping
  | joining
  | sendingStop
  | receivingAck
  | done (consumed : Packet)

inductive MonitorPc where
  | waiting
  | requesting
  | receiving
  | acking (m : Message)
  | finished
  | failed

/-- The monitor, with the samples that `getSample()` has returned and the number of
requests it has made. -/
structure Monitor where
  pc : MonitorPc := .waiting
  pid : ℕ := 0
  executionTime : ℕ := 0
  totalTasks : ℕ := 0
  lastPhaseId : ℕ := 0
  lastTotalThreads : ℕ := 0
  samples : List ApplicationSample := []
  requests : ℕ := 0

/-- A consolidated sample that its thread has handed over, and the round in which it
was stored. -/
structure Publication where
  sample : ApplicationSample
  round : ℕ

/-- A response that was sent, with the number of requests received so far. A part is a
thread and how many of its publications had been read before. -/
structure Response (n : ℕ) where
  message : Message
  request : ℕ
  round : ℕ
  parts : List (Fin n × ℕ)

/-- A record of what has happened, which no step reads. -/
structure Ledger (n : ℕ) where
  rounds : ℕ := 0
  request : ℕ := 0
  parts : List (Fin n × ℕ) := []
  publications : Fin n → List Publication := fun _ => []
  folded : Fin n → ℕ := fun _ => 0
  responses : List (Response n) := []

structure State (n : ℕ) where
  threads : Fin n → ThreadData
  workers : Fin n → Worker
  reads : ℕ := 0
  attempts : ℕ := 0
  started : Bool := false
  mutex : Option (Fin n) := none
  supportStop : Bool := false
  inconsistentSample : Bool := false
  phaseId : ℕ := 0
  totalThreads : ℕ := 0
  executionTime : ℕ := 0
  totalTasks : ℕ := 0
  support : SupportPc n := .testing
  main : MainPc := .working
  monitor : Monitor := {}
  toMonitor : Channel Packet := {}
  toApplication : Channel Packet := {}
  ledger : Ledger n := {}

variable {n : ℕ}

@[simps] def State.setThread (i : Fin n) (t : ThreadData) (s : State n) : State n :=
  { s with threads := Function.update s.threads i t }

@[simps] def State.goto (i : Fin n) (pc : WorkerPc) (s : State n) : State n :=
  { s with workers := Function.update s.workers i { s.workers i with pc := pc } }

@[simps] def State.pop (i : Fin n) (rest : List Op) (s : State n) : State n :=
  { s with workers := Function.update s.workers i { rest := rest } }

@[simps] def State.supportTo (pc : SupportPc n) (s : State n) : State n := { s with support := pc }

@[simps] def Ledger.publish (i : Fin n) (publication : Publication) (l : Ledger n) : Ledger n :=
  { l with publications :=
      Function.update l.publications i (l.publications i ++ [publication]) }

/-- `notifyStart`. -/
def startMessage (p : Params n) (s : State n) : Message where
  type := .start
  payload := .pid p.pid
  phaseId := s.phaseId
  totalThreads := s.totalThreads

/-- The first step of a call, and all of it for the calls that are one step. -/
def enter (p : Params n) (i : Fin n) (op : Op) (s : State n) : State n :=
  match op with
  | .beginCall =>
      let t := advance (s.threads i)
      if 1 < t.currentSample then s.setThread i t else (s.setThread i t).goto i .testing
  | .endCall weight =>
      let t := s.threads i
      { s.setThread i (endCall (p.readings s.reads) weight t) with
        reads := if t.currentSample ≠ 0 then s.reads else s.reads + 1 }
  | .storeCustomValue index value =>
      s.setThread i (storeCustomValue index value (s.threads i)).record
  | .setPhaseId phaseId totalThreads => { s with phaseId := phaseId, totalThreads := totalThreads }
  | .setTotalThreads totalThreads => { s with totalThreads := totalThreads }
  | .markInconsistentSamples => { s with inconsistentSample := true }

/-- A thread that an exception leaves catches it and goes on with its next call. -/
def stepWorker (p : Params n) (i : Fin n) (s : State n) : Option (State n) :=
  match (s.workers i).pc with
  | .idle =>
      match (s.workers i).rest with
      | [] => none
      | op :: rest => some (enter p i op (s.pop i rest))
  | .testing => some (s.goto i (if s.started then .timing else .locking))
  | .locking =>
      match s.mutex with
      | some _ => none
      | none => some ({ s with mutex := some i }.goto i .retesting)
  | .retesting => some (s.goto i (if s.started then .unlocking else .announcing))
  | .announcing =>
      if p.startSends s.attempts then
        some ({ s with
          attempts := s.attempts + 1
          toMonitor := s.toMonitor.send { message := startMessage p s } }.goto i .marking)
      else
        -- The exception passes the unlock.
        some ({ s with attempts := s.attempts + 1 }.goto i .idle)
  | .marking => some ({ s with started := true }.goto i .unlocking)
  | .unlocking => some ({ s with mutex := none }.goto i .timing)
  | .timing =>
      let now := p.readings s.reads
      let t := stamp now (s.threads i)
      let s := { s with reads := s.reads + 1 }
      if Evaluates t then
        let t := measure now t
        match newSamplingLength p.build p.configuration now t with
        | .error _ => some ((s.setThread i t).goto i .idle)
        | .ok length => some ((s.setThread i t).goto i (.asking now length))
      else
        some ((s.setThread i (restart now t)).goto i .idle)
  | .asking now length =>
      if (s.threads i).consolidate then
        some (s.goto i (.storing now length))
      else
        some ((s.setThread i (restart now (resize length (s.threads i)))).goto i .idle)
  | .storing now length =>
      match storeConsolidated p.build p.configuration now (s.threads i) with
      | .threw _ t => some ((s.setThread i t).goto i .idle)
      | .returned t =>
          some ((s.setThread i t).goto i (.publishing now length s.ledger.rounds))
  | .publishing now length round =>
      let t := s.threads i
      some ({ s.setThread i (restart now (resize length (publish now t))) with
        ledger := s.ledger.publish i { sample := t.consolidatedSample, round := round } }.goto
          i .idle)

/-- The message that answers a request, once the samples are averaged. -/
def responseMessage (p : Params n) (s : State n) (g : Gathering) : Message where
  type := .sampleRes
  payload := .sample (g.aggregate p.aggregator).sample
  phaseId := s.phaseId
  totalThreads := s.totalThreads

/-- `applicationSupportThread`. What it received is not looked at: the assertion on the
type is compiled out. The sleep between two tests of a flag is left out. -/
def stepSupport (p : Params n) (s : State n) : Option (State n) :=
  match s.support with
  | .testing => some (s.supportTo (if s.supportStop then .returned else .receiving))
  | .receiving =>
      match s.toApplication.recv with
      | none => none
      | some (packet, channel) =>
          some { s with
            support := .requesting 0
            toApplication := channel
            ledger := { s.ledger with
              rounds := s.ledger.rounds + 1
              request := packet.number
              parts := [] } }
  | .requesting i =>
      if inside : i < n then
        let j : Fin n := ⟨i, inside⟩
        some ((s.setThread j { s.threads j with consolidate := true }).supportTo
          (.requesting (i + 1)))
      else
        some (s.supportTo (.waiting 0 {}))
  | .waiting i g =>
      if inside : i < n then
        let j : Fin n := ⟨i, inside⟩
        some (s.supportTo (if (s.threads j).consolidate then .stopping j g else .rereading j g))
      else
        some (s.supportTo (.closing g))
  | .stopping i g =>
      some (s.supportTo (if s.supportStop then .rereading i g else .waiting i g))
  | .rereading i g =>
      some (s.supportTo (if (s.threads i).consolidate then .waiting (i + 1) g else .adding i g))
  | .adding i g =>
      let t := s.threads i
      some { s.setThread i { t with consolidatedSample := {} } with
        support := .waiting (i + 1) (g.add t.consolidatedSample)
        ledger := { s.ledger with
          folded := Function.update s.ledger.folded i (s.ledger.folded i + 1)
          parts := s.ledger.parts ++ [(i, s.ledger.folded i)] } }
  | .closing g =>
      some (s.supportTo (
        if g.updatedSamples ≠ 0 then
          if p.configuration.adjustThroughput ∧ g.updatedSamples ≠ n then .adjusting g
          else .averaging g
        else .doubting g))
  | .adjusting g =>
      some (s.supportTo (
        if s.supportStop then .averaging (g.adjust n) else .failed .notSupportStop))
  | .averaging g => some (s.supportTo (.labelling (g.average s.inconsistentSample)))
  | .doubting g =>
      some (s.supportTo (if s.supportStop then .labelling g else .failed .notSupportStop))
  | .labelling g =>
      some (s.supportTo (.deciding (responseMessage p s g)))
  | .deciding m => some (s.supportTo (if s.supportStop then .testing else .sending m))
  | .sending m =>
      some { s with
        support := .testing
        toMonitor := s.toMonitor.send { message := m, number := s.ledger.request }
        ledger := { s.ledger with
          responses := s.ledger.responses ++
            [⟨m, s.ledger.request, s.ledger.rounds, s.ledger.parts⟩] } }
  | .returned => none
  | .failed _ => none

/-- The message that `terminate()` sends. -/
def stopMessage (s : State n) : Message where
  type := .stop
  payload := .summary s.executionTime s.totalTasks

/-- `terminate`. -/
def stepMain (p : Params n) (s : State n) : Option (State n) :=
  match s.main with
  | .working =>
      if p.orderly = true → ∀ i, (s.workers i).finished = true then
        let totals := terminateTotals (List.ofFn s.threads)
        some { s with
          main := .stopping
          threads := fun i => recordSpurious (s.threads i)
          executionTime := totals.executionTime
          totalTasks := totals.totalTasks }
      else none
  | .stopping => some { s with main := .joining, supportStop := true }
  | .joining =>
      match s.support with
      | .returned => some { s with main := .sendingStop }
      | _ => none
  | .sendingStop =>
      some { s with
        main := .receivingAck
        toMonitor := s.toMonitor.send { message := stopMessage s } }
  | .receivingAck =>
      match s.toApplication.recv with
      | none => none
      | some (packet, channel) => some { s with main := .done packet, toApplication := channel }
  | .done _ => none

/-- `waitStart`, then `getSample` until it returns false. `waitStart` does not look at
the type of what it receives: the assertion is compiled out. -/
def stepMonitor (s : State n) : Option (State n) :=
  match s.monitor.pc with
  | .waiting =>
      match s.toMonitor.recv with
      | none => none
      | some (packet, channel) =>
          some { s with
            toMonitor := channel
            monitor := { s.monitor with
              pc := .requesting
              pid := packet.message.payload.toPid } }
  | .requesting =>
      some { s with
        toApplication := s.toApplication.send
          { message := { type := .sampleReq }, number := s.monitor.requests + 1 }
        monitor := { s.monitor with pc := .receiving, requests := s.monitor.requests + 1 } }
  | .receiving =>
      match s.toMonitor.recv with
      | none => none
      | some (packet, channel) =>
          let m := packet.message
          let s := { s with toMonitor := channel }
          match m.type with
          | .sampleRes =>
              some { s with monitor := { s.monitor with
                pc := .requesting
                samples := s.monitor.samples ++ [m.payload.toSample]
                lastPhaseId := m.phaseId
                lastTotalThreads := m.totalThreads } }
          | .stop =>
              some { s with monitor := { s.monitor with
                pc := .acking m
                executionTime := m.payload.toSummary.1
                totalTasks := m.payload.toSummary.2 } }
          | _ => some { s with monitor := { s.monitor with pc := .failed } }
  | .acking m =>
      some { s with
        toApplication := s.toApplication.send { message := { m with type := .stopAck } }
        monitor := { s.monitor with pc := .finished } }
  | .finished => none
  | .failed => none

inductive Party (n : ℕ) where
  | worker (i : Fin n)
  | support
  | main
  | monitor

def State.initial (p : Params n) : State n where
  threads _ := ThreadData.initial p.build
  workers i := { rest := p.program i }

/-- The application and one monitor. -/
def machine (p : Params n) : Machine (Party n) (State n) where
  start := State.initial p
  move
    | .worker i, s => stepWorker p i s
    | .support, s => stepSupport p s
    | .main, s => stepMain p s
    | .monitor, s => stepMonitor s

end Riff
