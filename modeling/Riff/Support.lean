import Riff.Sample

set_option autoImplicit false

namespace Riff

open Exact

inductive MessageType where
  | start
  | sampleReq
  | sampleRes
  | stop
  | stopAck
  deriving DecidableEq, Repr

/-- The member of the union that was written last, if any was. -/
inductive Payload where
  | unset
  | pid (pid : ℕ)
  | sample (sample : ApplicationSample)
  | summary (time totalTasks : ℕ)

structure Message where
  type : MessageType
  payload : Payload := .unset
  phaseId : ℕ := 0
  totalThreads : ℕ := 0

/-- Reading a member that was not written is left open in the language. -/
def Payload.toSample : Payload → ApplicationSample
  | .sample value => value
  | _ => {}

def Payload.toSummary : Payload → ℕ × ℕ
  | .summary time totalTasks => (time, totalTasks)
  | _ => (0, 0)

def Payload.toPid : Payload → ℕ
  | .pid value => value
  | _ => 0

abbrev Aggregator := Fin riffMaxCustomFields → List Double → Double

/-- The locals of the support thread while it answers a request. `sample` is the
sample of the message under construction. -/
structure Gathering where
  sample : ApplicationSample := {}
  updatedSamples : ℕ := 0
  inconsistentSamples : ℕ := 0
  customVec : Fin riffMaxCustomFields → List Double := fun _ => []

namespace Gathering

/-- The fold of one thread's consolidated sample. Load and latency of an
inconsistent sample are left out. -/
def add (sample : ApplicationSample) (g : Gathering) : Gathering where
  sample :=
    { g.sample with
      loadPercentage :=
        if sample.inconsistent then g.sample.loadPercentage
        else g.sample.loadPercentage + sample.loadPercentage
      latency :=
        if sample.inconsistent then g.sample.latency
        else g.sample.latency + sample.latency / sample.numTasks
      throughput := g.sample.throughput + sample.throughput
      numTasks := g.sample.numTasks + sample.numTasks }
  updatedSamples := g.updatedSamples + 1
  inconsistentSamples :=
    if sample.inconsistent then g.inconsistentSamples + 1 else g.inconsistentSamples
  customVec j := g.customVec j ++ [sample.customFields j]

/-- The estimate for the threads that have not stored a sample. -/
def adjust (numThreads : ℕ) (g : Gathering) : Gathering :=
  { g with sample := { g.sample with
      throughput := g.sample.throughput +
        g.sample.throughput / (g.updatedSamples : Double) *
          ((numThreads - g.updatedSamples : ℕ) : Double) } }

def average (marked : Bool) (g : Gathering) : Gathering :=
  if g.inconsistentSamples = g.updatedSamples ∨ marked then
    { g with sample := { g.sample with inconsistent := true } }
  else
    let consistent : Double := ((g.updatedSamples - g.inconsistentSamples : ℕ) : Double)
    { g with sample := { g.sample with
        loadPercentage := g.sample.loadPercentage / consistent
        latency := g.sample.latency / consistent } }

/-- Without an aggregator the first thread's value is taken, if there is one. -/
def aggregate (aggregator : Option Aggregator) (g : Gathering) : Gathering :=
  { g with sample := { g.sample with
      customFields := fun i =>
        match aggregator with
        | some aggregate => aggregate i (g.customVec i)
        | none => (g.customVec i).headD (g.sample.customFields i) } }

def addAll (samples : List ApplicationSample) : Gathering := samples.foldl (fun g s => g.add s) {}

@[simp] theorem addAll_snoc (samples : List ApplicationSample) (sample : ApplicationSample) :
    addAll (samples ++ [sample]) = (addAll samples).add sample := by
  simp only [addAll, List.foldl_append, List.foldl_cons, List.foldl_nil]

theorem addAll_updatedSamples (samples : List ApplicationSample) :
    (addAll samples).updatedSamples = samples.length := by
  induction samples using List.reverseRecOn with
  | nil => rfl
  | append_singleton samples sample ih =>
      rw [addAll_snoc, List.length_append, ← ih]
      rfl

theorem addAll_numTasks (samples : List ApplicationSample) :
    (addAll samples).sample.numTasks = (samples.map ApplicationSample.numTasks).sum := by
  induction samples using List.reverseRecOn with
  | nil => rfl
  | append_singleton samples sample ih =>
      rw [addAll_snoc, List.map_append, List.sum_append, ← ih]
      simp [add]

/-- The two last stages leave the number of tasks alone. -/
theorem average_numTasks (marked : Bool) (g : Gathering) :
    (g.average marked).sample.numTasks = g.sample.numTasks := by
  unfold average
  split <;> rfl

end Gathering

/-- The sample of a response that folds the given samples, with no thread missing. -/
def respond (aggregator : Option Aggregator) (marked : Bool) (samples : List ApplicationSample) :
    ApplicationSample :=
  (((Gathering.addAll samples).average marked).aggregate aggregator).sample

theorem respond_numTasks (aggregator : Option Aggregator) (marked : Bool)
    (samples : List ApplicationSample) :
    (respond aggregator marked samples).numTasks =
      (samples.map ApplicationSample.numTasks).sum := by
  rw [← Gathering.addAll_numTasks, ← Gathering.average_numTasks marked]
  rfl

end Riff
