import Riff.Sample
import Mathlib.Tactic.Simps.Basic

set_option autoImplicit false

namespace Riff

open Exact

/-- The record of one thread. `consolidate` is the atomic flag behind the
pointer; the padding is left out. -/
structure ThreadData where
  sample : ApplicationSample := {}
  consolidatedSample : ApplicationSample := {}
  rcvStart : ℕ := 0
  computeStart : ℕ := 0
  idleTime : ℕ := 0
  firstBegin : ℕ := 0
  lastEnd : ℕ := 0
  sampleStartTime : ℕ := 0
  totalTasks : ℕ := 0
  consolidate : Bool := false
  samplingLength : ℕ
  currentSample : ℕ := 0

def ThreadData.initial (build : Build) : ThreadData :=
  { samplingLength := build.riffDefaultSamplingLength }

/-- How a call ends. An exception leaves the record as the call had changed it. -/
inductive Outcome where
  | returned (record : ThreadData)
  | threw (error : RuntimeError) (record : ThreadData)

def Outcome.record : Outcome → ThreadData
  | .returned record => record
  | .threw _ record => record

@[simp] theorem record_returned (t : ThreadData) : (Outcome.returned t).record = t := rfl

@[simp] theorem record_threw (e : RuntimeError) (t : ThreadData) :
    (Outcome.threw e t).record = t := rfl

/-! The blocks of `begin()`, in the order of the source. -/

/-- The comparison that stands for `(currentSample + 1) % samplingLength`. -/
@[simps] def advance (t : ThreadData) : ThreadData :=
  { t with currentSample :=
      if t.currentSample + 1 ≥ t.samplingLength then 0 else t.currentSample + 1 }

@[simps] def stamp (now : ℕ) (t : ThreadData) : ThreadData :=
  { t with
    firstBegin := if t.firstBegin = 0 then now else t.firstBegin
    sampleStartTime := if t.sampleStartTime = 0 then now else t.sampleStartTime }

/-- `computeStart && (currentSample == 1 || samplingLength == 1)`. -/
def Evaluates (t : ThreadData) : Prop :=
  t.computeStart ≠ 0 ∧ (t.currentSample = 1 ∨ t.samplingLength = 1)

instance (t : ThreadData) : Decidable (Evaluates t) :=
  inferInstanceAs (Decidable (_ ∧ _))

def sampleTime (now : ℕ) (t : ThreadData) : ℕ := ullSub now t.sampleStartTime

def sampleTimeEstimated (t : ThreadData) : ℕ :=
  (t.sample.latency + (t.idleTime : Double)).toUnsigned

theorem sampleTimeEstimated_eq {t : ThreadData} {latency : ℕ}
    (recorded : t.sample.latency = latency) : sampleTimeEstimated t = latency + t.idleTime := by
  rw [sampleTimeEstimated, recorded, ← Nat.cast_add, Double.toUnsigned_natCast]

@[simps] def measure (now : ℕ) (t : ThreadData) : ThreadData :=
  { t with
    idleTime := t.idleTime + ullSub now t.rcvStart * t.samplingLength
    sample := { t.sample with
      throughput := t.sample.numTasks /
        ((sampleTime now t : Double) / ((1000000000 : ℕ) : Double))
      loadPercentage := t.sample.latency / (sampleTime now t : Double) * ((100 : ℕ) : Double) } }

def updateSamplingLength (build : Build) (configuration : ApplicationConfiguration)
    (numTasks sampleTime : ℕ) : Except RuntimeError ℕ :=
  if numTasks ≠ 0 then
    let latencyNs : Double := ((sampleTime / numTasks : ℕ) : Double)
    let latencyMs := latencyNs / ((1000000 : ℕ) : Double)
    if latencyMs.truthy then
      .ok (Double.finite configuration.samplingLengthMs / latencyMs).ceil.toUnsigned
    else
      .ok build.riffDefaultSamplingLength
  else
    .error .noTasksStored

def newSamplingLength (build : Build) (configuration : ApplicationConfiguration)
    (now : ℕ) (t : ThreadData) : Except RuntimeError ℕ :=
  if configuration.samplingLengthMs ≠ 0 then
    updateSamplingLength build configuration t.sample.numTasks.toUnsigned (sampleTime now t)
  else
    .ok t.samplingLength

/-- The relative gap between the elapsed and the estimated time passes the threshold. -/
def gapTooWide (configuration : ApplicationConfiguration) (now : ℕ) (t : ThreadData) : Bool :=
  Double.exceeds
    ((absDiff (sampleTime now t) (sampleTimeEstimated t) : Double) / (sampleTime now t : Double) *
      ((100 : ℕ) : Double))
    (Double.finite configuration.consistencyThreshold)

/-- The write of the consolidated sample and its consistency check. The throw
is compiled in only for the default sampling length 1. -/
def storeConsolidated (build : Build) (configuration : ApplicationConfiguration)
    (now : ℕ) (t : ThreadData) : Outcome :=
  if gapTooWide configuration now t then
    if configuration.samplingLengthMs = 0 ∧ build.riffDefaultSamplingLength = 1 then
      .threw .inconsistencyWithoutSampling { t with consolidatedSample := t.sample }
    else
      .returned { t with consolidatedSample := { t.sample with inconsistent := true } }
  else
    .returned { t with consolidatedSample := t.sample }

/-- The reset of the running sample, which ends by clearing the flag. -/
@[simps] def publish (now : ℕ) (t : ThreadData) : ThreadData :=
  { t with sample := {}, idleTime := 0, sampleStartTime := now, consolidate := false }

@[simps] def resize (length : ℕ) (t : ThreadData) : ThreadData :=
  { t with
    samplingLength := length
    currentSample :=
      if t.samplingLength = 1 ∧ length > 1 then 1
      else if t.samplingLength > 1 ∧ length = 1 then 0
      else t.currentSample }

@[simps] def restart (now : ℕ) (t : ThreadData) : ThreadData := { t with computeStart := now }

def beginCall (build : Build) (configuration : ApplicationConfiguration)
    (now : ℕ) (t : ThreadData) : Outcome :=
  if 1 < (advance t).currentSample then
    .returned (advance t)
  else
    let t := stamp now (advance t)
    if Evaluates t then
      let t := measure now t
      match newSamplingLength build configuration now t with
      | .error e => .threw e t
      | .ok length =>
          if t.consolidate then
            match storeConsolidated build configuration now t with
            | .threw e t => .threw e t
            | .returned t => .returned (restart now (resize length (publish now t)))
          else
            .returned (restart now (resize length t))
    else
      .returned (restart now t)

def endCall (now weight : ℕ) (t : ThreadData) : ThreadData :=
  if t.currentSample ≠ 0 then
    t
  else
    let newLatency : Double := (ullSub now t.computeStart : Double)
    { t with
      rcvStart := now
      sample := { t.sample with
        latency := t.sample.latency +
          newLatency * (t.samplingLength : Double) * (weight : Double)
        numTasks := t.sample.numTasks + ((t.samplingLength * weight : ℕ) : Double) }
      totalTasks := t.totalTasks + t.samplingLength * weight
      lastEnd := now }

/-- `storeCustomValue` on the record the checked access has found. -/
def storeCustomValue (index : ℕ) (value : Double) (t : ThreadData) : Outcome :=
  if inside : index < riffMaxCustomFields then
    .returned { t with sample := { t.sample with
      customFields := Function.update t.sample.customFields ⟨index, inside⟩ value } }
  else
    .threw .customIndexOutOfBound t

end Riff
