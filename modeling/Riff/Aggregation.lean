import Riff.Responses

set_option autoImplicit false

namespace Riff

open Exact Transition

/-! What a response should contain, in terms of the samples it is made of. -/

def consistentOf (samples : List ApplicationSample) : List ApplicationSample :=
  samples.filter fun x => !x.inconsistent

structure Gathered (samples : List ApplicationSample) (g : Gathering) : Prop where
  inconsistent : g.sample.inconsistent = false
  loadPercentage : g.sample.loadPercentage =
    ((consistentOf samples).map fun x => x.loadPercentage).sum
  throughput : g.sample.throughput = (samples.map fun x => x.throughput).sum
  latency : g.sample.latency = ((consistentOf samples).map fun x => x.latency / x.numTasks).sum
  numTasks : g.sample.numTasks = (samples.map fun x => x.numTasks).sum
  customFields : g.sample.customFields = fun _ => 0
  updatedSamples : g.updatedSamples = samples.length
  inconsistentSamples : g.inconsistentSamples = samples.countP fun x => x.inconsistent
  customVec : ∀ i, g.customVec i = samples.map fun x => x.customFields i

theorem Gathered.add {samples : List ApplicationSample} {g : Gathering}
    (gathered : Gathered samples g) (x : ApplicationSample) :
    Gathered (samples ++ [x]) (g.add x) := by
  obtain ⟨inconsistent, loadPercentage, throughput, latency, numTasks, customFields,
    updatedSamples, inconsistentSamples, customVec⟩ := gathered
  refine ⟨inconsistent, ?_, ?_, ?_, ?_, customFields, ?_, ?_, ?_⟩
  · cases mark : x.inconsistent <;> simp [Gathering.add, consistentOf, mark, loadPercentage]
  · simp [Gathering.add, throughput]
  · cases mark : x.inconsistent <;> simp [Gathering.add, consistentOf, mark, latency]
  · simp [Gathering.add, numTasks]
  · simp [Gathering.add, updatedSamples]
  · cases mark : x.inconsistent <;> simp [Gathering.add, mark, inconsistentSamples]
  · intro i
    simp [Gathering.add, customVec]

end Riff
