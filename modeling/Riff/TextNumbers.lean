import Riff.SampleLog

set_option autoImplicit false

namespace Riff

open Exact Text

/-- What the default format leaves of a number. -/
def sixDigits : Double → Double
  | .finite q => .finite (roundSix q)
  | x => x

def ApplicationSample.mapValues (change : Double → Double) (sample : ApplicationSample) :
    ApplicationSample where
  inconsistent := sample.inconsistent
  loadPercentage := change sample.loadPercentage
  throughput := change sample.throughput
  latency := change sample.latency
  numTasks := change sample.numTasks
  customFields i := change (sample.customFields i)

theorem ofValues_map (change : Double → Double) (sample : ApplicationSample) :
    ofValues sample.inconsistent (sample.values.map change) = sample.mapValues change := by
  have same : (sample.mapValues change).values = sample.values.map change := by
    simp only [ApplicationSample.mapValues, ApplicationSample.values, List.map_cons, List.map_ofFn]
    rfl
  rw [← same]
  exact ofValues_values (sample.mapValues change)

theorem mapValues_eq_iff (change : Double → Double) (sample : ApplicationSample) :
    sample.mapValues change = sample ↔ ∀ x ∈ sample.values, change x = x := by
  obtain ⟨inconsistent, loadPercentage, throughput, latency, numTasks, customFields⟩ := sample
  simp only [ApplicationSample.mapValues, ApplicationSample.values, ApplicationSample.mk.injEq,
    true_and, List.forall_mem_cons, List.forall_mem_ofFn_iff, funext_iff]

/-- What is written in the default format comes back with six digits. -/
theorem get_put (sample : ApplicationSample) (finite : ∀ x ∈ sample.values, ∃ q, x = .finite q)
    (old : ApplicationSample) :
    old.get .default { rest := sample.put .default } =
      (sample.mapValues sixDigits, { rest := [] }) := by
  have reads : ∀ x ∈ sample.record.values,
      Reads Numbers.default.get (Numbers.default.put x) (sixDigits x) := by
    intro x member
    obtain ⟨q, rfl⟩ := finite x member
    exact reads_putDouble q
  have closed : ∀ x ∈ sample.record.values, ']' ∉ Numbers.default.put x := by
    intro x member
    obtain ⟨q, rfl⟩ := finite x member
    exact fun bracket => (numeric_plain (putDouble_numeric q) _ bracket).2.1 rfl
  have enough : riffMaxCustomFields ≤ sample.record.customFields.length := by
    simp [ApplicationSample.record]
  have found := @get_text .default sixDigits sample.record enough reads closed [] List.not_mem_nil
    old []
  have whole : sample.values.take 12 = sample.values :=
    List.take_of_length_le (values_length sample).le
  rw [List.nil_append, List.append_nil, record_values, whole] at found
  exact found.trans (congrArg (·, _) (ofValues_map sixDigits sample))

/-- A sample of natural numbers is kept if none of them has more than six significant digits. -/
theorem text_keeps_iff (sample old : ApplicationSample)
    (naturals : ∀ x ∈ sample.values, ∃ v : ℕ, v < 2 ^ 53 ∧ x = v) :
    (old.get .default { rest := sample.put .default }).1 = sample ↔
      ∀ v : ℕ, (v : Double) ∈ sample.values → v % 10 ^ (Nat.log 10 v - 5) = 0 := by
  have finite : ∀ x ∈ sample.values, ∃ q, x = .finite q := by
    intro x member
    obtain ⟨v, _, rfl⟩ := naturals x member
    exact ⟨v, rfl⟩
  have kept : ∀ v : ℕ, sixDigits (v : Double) = v ↔ v % 10 ^ (Nat.log 10 v - 5) = 0 := by
    intro v
    rw [← roundSix_natCast_iff]
    exact Double.finite.injEq _ _ ▸ Iff.rfl
  rw [get_put sample finite old, mapValues_eq_iff]
  constructor
  · intro same v member
    exact (kept v).mp (same v member)
  · intro short x member
    obtain ⟨v, _, rfl⟩ := naturals x member
    exact (kept v).mpr (short v member)

/-- Eight million tasks a second, with a short latency. -/
def shortNumbers : ApplicationSample where
  throughput := (8000000 : ℕ)
  latency := (200 : ℕ)
  numTasks := (300 : ℕ)

theorem naturals_of_values {sample : ApplicationSample} {naturals : List ℕ}
    (same : sample.values = naturals.map Nat.cast) (small : ∀ v ∈ naturals, v < 2 ^ 53) :
    ∀ x ∈ sample.values, ∃ v : ℕ, v < 2 ^ 53 ∧ x = v := by
  intro x member
  rw [same] at member
  obtain ⟨v, inside, rfl⟩ := List.mem_map.mp member
  exact ⟨v, small v inside, rfl⟩

theorem text_keeps_shortNumbers :
    (ApplicationSample.get .default {} { rest := shortNumbers.put .default }).1 = shortNumbers := by
  have values : shortNumbers.values =
      ([0, 8000000, 200, 300] ++ List.replicate 8 0).map Nat.cast := by
    decide +kernel
  have short : ∀ v ∈ [0, 8000000, 200, 300] ++ List.replicate 8 0,
      v % 10 ^ (Nat.log 10 v - 5) = 0 := by
    decide +kernel
  refine (text_keeps_iff shortNumbers {} (naturals_of_values values (by decide))).mpr ?_
  intro v member
  rw [values] at member
  obtain ⟨u, inside, same⟩ := List.mem_map.mp member
  rw [← Double.natCast_injective u v same]
  exact short u inside

/-- A latency of somewhat more than a millisecond, in nanoseconds. -/
def longLatency : ApplicationSample := { latency := (1234567 : ℕ), numTasks := (1 : ℕ) }

theorem longLatency_lost :
    (∀ x ∈ longLatency.values, ∃ v : ℕ, v < 2 ^ 53 ∧ x = v) ∧
      (ApplicationSample.get .default {} { rest := longLatency.put .default }).1 ≠ longLatency ∧
      (ApplicationSample.get .default {} { rest := longLatency.put .default }).1.latency =
        1234570 := by
  refine ⟨?_, ?_, ?_⟩
  · exact @naturals_of_values _ ([0, 0, 1234567, 1] ++ List.replicate 8 0) (by decide +kernel)
      (by decide)
  · decide +kernel
  · decide +kernel

end Riff
