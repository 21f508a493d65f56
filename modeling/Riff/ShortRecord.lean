import Riff.SampleLog

set_option autoImplicit false

namespace Riff

open Exact Text

/-- The record's values over those of a sample. -/
def Record.over (obj : Record) (sample : ApplicationSample) : ApplicationSample where
  inconsistent := obj.inconsistent
  loadPercentage := obj.loadPercentage
  throughput := obj.throughput
  latency := obj.latency
  numTasks := obj.numTasks
  customFields i := obj.customFields.getD i (sample.customFields i)

/-- The extraction of the first record fails or returns nothing but its values, and the
text from the second one on is still there. -/
def Confined (numbers : Numbers) (sample : ApplicationSample) (gap : List Char) (first : Record)
    (between : List Char) (second : Record) (more : List Char) : Prop :=
  let following := second.text numbers ++ more
  let found := sample.get numbers { rest := gap ++ (first.text numbers ++ (between ++ following)) }
  (found.2.fail = true ∨ found.1 = first.over sample) ∧ following <:+ found.2.rest

variable {numbers : Numbers} {first second : Record} {gap between more : List Char}

theorem named_length (obj : Record) : obj.named.length = obj.customFields.length + 4 := by
  simp [Record.named]

theorem value_named {obj : Record} {x : Double} (member : x ∈ obj.values) :
    ∃ entry ∈ obj.named, entry.2 = x := by
  rw [← named_values] at member
  exact List.mem_map.mp member

/-- A number that cannot be extracted again stops the stream inside the record. -/
theorem confined_of_rejects (absent : '[' ∉ gap)
    (short : first.customFields.length < riffMaxCustomFields)
    (decided : ∀ x ∈ first.values, (∃ y, Reads numbers.get (numbers.put x) y) ∨
      Rejects numbers.get (numbers.put x))
    (bad : ∃ x ∈ first.values, Rejects numbers.get (numbers.put x)) (sample : ApplicationSample) :
    Confined numbers sample gap first between second more := by
  have enough : first.named.length ≤ sample.values.length := by
    rw [named_length, values_length]
    have eight : first.customFields.length < 8 := short
    omega
  obtain ⟨x, member, rejects⟩ := bad
  obtain ⟨entry, inside, rfl⟩ := value_named member
  have stops := @IStream.extractAll_rejects _ numbers.get ':' numbers.put (by decide) first.named
    named_colon (fun entry member => decided _ (named_value member)) ⟨entry, inside, rejects⟩ _
    enough (']' :: (between ++ (second.text numbers ++ more)))
  obtain ⟨failed, behind⟩ := stops
  have failing : ∀ is : IStream, is.fail = true → (is.ignore ']') = is := by
    intro is failed
    rw [IStream.ignore_bad ']' (by simp [IStream.good, failed]), ← failed]
  rw [Confined, get_eq, get_flag numbers first absent]
  dsimp only
  rw [failing _ failed]
  exact ⟨.inl failed, (List.suffix_append _ _).trans ((List.suffix_cons _ _).trans behind)⟩

/-- Behind the first record's bracket the next colon is the one of the second record's
flag. -/
theorem ignore_passes (numbers : Numbers) (second : Record) {between : List Char}
    (separate : ':' ∉ between) (more : List Char) :
    ∃ tail, tail.length < (second.text numbers ++ more).length ∧
      ({ rest := ' ' :: ']' :: (between ++ (second.text numbers ++ more)) } : IStream).ignore ':' =
        { rest := tail } := by
  let tail := ' ' :: (putBool second.inconsistent ++ ' ' ::
    (fields ':' numbers.put second.named ++ ']' :: more))
  have begins : second.text numbers ++ more = "[Inconsistent".toList ++ ':' :: tail := by
    simp [Record.text, field, tail]
  have text : ' ' :: ']' :: (between ++ (second.text numbers ++ more)) =
      ([' ', ']'] ++ between ++ "[Inconsistent".toList) ++ ':' :: tail := by
    simp [begins]
  refine ⟨tail, ?_, ?_⟩
  · rw [begins, List.length_append]
    exact (Nat.lt_succ_self tail.length).trans_le (Nat.le_add_left _ _)
  · rw [text]
    apply IStream.ignore_found
    intro member
    rcases List.mem_append.mp member with earlier | name
    · rcases List.mem_append.mp earlier with bracket | middle
      · exact absurd bracket (by decide)
      · exact separate middle
    · exact absurd name (by decide)

/-- If all its numbers can be extracted, the stream passes the beginning of the next record. -/
theorem not_confined_of_reads {back : Double → Double} (absent : '[' ∉ gap)
    (short : first.customFields.length < riffMaxCustomFields) (separate : ':' ∉ between)
    (reads : ∀ x ∈ first.values, Reads numbers.get (numbers.put x) (back x))
    (sample : ApplicationSample) :
    ¬ (second.text numbers ++ more) <:+ (sample.get numbers { rest := gap ++
      (first.text numbers ++ (between ++ (second.text numbers ++ more))) }).2.rest := by
  let k := first.named.length
  have inside : k < sample.values.length := by
    have eight : first.customFields.length < 8 := short
    simp only [k, named_length, values_length]
    omega
  obtain ⟨missing, others, rest⟩ : ∃ missing others, sample.values.drop k = missing :: others :=
    List.exists_cons_of_length_pos (by rw [List.length_drop]; omega)
  have count : (sample.values.take k).length = k := by
    rw [List.length_take]
    omega
  have found := @IStream.extractAll_reads _ numbers.get ':' numbers.put back (by decide)
    first.named named_colon (fun entry member => reads _ (named_value member)) _ count.le
    (']' :: (between ++ (second.text numbers ++ more)))
  have ended : fields ':' numbers.put [] = [] := rfl
  rw [count, List.drop_length, ended, List.nil_append] at found
  obtain ⟨tail, beyond, passes⟩ := ignore_passes numbers second separate more
  intro behind
  rw [get_eq, get_flag numbers first absent] at behind
  dsimp only at behind
  have later := behind.trans (IStream.ignore_suffix _ _)
  rw [← List.take_append_drop k sample.values, IStream.extractAll_append, found, rest,
    IStream.extractAll, passes] at later
  have onward := later.trans ((IStream.extractAll_suffix _ _ _ _).trans
    (IStream.extract_suffix _ _ _))
  exact absurd onward.length_le (Nat.not_le.mpr beyond)

/-- The streams in their default state extract what they print, the special values apart. -/
theorem rejects_default_iff (x : Double) :
    Rejects Numbers.default.get (Numbers.default.put x) ↔ ∀ q, x ≠ .finite q := by
  constructor
  · rintro rejects q rfl
    exact (reads_putDouble q).not_rejects rejects
  · exact rejects_putDouble

theorem decided_default (x : Double) :
    (∃ y, Reads Numbers.default.get (Numbers.default.put x) y) ∨
      Rejects Numbers.default.get (Numbers.default.put x) := by
  by_cases special : ∀ q, x ≠ .finite q
  · exact .inr (rejects_putDouble special)
  · rw [not_forall] at special
    obtain ⟨q, finite⟩ := special
    rw [not_not.mp finite]
    exact .inl ⟨_, reads_putDouble q⟩

/-- A record with fields missing is confined to its own text only if one of its numbers
cannot be extracted again. -/
theorem short_record_confined_iff (numbers : Numbers) {first second : Record}
    {gap between more : List Char} (absent : '[' ∉ gap)
    (short : first.customFields.length < riffMaxCustomFields) (separate : ':' ∉ between)
    (decided : ∀ x ∈ first.values, (∃ y, Reads numbers.get (numbers.put x) y) ∨
      Rejects numbers.get (numbers.put x)) (sample : ApplicationSample) :
    Confined numbers sample gap first between second more ↔
      ∃ x ∈ first.values, Rejects numbers.get (numbers.put x) := by
  constructor
  · intro confined
    by_contra none
    have read : ∀ x ∈ first.values, ∃ y, Reads numbers.get (numbers.put x) y := by
      intro x member
      exact (decided x member).resolve_right fun bad => none ⟨x, member, bad⟩
    classical
    let back : Double → Double := fun x =>
      if found : ∃ y, Reads numbers.get (numbers.put x) y then found.choose else x
    have reads : ∀ x ∈ first.values, Reads numbers.get (numbers.put x) (back x) := by
      intro x member
      have found := read x member
      simp only [back, found, ↓reduceDIte]
      exact found.choose_spec
    exact not_confined_of_reads absent short separate reads sample confined.2
  · intro bad
    exact confined_of_rejects absent short decided bad sample

/-- A record without custom fields, and a complete one behind it. -/
def incomplete : Record := {}

def complete : Record := { loadPercentage := 7, customFields := List.replicate 8 0 }

/-- One number of the first record is infinite. -/
theorem short_record_confined_infinite :
    Confined .default {} [] { incomplete with latency := .infinite false } "\n".toList complete [] ∧
      ∃ x ∈ ({ incomplete with latency := .infinite false } : Record).values,
        Rejects Numbers.default.get (Numbers.default.put x) := by
  have bad : ∃ x ∈ ({ incomplete with latency := .infinite false } : Record).values,
      Rejects Numbers.default.get (Numbers.default.put x) :=
    ⟨.infinite false, by decide, (rejects_default_iff _).mpr fun q => Double.noConfusion⟩
  refine ⟨(short_record_confined_iff .default ?_ ?_ ?_ ?_ {}).mpr bad, bad⟩
  · decide
  · decide
  · decide
  · exact fun x _ => decided_default x

/-- The load of the second record comes back as a custom field of the first, and nothing
tells that it does. -/
theorem incomplete_swallows :
    let found := ApplicationSample.get .default {} { rest :=
      [] ++ (incomplete.text .default ++ ("\n".toList ++ (complete.text .default ++ []))) }
    ¬ Confined .default {} [] incomplete "\n".toList complete [] ∧
      found.1.customFields 1 = 7 ∧ found.2.fail = false := by
  intro found
  refine ⟨?_, ?_, ?_⟩
  · intro confined
    have reads : ∀ x ∈ incomplete.values,
        Reads Numbers.default.get (Numbers.default.put x) (id x) := by
      intro x member
      exact (@printed_naturals _ (List.replicate 4 0) rfl (by decide) x member).reads
    apply not_confined_of_reads _ _ _ reads {} confined.2
    · decide
    · decide
    · decide
  · decide +kernel
  · decide +kernel

end Riff
