import Riff.Sample
import Riff.Lib.Decimal
import Mathlib.Data.List.GetD

set_option autoImplicit false

namespace Riff

open Exact Text

/-- How the streams print and extract floating values. -/
structure Numbers where
  put : Double → List Char
  get : Reader Double

/-- Streams in their default state. -/
def Numbers.default : Numbers where
  put := putDouble
  get := getDouble

def putBool (b : Bool) : List Char := [if b then '1' else '0']

/-- A `bool` is extracted as an integer. Anything but zero and one is stored as true, and
fails. -/
def getBool : Reader Bool := fun cs =>
  let (negative, unsigned) := dropSign cs
  let (digits, rest) := digitsOf unsigned
  let used := cs.length - rest.length
  if digits = [] then
    { used := used, value := false, ok := false }
  else
    let n := Nat.ofDigitChars 10 digits 0
    if n = 0 then
      { used := used, value := false, ok := true }
    else
      { used := used, value := true, ok := n = 1 ∧ negative = false }

/-- What a text can say about a sample, with any number of custom fields. -/
structure Record where
  inconsistent : Bool := false
  loadPercentage : Double := 0
  throughput : Double := 0
  latency : Double := 0
  numTasks : Double := 0
  customFields : List Double := []

def ApplicationSample.record (obj : ApplicationSample) : Record where
  inconsistent := obj.inconsistent
  loadPercentage := obj.loadPercentage
  throughput := obj.throughput
  latency := obj.latency
  numTasks := obj.numTasks
  customFields := List.ofFn obj.customFields

/-- The numbers of a record with their names. -/
def Record.named (obj : Record) : List (List Char × Double) :=
  ("Load".toList, obj.loadPercentage) :: ("Throughput".toList, obj.throughput) ::
    ("Latency".toList, obj.latency) :: ("NumTasks".toList, obj.numTasks) ::
      obj.customFields.mapIdx fun i x => ("CustomField".toList ++ Nat.toDigits 10 i, x)

def Record.text (numbers : Numbers) (obj : Record) : List Char :=
  '[' :: (field ':' "Inconsistent".toList (putBool obj.inconsistent) ++
    (fields ':' numbers.put obj.named ++ [']']))

/-- `operator<<`. -/
def ApplicationSample.put (numbers : Numbers) (obj : ApplicationSample) : List Char :=
  obj.record.text numbers

/-- `operator>>`. -/
def ApplicationSample.get (numbers : Numbers) (sample : ApplicationSample) (is : IStream) :
    ApplicationSample × IStream :=
  let is := is.ignore '['
  let (inconsistent, is) := (is.ignore ':').extract getBool sample.inconsistent
  let (loadPercentage, is) := (is.ignore ':').extract numbers.get sample.loadPercentage
  let (throughput, is) := (is.ignore ':').extract numbers.get sample.throughput
  let (latency, is) := (is.ignore ':').extract numbers.get sample.latency
  let (numTasks, is) := (is.ignore ':').extract numbers.get sample.numTasks
  let (customFields, is) := is.extractAll numbers.get ':' (List.ofFn sample.customFields)
  ({ inconsistent := inconsistent
     loadPercentage := loadPercentage
     throughput := throughput
     latency := latency
     numTasks := numTasks
     customFields := fun i => customFields.getD i 0 }, is.ignore ']')

/-! The numbers of a sample as one list. -/

def ApplicationSample.values (sample : ApplicationSample) : List Double :=
  sample.loadPercentage :: sample.throughput :: sample.latency :: sample.numTasks ::
    List.ofFn sample.customFields

def ofValues (inconsistent : Bool) (values : List Double) : ApplicationSample where
  inconsistent := inconsistent
  loadPercentage := values.getD 0 0
  throughput := values.getD 1 0
  latency := values.getD 2 0
  numTasks := values.getD 3 0
  customFields i := values.getD (i + 4) 0

def Record.values (obj : Record) : List Double :=
  obj.loadPercentage :: obj.throughput :: obj.latency :: obj.numTasks :: obj.customFields

theorem ofValues_values (sample : ApplicationSample) :
    ofValues sample.inconsistent sample.values = sample := by
  obtain ⟨inconsistent, loadPercentage, throughput, latency, numTasks, customFields⟩ := sample
  have same : (fun i : Fin riffMaxCustomFields => (List.ofFn customFields).getD i 0) =
      customFields := by
    funext i
    rw [List.getD_eq_getElem _ _ (by rw [List.length_ofFn]; exact i.isLt)]
    exact List.getElem_ofFn _
  simp only [ofValues, ApplicationSample.values, List.getD_cons_succ, List.getD_cons_zero, same]

theorem values_length (sample : ApplicationSample) : sample.values.length = 12 := by
  simp [ApplicationSample.values]

theorem record_values (sample : ApplicationSample) : sample.record.values = sample.values := rfl

theorem named_values (obj : Record) : obj.named.map Prod.snd = obj.values := by
  simp [Record.named, Record.values, List.mapIdx_eq_zipIdx_map, Function.comp_def]

theorem get_eq (numbers : Numbers) (sample : ApplicationSample) (is : IStream) :
    let flag := ((is.ignore '[').ignore ':').extract getBool sample.inconsistent
    let found := flag.2.extractAll numbers.get ':' sample.values
    sample.get numbers is = (ofValues flag.1 found.1, found.2.ignore ']') := by
  simp only [ApplicationSample.get, ApplicationSample.values, IStream.extractAll, ofValues,
    List.getD_cons_succ, List.getD_cons_zero]

/-! Reading what has been written. -/

/-- The characters that the reader looks for. -/
def Plain (cs : List Char) : Prop := ∀ c ∈ cs, c ≠ '[' ∧ c ≠ ']' ∧ c ≠ ':'

instance (cs : List Char) : Decidable (Plain cs) := List.decidableBAll _ cs

theorem Plain.append {first second : List Char} (left : Plain first) (right : Plain second) :
    Plain (first ++ second) := by
  intro c member
  exact (List.mem_append.mp member).elim (left c) (right c)

theorem numeric_plain {cs : List Char} (numeric : Numeric cs) : Plain cs := by
  intro c member
  have one := numeric c member
  refine ⟨?_, ?_, ?_⟩ <;> rintro rfl <;> exact absurd one (by decide)

theorem named_plain {obj : Record} {entry : List Char × Double} (member : entry ∈ obj.named) :
    Plain entry.1 := by
  simp only [Record.named, List.mem_cons] at member
  rcases member with rfl | rfl | rfl | rfl | custom
  · show Plain "Load".toList
    decide
  · show Plain "Throughput".toList
    decide
  · show Plain "Latency".toList
    decide
  · show Plain "NumTasks".toList
    decide
  · obtain ⟨i, inside, rfl⟩ := List.mem_mapIdx.mp custom
    exact Plain.append (by decide) (numeric_plain (toDigits_digits i).numeric)

theorem named_colon {obj : Record} : ∀ entry ∈ obj.named, ':' ∉ entry.1 := by
  intro entry member colon
  exact (named_plain member _ colon).2.2 rfl

theorem named_value {obj : Record} {entry : List Char × Double} (member : entry ∈ obj.named) :
    entry.2 ∈ obj.values := by
  rw [← named_values]
  exact List.mem_map_of_mem member

theorem reads_putBool (b : Bool) : Reads getBool (putBool b) b := by
  have scanned : ∀ c rest, c.isDigit = true →
      digitsOf (c :: ' ' :: rest) = ([c], ' ' :: rest) := by
    intro c rest digit
    refine @digitsOf_append [c] ?_ ' ' (by decide) rest
    intro d member
    rw [List.mem_singleton.mp member]
    exact digit
  refine ⟨by cases b <;> decide, by cases b <;> decide, ?_⟩
  intro rest
  cases b with
  | false =>
      have unsigned : dropSign ('0' :: ' ' :: rest) = (false, '0' :: ' ' :: rest) := rfl
      change getBool ('0' :: ' ' :: rest) = _
      simp only [getBool, unsigned, scanned '0' rest (by decide)]
      simp [putBool, Nat.ofDigitChars_cons]
  | true =>
      have unsigned : dropSign ('1' :: ' ' :: rest) = (false, '1' :: ' ' :: rest) := rfl
      change getBool ('1' :: ' ' :: rest) = _
      simp only [getBool, unsigned, scanned '1' rest (by decide)]
      simp [putBool, Nat.ofDigitChars_cons]

/-- Up to the flag, the reader passes the text before the record. -/
theorem get_flag (numbers : Numbers) (obj : Record) {gap : List Char} (absent : '[' ∉ gap)
    (old : Bool) (rest : List Char) :
    ((({ rest := gap ++ (obj.text numbers ++ rest) } : IStream).ignore '[').ignore ':').extract
        getBool old =
      (obj.inconsistent, { rest := ' ' :: (fields ':' numbers.put obj.named ++ ']' :: rest) }) := by
  have begins : obj.text numbers ++ rest =
      '[' :: (field ':' "Inconsistent".toList (putBool obj.inconsistent) ++
        (fields ':' numbers.put obj.named ++ ']' :: rest)) := by
    simp [Record.text]
  have inside : field ':' "Inconsistent".toList (putBool obj.inconsistent) ++
      (fields ':' numbers.put obj.named ++ ']' :: rest) =
      "Inconsistent".toList ++ ':' :: ' ' :: (putBool obj.inconsistent ++
        ' ' :: (fields ':' numbers.put obj.named ++ ']' :: rest)) := by
    simp [field]
  rw [begins, IStream.ignore_found absent, inside, IStream.ignore_found (by decide),
    IStream.extract_reads (reads_putBool obj.inconsistent)]

/-- The fields that are not read have no bracket in them. -/
theorem fields_closed {numbers : Numbers} {named : List (List Char × Double)}
    (names : ∀ entry ∈ named, Plain entry.1)
    (tokens : ∀ entry ∈ named, ']' ∉ numbers.put entry.2) :
    ']' ∉ ' ' :: fields ':' numbers.put named := by
  intro member
  rcases List.mem_cons.mp member with space | inside
  · exact absurd space (by decide)
  · obtain ⟨entry, found, here⟩ := List.mem_flatMap.mp inside
    simp only [field, List.mem_append, List.mem_cons] at here
    rcases here with name | colon | space | token | space
    · exact (names entry found _ name).2.1 rfl
    · exact absurd colon (by decide)
    · exact absurd space (by decide)
    · exact tokens entry found token
    · rcases space with space | none
      · exact absurd space (by decide)
      · exact absurd none List.not_mem_nil

/-- A record with enough custom fields is read, up to its own bracket. -/
theorem get_text {numbers : Numbers} {back : Double → Double} {obj : Record}
    (enough : riffMaxCustomFields ≤ obj.customFields.length)
    (reads : ∀ x ∈ obj.values, Reads numbers.get (numbers.put x) (back x))
    (closed : ∀ x ∈ obj.values, ']' ∉ numbers.put x) {gap : List Char} (absent : '[' ∉ gap)
    (sample : ApplicationSample) (rest : List Char) :
    sample.get numbers { rest := gap ++ (obj.text numbers ++ rest) } =
      (ofValues obj.inconsistent ((obj.values.take 12).map back), { rest := rest }) := by
  have count : sample.values.length ≤ obj.named.length := by
    rw [values_length, ← List.length_map Prod.snd, named_values]
    have eight : 8 ≤ obj.customFields.length := enough
    simp only [Record.values, List.length_cons]
    omega
  have found := @IStream.extractAll_reads _ numbers.get ':' numbers.put back (by decide) obj.named
    named_colon (fun entry member => reads _ (named_value member)) _ count (']' :: rest)
  have values : (obj.named.take sample.values.length).map (fun entry => back entry.2) =
      (obj.values.take 12).map back := by
    rw [values_length, ← named_values, ← List.map_take, List.map_map]
    rfl
  have behind : ']' ∉ ' ' :: fields ':' numbers.put (obj.named.drop sample.values.length) :=
    fields_closed (fun entry member => named_plain (List.mem_of_mem_drop member))
      (fun entry member => closed _ (named_value (List.mem_of_mem_drop member)))
  rw [get_eq, get_flag numbers obj absent]
  dsimp only
  rw [found, values]
  dsimp only
  rw [← List.cons_append, IStream.ignore_found behind]

end Riff
