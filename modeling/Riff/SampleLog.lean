import Riff.SampleText

set_option autoImplicit false

namespace Riff

open Exact Text

/-- What is assumed of the streams: a printed number is a token without white space,
brackets and colons, and extracting it in front of a space gives the number back. -/
structure Printed (numbers : Numbers) (x : Double) : Prop where
  plain : Plain (numbers.put x)
  reads : Reads numbers.get (numbers.put x) x

/-- A record and the text before it. -/
structure Entry where
  gap : List Char
  record : Record

def logText (numbers : Numbers) : List Entry → List Char → List Char
  | [], tail => tail
  | e :: entries, tail => e.gap ++ (e.record.text numbers ++ logText numbers entries tail)

/-- One extraction after the other. Each has an old value to overwrite. -/
def extractions (numbers : Numbers) :
    List ApplicationSample → IStream → List (ApplicationSample × IStream)
  | [], _ => []
  | sample :: samples, is =>
      let found := sample.get numbers is
      found :: extractions numbers samples found.2

/-- The record as a sample, without its surplus fields. -/
def Record.sample (obj : Record) : ApplicationSample where
  inconsistent := obj.inconsistent
  loadPercentage := obj.loadPercentage
  throughput := obj.throughput
  latency := obj.latency
  numTasks := obj.numTasks
  customFields i := obj.customFields.getD i 0

/-- Each record, and a stream in a good state just behind it. -/
def readBack (numbers : Numbers) : List Entry → List Char → List (ApplicationSample × IStream)
  | [], _ => []
  | e :: entries, tail =>
      (e.record.sample, { rest := logText numbers entries tail }) ::
        readBack numbers entries tail

theorem ofValues_take (obj : Record) :
    ofValues obj.inconsistent (obj.values.take 12) = obj.sample := by
  have fields : (fun i : Fin riffMaxCustomFields => (obj.customFields.take 8).getD i 0) =
      fun i : Fin riffMaxCustomFields => obj.customFields.getD i 0 := by
    funext i
    simp only [List.getD_eq_getElem?_getD, List.getElem?_take_of_lt i.isLt]
  simp only [ofValues, Record.values, Record.sample, List.take_succ_cons, List.getD_cons_succ,
    List.getD_cons_zero, fields]

theorem get_printed {numbers : Numbers} {obj : Record}
    (enough : riffMaxCustomFields ≤ obj.customFields.length)
    (printed : ∀ x ∈ obj.values, Printed numbers x) {gap : List Char} (absent : '[' ∉ gap)
    (sample : ApplicationSample) (rest : List Char) :
    sample.get numbers { rest := gap ++ (obj.text numbers ++ rest) } =
      (obj.sample, { rest := rest }) := by
  rw [@get_text numbers id obj enough (fun x member => (printed x member).reads)
    (fun x member bracket => ((printed x member).plain _ bracket).2.1 rfl) gap absent,
    List.map_id, ofValues_take]

/-- Without a bracket to begin at, the extraction fails. -/
theorem get_nothing (numbers : Numbers) {text : List Char} (absent : '[' ∉ text)
    (sample : ApplicationSample) : (sample.get numbers { rest := text }).2.fail = true := by
  have past : (({ rest := text } : IStream).ignore '[').ignore ':' =
      { rest := [], eof := true, fail := true } := by
    rw [IStream.ignore_end absent]
    rfl
  rw [get_eq, past, IStream.extract_bad getBool _ rfl]
  dsimp only
  rw [IStream.extractAll_failed numbers.get ':' sample.values rfl,
    IStream.ignore_bad ']' rfl]

/-- A log is read back record by record, whatever stands between the records, and the
next extraction fails. -/
theorem log_read_back (numbers : Numbers) {entries : List Entry} {tail : List Char}
    (fields : ∀ e ∈ entries, riffMaxCustomFields ≤ e.record.customFields.length)
    (gaps : ∀ e ∈ entries, '[' ∉ e.gap) (last : '[' ∉ tail)
    (printed : ∀ e ∈ entries, ∀ x ∈ e.record.values, Printed numbers x)
    {samples : List ApplicationSample} (each : samples.length = entries.length)
    (another : ApplicationSample) :
    extractions numbers (samples ++ [another]) { rest := logText numbers entries tail } =
        readBack numbers entries tail ++ [another.get numbers { rest := tail }] ∧
      (another.get numbers { rest := tail }).2.fail = true := by
  refine ⟨?_, get_nothing numbers last another⟩
  induction entries generalizing samples with
  | nil =>
      cases List.length_eq_zero_iff.mp each
      rfl
  | cons e entries ih =>
      cases samples with
      | nil => cases each
      | cons sample samples =>
          have first := get_printed (fields e List.mem_cons_self) (printed e List.mem_cons_self)
            (gaps e List.mem_cons_self) sample (logText numbers entries tail)
          have others := ih (fun d member => fields d (List.mem_cons_of_mem _ member))
            (fun d member => gaps d (List.mem_cons_of_mem _ member))
            (fun d member => printed d (List.mem_cons_of_mem _ member)) (Nat.succ_inj.mp each)
          rw [List.cons_append, extractions, logText, first, readBack, List.cons_append, ← others]

/-! The streams in their default state, and small numbers. -/

theorem printed_default {v : ℕ} (short : v % 10 ^ (Nat.log 10 v - 5) = 0) :
    Printed .default (v : Double) := by
  refine ⟨numeric_plain (putDouble_numeric v), ?_⟩
  have reads := reads_putDouble v
  rw [(roundSix_natCast_iff v).mpr short] at reads
  exact reads

theorem printed_naturals {values : List Double} {naturals : List ℕ}
    (same : values = naturals.map Nat.cast)
    (short : ∀ v ∈ naturals, v % 10 ^ (Nat.log 10 v - 5) = 0) :
    ∀ x ∈ values, Printed .default x := by
  intro x member
  rw [same] at member
  obtain ⟨v, inside, rfl⟩ := List.mem_map.mp member
  exact printed_default (short v inside)

/-- Two records with ten custom fields. -/
def twoRecords : List Entry :=
  [{ gap := "log: ".toList
     record := { loadPercentage := 90, throughput := 100, latency := 200, numTasks := 300
                 customFields := (List.range 10).map Nat.cast } },
   { gap := "\n".toList
     record := { inconsistent := true, customFields := (List.range 10).map Nat.cast } }]

theorem log_read_back_two :
    extractions .default [{}, {}, {}] { rest := logText .default twoRecords "\n".toList } =
        readBack .default twoRecords "\n".toList ++
          [ApplicationSample.get .default {} { rest := "\n".toList }] ∧
      (ApplicationSample.get .default {} { rest := "\n".toList }).2.fail = true := by
  apply @log_read_back .default twoRecords "\n".toList _ _ _ _ [{}, {}] rfl {}
  · decide
  · decide
  · decide
  · intro e member
    rcases List.mem_cons.mp member with rfl | second
    · exact @printed_naturals _ (90 :: 100 :: 200 :: 300 :: List.range 10) rfl (by decide +kernel)
    · cases List.mem_singleton.mp second
      exact @printed_naturals _ (0 :: 0 :: 0 :: 0 :: List.range 10) rfl (by decide +kernel)

end Riff
