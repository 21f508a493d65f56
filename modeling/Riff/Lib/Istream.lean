import Mathlib.Data.List.TakeWhile

set_option autoImplicit false

namespace Text

/-- White space in the classic locale. -/
def isSpace (c : Char) : Bool := c = ' ' || (9 ≤ c.toNat && c.toNat ≤ 13)

/-- A text stream: what has not been extracted yet, and the state bits. -/
structure IStream where
  rest : List Char
  eof : Bool := false
  fail : Bool := false
  deriving DecidableEq, Repr

/-- What a conversion makes of a text: the number of characters it accepts, the value it
stores, and whether it succeeds. -/
structure Conversion (α : Type*) where
  used : ℕ
  value : α
  ok : Bool
  deriving DecidableEq, Repr

abbrev Reader (α : Type*) := List Char → Conversion α

namespace IStream

def good (is : IStream) : Bool := !is.eof && !is.fail

/-- `ignore` without a limit: up to the delimiter and over it, or to the end. -/
def ignore (delim : Char) (is : IStream) : IStream :=
  if is.good then
    match is.rest.dropWhile (· ≠ delim) with
    | [] => { rest := [], eof := true }
    | _ :: rest => { rest := rest }
  else
    { is with fail := true }

/-- `>>`: white space is skipped first. Nothing is stored if that fails already. -/
def extract {α : Type*} (reader : Reader α) (old : α) (is : IStream) : α × IStream :=
  if is.good then
    match is.rest.dropWhile isSpace with
    | [] => (old, { rest := [], eof := true, fail := true })
    | c :: cs =>
        let found := reader (c :: cs)
        let rest := (c :: cs).drop found.used
        (found.value, { rest := rest, eof := rest.isEmpty, fail := !found.ok })
  else
    (old, { is with fail := true })

/-- Fields that each begin behind a delimiter. -/
def extractAll {α : Type*} (reader : Reader α) (delim : Char) :
    List α → IStream → List α × IStream
  | [], is => ([], is)
  | old :: olds, is =>
      let first := (is.ignore delim).extract reader old
      let others := extractAll reader delim olds first.2
      (first.1 :: others.1, others.2)

theorem ignore_found {delim : Char} {skipped rest : List Char} (absent : delim ∉ skipped) :
    ({ rest := skipped ++ delim :: rest } : IStream).ignore delim = { rest := rest } := by
  have past : (skipped ++ delim :: rest).dropWhile (· ≠ delim) = delim :: rest := by
    rw [List.dropWhile_append_of_pos]
    · simp
    · intro c member
      simpa using fun same : c = delim => absent (same ▸ member)
  simp only [ignore, good, Bool.not_false, Bool.and_self, ↓reduceIte, past]

theorem ignore_end {delim : Char} {text : List Char} (absent : delim ∉ text) :
    ({ rest := text } : IStream).ignore delim = { rest := [], eof := true } := by
  have past : text.dropWhile (· ≠ delim) = [] := by
    rw [List.dropWhile_eq_nil_iff]
    intro c member
    simpa using fun same : c = delim => absent (same ▸ member)
  simp only [ignore, good, Bool.not_false, Bool.and_self, ↓reduceIte, past]

theorem ignore_bad {is : IStream} (delim : Char) (bad : is.good = false) :
    is.ignore delim = { is with fail := true } := by
  simp only [ignore, bad, Bool.false_eq_true, ↓reduceIte]

theorem extract_bad {α : Type*} {is : IStream} (reader : Reader α) (old : α)
    (bad : is.good = false) : is.extract reader old = (old, { is with fail := true }) := by
  simp only [extract, bad, Bool.false_eq_true, ↓reduceIte]

/-- A failure is kept, and nothing more is extracted. -/
theorem extractAll_failed {α : Type*} (reader : Reader α) (delim : Char) (olds : List α)
    {is : IStream} (failed : is.fail = true) : (is.extractAll reader delim olds).2 = is := by
  have bad : is.good = false := by simp [good, failed]
  have same : { is with fail := true } = is := by rw [← failed]
  induction olds with
  | nil => rfl
  | cons old olds ih =>
      rw [extractAll, ignore_bad delim bad, same, extract_bad reader old bad, same]
      exact ih

/-! The stream only moves forward. -/

theorem ignore_suffix (delim : Char) (is : IStream) : (is.ignore delim).rest <:+ is.rest := by
  unfold ignore
  split
  · have part := List.dropWhile_suffix (l := is.rest) (· ≠ delim)
    split
    · exact List.nil_suffix
    · rename_i found
      rw [found] at part
      exact (List.suffix_cons _ _).trans part
  · exact List.suffix_rfl

theorem extract_suffix {α : Type*} (reader : Reader α) (old : α) (is : IStream) :
    (is.extract reader old).2.rest <:+ is.rest := by
  unfold extract
  split
  · have part := List.dropWhile_suffix (l := is.rest) isSpace
    split
    · exact List.nil_suffix
    · rename_i found
      rw [found] at part
      exact (List.drop_suffix _ _).trans part
  · exact List.suffix_rfl

theorem extractAll_suffix {α : Type*} (reader : Reader α) (delim : Char) (olds : List α)
    (is : IStream) : (is.extractAll reader delim olds).2.rest <:+ is.rest := by
  induction olds generalizing is with
  | nil => exact List.suffix_rfl
  | cons old olds ih =>
      exact (ih _).trans ((extract_suffix reader old _).trans (ignore_suffix delim is))

theorem extractAll_append {α : Type*} (reader : Reader α) (delim : Char) (first second : List α)
    (is : IStream) :
    (is.extractAll reader delim (first ++ second)).2 =
      ((is.extractAll reader delim first).2.extractAll reader delim second).2 := by
  induction first generalizing is with
  | nil => rfl
  | cons old first ih => exact ih _

end IStream

/-! Tokens that end with a space. -/

/-- Nothing in the token ends its extraction. -/
def Solid (token : List Char) : Prop := ∀ c ∈ token, isSpace c = false

instance (token : List Char) : Decidable (Solid token) := List.decidableBAll _ token

/-- The reader finds `x` in the token and stops at the space behind it. -/
structure Reads {α : Type*} (reader : Reader α) (token : List Char) (x : α) : Prop where
  some : token ≠ []
  solid : Solid token
  found : ∀ rest, reader (token ++ ' ' :: rest) = ⟨token.length, x, true⟩

/-- The reader fails no later than at the space behind the token. -/
structure Rejects {α : Type*} (reader : Reader α) (token : List Char) : Prop where
  some : token ≠ []
  solid : Solid token
  fails : ∀ rest, (reader (token ++ ' ' :: rest)).ok = false
  inside : ∀ rest, (reader (token ++ ' ' :: rest)).used ≤ token.length

/-- A reader cannot do both. -/
theorem Reads.not_rejects {α : Type*} {reader : Reader α} {token : List Char} {x : α}
    (reads : Reads reader token x) : ¬ Rejects reader token := by
  intro rejects
  have fails := rejects.fails []
  rw [reads.found] at fails
  cases fails

theorem dropWhile_isSpace {token : List Char} (some : token ≠ []) (solid : Solid token)
    (rest : List Char) :
    ∃ c cs, token ++ rest = c :: cs ∧
      (' ' :: (token ++ rest)).dropWhile isSpace = c :: cs := by
  obtain ⟨c, cs, rfl⟩ := List.exists_cons_of_ne_nil some
  have first : ¬ isSpace c = true := Bool.eq_false_iff.mp (solid c List.mem_cons_self)
  refine ⟨c, cs ++ rest, rfl, ?_⟩
  rw [List.dropWhile_cons_of_pos (by decide), List.cons_append,
    List.dropWhile_cons_of_neg first]

namespace IStream

variable {α : Type*} {reader : Reader α} {token : List Char} {x : α}

theorem extract_reads (reads : Reads reader token x) (old : α) (rest : List Char) :
    ({ rest := ' ' :: (token ++ ' ' :: rest) } : IStream).extract reader old =
      (x, { rest := ' ' :: rest }) := by
  obtain ⟨c, cs, text, skipped⟩ := dropWhile_isSpace reads.some reads.solid (' ' :: rest)
  simp only [extract, good, Bool.not_false, Bool.and_self, ↓reduceIte, skipped]
  rw [← text, reads.found, List.drop_left]
  rfl

theorem extract_rejects (rejects : Rejects reader token) (old : α) (rest : List Char) :
    let is := (({ rest := ' ' :: (token ++ ' ' :: rest) } : IStream).extract reader old).2
    is.fail = true ∧ (' ' :: rest) <:+ is.rest := by
  obtain ⟨c, cs, text, skipped⟩ := dropWhile_isSpace rejects.some rejects.solid (' ' :: rest)
  simp only [extract, good, Bool.not_false, Bool.and_self, ↓reduceIte, skipped]
  rw [← text]
  refine ⟨?_, ?_⟩
  · rw [rejects.fails]
    rfl
  · rw [List.drop_append_of_le_length (rejects.inside rest)]
    exact List.suffix_append _ _

end IStream

/-! A text of fields, each with a name before the delimiter. -/

/-- `name: token ` -/
def field (delim : Char) (name token : List Char) : List Char :=
  name ++ delim :: ' ' :: (token ++ [' '])

def fields {α : Type*} (delim : Char) (put : α → List Char) (named : List (List Char × α)) :
    List Char :=
  named.flatMap fun entry => field delim entry.1 (put entry.2)

theorem fields_cons {α : Type*} (delim : Char) (put : α → List Char) (entry : List Char × α)
    (named : List (List Char × α)) (rest : List Char) :
    fields delim put (entry :: named) ++ rest =
      field delim entry.1 (put entry.2) ++ (fields delim put named ++ rest) := by
  simp [fields]

namespace IStream

variable {α : Type*} {reader : Reader α} {delim : Char} {put : α → List Char}

/-- The field behind the space that the last one ended with. -/
theorem ignore_field {name token : List Char} (separate : delim ≠ ' ') (absent : delim ∉ name)
    (rest : List Char) :
    ({ rest := ' ' :: (field delim name token ++ rest) } : IStream).ignore delim =
      { rest := ' ' :: (token ++ ' ' :: rest) } := by
  have text : ' ' :: (field delim name token ++ rest) =
      (' ' :: name) ++ delim :: ' ' :: (token ++ ' ' :: rest) := by
    simp [field]
  rw [text]
  apply ignore_found
  rw [List.mem_cons, not_or]
  exact ⟨separate, absent⟩

/-- As many values as there are fields, or fewer. Each field is read as `back` says. -/
theorem extractAll_reads {back : α → α} (separate : delim ≠ ' ') {named : List (List Char × α)}
    (absent : ∀ entry ∈ named, delim ∉ entry.1)
    (reads : ∀ entry ∈ named, Reads reader (put entry.2) (back entry.2)) {olds : List α}
    (enough : olds.length ≤ named.length) (rest : List Char) :
    ({ rest := ' ' :: (fields delim put named ++ rest) } : IStream).extractAll reader delim olds =
      ((named.take olds.length).map fun entry => back entry.2,
        { rest := ' ' :: (fields delim put (named.drop olds.length) ++ rest) }) := by
  induction olds generalizing named with
  | nil => rfl
  | cons old olds ih =>
      cases named with
      | nil => exact absurd enough (Nat.not_succ_le_zero _)
      | cons entry named =>
          have later := ih (fun e member => absent e (List.mem_cons_of_mem _ member))
            (fun e member => reads e (List.mem_cons_of_mem _ member))
            (Nat.le_of_succ_le_succ enough)
          rw [extractAll, fields_cons, ignore_field separate (absent entry List.mem_cons_self),
            extract_reads (reads entry List.mem_cons_self), later]
          rfl

/-- If the reader rejects a field, the stream stops before the text behind the fields. -/
theorem extractAll_rejects (separate : delim ≠ ' ') {named : List (List Char × α)}
    (absent : ∀ entry ∈ named, delim ∉ entry.1)
    (decided : ∀ entry ∈ named, (∃ x, Reads reader (put entry.2) x) ∨
      Rejects reader (put entry.2))
    (some : ∃ entry ∈ named, Rejects reader (put entry.2)) {olds : List α}
    (enough : named.length ≤ olds.length) (rest : List Char) :
    let is := (({ rest := ' ' :: (fields delim put named ++ rest) } : IStream).extractAll
      reader delim olds).2
    is.fail = true ∧ rest <:+ is.rest := by
  induction named generalizing olds with
  | nil =>
      obtain ⟨entry, member, _⟩ := some
      exact absurd member List.not_mem_nil
  | cons entry named ih =>
      cases olds with
      | nil => exact absurd enough (Nat.not_succ_le_zero _)
      | cons old olds =>
          rw [extractAll, fields_cons, ignore_field separate (absent entry List.mem_cons_self)]
          rcases decided entry List.mem_cons_self with ⟨x, reads⟩ | rejects
          · rw [extract_reads reads]
            apply ih (fun e member => absent e (List.mem_cons_of_mem _ member))
              (fun e member => decided e (List.mem_cons_of_mem _ member)) _
              (Nat.le_of_succ_le_succ enough)
            obtain ⟨e, member, bad⟩ := some
            rcases List.mem_cons.mp member with rfl | later
            · exact absurd bad reads.not_rejects
            · exact ⟨e, later, bad⟩
          · obtain ⟨failed, behind⟩ :=
              extract_rejects rejects old (fields delim put named ++ rest)
            dsimp only
            rw [extractAll_failed reader delim olds failed]
            refine ⟨failed, ?_⟩
            exact ((List.suffix_append _ _).trans (List.suffix_cons _ _)).trans behind

end IStream

end Text
