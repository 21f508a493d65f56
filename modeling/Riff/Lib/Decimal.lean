import Riff.Lib.Double
import Riff.Lib.Istream
import Mathlib.Data.Int.Log
import Mathlib.Data.List.DropRight

set_option autoImplicit false

namespace Text

open Exact

/-! Six significant digits. -/

def roundHalfEven (q : ℚ) : ℕ :=
  let below := ⌊q⌋₊
  let gap := q - below
  if gap < 1 / 2 then below
  else if 1 / 2 < gap then below + 1
  else if below % 2 = 0 then below else below + 1

/-- The digits and the exponent of a positive number: `m * 10 ^ (x - 5)`. -/
def significant (q : ℚ) : ℕ × ℤ :=
  let x := Int.log 10 q
  let m := roundHalfEven (q * 10 ^ (5 - x))
  if m = 10 ^ 6 then (10 ^ 5, x + 1) else (m, x)

def roundSix (q : ℚ) : ℚ :=
  let (m, x) := significant |q|
  if q = 0 then 0 else (if q < 0 then -1 else 1) * (m * 10 ^ (x - 5))

/-! `%g` with precision 6. -/

def stripped (cs : List Char) : List Char := cs.rdropWhile (· = '0')

/-- Digits with a point in between, if anything is left behind it. -/
def pointed (whole fraction : List Char) : List Char :=
  whole ++ if stripped fraction = [] then [] else '.' :: stripped fraction

/-- An exponent has two digits at least. -/
def powerText (x : ℤ) : List Char :=
  'e' :: (if x < 0 then '-' else '+') ::
    ((if x.natAbs < 10 then ['0'] else []) ++ Nat.toDigits 10 x.natAbs)

def positiveText (q : ℚ) : List Char :=
  let (m, x) := significant q
  let digits := Nat.toDigits 10 m
  if -4 ≤ x ∧ x < 6 then
    if 0 ≤ x then
      pointed (digits.take (x.toNat + 1)) (digits.drop (x.toNat + 1))
    else
      pointed ['0'] (List.replicate (-x - 1).toNat '0' ++ digits)
  else
    pointed (digits.take 1) (digits.drop 1) ++ powerText x

/-- The default form of a floating value on an output stream. -/
def putDouble : Double → List Char
  | .nan => "nan".toList
  | .infinite negative => if negative then "-inf".toList else "inf".toList
  | .finite q =>
      if q = 0 then ['0'] else (if q < 0 then ['-'] else []) ++ positiveText |q|

/-! Extraction of a floating value. -/

def dropSign : List Char → Bool × List Char
  | '-' :: cs => (true, cs)
  | '+' :: cs => (false, cs)
  | cs => (false, cs)

def digitsOf (cs : List Char) : List Char × List Char :=
  (cs.takeWhile Char.isDigit, cs.dropWhile Char.isDigit)

/-- The digits behind a point, if there is one. -/
def fractionOf : List Char → List Char × List Char
  | '.' :: cs => digitsOf cs
  | cs => ([], cs)

/-- The exponent, if there is one; `none` if it has no digits. -/
def powerOf : List Char → Option ℤ × List Char
  | c :: cs =>
      if c = 'e' ∨ c = 'E' then
        let (negative, unsigned) := dropSign cs
        let (digits, rest) := digitsOf unsigned
        if digits = [] then (none, rest)
        else
          let power : ℤ := Nat.ofDigitChars 10 digits 0
          (some (if negative then -power else power), rest)
      else (some 0, c :: cs)
  | [] => (some 0, [])

/-- The characters that can belong to a number are accepted. If they do not make one, zero
is stored. -/
def getDouble : Reader Double := fun cs =>
  let (negative, unsigned) := dropSign cs
  let (whole, behindWhole) := digitsOf unsigned
  let (fraction, behindFraction) := fractionOf behindWhole
  if whole = [] ∧ fraction = [] then
    { used := cs.length - behindFraction.length, value := 0, ok := false }
  else
    match powerOf behindFraction with
    | (none, rest) => { used := cs.length - rest.length, value := 0, ok := false }
    | (some power, rest) =>
        let mantissa : ℚ := Nat.ofDigitChars 10 (whole ++ fraction) 0
        { used := cs.length - rest.length
          value := .finite ((if negative then -1 else 1) *
            (mantissa * 10 ^ (power - fraction.length)))
          ok := true }

/-! Scanning a number that is written in one of the forms above. -/

def Digits (cs : List Char) : Prop := ∀ c ∈ cs, c.isDigit = true

instance (cs : List Char) : Decidable (Digits cs) := List.decidableBAll _ cs

theorem digitsOf_append {digits : List Char} (all : Digits digits) {c : Char}
    (stop : c.isDigit = false) (rest : List Char) :
    digitsOf (digits ++ c :: rest) = (digits, c :: rest) := by
  have first : ¬ c.isDigit = true := Bool.eq_false_iff.mp stop
  rw [digitsOf, List.takeWhile_append_of_pos all, List.dropWhile_append_of_pos all,
    List.takeWhile_cons_of_neg first, List.dropWhile_cons_of_neg first, List.append_nil]

theorem toDigits_digits (m : ℕ) : Digits (Nat.toDigits 10 m) :=
  fun _ member => Nat.isDigit_of_mem_toDigits (by decide) (by decide) member

theorem dropSign_digits {digits : List Char} (all : Digits digits) (some : digits ≠ [])
    (negative : Bool) (rest : List Char) :
    dropSign ((if negative then ['-'] else []) ++ (digits ++ rest)) = (negative, digits ++ rest) := by
  obtain ⟨c, cs, rfl⟩ := List.exists_cons_of_ne_nil some
  have digit : c.isDigit = true := all c List.mem_cons_self
  cases negative with
  | true => rfl
  | false =>
      rw [if_neg Bool.false_ne_true, List.nil_append, List.cons_append]
      unfold dropSign
      split
      · rename_i same
        cases same
        exact absurd digit (by decide)
      · rename_i same
        cases same
        exact absurd digit (by decide)
      · rfl

theorem fractionOf_pointed {fraction : List Char} (all : Digits fraction) {c : Char}
    (stop : c.isDigit = false) (point : c ≠ '.') (rest : List Char) :
    fractionOf ((if fraction = [] then [] else '.' :: fraction) ++ c :: rest) =
      (fraction, c :: rest) := by
  by_cases none : fraction = []
  · rw [if_pos none, none, List.nil_append]
    unfold fractionOf
    split
    · rename_i same
      cases same
      exact absurd rfl point
    · rfl
  · rw [if_neg none]
    exact digitsOf_append all stop rest

theorem powerOf_none (rest : List Char) : powerOf (' ' :: rest) = (some 0, ' ' :: rest) := rfl

theorem powerOf_powerText (x : ℤ) (rest : List Char) :
    powerOf (powerText x ++ ' ' :: rest) = (some x, ' ' :: rest) := by
  let digits := (if x.natAbs < 10 then ['0'] else []) ++ Nat.toDigits 10 x.natAbs
  have all : Digits digits := by
    intro c member
    rcases List.mem_append.mp member with zero | digit
    · split at zero
      · cases List.mem_singleton.mp zero
        rfl
      · exact absurd zero List.not_mem_nil
    · exact toDigits_digits _ c digit
  have some : digits ≠ [] := List.append_ne_nil_of_right_ne_nil _ Nat.toDigits_ne_nil
  have value : Nat.ofDigitChars 10 digits 0 = x.natAbs := by
    rw [Nat.ofDigitChars_append]
    split <;> exact Nat.ofDigitChars_ten_toDigits
  have scanned : digitsOf (digits ++ ' ' :: rest) = (digits, ' ' :: rest) :=
    digitsOf_append all (by decide) rest
  have signed : dropSign ((if x < 0 then '-' else '+') :: (digits ++ ' ' :: rest)) =
      (decide (x < 0), digits ++ ' ' :: rest) := by
    by_cases below : x < 0
    · simp only [below, ↓reduceIte, decide_true]
      rfl
    · simp only [below, ↓reduceIte, decide_false]
      rfl
  change powerOf ('e' :: (if x < 0 then '-' else '+') :: (digits ++ ' ' :: rest)) = _
  simp only [powerOf, true_or, ↓reduceIte, signed, scanned, some, value]
  by_cases below : x < 0
  · simp only [below, decide_true, ↓reduceIte]
    rw [show -(x.natAbs : ℤ) = x by omega]
  · simp only [below, decide_false, Bool.false_eq_true, ↓reduceIte]
    rw [show (x.natAbs : ℤ) = x by omega]

/-- What may stand behind the digits: nothing, or an exponent. -/
inductive Power : List Char → ℤ → Prop
  | absent : Power [] 0
  | given (x : ℤ) : Power (powerText x) x

theorem Power.scanned {tail : List Char} {power : ℤ} (powers : Power tail power)
    (rest : List Char) : powerOf (tail ++ ' ' :: rest) = (some power, ' ' :: rest) := by
  cases powers with
  | absent => exact powerOf_none rest
  | given => exact powerOf_powerText power rest

theorem Power.stops {tail : List Char} {power : ℤ} (powers : Power tail power)
    (rest : List Char) :
    ∃ c cs, tail ++ ' ' :: rest = c :: cs ∧ c.isDigit = false ∧ c ≠ '.' := by
  cases powers with
  | absent => exact ⟨' ', rest, rfl, by decide, by decide⟩
  | given => exact ⟨'e', _, rfl, by decide, by decide⟩

theorem getDouble_literal {negative : Bool} {whole fraction tail : List Char} {power : ℤ}
    (wholes : Digits whole) (some : whole ≠ []) (fractions : Digits fraction)
    (powers : Power tail power) (rest : List Char) :
    let text := (if negative then ['-'] else []) ++
      (whole ++ ((if fraction = [] then [] else '.' :: fraction) ++ tail))
    getDouble (text ++ ' ' :: rest) =
      { used := text.length
        value := .finite ((if negative then -1 else 1) *
          ((Nat.ofDigitChars 10 (whole ++ fraction) 0 : ℕ) * 10 ^ (power - fraction.length)))
        ok := true } := by
  intro text
  obtain ⟨c, cs, behind, stop, point⟩ := powers.stops rest
  have split : text ++ ' ' :: rest = (if negative then ['-'] else []) ++
      (whole ++ ((if fraction = [] then [] else '.' :: fraction) ++ c :: cs)) := by
    rw [← behind]
    simp only [text, List.append_assoc]
  have scansWhole : digitsOf (whole ++ ((if fraction = [] then [] else '.' :: fraction) ++ c :: cs)) =
      (whole, (if fraction = [] then [] else '.' :: fraction) ++ c :: cs) := by
    by_cases none : fraction = []
    · rw [if_pos none]
      exact digitsOf_append wholes stop cs
    · rw [if_neg none]
      exact digitsOf_append wholes (by decide) _
  have scansPower : powerOf (c :: cs) = (Option.some power, ' ' :: rest) := by
    rw [← behind]
    exact powers.scanned rest
  have count : (text ++ ' ' :: rest).length - (' ' :: rest).length = text.length := by
    rw [List.length_append, Nat.add_sub_cancel]
  rw [split] at count ⊢
  simp only [getDouble, dropSign_digits wholes some, scansWhole,
    fractionOf_pointed fractions stop point, some, false_and, ↓reduceIte, scansPower, count]

/-! What the text of a number stands for. -/

/-- Zeros at the end of a fraction do not count. -/
theorem ofDigitChars_stripped (whole fraction : List Char) (power : ℤ) :
    ((Nat.ofDigitChars 10 (whole ++ stripped fraction) 0 : ℕ) : ℚ) *
        10 ^ (power - (stripped fraction).length) =
      (Nat.ofDigitChars 10 (whole ++ fraction) 0 : ℕ) * 10 ^ (power - fraction.length) := by
  induction fraction using List.reverseRecOn with
  | nil => rfl
  | append_singleton cs c ih =>
      by_cases zero : c = '0'
      · subst zero
        have value : Nat.ofDigitChars 10 (whole ++ (cs ++ ['0'])) 0 =
            10 * Nat.ofDigitChars 10 (whole ++ cs) 0 := by
          rw [← List.append_assoc, Nat.ofDigitChars_append]
          simp [Nat.ofDigitChars_cons]
        rw [stripped, List.rdropWhile_concat_pos _ _ _ (by decide), ← stripped, ih, value,
          List.length_append, List.length_singleton]
        push_cast
        rw [show power - (cs.length : ℤ) = (power - (cs.length + 1)) + 1 by ring,
          zpow_add_one₀ (by norm_num)]
        ring
      · rw [stripped, List.rdropWhile_concat_neg _ _ _ (by simpa using zero)]

theorem stripped_digits {fraction : List Char} (all : Digits fraction) :
    Digits (stripped fraction) :=
  fun c member => all c ((List.rdropWhile_prefix _ _).subset member)

theorem roundHalfEven_natCast (n : ℕ) : roundHalfEven (n : ℚ) = n := by
  simp [roundHalfEven]

theorem roundHalfEven_bounds (q : ℚ) : ⌊q⌋₊ ≤ roundHalfEven q ∧ roundHalfEven q ≤ ⌊q⌋₊ + 1 := by
  unfold roundHalfEven
  dsimp only
  split_ifs <;> omega

/-- There are six digits. -/
theorem significant_bounds {q : ℚ} (positive : 0 < q) :
    10 ^ 5 ≤ (significant q).1 ∧ (significant q).1 < 10 ^ 6 := by
  have ten : (1 : ℕ) < 10 := by decide
  have lower : (10 : ℚ) ^ Int.log 10 q ≤ q := by exact_mod_cast Int.zpow_log_le_self ten positive
  have upper : q < (10 : ℚ) ^ (Int.log 10 q + 1) := by
    exact_mod_cast Int.lt_zpow_succ_log_self ten q
  have scale : (0 : ℚ) < 10 ^ (5 - Int.log 10 q) := zpow_pos (by norm_num) _
  have least : ((10 ^ 5 : ℕ) : ℚ) ≤ q * 10 ^ (5 - Int.log 10 q) := by
    calc ((10 ^ 5 : ℕ) : ℚ) = 10 ^ Int.log 10 q * 10 ^ (5 - Int.log 10 q) := by
          rw [← zpow_add₀ (by norm_num), add_sub_cancel]
          norm_num
      _ ≤ q * 10 ^ (5 - Int.log 10 q) := by gcongr
  have most : q * 10 ^ (5 - Int.log 10 q) < ((10 ^ 6 : ℕ) : ℚ) := by
    calc q * 10 ^ (5 - Int.log 10 q)
        < 10 ^ (Int.log 10 q + 1) * 10 ^ (5 - Int.log 10 q) := by gcongr
      _ = ((10 ^ 6 : ℕ) : ℚ) := by
          rw [← zpow_add₀ (by norm_num),
            show Int.log 10 q + 1 + (5 - Int.log 10 q) = 6 by ring]
          norm_num
  have nonnegative : 0 ≤ q * 10 ^ (5 - Int.log 10 q) := (mul_pos positive scale).le
  have floorLeast := (Nat.le_floor_iff nonnegative).mpr least
  have floorMost := (Nat.floor_lt nonnegative).mpr most
  obtain ⟨below, above⟩ := roundHalfEven_bounds (q * 10 ^ (5 - Int.log 10 q))
  unfold significant
  dsimp only
  split
  · exact ⟨le_rfl, by norm_num⟩
  · dsimp only
    omega

/-- The carry into a seventh digit does not change the value. -/
theorem significant_value (q : ℚ) :
    ((significant q).1 : ℚ) * 10 ^ ((significant q).2 - 5) =
      roundHalfEven (q * 10 ^ (5 - Int.log 10 q)) * 10 ^ (Int.log 10 q - 5) := by
  unfold significant
  dsimp only
  split
  · rename_i carry
    rw [carry, show Int.log 10 q + 1 - 5 = (Int.log 10 q - 5) + 1 by ring,
      zpow_add_one₀ (by norm_num)]
    push_cast
    ring
  · rfl

theorem toDigits_significant {q : ℚ} (positive : 0 < q) :
    (Nat.toDigits 10 (significant q).1).length = 6 := by
  obtain ⟨least, most⟩ := significant_bounds positive
  have upper := (Nat.length_toDigits_le_iff (b := 10) (n := (significant q).1) (k := 6)
    (by decide) (by decide)).mpr most
  have lower := mt (Nat.length_toDigits_le_iff (b := 10) (n := (significant q).1) (k := 5)
    (by decide) (by decide)).mp (Nat.not_lt.mpr least)
  omega

/-- How the text of a positive number is made up, in each of the three forms. -/
structure Written (text : List Char) (m : ℕ) (x : ℤ) (whole fraction tail : List Char)
    (power : ℤ) : Prop where
  text : text = pointed whole fraction ++ tail
  wholes : Digits whole
  some : whole ≠ []
  fractions : Digits fraction
  powers : Power tail power
  value : ((Nat.ofDigitChars 10 (whole ++ fraction) 0 : ℕ) : ℚ) * 10 ^ (power - fraction.length) =
    m * 10 ^ (x - 5)

theorem positiveText_written {q : ℚ} (positive : 0 < q) :
    ∃ whole fraction tail power, Written (positiveText q) (significant q).1 (significant q).2
      whole fraction tail power := by
  have six := toDigits_significant positive
  have all := toDigits_digits (significant q).1
  have read : Nat.ofDigitChars 10 (Nat.toDigits 10 (significant q).1) 0 = (significant q).1 :=
    Nat.ofDigitChars_ten_toDigits
  unfold positiveText
  dsimp only
  generalize (significant q).1 = m at *
  generalize (significant q).2 = x at *
  generalize Nat.toDigits 10 m = digits at *
  have cut : ∀ k, 0 < k → k ≤ 6 → Digits (digits.take k) ∧ digits.take k ≠ [] ∧
      Digits (digits.drop k) ∧ digits.take k ++ digits.drop k = digits ∧
      (digits.drop k).length = 6 - k := by
    intro k some most
    refine ⟨fun c member => all c (List.mem_of_mem_take member), ?_,
      fun c member => all c (List.mem_of_mem_drop member), List.take_append_drop k digits, ?_⟩
    · apply List.ne_nil_of_length_pos
      rw [List.length_take]
      omega
    · rw [List.length_drop, six]
  split
  · rename_i fixed
    split
    · rename_i large
      obtain ⟨wholes, some, fractions, whole, count⟩ := cut (x.toNat + 1) (by omega) (by omega)
      refine ⟨_, _, [], 0, (List.append_nil _).symm, wholes, some, fractions, .absent, ?_⟩
      rw [whole, read, count]
      congr 2
      omega
    · rename_i small
      refine ⟨_, _, [], 0, (List.append_nil _).symm, ?_, List.cons_ne_nil _ _, ?_, .absent, ?_⟩
      · intro c member
        cases List.mem_singleton.mp member
        rfl
      · intro c member
        rcases List.mem_append.mp member with zero | digit
        · rw [List.eq_of_mem_replicate zero]
          rfl
        · exact all c digit
      · have zeros : Nat.ofDigitChars 10
            (['0'] ++ (List.replicate (-x - 1).toNat '0' ++ digits)) 0 = m := by
          rw [Nat.ofDigitChars_append, Nat.ofDigitChars_append, Nat.ofDigitChars_replicate_zero]
          simpa [Nat.ofDigitChars_cons] using read
        rw [zeros, List.length_append, List.length_replicate, six]
        congr 2
        push_cast
        omega
  · obtain ⟨wholes, some, fractions, whole, count⟩ := cut 1 (by decide) (by decide)
    refine ⟨_, _, powerText x, x, rfl, wholes, some, fractions, .given x, ?_⟩
    rw [whole, read, count]
    rfl

/-! Which characters occur. -/

def isNumeric (c : Char) : Bool :=
  c.isDigit || c = '.' || c = 'e' || c = '-' || c = '+'

def Numeric (cs : List Char) : Prop := ∀ c ∈ cs, isNumeric c = true

theorem Digits.numeric {cs : List Char} (all : Digits cs) : Numeric cs := by
  intro c member
  simp [isNumeric, all c member]

theorem Numeric.append {first second : List Char} (left : Numeric first) (right : Numeric second) :
    Numeric (first ++ second) := by
  intro c member
  exact (List.mem_append.mp member).elim (left c) (right c)

theorem Numeric.cons {c : Char} {cs : List Char} (first : isNumeric c = true)
    (others : Numeric cs) : Numeric (c :: cs) := by
  intro d member
  rcases List.mem_cons.mp member with rfl | later
  · exact first
  · exact others d later

theorem numeric_nil : Numeric [] := fun _ member => absurd member List.not_mem_nil

theorem powerText_numeric (x : ℤ) : Numeric (powerText x) := by
  apply Numeric.cons (by decide)
  apply Numeric.cons
  · split <;> decide
  · apply Numeric.append
    · split
      · exact Numeric.cons (by decide) numeric_nil
      · exact numeric_nil
    · exact (toDigits_digits _).numeric

theorem Written.numeric {text whole fraction tail : List Char} {m : ℕ} {x power : ℤ}
    (written : Written text m x whole fraction tail power) : Numeric text := by
  rw [written.text, pointed]
  apply Numeric.append (written.wholes.numeric.append _)
  · cases written.powers with
    | absent => exact numeric_nil
    | given => exact powerText_numeric power
  · split
    · exact numeric_nil
    · exact Numeric.cons (by decide) (stripped_digits written.fractions).numeric

theorem putDouble_numeric (q : ℚ) : Numeric (putDouble (.finite q)) := by
  rw [putDouble]
  split
  · exact Numeric.cons (by decide) numeric_nil
  · rename_i nonzero
    obtain ⟨_, _, _, _, written⟩ := positiveText_written (abs_pos.mpr nonzero)
    apply Numeric.append _ written.numeric
    split
    · exact Numeric.cons (by decide) numeric_nil
    · exact numeric_nil

theorem Numeric.solid {cs : List Char} (numeric : Numeric cs) : Solid cs := by
  intro c member
  have one := numeric c member
  simp only [isNumeric, Bool.or_eq_true, decide_eq_true_eq] at one
  rcases one with (((digit | rfl) | rfl) | rfl) | rfl
  · simp only [Char.isDigit, ge_iff_le, Bool.and_eq_true, decide_eq_true_eq, UInt32.le_iff_toNat_le] at digit
    have range : 48 ≤ c.toNat := digit.1
    have other : c ≠ ' ' := by
      rintro rfl
      exact absurd range (by decide)
    simp only [isSpace, other, decide_false, Bool.false_or, Bool.and_eq_false_iff,
      decide_eq_false_iff_not]
    omega
  all_goals decide

/-! Reading a number back. -/

theorem putDouble_some (q : ℚ) : putDouble (.finite q) ≠ [] := by
  rw [putDouble]
  split
  · exact List.cons_ne_nil _ _
  · rename_i nonzero
    obtain ⟨whole, fraction, tail, power, written⟩ := positiveText_written (abs_pos.mpr nonzero)
    apply List.append_ne_nil_of_right_ne_nil
    rw [written.text, pointed, List.append_assoc]
    exact List.append_ne_nil_of_left_ne_nil written.some _

/-- What is written is read as the number with six significant digits. -/
theorem reads_putDouble (q : ℚ) :
    Reads getDouble (putDouble (.finite q)) (.finite (roundSix q)) := by
  refine ⟨putDouble_some q, (putDouble_numeric q).solid, ?_⟩
  intro rest
  by_cases zero : q = 0
  · subst zero
    have text : putDouble (.finite 0) = ['0'] := by simp [putDouble]
    have value : roundSix 0 = 0 := by simp [roundSix]
    have literal := @getDouble_literal false ['0'] [] [] 0 (by decide) (by decide) (by decide) .absent
      rest
    rw [text, value]
    simpa [Nat.ofDigitChars_cons] using literal
  · obtain ⟨whole, fraction, tail, power, written⟩ := positiveText_written (abs_pos.mpr zero)
    have text : putDouble (.finite q) = (if decide (q < 0) then ['-'] else []) ++
        (whole ++ ((if stripped fraction = [] then [] else '.' :: stripped fraction) ++ tail)) := by
      simp only [putDouble, zero, ↓reduceIte, written.text, pointed, List.append_assoc,
        decide_eq_true_eq]
    have value : roundSix q = (if decide (q < 0) then -1 else 1) *
        ((Nat.ofDigitChars 10 (whole ++ stripped fraction) 0 : ℕ) *
          10 ^ (power - (stripped fraction).length)) := by
      rw [ofDigitChars_stripped, written.value]
      simp only [roundSix, zero, ↓reduceIte, decide_eq_true_eq]
    rw [text, value]
    exact getDouble_literal written.wholes written.some (stripped_digits written.fractions)
      written.powers rest

theorem getDouble_rejects {cs unsigned : List Char} {negative : Bool} {c : Char}
    (signed : dropSign cs = (negative, c :: unsigned)) (digit : c.isDigit = false)
    (point : c ≠ '.') :
    getDouble cs = { used := cs.length - (unsigned.length + 1), value := 0, ok := false } := by
  have whole : digitsOf (c :: unsigned) = ([], c :: unsigned) :=
    @digitsOf_append [] (by decide) c digit unsigned
  have fraction : fractionOf (c :: unsigned) = ([], c :: unsigned) := by
    unfold fractionOf
    split
    · rename_i same
      cases same
      exact absurd rfl point
    · rfl
  simp only [getDouble, signed, whole, fraction, and_self, ↓reduceIte, List.length_cons]

/-- The special values have texts that no number begins with. -/
theorem rejects_putDouble {x : Double} (special : ∀ q, x ≠ .finite q) :
    Rejects getDouble (putDouble x) := by
  cases x with
  | finite q => exact absurd rfl (special q)
  | nan =>
      have found : ∀ rest, getDouble (putDouble .nan ++ ' ' :: rest) = ⟨0, 0, false⟩ := by
        intro rest
        rw [@getDouble_rejects _ ('a' :: 'n' :: ' ' :: rest) false 'n' rfl rfl (by decide)]
        simp [putDouble]
      refine ⟨by decide, by decide, ?_, ?_⟩ <;> intro rest <;> rw [found]
      exact Nat.zero_le _
  | infinite negative =>
      have found : ∀ rest, getDouble (putDouble (.infinite negative) ++ ' ' :: rest) =
          ⟨if negative then 1 else 0, 0, false⟩ := by
        intro rest
        cases negative with
        | false =>
            rw [@getDouble_rejects _ ('n' :: 'f' :: ' ' :: rest) false 'i' rfl rfl (by decide)]
            simp [putDouble]
        | true =>
            rw [@getDouble_rejects _ ('n' :: 'f' :: ' ' :: rest) true 'i' rfl rfl (by decide)]
            simp [putDouble]
      refine ⟨?_, ?_, ?_, ?_⟩
      · cases negative <;> decide
      · cases negative <;> decide
      · intro rest
        rw [found]
      · intro rest
        rw [found]
        cases negative <;> decide

/-! Which numbers survive. -/

theorem roundSix_natCast {n : ℕ} (positive : 0 < n) :
    roundSix (n : ℚ) =
      roundHalfEven ((n : ℚ) * 10 ^ (5 - (Nat.log 10 n : ℤ))) * 10 ^ ((Nat.log 10 n : ℤ) - 5) := by
  have large : (0 : ℚ) < n := by exact_mod_cast positive
  have value := significant_value (n : ℚ)
  rw [Int.log_natCast] at value
  rw [← value]
  simp only [roundSix, abs_of_pos large, large.ne', not_lt.mpr large.le, ↓reduceIte, one_mul]

/-- A natural number survives if it has six significant digits at most. -/
theorem roundSix_natCast_iff (n : ℕ) : roundSix (n : ℚ) = n ↔ n % 10 ^ (Nat.log 10 n - 5) = 0 := by
  rcases Nat.eq_zero_or_pos n with rfl | positive
  · simp [roundSix]
  rw [roundSix_natCast positive]
  rcases Nat.lt_or_ge (Nat.log 10 n) 6 with small | large
  · have whole : (n : ℚ) * 10 ^ (5 - (Nat.log 10 n : ℤ)) =
        ((n * 10 ^ (5 - Nat.log 10 n) : ℕ) : ℚ) := by
      rw [show (5 : ℤ) - Nat.log 10 n = ((5 - Nat.log 10 n : ℕ) : ℤ) by omega, zpow_natCast]
      push_cast
      rfl
    have trivial : Nat.log 10 n - 5 = 0 := by omega
    rw [whole, roundHalfEven_natCast, ← whole, trivial, pow_zero, Nat.mod_one, mul_assoc,
      ← zpow_add₀ (by norm_num)]
    simp
  · obtain ⟨k, excess⟩ : ∃ k, Nat.log 10 n = k + 5 := ⟨Nat.log 10 n - 5, by omega⟩
    have scale : (0 : ℚ) < ((10 ^ k : ℕ) : ℚ) := by positivity
    have down : (n : ℚ) * 10 ^ (5 - (Nat.log 10 n : ℤ)) = (n : ℚ) / ((10 ^ k : ℕ) : ℚ) := by
      rw [excess, show (5 : ℤ) - (k + 5 : ℕ) = -(k : ℤ) by omega, zpow_neg, zpow_natCast,
        div_eq_mul_inv]
      push_cast
      rfl
    have up : (10 : ℚ) ^ ((Nat.log 10 n : ℤ) - 5) = ((10 ^ k : ℕ) : ℚ) := by
      rw [excess, show ((k + 5 : ℕ) : ℤ) - 5 = (k : ℤ) by omega, zpow_natCast]
      push_cast
      rfl
    rw [down, up, excess, Nat.add_sub_cancel]
    constructor
    · intro same
      have natural : roundHalfEven ((n : ℚ) / ((10 ^ k : ℕ) : ℚ)) * 10 ^ k = n := by
        exact_mod_cast same
      rw [← natural]
      exact Nat.mul_mod_left _ _
    · intro divides
      obtain ⟨c, rfl⟩ := Nat.dvd_of_mod_eq_zero divides
      have exact : ((10 ^ k * c : ℕ) : ℚ) / ((10 ^ k : ℕ) : ℚ) = (c : ℕ) := by
        rw [Nat.cast_mul, mul_div_cancel_left₀ _ scale.ne']
      rw [exact, roundHalfEven_natCast]
      push_cast
      ring

end Text
