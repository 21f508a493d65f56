import Riff.Estimate
import Riff.SamplingLength

set_option autoImplicit false

namespace Riff

open Exact

/-- The time of a `begin()`. -/
def Call.opening : Call → Option ℕ
  | .beginAt now => some now
  | _ => none

def begins (calls : List Call) : List ℕ := calls.filterMap Call.opening

/-- An `end()` that is recorded, by the time of its `begin()`. -/
def recordedBegin : Call → ThreadData → ℕ → Option ℕ
  | .endAt _ _, t, opened => if t.currentSample = 0 then some opened else none
  | _, _, _ => none

/-- A period of the program. -/
def Between (lo hi first second : ℕ) : Prop := first + lo ≤ second ∧ second ≤ first + hi

/-- The distance that the configuration asks for, up to the spread of the periods. -/
def Apart (configuration : ApplicationConfiguration) (lo hi first second : ℕ) : Prop :=
  configuration.samplingLengthMs * 1000000 * lo ≤ hi * ((second : ℚ) - first) ∧
    lo * ((second : ℚ) - first) < hi * (configuration.samplingLengthMs * 1000000 + lo)

/-- What a measured period between the bounds makes of the sampling length. -/
def Settled (configuration : ApplicationConfiguration) (lo hi length : ℕ) : Prop :=
  ⌈configuration.samplingLengthMs * 1000000 / hi⌉₊ ≤ length ∧
    length ≤ ⌈configuration.samplingLengthMs * 1000000 / lo⌉₊

variable {build : Build} {configuration : ApplicationConfiguration} {lo hi : ℕ}

theorem begins_snoc (past : List Call) (c : Call) :
    begins (past ++ [c]) = begins past ++ c.opening.toList := by
  rw [begins, List.filterMap_append]
  cases opening : c.opening <;> simp [begins, opening]

theorem Settled.apart {length first second : ℕ} (sampling : 0 < configuration.samplingLengthMs)
    (least : 0 < lo) (bounds : lo ≤ hi) (settled : Settled configuration lo hi length)
    (below : first + length * lo ≤ second) (above : second ≤ first + length * hi) :
    Apart configuration lo hi first second := by
  obtain ⟨shortest, longest⟩ := settled
  have small : (0 : ℚ) < lo := by exact_mod_cast least
  have large : (0 : ℚ) < hi := by exact_mod_cast Nat.lt_of_lt_of_le least bounds
  have lower : (first : ℚ) + length * lo ≤ second := by exact_mod_cast below
  have upper : (second : ℚ) ≤ first + length * hi := by exact_mod_cast above
  have enough : configuration.samplingLengthMs * 1000000 ≤ length * hi := by
    rw [← div_le_iff₀ large]
    exact (Nat.le_ceil _).trans (by exact_mod_cast shortest)
  have few : (length : ℚ) < configuration.samplingLengthMs * 1000000 / lo + 1 :=
    lt_of_le_of_lt (by exact_mod_cast longest) (Nat.ceil_lt_add_one (by positivity))
  constructor
  · calc configuration.samplingLengthMs * 1000000 * lo
        ≤ length * hi * lo := by gcongr
      _ = hi * (length * lo) := by ring
      _ ≤ hi * ((second : ℚ) - first) := by
          gcongr
          linarith
  · calc lo * ((second : ℚ) - first)
        ≤ lo * (length * hi) := by
          gcongr
          linarith
      _ = lo * hi * length := by ring
      _ < lo * hi * (configuration.samplingLengthMs * 1000000 / lo + 1) := by gcongr
      _ = hi * (configuration.samplingLengthMs * 1000000 + lo) := by
          field_simp

/-! The periods of the window that an observer notes. -/

structure Paced (lo hi : ℕ) (p : Phase) (w : Window) : Prop where
  inside : p = .inside → ∀ x ∈ periods w.pairs w.opened, lo ≤ x ∧ x ≤ hi
  outside : p = .outside → ∀ next, Between lo hi w.opened next →
    ∀ x ∈ periods w.pairs next, lo ≤ x ∧ x ≤ hi

theorem Paced.fresh (now : ℕ) : Paced lo hi .inside { start := now, opened := now } where
  inside _ _ member := absurd member List.not_mem_nil
  outside outside := by cases outside

theorem Paced.beginAt {now : ℕ} {w : Window} (later : Between lo hi w.opened now)
    (paced : Paced lo hi .outside w) : Paced lo hi .inside { w with opened := now } where
  inside _ := paced.outside rfl now later
  outside outside := by cases outside

theorem Paced.endAt {now : ℕ} {w : Window} (length : ℕ) (paced : Paced lo hi .inside w) :
    Paced lo hi .outside { w with pairs := w.pairs ++ [⟨w.opened, now, length⟩] } where
  inside inside := by cases inside
  outside _ next between x member := by
    rw [periods_append] at member
    rcases List.mem_append.mp member with earlier | last
    · exact paced.inside rfl x earlier
    · cases List.mem_singleton.mp last
      obtain ⟨least, greatest⟩ : w.opened + lo ≤ next ∧ next ≤ w.opened + hi := between
      change lo ≤ next - w.opened ∧ next - w.opened ≤ hi
      omega

/-- The measured period lies between the shortest and the longest one. -/
theorem Evaluated.settled {now length : ℕ} {w : Window} {groups : List Group} {t : ThreadData}
    (sampling : 0 < configuration.samplingLengthMs) (least : 0 < lo)
    (evaluated : Evaluated now w groups t) (ordered : w.OrderedTo now)
    (even : ∀ x ∈ periods w.pairs now, lo ≤ x ∧ x ≤ hi)
    (chosen : newSamplingLength build configuration now (measure now (stamp now (advance t))) =
      .ok length) : Settled configuration lo hi length := by
  have tasks : (measure now (stamp now (advance t))).sample.numTasks = (w.pairs.length : ℕ) :=
    evaluated.tasks
  have elapsed := evaluated.sampleTime_eq ordered
  change sampleTime now (measure now (stamp now (advance t))) = _ at elapsed
  rw [newSamplingLength, if_pos sampling.ne', tasks, elapsed, Double.toUnsigned_natCast] at chosen
  have some : 0 < w.pairs.length := by
    by_contra none
    rw [Nat.eq_zero_of_not_pos none] at chosen
    cases chosen
  have below := List.card_nsmul_le_sum _ lo fun x member => (even x member).1
  have above := List.sum_le_card_nsmul _ hi fun x member => (even x member).2
  rw [length_periods, nsmul_eq_mul, Nat.cast_id] at below above
  have low : lo ≤ (periods w.pairs now).sum / w.pairs.length := by
    rwa [Nat.le_div_iff_mul_le some, Nat.mul_comm]
  have high : (periods w.pairs now).sum / w.pairs.length ≤ hi :=
    Nat.div_le_of_le_mul above
  have slow : w.pairs.length ≤ (periods w.pairs now).sum :=
    (Nat.le_mul_of_pos_right _ least).trans below
  rw [updateSamplingLength_slow some slow] at chosen
  cases chosen
  have small : (0 : ℚ) < lo := by exact_mod_cast least
  have average : (0 : ℚ) < ((periods w.pairs now).sum / w.pairs.length : ℕ) := by
    exact_mod_cast Nat.lt_of_lt_of_le least low
  constructor
  · apply Nat.ceil_le_ceil
    gcongr
  · apply Nat.ceil_le_ceil
    gcongr

/-- Where a run stands between its recorded iterations: before the first one with the
default length, or `n` iterations after the one that began at `last`. -/
inductive Spaced (build : Build) (configuration : ApplicationConfiguration) (lo hi : ℕ)
    (p : Phase) (t : ThreadData) (opened count : ℕ) : List ℕ → Prop
  | before (length : t.samplingLength = build.riffDefaultSamplingLength)
      (counter : outstanding p t = count) (unset : count = 0 → t.computeStart = 0) :
      Spaced build configuration lo hi p t opened count []
  | after {earlier : List ℕ} {last n : ℕ}
      (apart : (earlier ++ [last]).IsChain (Apart configuration lo hi))
      (started : t.computeStart ≠ 0) (counter : outstanding p t = n)
      (many : build.riffDefaultSamplingLength + n ≤ count)
      (settled : build.riffDefaultSamplingLength < count →
        Settled configuration lo hi t.samplingLength)
      (below : last + n * lo ≤ opened) (above : opened ≤ last + n * hi) :
      Spaced build configuration lo hi p t opened count (earlier ++ [last])

variable {t u : ThreadData} {opened count : ℕ} {recorded : List ℕ}

theorem Spaced.congr {p : Phase} (spaced : Spaced build configuration lo hi p t opened count recorded)
    (length : u.samplingLength = t.samplingLength) (counter : u.currentSample = t.currentSample)
    (started : u.computeStart = t.computeStart) :
    Spaced build configuration lo hi p u opened count recorded := by
  have same : outstanding p u = outstanding p t := by
    cases p <;> simp only [outstanding, length, counter]
  cases spaced with
  | before default outstanding unset =>
      exact .before (length.trans default) (same.trans outstanding)
        fun none => started.trans (unset none)
  | after apart begun outstanding many settled below above =>
      exact .after apart (started ▸ begun) (same.trans outstanding) many
        (fun more => length ▸ settled more) below above

/-- A `begin()` that does not evaluate keeps the length, and one that does settles it. -/
theorem Spaced.beginAt {now : ℕ} (cycle : Cycle t) (reading : 0 < now)
    (spaced : Spaced build configuration lo hi .outside t opened count recorded)
    (returned : beginCall build configuration now t = .returned u) (grown : 0 < u.samplingLength)
    (begun : count = 0 ∨ Between lo hi opened now)
    (evaluation : ∀ length, Evaluates (stamp now (advance t)) →
      newSamplingLength build configuration now (measure now (stamp now (advance t))) =
        .ok length → Settled configuration lo hi length) :
    Spaced build configuration lo hi .inside u now (count + 1) recorded := by
  have more := beginCall_outstanding build now cycle (by rwa [returned])
  have moved := beginCall_begins build configuration now t
  rw [returned] at more moved
  rw [record_returned] at more
  -- The length after the call, and whether it has just been chosen.
  have length : u.samplingLength = t.samplingLength ∧
      (t.currentSample ≠ 0 ∨ t.computeStart = 0) ∨
      t.currentSample = 0 ∧ t.computeStart ≠ 0 ∧
        Settled configuration lo hi u.samplingLength := by
    cases moved with
    | skipped far =>
        refine .inl ⟨rfl, .inl fun first => ?_⟩
        exact absurd (advance_near first) (Nat.not_le.mpr far)
    | quiet near idle =>
        refine .inl ⟨rfl, ?_⟩
        by_contra both
        obtain ⟨first, started⟩ := not_or.mp both
        refine idle ⟨by simpa using started, ?_⟩
        simp only [stamp_currentSample, stamp_samplingLength, advance_currentSample,
          advance_samplingLength, not_not.mp first]
        have := cycle.positive
        split_ifs <;> omega
    | kept near evaluates chosen unasked =>
        obtain ⟨started, first, _⟩ := cycle.evaluates now evaluates
        exact .inr ⟨first, started, evaluation _ evaluates chosen⟩
    | consolidated near evaluates chosen asked stored =>
        obtain ⟨started, first, _⟩ := cycle.evaluates now evaluates
        exact .inr ⟨first, started, evaluation _ evaluates chosen⟩
  have started : t.computeStart ≠ 0 → u.computeStart ≠ 0 := by
    intro begun
    cases moved with
    | skipped far => exact begun
    | _ => exact Nat.ne_of_gt reading
  cases spaced with
  | before default counter unset =>
      rcases length with ⟨same, _⟩ | ⟨first, begun, _⟩
      · refine .before (same.trans default) (more.trans (congrArg (· + 1) counter)) ?_
        exact fun none => absurd none (Nat.succ_ne_zero count)
      · exact absurd (unset (counter.symm.trans first)) begun
  | @after earlier last n apart begun' counter many settled below above =>
      have positive := build.positive
      obtain ⟨least, greatest⟩ := begun.resolve_left (by omega)
      refine .after (n := n + 1) apart (started begun')
        (more.trans (congrArg (· + 1) counter)) (by omega) ?_ ?_ ?_
      · intro _
        rcases length with ⟨same, skipping | unset⟩ | ⟨_, _, fresh⟩
        · have inside : t.currentSample = n := counter
          rw [same]
          exact settled (by omega)
        · exact absurd unset begun'
        · exact fresh
      · rw [Nat.add_mul, Nat.one_mul]
        omega
      · rw [Nat.add_mul, Nat.one_mul]
        omega

theorem Spaced.endAt {now weight : ℕ} (sampling : 0 < configuration.samplingLengthMs)
    (least : 0 < lo) (bounds : lo ≤ hi) (cycle : Cycle t) (begun : t.computeStart ≠ 0)
    (spaced : Spaced build configuration lo hi .inside t opened count recorded) :
    Spaced build configuration lo hi .outside (endCall now weight t) opened count
      (recorded ++ (recordedBegin (.endAt now weight) t opened).toList) := by
  by_cases recording : t.currentSample = 0
  · rw [recordedBegin, if_pos recording, endCall_recorded recording]
    have whole : outstanding .inside t = t.samplingLength := if_pos recording
    cases spaced with
    | before default counter unset =>
        rw [whole] at counter
        exact .after (n := 0) (.singleton opened) begun recording (by omega)
          (fun more => by omega) (by omega) (by omega)
    | @after earlier last n apart _ counter many settled below above =>
        rw [whole] at counter
        rw [← counter] at below above
        have grown := cycle.positive
        have length := settled (by omega)
        refine .after (n := 0) ?_ begun recording (by omega) (fun _ => length)
          (by omega) (by omega)
        refine List.isChain_append.mpr ⟨apart, .singleton opened, ?_⟩
        intro x isLast y isFirst
        cases isFirst
        have same : last = x := by simpa using isLast
        subst same
        exact length.apart sampling least bounds below above
  · rw [recordedBegin, if_neg recording, endCall_skipped recording, Option.toList_none,
      List.append_nil]
    have same : outstanding .inside t = outstanding .outside t := if_neg recording
    cases spaced with
    | before default counter unset => exact .before default (same ▸ counter) unset
    | after apart begun counter many settled below above =>
        exact .after apart begun (same ▸ counter) many settled below above

/-- What is assumed of a run: its calls alternate, with weight 1 and clock readings in
order, and the periods between its `begin()`s lie within the bounds. -/
structure Steady (lo hi : ℕ) (q : Phase) (calls : List Call) : Prop where
  alternates : phaseAfter calls .outside = some q
  unit : Weighted (· = 1) calls
  ticks : (0 :: times calls).IsChain Ticks
  periods : (begins calls).IsChain (Between lo hi)

theorem Steady.before {q : Phase} {past : List Call} {c : Call}
    (steady : Steady lo hi q (past ++ [c])) :
    ∃ p, Steady lo hi p past ∧ c.next p = some q := by
  obtain ⟨alternates, unit, ticks, periods⟩ := steady
  rw [phaseAfter_append] at alternates
  obtain ⟨p, earlier, last⟩ := Option.bind_eq_some_iff.mp alternates
  rw [phaseAfter_cons] at last
  obtain ⟨r, next, same⟩ := Option.bind_eq_some_iff.mp last
  cases same
  rw [begins, List.filterMap_append] at periods
  rw [times, List.filterMap_append, ← List.cons_append] at ticks
  exact ⟨p, ⟨earlier, fun d member => unit d (List.mem_append_left _ member),
    ticks.left_of_append, periods.left_of_append⟩, next⟩

theorem Steady.then_begin {past : List Call} {now : ℕ} {q : Phase}
    (steady : Steady lo hi q (past ++ [.beginAt now])) :
    q = .inside ∧ Steady lo hi .outside past ∧ Ticks (lastTime past) now ∧
      ∀ last, (begins past).getLast? = some last → Between lo hi last now := by
  obtain ⟨p, earlier, next⟩ := steady.before
  cases p with
  | inside => cases next
  | outside =>
      cases next
      obtain ⟨_, _, _, tick⟩ := before_begin steady.alternates steady.unit steady.ticks
      refine ⟨rfl, earlier, tick, fun last isLast => ?_⟩
      have periods := steady.periods
      rw [begins_snoc, List.isChain_append] at periods
      exact periods.2.2 last isLast now rfl

end Riff
