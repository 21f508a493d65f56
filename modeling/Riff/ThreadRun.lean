import Riff.ThreadCalls
import Mathlib.Data.Fintype.Basic

set_option autoImplicit false

namespace Riff

open Exact

/-- What can happen to a thread's record: the thread's own calls, and the two
writes of the support thread. A call carries the clock time at which it is made,
whether or not the call reads the clock. -/
inductive Call where
  | beginAt (now : ℕ)
  | endAt (now weight : ℕ)
  | storeCustomValue (index : ℕ) (value : Double)
  | request
  | collect

def call (build : Build) (configuration : ApplicationConfiguration) :
    Call → ThreadData → Outcome
  | .beginAt now, t => beginCall build configuration now t
  | .endAt now weight, t => .returned (endCall now weight t)
  | .storeCustomValue index value, t => storeCustomValue index value t
  | .request, t => .returned { t with consolidate := true }
  | .collect, t => .returned { t with consolidatedSample := {} }

/-- An exception that nobody catches ends the run. -/
def run (build : Build) (configuration : ApplicationConfiguration) :
    List Call → ThreadData → Outcome
  | [], t => .returned t
  | c :: calls, t =>
      match call build configuration c t with
      | .returned u => run build configuration calls u
      | .threw e u => .threw e u

/-- The caller catches every exception and goes on. -/
def runCaught (build : Build) (configuration : ApplicationConfiguration) :
    List Call → ThreadData → ThreadData
  | [], t => t
  | c :: calls, t =>
      runCaught build configuration calls (call build configuration c t).record

/-! Usage disciplines: who may call what, and when. -/

inductive Phase where
  | outside
  | inside
  deriving DecidableEq, Repr

/-- Strict alternation of `begin()` and `end()`. -/
def Call.next : Call → Phase → Option Phase
  | .beginAt _, .outside => some .inside
  | .beginAt _, .inside => none
  | .endAt _ _, .inside => some .outside
  | .endAt _ _, .outside => none
  | .storeCustomValue _ _, p => some p
  | .request, p => some p
  | .collect, p => some p

def phaseAfter : List Call → Phase → Option Phase
  | [], p => some p
  | c :: calls, p => (c.next p).bind (phaseAfter calls)

def Call.time : Call → Option ℕ
  | .beginAt now => some now
  | .endAt now _ => some now
  | _ => none

def times (calls : List Call) : List ℕ := calls.filterMap Call.time

/-- The time of the latest `begin()` or `end()`, zero if there was none. -/
def lastTime (calls : List Call) : ℕ := (times calls).getLastD 0

/-- Every `end()` passes a weight of which `ok` holds. -/
def Call.Weighted (ok : ℕ → Prop) : Call → Prop
  | .endAt _ weight => ok weight
  | _ => True

instance (ok : ℕ → Prop) [DecidablePred ok] : DecidablePred (Call.Weighted ok)
  | .endAt _ weight => inferInstanceAs (Decidable (ok weight))
  | .beginAt _ | .storeCustomValue _ _ | .request | .collect => .isTrue trivial

def Weighted (ok : ℕ → Prop) (calls : List Call) : Prop := ∀ c ∈ calls, c.Weighted ok

instance (ok : ℕ → Prop) [DecidablePred ok] (calls : List Call) : Decidable (Weighted ok calls) :=
  inferInstanceAs (Decidable (∀ c ∈ calls, c.Weighted ok))

theorem Weighted.mono {ok more : ℕ → Prop} {calls : List Call} (weights : Weighted ok calls)
    (weaker : ∀ weight, ok weight → more weight) : Weighted more calls := by
  intro c member
  have own := weights c member
  cases c with
  | endAt now weight => exact weaker weight own
  | _ => trivial

/-- Readings of a clock that never goes back; zero is the code's "not set". -/
structure ClockReadings (readings : List ℕ) : Prop where
  positive : ∀ now ∈ readings, 0 < now
  nondecreasing : readings.IsChain (· ≤ ·)

variable {build : Build} {configuration : ApplicationConfiguration}

@[simp] theorem times_begin (now : ℕ) (calls : List Call) :
    times (.beginAt now :: calls) = now :: times calls := rfl

@[simp] theorem times_end (now weight : ℕ) (calls : List Call) :
    times (.endAt now weight :: calls) = now :: times calls := rfl

theorem times_neutral {c : Call} (neutral : c.time = none) (calls : List Call) :
    times (c :: calls) = times calls := List.filterMap_cons_none neutral

@[simp] theorem phaseAfter_cons (c : Call) (calls : List Call) (p : Phase) :
    phaseAfter (c :: calls) p = (c.next p).bind (phaseAfter calls) := rfl

theorem phaseAfter_append (first second : List Call) (p : Phase) :
    phaseAfter (first ++ second) p = (phaseAfter first p).bind (phaseAfter second) := by
  induction first generalizing p with
  | nil => rfl
  | cons c first ih =>
      simp only [List.cons_append, phaseAfter_cons, Option.bind_assoc, ih]

theorem runCaught_append (first second : List Call) (t : ThreadData) :
    runCaught build configuration (first ++ second) t =
      runCaught build configuration second (runCaught build configuration first t) := by
  induction first generalizing t with
  | nil => rfl
  | cons c first ih => exact ih _

/-- A call that is neither `begin()` nor `end()` has taken `t` to `u`: it writes only
the custom fields, the consolidated sample and the flag. -/
structure Neutral (build : Build) (configuration : ApplicationConfiguration) (c : Call)
    (t u : ThreadData) : Prop where
  quiet : c.time = none
  reached : (call build configuration c t).record = u
  frame : ∃ (fields : Fin riffMaxCustomFields → Double) (stored : ApplicationSample)
    (asked : Bool), u = { t with
      sample := { t.sample with customFields := fields }
      consolidatedSample := stored
      consolidate := asked }

theorem call_neutral (build : Build) (configuration : ApplicationConfiguration) {c : Call}
    (neutral : c.time = none) (t : ThreadData) :
    (∀ p, c.next p = some p) ∧
      Neutral build configuration c t (call build configuration c t).record := by
  cases c with
  | beginAt now => cases neutral
  | endAt now weight => cases neutral
  | storeCustomValue index value =>
      refine ⟨fun _ => rfl, rfl, rfl, ?_⟩
      simp only [call, storeCustomValue]
      split
      · exact ⟨_, t.consolidatedSample, t.consolidate, rfl⟩
      · exact ⟨t.sample.customFields, t.consolidatedSample, t.consolidate, rfl⟩
  | request =>
      exact ⟨fun _ => rfl, rfl, rfl, t.sample.customFields, t.consolidatedSample, true, rfl⟩
  | collect => exact ⟨fun _ => rfl, rfl, rfl, t.sample.customFields, {}, t.consolidate, rfl⟩

/-- The invariant rule of runs in whatever order. -/
theorem runCaught_induction (Inv : List Call → ThreadData → Prop) (t₀ : ThreadData)
    (beginStep : ∀ now past t, runCaught build configuration past t₀ = t → Inv past t →
      Inv (past ++ [.beginAt now]) (beginCall build configuration now t).record)
    (endStep : ∀ now weight past t, runCaught build configuration past t₀ = t → Inv past t →
      Inv (past ++ [.endAt now weight]) (endCall now weight t))
    (neutralStep : ∀ c past t u, runCaught build configuration past t₀ = t →
      Neutral build configuration c t u → Inv past t → Inv (past ++ [c]) u)
    (calls : List Call) (inv : Inv [] t₀) :
    Inv calls (runCaught build configuration calls t₀) := by
  induction calls using List.reverseRecOn with
  | nil => exact inv
  | append_singleton past c ih =>
      rw [runCaught_append]
      by_cases neutral : c.time = none
      · obtain ⟨_, step⟩ := call_neutral build configuration neutral
          (runCaught build configuration past t₀)
        exact neutralStep c past _ _ rfl step ih
      · cases c with
        | beginAt now => exact beginStep now past _ rfl ih
        | endAt now weight => exact endStep now weight past _ rfl ih
        | _ => exact absurd rfl neutral

/-- The induction behind the invariant rule: `past` is the run so far and `last`
the time of its latest `begin()` or `end()`. -/
theorem runCaught_invariant_from (ok : ℕ → Prop) (before : ℕ → ℕ → Prop)
    (Inv : Phase → ℕ → List Call → ThreadData → Prop) (t₀ : ThreadData)
    (beginStep : ∀ now last past t, runCaught build configuration past t₀ = t →
      before last now → Inv .outside last past t →
      Inv .inside now (past ++ [.beginAt now]) (beginCall build configuration now t).record)
    (endStep : ∀ now weight last past t, runCaught build configuration past t₀ = t →
      before last now → ok weight → Inv .inside last past t →
      Inv .outside now (past ++ [.endAt now weight]) (endCall now weight t))
    (neutralStep : ∀ c p last past t u, runCaught build configuration past t₀ = t →
      Neutral build configuration c t u → Inv p last past t → Inv p last (past ++ [c]) u)
    (calls : List Call) {p q : Phase} {last : ℕ} {past : List Call} {t : ThreadData}
    (reached : runCaught build configuration past t₀ = t)
    (phases : phaseAfter calls p = some q) (weights : Weighted ok calls)
    (chain : (last :: times calls).IsChain before) (inv : Inv p last past t) :
    Inv q ((times calls).getLastD last) (past ++ calls)
      (runCaught build configuration calls t) := by
  induction calls generalizing p last past t with
  | nil =>
      cases phases
      rw [List.append_nil]
      exact inv
  | cons c calls ih =>
      obtain ⟨mid, now, later⟩ := Option.bind_eq_some_iff.mp phases
      have rest : Weighted ok calls := fun d member => weights d (List.mem_cons_of_mem c member)
      have weight : c.Weighted ok := weights c List.mem_cons_self
      have moved : runCaught build configuration (past ++ [c]) t₀ =
          (call build configuration c t).record := by
        rw [runCaught_append, reached]
        rfl
      rw [List.append_cons]
      by_cases neutral : c.time = none
      · obtain ⟨same, step⟩ := call_neutral build configuration neutral t
        cases (same p).symm.trans now
        rw [times_neutral neutral] at chain ⊢
        exact ih moved later rest chain (neutralStep c p last past t _ reached step inv)
      · cases c with
        | beginAt reading =>
            have ordered := List.isChain_cons_cons.mp chain
            cases p with
            | outside =>
                cases now
                rw [times_begin, List.getLastD_cons]
                exact ih moved later rest ordered.2
                  (beginStep reading last past t reached ordered.1 inv)
            | inside => cases now
        | endAt reading amount =>
            have ordered := List.isChain_cons_cons.mp chain
            cases p with
            | outside => cases now
            | inside =>
                cases now
                rw [times_end, List.getLastD_cons]
                exact ih moved later rest ordered.2
                  (endStep reading amount last past t reached ordered.1 weight inv)
        | _ => exact absurd rfl neutral

/-- The invariant rule of alternating runs. `ok` restricts the weights and
`before` relates successive times. -/
theorem runCaught_invariant (ok : ℕ → Prop) (before : ℕ → ℕ → Prop)
    (Inv : Phase → ℕ → List Call → ThreadData → Prop) (t₀ : ThreadData)
    (beginStep : ∀ now last past t, runCaught build configuration past t₀ = t →
      before last now → Inv .outside last past t →
      Inv .inside now (past ++ [.beginAt now]) (beginCall build configuration now t).record)
    (endStep : ∀ now weight last past t, runCaught build configuration past t₀ = t →
      before last now → ok weight → Inv .inside last past t →
      Inv .outside now (past ++ [.endAt now weight]) (endCall now weight t))
    (neutralStep : ∀ c p last past t u, runCaught build configuration past t₀ = t →
      Neutral build configuration c t u → Inv p last past t → Inv p last (past ++ [c]) u)
    (calls : List Call) {q : Phase}
    (phases : phaseAfter calls .outside = some q) (weights : Weighted ok calls)
    (chain : (0 :: times calls).IsChain before) (inv : Inv .outside 0 [] t₀) :
    Inv q (lastTime calls) calls (runCaught build configuration calls t₀) :=
  runCaught_invariant_from ok before Inv t₀ beginStep endStep neutralStep calls rfl phases
    weights chain inv

/-- Each call comes no earlier than the one before it, and not at zero. -/
def Ticks (last now : ℕ) : Prop := last ≤ now ∧ 0 < now

theorem ClockReadings.ticks {readings : List ℕ} (clock : ClockReadings readings) :
    (0 :: readings).IsChain Ticks := by
  obtain ⟨positive, nondecreasing⟩ := clock
  have tail : readings.IsChain Ticks := by
    apply nondecreasing.imp_of_mem_imp
    intro a b _ member ordered
    exact ⟨ordered, positive b member⟩
  cases readings with
  | nil => exact .singleton 0
  | cons now rest =>
      exact .cons_cons ⟨Nat.zero_le now, positive now List.mem_cons_self⟩ tail

/-- A `begin()` may follow wherever alternation leaves off. -/
theorem then_begin {ok : ℕ → Prop} {calls : List Call} (now : ℕ)
    (alternates : phaseAfter calls .outside = some .outside) (weights : Weighted ok calls) :
    phaseAfter (calls ++ [.beginAt now]) .outside = some .inside ∧
      Weighted ok (calls ++ [.beginAt now]) := by
  refine ⟨?_, ?_⟩
  · rw [phaseAfter_append, alternates]
    rfl
  · intro c member
    rcases List.mem_append.mp member with earlier | this
    · exact weights c earlier
    · cases List.mem_singleton.mp this
      trivial

theorem ticks_of_increasing {first : ℕ} {readings : List ℕ}
    (increasing : (first :: readings).IsChain (· < ·)) : (first :: readings).IsChain Ticks :=
  increasing.imp fun _ _ later => ⟨le_of_lt later, Nat.zero_lt_of_lt later⟩

/-- What a discipline says of a whole run, it says of the run up to a `begin()`. -/
theorem before_begin {ok : ℕ → Prop} {before : ℕ → ℕ → Prop} {past rest : List Call} {now : ℕ}
    {q : Phase} (phases : phaseAfter (past ++ .beginAt now :: rest) .outside = some q)
    (weights : Weighted ok (past ++ .beginAt now :: rest))
    (chain : (0 :: times (past ++ .beginAt now :: rest)).IsChain before) :
    phaseAfter past .outside = some .outside ∧ Weighted ok past ∧
      (0 :: times past).IsChain before ∧ before (lastTime past) now := by
  refine ⟨?_, fun c member => weights c (List.mem_append_left _ member), ?_⟩
  · rw [phaseAfter_append] at phases
    obtain ⟨p, reached, later⟩ := Option.bind_eq_some_iff.mp phases
    cases p with
    | outside => exact reached
    | inside => cases later
  · have shape : (0 :: times (past ++ .beginAt now :: rest)) =
        (0 :: times past) ++ now :: times rest := by
      simp [times, List.filterMap_append, Call.time]
    rw [shape, List.isChain_append] at chain
    refine ⟨chain.1, chain.2.2 _ ?_ now (by simp)⟩
    simp [lastTime, List.getLast?_cons, List.getLastD_eq_getLast?]

/-- A condition on each reading makes a chain. -/
theorem isChain_of_forall {ok : ℕ → Prop} {readings : List ℕ} (first : ℕ)
    (all : ∀ now ∈ readings, ok now) : (first :: readings).IsChain fun _ now => ok now := by
  induction readings generalizing first with
  | nil => exact .singleton first
  | cons now rest ih =>
      refine .cons_cons (all now List.mem_cons_self) (ih now ?_)
      exact fun later member => all later (List.mem_cons_of_mem now member)

end Riff
