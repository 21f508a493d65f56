import Riff.Cycle

set_option autoImplicit false

namespace Riff

open Exact

/-- One iteration: its two times, and the sampling length in force at its `end()`. -/
structure Pair where
  beginTime : ℕ
  endTime : ℕ
  samplingLength : ℕ

/-- The iterations since the first `begin()` or the latest consolidation. `opened` is
the latest `begin()`. -/
structure Window where
  start : ℕ
  opened : ℕ
  pairs : List Pair := []

/-- What an observer of the calls notes, given the record that the call finds. Only a
consolidating `begin()` clears the flag. -/
def observe (build : Build) (configuration : ApplicationConfiguration) :
    Call → ThreadData → Option Window → Option Window
  | .beginAt now, _, none => some { start := now, opened := now }
  | .beginAt now, t, some w =>
      if t.consolidate && !(beginCall build configuration now t).record.consolidate then
        some { start := now, opened := now }
      else
        some { w with opened := now }
  | .endAt now _, t, some w =>
      some { w with pairs := w.pairs ++ [⟨w.opened, now, t.samplingLength⟩] }
  | _, _, w => w

def windowAfter (build : Build) (configuration : ApplicationConfiguration) :
    List Call → ThreadData → Option Window → Option Window
  | [], _, w => w
  | c :: calls, t, w =>
      windowAfter build configuration calls (call build configuration c t).record
        (observe build configuration c t w)

/-- The time of the first `begin()` of some iterations, if there are any. -/
def firstBegin : List Pair → ℕ → ℕ
  | [], next => next
  | p :: _, _ => p.beginTime

/-- Consecutive iterations of which only the last is recorded. -/
structure Group where
  skipped : List Pair
  recorded : Pair

namespace Group

def pairs (g : Group) : List Pair := g.skipped ++ [g.recorded]

def length (g : Group) : ℕ := g.pairs.length

def start (g : Group) : ℕ := firstBegin g.skipped g.recorded.beginTime

/-- The sampling length in force is the number of iterations. -/
def Uniform (g : Group) : Prop := ∀ p ∈ g.pairs, p.samplingLength = g.length

def latency (g : Group) : ℕ := g.length * ullSub g.recorded.endTime g.recorded.beginTime

/-- The gap after the recorded iteration stands for every gap of the group. -/
def idle (g : Group) (next : ℕ) : ℕ := g.length * ullSub next g.recorded.endTime

end Group

/-- The idle time of successive groups, up to the `begin()` that follows them. -/
def idleOf : List Group → ℕ → ℕ
  | [], _ => 0
  | [g], next => g.idle next
  | g :: h :: rest, next => g.idle h.start + idleOf (h :: rest) next

theorem idleOf_snoc (groups : List Group) (g : Group) (next : ℕ) :
    idleOf (groups ++ [g]) next = idleOf groups g.start + g.idle next := by
  induction groups with
  | nil => simp [idleOf]
  | cons h rest ih =>
      cases rest with
      | nil => simp [idleOf]
      | cons k rest => simp [idleOf, ← ih, Nat.add_assoc]

theorem firstBegin_snoc (skipped : List Pair) (p : Pair) (next : ℕ) :
    firstBegin (skipped ++ [p]) next = firstBegin skipped p.beginTime := by
  cases skipped <;> rfl

/-- A later `begin()` does not change which one was first. -/
theorem firstBegin_nonempty {skipped : List Pair} (nonempty : skipped ≠ []) (next other : ℕ) :
    firstBegin skipped next = firstBegin skipped other := by
  cases skipped with
  | nil => exact absurd rfl nonempty
  | cons p rest => rfl

variable {build : Build} {configuration : ApplicationConfiguration}

theorem windowAfter_snoc (past : List Call) (c : Call) (t : ThreadData) (w : Option Window) :
    windowAfter build configuration (past ++ [c]) t w =
      observe build configuration c (runCaught build configuration past t)
        (windowAfter build configuration past t w) := by
  induction past generalizing t w with
  | nil => rfl
  | cons d past ih => exact ih _ _

/-- The iterations of a window are complete groups, then the skipped iterations of
the group that is being collected. Right after a recorded `end()`, the gap that runs
is still missing in the idle time. -/
structure Grouped (p : Phase) (w : Window) (t : ThreadData) (groups : List Group)
    (skipped : List Pair) : Prop where
  cycle : Cycle t
  started : t.computeStart ≠ 0
  positive : w.start ≠ 0
  start : t.sampleStartTime = w.start
  opened : p = .inside → t.currentSample = 0 → t.computeStart = w.opened
  split : w.pairs = groups.flatMap Group.pairs ++ skipped
  uniform : ∀ g ∈ groups, g.Uniform
  length : ∀ q ∈ skipped, q.samplingLength = t.samplingLength
  counter : p.begun skipped.length = outstanding p t
  tasks : t.sample.numTasks = ((groups.map Group.length).sum : ℕ)
  latency : t.sample.latency = ((groups.map Group.latency).sum : ℕ)
  idle : p = .inside ∨ t.currentSample ≠ 0 → t.idleTime = idleOf groups (firstBegin skipped w.opened)
  gap : p = .outside → t.currentSample = 0 →
    ∀ next, t.idleTime + ullSub next t.rcvStart * t.samplingLength = idleOf groups next

/-- Before the first `begin()` nothing is set. -/
structure Untouched (p : Phase) (t : ThreadData) : Prop where
  cycle : Cycle t
  outside : p = .outside
  counter : t.currentSample = 0
  unset : t.computeStart = 0
  start : t.sampleStartTime = 0
  tasks : t.sample.numTasks = 0
  latency : t.sample.latency = 0
  idle : t.idleTime = 0

inductive Observed (p : Phase) (t : ThreadData) : Option Window → Prop
  | untouched (fresh : Untouched p t) : Observed p t none
  | grouped {w : Window} (groups : List Group) (skipped : List Pair)
      (grouped : Grouped p w t groups skipped) : Observed p t (some w)
  /-- A negative configured length can lead to length zero, which samples nothing. -/
  | stopped {w : Option Window} (zero : t.samplingLength = 0) : Observed p t w

/-- A window that has just been opened, by the first `begin()` or by a consolidation. -/
theorem Grouped.fresh {now : ℕ} {t : ThreadData} (reading : 0 < now) (cycle : Cycle t)
    (started : t.computeStart = now) (start : t.sampleStartTime = now)
    (counter : outstanding .inside t = 1) (tasks : t.sample.numTasks = 0)
    (latency : t.sample.latency = 0) (idle : t.idleTime = 0) :
    Grouped .inside { start := now, opened := now } t [] [] where
  cycle := cycle
  started := by omega
  positive := Nat.ne_of_gt reading
  start := start
  opened _ _ := started
  split := rfl
  uniform _ member := by cases member
  length _ member := by cases member
  counter := counter.symm
  tasks := tasks
  latency := latency
  idle _ := idle
  gap outside := by cases outside

/-- A record of length zero never evaluates again. -/
theorem beginCall_stopped {t u : ThreadData} {now : ℕ} (zero : t.samplingLength = 0)
    (returned : beginCall build configuration now t = .returned u) : u.samplingLength = 0 := by
  have first : (advance t).currentSample = 0 := by simp [zero]
  have quiet : ¬ Evaluates (stamp now (advance t)) := by
    rintro ⟨_, one | one⟩
    · simp [zero] at one
    · simp [zero] at one
  simp only [beginCall, first, quiet, Nat.not_lt_zero, ↓reduceIte] at returned
  cases returned
  exact zero

theorem Untouched.beginAt {t u : ThreadData} {now : ℕ} (reading : 0 < now)
    (fresh : Untouched .outside t) (grown : 0 < u.samplingLength)
    (returned : beginCall build configuration now t = .returned u) :
    Grouped .inside { start := now, opened := now } u [] [] := by
  have grown' : 0 < (beginCall build configuration now t).record.samplingLength := by
    rw [returned]
    exact grown
  have cycle := fresh.cycle.beginCall build now grown'
  have counter := beginCall_outstanding build now fresh.cycle grown'
  have near : (advance t).currentSample ≤ 1 := by
    rw [advance_currentSample, fresh.counter]
    split_ifs <;> omega
  rw [beginCall_first now fresh.unset near] at returned cycle counter
  cases returned
  refine .fresh reading cycle rfl ?_ ?_ ?_ ?_ ?_
  · simp [fresh.start]
  · simpa [outstanding, fresh.counter] using counter
  · simpa using fresh.tasks
  · simpa using fresh.latency
  · simpa using fresh.idle

theorem Grouped.beginAt {t u : ThreadData} {now : ℕ} {w : Window} {groups : List Group}
    {skipped : List Pair} (reading : 0 < now) (inv : Grouped .outside w t groups skipped)
    (grown : 0 < u.samplingLength)
    (returned : beginCall build configuration now t = .returned u) :
    (t.consolidate = true ∧ u.consolidate = false ∧
        Grouped .inside { start := now, opened := now } u [] []) ∨
      (t.consolidate = u.consolidate ∧
        Grouped .inside { w with opened := now } u groups skipped) := by
  have grown' : 0 < (beginCall build configuration now t).record.samplingLength := by
    rw [returned]
    exact grown
  have cycle := inv.cycle.beginCall build now grown'
  have counter := beginCall_outstanding build now inv.cycle grown'
  have cases := beginCall_begins build configuration now t
  rw [returned] at cases cycle counter
  rw [record_returned] at cycle counter
  have collected : skipped.length = t.currentSample := inv.counter
  cases cases with
  | skipped far =>
      have more : t.currentSample ≠ 0 := by
        intro first
        rw [advance_currentSample, first] at far
        split_ifs at far <;> omega
      have nonempty : skipped ≠ [] := by
        rintro rfl
        exact more collected.symm
      refine Or.inr ⟨rfl, { inv with
        cycle := cycle
        opened := ?_
        counter := ?_
        idle := ?_
        gap := fun outside => by cases outside }⟩
      · intro _ recording
        omega
      · rw [counter]
        simp [Phase.begun, outstanding, collected]
      · intro _
        rw [firstBegin_nonempty nonempty now w.opened]
        exact inv.idle (Or.inr more)
  | quiet near idle =>
      have more : t.currentSample ≠ 0 := by
        intro first
        refine idle ⟨by simpa using inv.started, ?_⟩
        simp only [stamp_currentSample, stamp_samplingLength, advance_currentSample,
          advance_samplingLength, first]
        have := inv.cycle.positive
        split_ifs <;> omega
      have nonempty : skipped ≠ [] := by
        rintro rfl
        exact more collected.symm
      refine Or.inr ⟨rfl, { inv with
        cycle := cycle
        started := Nat.ne_of_gt reading
        start := by simp [inv.start, inv.positive]
        opened := fun _ _ => rfl
        counter := ?_
        idle := ?_
        gap := fun outside => by cases outside }⟩
      · rw [counter]
        simp [Phase.begun, outstanding, collected]
      · intro _
        rw [firstBegin_nonempty nonempty now w.opened]
        exact inv.idle (Or.inr more)
  | kept near evaluates chosen unasked =>
      obtain ⟨_, first, _⟩ := inv.cycle.evaluates now evaluates
      have none : skipped = [] := List.eq_nil_of_length_eq_zero (by omega)
      subst none
      refine Or.inr ⟨rfl, { inv with
        cycle := cycle
        started := Nat.ne_of_gt reading
        start := by simp [inv.start, inv.positive]
        opened := fun _ _ => rfl
        length := fun _ member => by cases member
        counter := ?_
        idle := ?_
        gap := fun outside => by cases outside }⟩
      · rw [counter]
        simp [Phase.begun, outstanding, first]
      · intro _
        exact inv.gap rfl first now
  | consolidated near evaluates chosen asked stored =>
      obtain ⟨_, first, _⟩ := inv.cycle.evaluates now evaluates
      refine Or.inl ⟨asked, rfl, .fresh reading cycle rfl rfl ?_ rfl rfl rfl⟩
      rw [counter]
      simp [outstanding, first]

theorem Grouped.endAt {t : ThreadData} {w : Window} {groups : List Group}
    {skipped : List Pair} (inv : Grouped .inside w t groups skipped) (now : ℕ) :
    ∃ groups skipped, Grouped .outside
      { w with pairs := w.pairs ++ [⟨w.opened, now, t.samplingLength⟩] }
      (endCall now 1 t) groups skipped := by
  have counter := inv.counter
  simp only [Phase.begun, outstanding] at counter
  by_cases recorded : t.currentSample = 0
  · simp only [recorded, ↓reduceIte] at counter
    have opened := inv.opened rfl recorded
    have cycle := inv.cycle.endCall now 1
    rw [endCall_recorded recorded] at cycle ⊢
    -- The iteration completes the group.
    let g : Group := ⟨skipped, ⟨w.opened, now, t.samplingLength⟩⟩
    have length : g.length = t.samplingLength := by simp [g, Group.length, Group.pairs, counter]
    refine ⟨groups ++ [g], [], { inv with
      cycle := cycle
      opened := fun inside => by cases inside
      split := ?_
      uniform := ?_
      length := fun _ member => by cases member
      counter := ?_
      tasks := ?_
      latency := ?_
      idle := ?_
      gap := ?_ }⟩
    · simp [inv.split, g, Group.pairs]
    · intro h member
      rcases List.mem_append.mp member with earlier | this
      · exact inv.uniform h earlier
      · cases List.mem_singleton.mp this
        intro q inside
        rw [length]
        rcases List.mem_append.mp inside with other | last
        · exact inv.length q other
        · cases List.mem_singleton.mp last
          rfl
    · simp [Phase.begun, outstanding, recorded]
    · simp [inv.tasks, length]
    · have product : (ullSub now w.opened : Double) * (t.samplingLength : Double) *
          ((1 : ℕ) : Double) = (g.latency : Double) := by
        rw [← Double.natCast_mul, ← Double.natCast_mul, Nat.mul_one, Nat.mul_comm,
          Group.latency, length]
      simp only [inv.latency, opened, product, List.map_append, List.map_cons, List.map_nil,
        List.sum_append, List.sum_singleton, Nat.cast_add]
    · rintro (inside | skipping)
      · cases inside
      · exact absurd recorded skipping
    · intro _ _ next
      rw [idleOf_snoc, inv.idle (Or.inl rfl)]
      simp [Group.start, Group.idle, length, g, Nat.mul_comm]
  · simp only [recorded, ↓reduceIte] at counter
    rw [endCall_skipped recorded]
    refine ⟨groups, skipped ++ [⟨w.opened, now, t.samplingLength⟩], { inv with
      opened := fun inside => by cases inside
      split := ?_
      length := ?_
      counter := ?_
      idle := ?_
      gap := fun _ first => absurd first recorded }⟩
    · simp [inv.split]
    · intro q member
      rcases List.mem_append.mp member with earlier | this
      · exact inv.length q earlier
      · cases List.mem_singleton.mp this
        rfl
    · simp [Phase.begun, outstanding, counter]
    · intro _
      rw [firstBegin_snoc]
      exact inv.idle (Or.inl rfl)

theorem Grouped.congr {p : Phase} {t u : ThreadData} {w : Window} {groups : List Group}
    {skipped : List Pair} {fields : Fin riffMaxCustomFields → Double}
    {stored : ApplicationSample} {asked : Bool}
    (frame : u = { t with
      sample := { t.sample with customFields := fields }
      consolidatedSample := stored
      consolidate := asked })
    (inv : Grouped p w t groups skipped) : Grouped p w u groups skipped := by
  subst frame
  exact { inv with
    cycle := inv.cycle.congr rfl rfl
    counter := by cases p <;> exact inv.counter }

theorem Observed.beginAt {t u : ThreadData} {now : ℕ} {w : Option Window} (reading : 0 < now)
    (inv : Observed .outside t w)
    (returned : beginCall build configuration now t = .returned u) :
    Observed .inside u (observe build configuration (.beginAt now) t w) := by
  rcases Nat.eq_zero_or_pos u.samplingLength with zero | grown
  · exact .stopped zero
  cases inv with
  | untouched fresh => exact .grouped [] [] (fresh.beginAt reading grown returned)
  | @grouped w groups skipped grouped =>
      rcases grouped.beginAt reading grown returned with ⟨asked, served, fresh⟩ | ⟨same, more⟩
      · simpa [observe, returned, asked, served] using Observed.grouped [] [] fresh
      · have kept : (t.consolidate && !u.consolidate) = false := by simp [same]
        simpa [observe, returned, kept] using Observed.grouped groups skipped more
  | stopped zero => exact .stopped (beginCall_stopped zero returned)

theorem Observed.endAt {t : ThreadData} {now : ℕ} {w : Option Window}
    (inv : Observed .inside t w) :
    Observed .outside (endCall now 1 t) (observe build configuration (.endAt now 1) t w) := by
  cases inv with
  | untouched fresh => cases fresh.outside
  | grouped groups skipped grouped =>
      obtain ⟨groups, skipped, more⟩ := grouped.endAt now
      exact .grouped groups skipped more
  | stopped zero =>
      refine .stopped ?_
      unfold endCall
      split <;> exact zero

theorem Observed.neutral {c : Call} {p : Phase} {t u : ThreadData} {w : Option Window}
    (step : Neutral build configuration c t u) (inv : Observed p t w) :
    Observed p u (observe build configuration c t w) := by
  obtain ⟨quiet, _, fields, stored, asked, frame⟩ := step
  have same : observe build configuration c t w = w := by
    cases c with
    | beginAt now => cases quiet
    | endAt now weight => cases quiet
    | _ => cases w <;> rfl
  rw [same]
  cases inv with
  | untouched fresh =>
      subst frame
      exact .untouched { fresh with cycle := fresh.cycle.congr rfl rfl }
  | grouped groups skipped grouped => exact .grouped groups skipped (grouped.congr frame)
  | stopped zero =>
      subst frame
      exact .stopped zero

theorem Observed.initial (build : Build) : Observed .outside (ThreadData.initial build) none :=
  .untouched ⟨Cycle.initial build, rfl, rfl, rfl, rfl, rfl, rfl, rfl⟩

/-- What a `begin()` that evaluates finds: a window that is cut into complete groups. -/
structure Evaluated (now : ℕ) (w : Window) (groups : List Group) (t : ThreadData) : Prop where
  set : w.start ≠ 0
  start : t.sampleStartTime = w.start
  pairs : w.pairs = groups.flatMap Group.pairs
  uniform : ∀ g ∈ groups, g.Uniform
  tasks : t.sample.numTasks = (w.pairs.length : ℕ)
  latency : t.sample.latency = ((groups.map Group.latency).sum : ℕ)
  idle : t.idleTime + ullSub now t.rcvStart * t.samplingLength = idleOf groups now

theorem sum_length {w : Window} {groups : List Group}
    (pairs : w.pairs = groups.flatMap Group.pairs) :
    w.pairs.length = (groups.map Group.length).sum := by
  rw [pairs, List.length_flatMap]
  rfl

theorem Observed.evaluated {t : ThreadData} {now : ℕ} {window : Option Window}
    (observed : Observed .outside t window) (evaluates : Evaluates (stamp now (advance t))) :
    ∃ w groups, window = some w ∧ Evaluated now w groups t := by
  cases observed with
  | untouched fresh => exact absurd fresh.unset evaluates.1
  | stopped zero =>
      rcases evaluates.2 with one | one
      · simp [zero] at one
      · simp [zero] at one
  | @grouped w groups skipped inv =>
      obtain ⟨_, first, _⟩ := inv.cycle.evaluates now evaluates
      have none : skipped = [] := List.eq_nil_of_length_eq_zero (inv.counter.trans first)
      have complete : w.pairs = groups.flatMap Group.pairs := by
        rw [inv.split, none, List.append_nil]
      refine ⟨w, groups, rfl, inv.positive, inv.start, complete, inv.uniform, ?_, inv.latency,
        inv.gap rfl first now⟩
      rw [sum_length complete]
      exact inv.tasks

end Riff
