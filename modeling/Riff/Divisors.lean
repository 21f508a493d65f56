import Riff.Conservation
import Riff.Cycle
import Riff.Records
import Riff.MissingEnd

set_option autoImplicit false

namespace Riff

open Exact Transition

variable {n : ℕ} {p : Params n} {s t : State n} {i : Fin n}

/-! Programs that alternate `begin()` and `end()`. -/

def Op.next : Op → Phase → Option Phase
  | .beginCall, .outside => some .inside
  | .beginCall, .inside => none
  | .endCall _, .inside => some .outside
  | .endCall _, .outside => none
  | _, q => some q

def Alternates : List Op → Phase → Prop
  | [], _ => True
  | op :: rest, q => ∃ r, op.next q = some r ∧ Alternates rest r

/-- At least one task. -/
def Positive (x : Double) : Prop := ∃ k : ℕ, 0 < k ∧ x = k

theorem Positive.whole {x : Double} (positive : Positive x) : Whole x := by
  obtain ⟨k, _, same⟩ := positive
  exact ⟨k, same⟩

theorem Positive.ne_zero {x : Double} (positive : Positive x) : x ≠ 0 := by
  obtain ⟨k, some, rfl⟩ := positive
  exact fun none => Nat.ne_of_gt some (Double.natCast_injective k 0 (none.trans Nat.cast_zero.symm))

theorem Whole.add_positive {x : Double} (whole : Whole x) {k : ℕ} (some : 0 < k) :
    Positive (x + k) := by
  obtain ⟨l, rfl⟩ := whole
  exact ⟨l + k, Nat.add_pos_right l some, (Nat.cast_add l k).symm⟩

theorem evaluates_stamp {now : ℕ} {t : ThreadData} : Evaluates (stamp now t) ↔ Evaluates t :=
  Iff.rfl

/-- The tasks that stand ready for the `begin()` that evaluates them. `q` is what the rest
of the program starts with. -/
def Supply (q : Phase) (t : ThreadData) : WorkerPc → Prop
  | .idle =>
      q = .outside → t.currentSample = 0 → t.computeStart ≠ 0 → Positive t.sample.numTasks
  | .asking _ length | .storing _ length =>
      q = .inside ∧ Evaluates t ∧ 0 < length ∧ Positive t.sample.numTasks
  | .publishing _ length _ =>
      q = .inside ∧ Evaluates t ∧ 0 < length ∧ Positive t.consolidatedSample.numTasks
  | _ => q = .inside ∧ (Evaluates t → Positive t.sample.numTasks)

/-- A thread, by its position, the rest of its program and its record. -/
structure Fed (pc : WorkerPc) (rest : List Op) (t : ThreadData) : Prop where
  cycle : Cycle t
  tasks : Whole t.sample.numTasks
  supply : ∃ q, Alternates rest q ∧ Supply q t pc
  weights : ∀ weight, .endCall weight ∈ rest → 1 ≤ weight

/-- Inside an iteration an `end()` comes next, so nothing is asked of an idle thread. -/
theorem Fed.inside {rest : List Op} {t : ThreadData} (cycle : Cycle t)
    (tasks : Whole t.sample.numTasks) (alternates : Alternates rest .inside)
    (weights : ∀ weight, .endCall weight ∈ rest → 1 ≤ weight) : Fed .idle rest t :=
  ⟨cycle, tasks, ⟨.inside, alternates, fun outside => by cases outside⟩, weights⟩

/-- What is left of a program after its next call. -/
theorem Fed.next {op : Op} {rest : List Op} {t : ThreadData} (fed : Fed .idle (op :: rest) t) :
    ∃ q r, op.next q = some r ∧ Alternates rest r ∧ Supply q t .idle ∧
      ∀ weight, .endCall weight ∈ rest → 1 ≤ weight := by
  obtain ⟨_, _, ⟨q, ⟨r, moved, later⟩, supply⟩, weights⟩ := fed
  exact ⟨q, r, moved, later, supply, fun weight member => weights weight (.tail _ member)⟩

theorem Fed.endCall {now weight : ℕ} {rest : List Op} {t : ThreadData}
    (fed : Fed .idle (.endCall weight :: rest) t) : Fed .idle rest (endCall now weight t) := by
  obtain ⟨q, r, moved, later, _, weights⟩ := fed.next
  have heavy := fed.weights weight (.head _)
  cases q <;> cases moved
  refine ⟨fed.cycle.endCall now weight, ?_, ⟨.outside, later, ?_⟩, weights⟩
  · by_cases recorded : t.currentSample = 0
    · simpa only [endCall_recorded recorded] using fed.tasks.add_nat (t.samplingLength * weight)
    · simpa only [endCall_skipped recorded] using fed.tasks
  · by_cases recorded : t.currentSample = 0
    · have credit := fed.tasks.add_positive (Nat.mul_pos fed.cycle.positive heavy)
      rw [endCall_recorded recorded]
      exact fun _ _ _ => credit
    · rw [endCall_skipped recorded]
      exact fun _ first => absurd first recorded

theorem Fed.beginCall {rest : List Op} {t : ThreadData} (fed : Fed .idle (.beginCall :: rest) t) :
    Fed .idle rest (advance t) ∧ Fed .testing rest (advance t) := by
  obtain ⟨q, r, moved, later, supply, weights⟩ := fed.next
  cases q <;> cases moved
  refine ⟨.inside fed.cycle.advanced fed.tasks later weights, fed.cycle.advanced, fed.tasks,
    ⟨.inside, later, rfl, ?_⟩, weights⟩
  intro evaluates
  obtain ⟨started, first, _⟩ := fed.cycle.evaluates 0 (evaluates_stamp.mpr evaluates)
  exact supply rfl first started

theorem Fed.neutral {op : Op} {rest : List Op} {t u : ThreadData} (fed : Fed .idle (op :: rest) t)
    (neutral : ∀ q, op.next q = some q) (frame : ∃ fields stored asked, u = { t with
      sample := { t.sample with customFields := fields }
      consolidatedSample := stored
      consolidate := asked }) : Fed .idle rest u := by
  obtain ⟨q, r, moved, later, supply, weights⟩ := fed.next
  cases (neutral q).symm.trans moved
  obtain ⟨fields, stored, asked, rfl⟩ := frame
  exact ⟨fed.cycle.congr rfl rfl, fed.tasks, ⟨q, later, supply⟩, weights⟩

/-- A step towards the clock. -/
theorem Fed.goes {pc next : WorkerPc} {rest : List Op} {t : ThreadData} (fed : Fed pc rest t)
    (same : ∀ q, Supply q t pc → Supply q t next) : Fed next rest t := by
  obtain ⟨cycle, tasks, ⟨q, alternates, supply⟩, weights⟩ := fed
  exact ⟨cycle, tasks, ⟨q, alternates, same q supply⟩, weights⟩

/-- Whatever else the thread does to its record, it then has an `end()` ahead. -/
theorem Fed.leaves {pc : WorkerPc} {rest : List Op} {t u : ThreadData} (fed : Fed pc rest t)
    (ahead : ∀ q, Supply q t pc → q = .inside) (cycle : Cycle u) (tasks : Whole u.sample.numTasks) :
    Fed .idle rest u := by
  obtain ⟨_, _, ⟨q, alternates, supply⟩, weights⟩ := fed
  cases ahead q supply
  exact .inside cycle tasks alternates weights

theorem Fed.measured {now reading length : ℕ} {rest : List Op} {t : ThreadData}
    (fed : Fed .timing rest t) (evaluates : Evaluates (stamp now t)) (grown : 0 < length) :
    Fed (.asking reading length) rest (measure now (stamp now t)) := by
  obtain ⟨cycle, tasks, ⟨q, alternates, inside, ready⟩, weights⟩ := fed
  exact ⟨cycle.congr rfl rfl, tasks,
    ⟨q, alternates, inside, evaluates, grown, ready (evaluates_stamp.mp evaluates)⟩, weights⟩

structure Supplied (s : State n) (i : Fin n) : Prop where
  fed : Fed (s.workers i).pc (s.workers i).rest (s.threads i)
  handed : ∀ publication ∈ s.ledger.publications i, Positive publication.sample.numTasks

theorem Supplied.step {w : Worker} {u : ThreadData} (supplied : Supplied s i)
    (publications : t.ledger.publications i = s.ledger.publications i)
    (worker : t.workers i = w) (thread : t.threads i = u) (fed : Fed w.pc w.rest u) :
    Supplied t i := by
  subst worker thread
  refine ⟨fed, ?_⟩
  rw [publications]
  exact supplied.handed

theorem Supplied.initial (alternates : Alternates (p.program i) .outside)
    (heavy : ∀ weight, .endCall weight ∈ p.program i → 1 ≤ weight) :
    Supplied (State.initial p) i :=
  ⟨⟨Cycle.initial p.build, .zero, ⟨.outside, alternates, fun _ _ started => absurd rfl started⟩,
    heavy⟩, fun _ member => absurd member List.not_mem_nil⟩

theorem Supplied.worker (sampling : 0 ≤ p.configuration.samplingLengthMs) (supplied : Supplied s i)
    (moves : WorkerMoves p i s t) : Supplied t i := by
  have fed := supplied.fed
  cases moves with
  | skipped pc next far =>
      rw [pc, next] at fed
      exact supplied.step rfl (Function.update_self ..) (Function.update_self ..) fed.beginCall.1
  | entered pc next near =>
      rw [pc, next] at fed
      exact supplied.step rfl (Function.update_self ..) (Function.update_self ..)
        (by simpa using fed.beginCall.2)
  | ended pc next later =>
      rw [pc, next] at fed
      exact supplied.step rfl (Function.update_self ..) (Function.update_self ..) fed.endCall
  | @stored index value rest pc next =>
      rw [pc, next] at fed
      have frame := (call_neutral {} {} (c := .storeCustomValue index value) rfl (s.threads i)).2
      exact supplied.step rfl (Function.update_self ..) (Function.update_self ..) (fed.neutral (fun _ => rfl) frame.frame)
  | @configured rest op phaseId totalThreads marked pc next shared =>
      rw [pc, next] at fed
      have neutral : ∀ q, op.next q = some q := by
        intro q
        cases op <;> first | rfl | cases shared
      exact supplied.step rfl (Function.update_self ..) rfl (fed.neutral neutral ⟨_, _, _, rfl⟩)
  | unsent pc fails =>
      rw [pc] at fed
      exact supplied.step rfl (Function.update_self ..) rfl (fed.leaves (fun _ supply => supply.1) fed.cycle fed.tasks)
  | quiet pc idle =>
      rw [pc] at fed
      exact supplied.step rfl (Function.update_self ..) (Function.update_self ..)
        (fed.leaves (fun _ supply => supply.1) (fed.cycle.congr rfl rfl) fed.tasks)
  | noTasks pc evaluates failed =>
      rw [pc] at fed
      exact supplied.step rfl (Function.update_self ..) (Function.update_self ..)
        (fed.leaves (fun _ supply => supply.1) (fed.cycle.congr rfl rfl) fed.tasks)
  | measured pc evaluates chosen =>
      rw [pc] at fed
      have grown := newSamplingLength_pos sampling (by simpa using fed.cycle.positive) chosen
      exact supplied.step rfl (Function.update_self ..) (Function.update_self ..)
        (fed.measured evaluates grown)
  | asked pc flag =>
      rw [pc] at fed
      exact supplied.step rfl (Function.update_self ..) rfl (fed.goes fun _ supply => supply)
  | kept pc flag =>
      rw [pc] at fed
      obtain ⟨_, _, _, evaluates, grown, _⟩ := fed.supply
      exact supplied.step rfl (Function.update_self ..) (Function.update_self ..) (fed.leaves (fun _ supply => supply.1)
        ((Cycle.resized grown (fed.cycle.starts evaluates)).congr rfl rfl) fed.tasks)
  | rejected pc failed =>
      rw [pc] at fed
      rw [storeConsolidated_threw failed]
      exact supplied.step rfl (Function.update_self ..) (Function.update_self ..)
        (fed.leaves (fun _ supply => supply.1) (fed.cycle.congr rfl rfl) fed.tasks)
  | consolidated pc written =>
      rw [pc] at fed
      rw [storeConsolidated_returned written]
      obtain ⟨cycle, tasks, supply, weights⟩ := fed
      exact supplied.step rfl (Function.update_self ..) (Function.update_self ..) ⟨cycle.congr rfl rfl, tasks, supply, weights⟩
  | @published now length round pc =>
      rw [pc] at fed
      obtain ⟨_, _, _, evaluates, grown, ready⟩ := fed.supply
      have starts := fed.cycle.starts evaluates
      have later : Fed .idle (s.workers i).rest
          (restart now (resize length (publish now (s.threads i)))) :=
        fed.leaves (fun _ supply => supply.1)
          ((Cycle.resized (t := publish now (s.threads i)) grown starts).congr rfl rfl) .zero
      refine ⟨by simpa using later, ?_⟩
      intro publication member
      simp only [State.goto_ledger, Ledger.publish_publications, Function.update_self,
        List.mem_append, List.mem_singleton] at member
      rcases member with earlier | rfl
      · exact supplied.handed publication earlier
      · exact ready
  | _ =>
      rw [‹(s.workers i).pc = _›] at fed
      exact supplied.step rfl (Function.update_self ..) rfl (fed.goes fun _ supply => supply)

theorem Supplied.bystander (supplied : Supplied s i) (others : Bystander i s t) :
    Supplied t i := by
  obtain ⟨⟨cycle, tasks, ⟨q, alternates, supply⟩, weights⟩, handed⟩ := supplied
  obtain ⟨worker, _, publications, total, asked, stored, thread, kept⟩ := others
  refine ⟨?_, by rw [publications]; exact handed⟩
  rw [worker, thread]
  refine ⟨cycle.congr rfl rfl, tasks, ⟨q, alternates, ?_⟩, weights⟩
  cases pc : (s.workers i).pc <;> simp only [pc, WorkerPc.writing] at supply kept ⊢
  case publishing now length round =>
    rw [kept trivial]
    exact supply
  all_goals exact supply

theorem reachable_supplied (sampling : 0 ≤ p.configuration.samplingLengthMs)
    (alternates : ∀ i, Alternates (p.program i) .outside)
    (heavy : ∀ i weight, .endCall weight ∈ p.program i → 1 ≤ weight)
    (reachable : (machine p).system.Reachable s) : ∀ i, Supplied s i :=
  reachable_records Supplied (fun i => .initial (alternates i) (heavy i))
    (fun _ _ _ _ supplied moves => supplied.worker sampling moves)
    (fun _ _ _ supplied others => supplied.bystander others) reachable

/-! The counts of the support thread. -/

theorem Gathering.add_counts {g : Gathering} (sample : ApplicationSample)
    (counts : g.inconsistentSamples ≤ g.updatedSamples) :
    (g.add sample).inconsistentSamples ≤ (g.add sample).updatedSamples := by
  simp only [Gathering.add]
  split <;> omega

def SupportPc.Counts : SupportPc n → Prop
  | .waiting _ g | .stopping _ g | .rereading _ g | .adding _ g | .closing g =>
      g.inconsistentSamples ≤ g.updatedSamples
  | .adjusting g | .averaging g =>
      g.inconsistentSamples ≤ g.updatedSamples ∧ 0 < g.updatedSamples
  | _ => True

theorem SupportMoves.supportCounts (moves : SupportMoves p s t) (counts : s.support.Counts) :
    t.support.Counts := by
  cases moves with
  | adds pc =>
      rw [pc] at counts
      exact Gathering.add_counts _ counts
  | misses pc some adjust missing =>
      rw [pc] at counts
      exact ⟨counts, Nat.pos_of_ne_zero some⟩
  | closes pc some whole =>
      rw [pc] at counts
      exact ⟨counts, Nat.pos_of_ne_zero some⟩
  | requested pc all => exact Nat.le_refl 0
  | returns pc stop => trivial
  | listens pc go => trivial
  | receives pc taken => trivial
  | requests pc => trivial
  | doubts pc none => trivial
  | adjustFails pc go => trivial
  | averages pc => trivial
  | trusts pc stop => trivial
  | doubtFails pc go => trivial
  | labels pc => trivial
  | drops pc stop => trivial
  | decides pc go => trivial
  | sends pc => trivial
  | _ =>
      rw [‹s.support = _›] at counts
      exact counts

theorem reachable_supportCounts (reachable : (machine p).system.Reachable s) :
    s.support.Counts := by
  apply reachable.invariant (fun s => s.support.Counts) trivial
  intro u v _ counts step
  rcases moves_of_step step with ⟨j, moves⟩ | moves | moves | moves
  · rw [moves.frame.support]
    exact counts
  · exact moves.supportCounts counts
  · cases moves <;> exact counts
  · cases moves <;> exact counts

/-! The divisors. Those that are constants are left out. -/

/-- The divisors of `updateSamplingLength`. -/
def samplingLengthDivisors (numTasks sampleTime : ℕ) : List Double :=
  if numTasks ≠ 0 then
    let latencyNs : Double := ((sampleTime / numTasks : ℕ) : Double)
    let latencyMs := latencyNs / ((1000000 : ℕ) : Double)
    if latencyMs.truthy then [(numTasks : Double), latencyMs] else [(numTasks : Double)]
  else
    []

/-- The divisors of `begin()`: the throughput, the load and the new sampling length on the
way to the flag, and the consistency check after it. -/
def beginDivisors (p : Params n) (i : Fin n) (s : State n) : List Double :=
  match (s.workers i).pc with
  | .timing =>
      let now := p.readings s.reads
      let t := stamp now (s.threads i)
      if Evaluates t then
        [(sampleTime now t : Double) / ((1000000000 : ℕ) : Double), (sampleTime now t : Double)] ++
          if p.configuration.samplingLengthMs ≠ 0 then
            samplingLengthDivisors t.sample.numTasks.toUnsigned (sampleTime now t)
          else
            []
      else
        []
  | .storing now _ => [(sampleTime now (s.threads i) : Double)]
  | _ => []

/-- The divisors of the support thread. -/
def supportDivisors (s : State n) : List Double :=
  match s.support with
  | .adding i _ =>
      let sample := (s.threads i).consolidatedSample
      if sample.inconsistent then [] else [sample.numTasks]
  | .adjusting g => if s.supportStop then [(g.updatedSamples : Double)] else []
  | .averaging g =>
      if g.inconsistentSamples = g.updatedSamples ∨ s.inconsistentSample then []
      else [((g.updatedSamples - g.inconsistentSamples : ℕ) : Double)]
  | _ => []

/-- What each party divides by in its next step. -/
def divisors (p : Params n) : Party n → State n → List Double
  | .worker i, s => beginDivisors p i s
  | .support, s => supportDivisors s
  | .main, _ => []
  | .monitor, _ => []

/-- The `begin()` in progress, if there is one, does not evaluate a window at the reading
with which the window started. -/
def Advances (p : Params n) : Party n → State n → Prop
  | .worker i, s =>
      match (s.workers i).pc with
      | .timing =>
          Evaluates (s.threads i) → (s.threads i).sampleStartTime ≠ p.readings s.reads
      | .storing now _ => (s.threads i).sampleStartTime ≠ now
      | _ => True
  | _, _ => True

theorem natCast_ne_zero_iff {k : ℕ} : (k : Double) ≠ 0 ↔ k ≠ 0 := by
  refine not_congr ⟨?_, fun zero => by rw [zero, Nat.cast_zero]⟩
  intro zero
  exact Double.natCast_injective k 0 (zero.trans Nat.cast_zero.symm)

theorem samplingLengthDivisors_ne_zero {numTasks sampleTime : ℕ} :
    ∀ d ∈ samplingLengthDivisors numTasks sampleTime, d ≠ 0 := by
  unfold samplingLengthDivisors
  split
  · rename_i some
    dsimp only
    split
    · rename_i slow
      intro d member
      rcases List.mem_cons.mp member with rfl | last
      · exact natCast_ne_zero_iff.mpr some
      · rw [List.mem_singleton.mp last]
        intro zero
        rw [zero] at slow
        cases slow
    · intro d member
      rw [List.mem_singleton.mp member]
      exact natCast_ne_zero_iff.mpr some
  · intro d member
    cases member

theorem scaled_ne_zero_iff {k : ℕ} :
    (k : Double) / ((1000000000 : ℕ) : Double) ≠ 0 ↔ k ≠ 0 := by
  rw [Double.natCast_div _ _ (by decide), Double.zero_def, ne_eq, Double.finite.injEq,
    div_eq_zero_iff, or_iff_left (by norm_num), Nat.cast_eq_zero]

theorem sampleTime_ne_zero_iff {now : ℕ} {t : ThreadData} (earlier : t.sampleStartTime ≤ now) :
    sampleTime now t ≠ 0 ↔ t.sampleStartTime ≠ now := by
  rw [sampleTime, ullSub_of_le _ _ earlier]
  omega

theorem beginDivisors_ne_zero_iff (clock : Monotone p.readings) (dated : Dated p s i) :
    (∀ d ∈ beginDivisors p i s, d ≠ 0) ↔ Advances p (.worker i) s := by
  simp only [beginDivisors, Advances]
  cases pc : (s.workers i).pc
  case timing =>
    dsimp only
    split
    · rename_i evaluates
      have set := dated.started (by simpa using evaluates.1)
      obtain ⟨k, earlier, same⟩ := dated.start set
      have start : (stamp (p.readings s.reads) (s.threads i)).sampleStartTime =
          (s.threads i).sampleStartTime := by simp [set]
      have ordered : (s.threads i).sampleStartTime ≤ p.readings s.reads :=
        same ▸ clock earlier.le
      have advanced := sampleTime_ne_zero_iff (start.trans_le ordered)
      rw [start] at advanced
      constructor
      · intro nonzero _
        exact advanced.mp (natCast_ne_zero_iff.mp (nonzero _ (by simp)))
      · intro moves d member
        have spent := advanced.mpr (moves evaluates)
        rcases List.mem_append.mp member with rates | length
        · rcases List.mem_cons.mp rates with rfl | rates
          · exact scaled_ne_zero_iff.mpr spent
          · rw [List.mem_singleton.mp rates]
            exact natCast_ne_zero_iff.mpr spent
        · split at length
          · exact samplingLengthDivisors_ne_zero d length
          · cases length
    · rename_i quiet
      exact iff_of_true (fun _ member => by cases member) fun evaluates => absurd evaluates quiet
  case storing now length =>
    obtain ⟨_, k, _, rfl, l, earlier, same⟩ := dated.reading now (by simp [pc, WorkerPc.reading])
    have ordered : (s.threads i).sampleStartTime ≤ p.readings k := same ▸ clock earlier.le
    dsimp only
    rw [List.forall_mem_singleton, natCast_ne_zero_iff, sampleTime_ne_zero_iff ordered]
  all_goals exact iff_of_true (fun _ member => by cases member) trivial

theorem supportDivisors_ne_zero (owned : Owned p s) (counts : s.support.Counts)
    (handed : ∀ i, ∀ publication ∈ s.ledger.publications i,
      Positive publication.sample.numTasks) : ∀ d ∈ supportDivisors s, d ≠ 0 := by
  have standing := owned.standing
  intro d member
  simp only [supportDivisors] at member
  split at member
  · rename_i i g pc
    rw [pc] at standing
    obtain ⟨_, _, ready⟩ := standing
    split at member
    · cases member
    · rw [List.mem_singleton.mp member]
      exact (handed i _ (List.mem_of_getElem? ready.sample)).ne_zero
  · rename_i g pc
    rw [pc] at counts
    split at member
    · rw [List.mem_singleton.mp member]
      exact natCast_ne_zero_iff.mpr counts.2.ne'
    · cases member
  · rename_i g pc
    rw [pc] at counts
    split at member
    · cases member
    · rename_i consistent
      have less := lt_of_le_of_ne counts.1 fun same => consistent (.inl same)
      rw [List.mem_singleton.mp member]
      exact natCast_ne_zero_iff.mpr (Nat.sub_ne_zero_of_lt less)
  · cases member

/-- The only divisor that can be zero is the length of the window: exactly when `begin()`
evaluates a window at the reading with which the window started. -/
theorem divisors_ne_zero_iff (sampling : 0 ≤ p.configuration.samplingLengthMs)
    (alternates : ∀ i, Alternates (p.program i) .outside)
    (unit : ∀ i weight, .endCall weight ∈ p.program i → weight = 1)
    (clock : Monotone p.readings) (reachable : (machine p).system.Reachable s) :
    (∀ party, (∀ d ∈ divisors p party s, d ≠ 0) ↔ Advances p party s) ∧
      (∀ i, (s.workers i).pc = .timing → Evaluates (s.threads i) →
        Positive (s.threads i).sample.numTasks) ∧
      (StrictMono p.readings → ∀ party, Advances p party s) := by
  have supplied := reachable_supplied sampling alternates
    (fun i weight member => (unit i weight member).ge) reachable
  have dated := reachable_dated reachable
  refine ⟨?_, ?_, ?_⟩
  · intro party
    cases party with
    | worker i => exact beginDivisors_ne_zero_iff clock (dated i)
    | support =>
        refine iff_of_true ?_ trivial
        exact supportDivisors_ne_zero (reachable_owned reachable)
          (reachable_supportCounts reachable) fun i => (supplied i).handed
    | main => exact iff_of_true (fun _ member => by cases member) trivial
    | monitor => exact iff_of_true (fun _ member => by cases member) trivial
  · intro i pc evaluates
    obtain ⟨_, _, supply⟩ := (supplied i).fed.supply
    rw [pc] at supply
    exact supply.2 evaluates
  · intro strict party
    cases party with
    | worker i =>
        simp only [Advances]
        split
        · intro evaluates same
          obtain ⟨k, earlier, read⟩ := (dated i).start ((dated i).started evaluates.1)
          exact absurd (strict.injective (read.trans same)) (Nat.ne_of_lt earlier)
        · rename_i now length pc
          intro same
          obtain ⟨_, k, _, rfl, l, earlier, read⟩ :=
            (dated i).reading now (by rw [pc]; rfl)
          exact absurd (strict.injective (read.trans same)) (Nat.ne_of_lt earlier)
        · trivial
    | _ => trivial

/-- Two iterations, with the clock standing still. -/
def sameReading : Params 1 where
  program _ := [.beginCall, .endCall 1, .beginCall]
  readings _ := 1

/-- The thread has made its second `begin()` and is about to read the clock. -/
def untilSecondReading : List (Party 1) := List.replicate 11 onlyWorker

theorem alternates_sameReading : Alternates (sameReading.program 0) .outside :=
  ⟨_, rfl, _, rfl, _, rfl, trivial⟩

/-- The throughput and the load of an empty window divide by zero. -/
theorem divisors_ne_zero_sameReading :
    Monotone sameReading.readings ∧ (∀ k, 0 < sameReading.readings k) ∧
      Alternates (sameReading.program 0) .outside ∧
      ¬ ∀ s, (machine sameReading).system.Reachable s → ∀ party,
        ∀ d ∈ divisors sameReading party s, d ≠ 0 := by
  refine ⟨fun _ _ _ => Nat.le_refl 1, fun _ => Nat.one_pos, alternates_sameReading, ?_⟩
  intro nonzero
  have run : ((machine sameReading).follow untilSecondReading (machine sameReading).start).map
      (divisors sameReading (.worker 0)) = some [0, 0, 1] := by
    decide +kernel
  obtain ⟨s, reachable, seen⟩ := Machine.reachable_of_observed run
  exact nonzero s reachable (.worker 0) 0 (by rw [seen]; exact .head _) rfl

/-- A clock that moves, at the same place. -/
def movingReading : Params 1 := { sameReading with readings := fun k => k + 1 }

theorem divisors_ne_zero_movingReading :
    ∃ s, (machine movingReading).system.Reachable s ∧
      ∀ d ∈ divisors movingReading (.worker 0) s, d ≠ 0 := by
  have run : ((machine movingReading).follow untilSecondReading (machine movingReading).start).map
      (fun s => (s.workers 0).pc.reading) = some none := by
    decide +kernel
  obtain ⟨s, reachable, _⟩ := Machine.reachable_of_observed run
  have strict : StrictMono movingReading.readings := fun _ _ less => Nat.succ_lt_succ less
  obtain ⟨nonzero, _, advances⟩ := @divisors_ne_zero_iff 1 movingReading s (by decide)
    (fun _ => alternates_sameReading)
    (fun _ weight member => by
      have only : Op.endCall weight ∈ sameReading.program 0 := member
      simpa [sameReading] using only)
    strict.monotone reachable
  exact ⟨s, reachable, (nonzero _).mpr (advances strict _)⟩

end Riff
