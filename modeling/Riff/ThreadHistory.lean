import Riff.Divisors
import Riff.TaskCount
import Riff.Weights

set_option autoImplicit false

namespace Riff

open Exact Transition

variable {n : ℕ} {p : Params n} {s t : State n} {i : Fin n} {past : List Call}

/-! A thread of the application makes its calls one after the other: whatever the others
do in between, its record is that of a sequential run. -/

def Call.op : Call → Option Op
  | .beginAt _ => some .beginCall
  | .endAt _ weight => some (.endCall weight)
  | .storeCustomValue index value => some (.storeCustomValue index value)
  | .request => none
  | .collect => none

/-- The samples that a run hands over, whatever its calls throw. -/
def handedOver (build : Build) (configuration : ApplicationConfiguration) :
    List Call → ThreadData → List Consolidation
  | [], _ => []
  | c :: calls, t =>
      (consolidation c t (call build configuration c t).record).toList ++
        handedOver build configuration calls (call build configuration c t).record

/-- The calls on its own record that a thread has yet to complete. -/
def Worker.pending (w : Worker) : List Op :=
  match w.pc with
  | .idle => w.rest.filter Op.own
  | _ => .beginCall :: w.rest.filter Op.own

theorem handedOver_append (build : Build) (configuration : ApplicationConfiguration)
    (first second : List Call) (t : ThreadData) :
    handedOver build configuration (first ++ second) t =
      handedOver build configuration first t ++
        handedOver build configuration second (runCaught build configuration first t) := by
  induction first generalizing t with
  | nil => rfl
  | cons c first ih =>
      rw [List.cons_append, handedOver, handedOver, ih, List.append_assoc]
      rfl

/-- A call that leaves the flag alone hands nothing over. -/
theorem handedOver_kept {build : Build} {configuration : ApplicationConfiguration} {c : Call}
    {t : ThreadData} (kept : (call build configuration c t).record.consolidate = t.consolidate) :
    handedOver build configuration [c] t = [] := by
  cases c <;> simp_all [handedOver, consolidation]

/-- A `begin()` that has evaluated its window, given the record before it. -/
structure Measured (p : Params n) (t₀ : ThreadData) (now length : ℕ) : Prop where
  near : (advance t₀).currentSample ≤ 1
  evaluates : Evaluates (stamp now (advance t₀))
  chosen : newSamplingLength p.build p.configuration now (measure now (stamp now (advance t₀))) =
    .ok length

/-- How far a thread is in its call, given the record before the call. -/
def Within (p : Params n) (t₀ t : ThreadData) : WorkerPc → Prop
  | .idle => t = t₀
  | .asking now length => Measured p t₀ now length ∧ t = measure now (stamp now (advance t₀))
  | .storing now length =>
      Measured p t₀ now length ∧ t₀.consolidate = true ∧ t = measure now (stamp now (advance t₀))
  | .publishing now length _ =>
      Measured p t₀ now length ∧ t₀.consolidate = true ∧
        storeConsolidated p.build p.configuration now (measure now (stamp now (advance t₀))) =
          .returned t
  | _ => (advance t₀).currentSample ≤ 1 ∧ t = advance t₀

theorem Measured.kept {t₀ : ThreadData} {now length : ℕ} (measured : Measured p t₀ now length)
    (unasked : t₀.consolidate = false) :
    beginCall p.build p.configuration now t₀ =
      .returned (restart now (resize length (measure now (stamp now (advance t₀))))) := by
  obtain ⟨near, evaluates, chosen⟩ := measured
  simp only [beginCall, Nat.not_lt.mpr near, evaluates, chosen, unasked, measure_consolidate,
    stamp_consolidate, advance_consolidate, Bool.false_eq_true, ↓reduceIte]

theorem Measured.rejected {t₀ u : ThreadData} {now length : ℕ} {error : RuntimeError}
    (measured : Measured p t₀ now length) (asked : t₀.consolidate = true)
    (failed : storeConsolidated p.build p.configuration now (measure now (stamp now (advance t₀))) =
      .threw error u) : beginCall p.build p.configuration now t₀ = .threw error u := by
  obtain ⟨near, evaluates, chosen⟩ := measured
  simp only [beginCall, Nat.not_lt.mpr near, evaluates, chosen, asked, failed, measure_consolidate,
    stamp_consolidate, advance_consolidate, ↓reduceIte]

theorem Measured.consolidated {t₀ u : ThreadData} {now length : ℕ}
    (measured : Measured p t₀ now length) (asked : t₀.consolidate = true)
    (stored : storeConsolidated p.build p.configuration now (measure now (stamp now (advance t₀))) =
      .returned u) :
    beginCall p.build p.configuration now t₀ =
      .returned (restart now (resize length (publish now u))) := by
  obtain ⟨near, evaluates, chosen⟩ := measured
  simp only [beginCall, Nat.not_lt.mpr near, evaluates, chosen, asked, stored, measure_consolidate,
    stamp_consolidate, advance_consolidate, ↓reduceIte]

/-- The thread's calls so far, with the writes of the support thread in between. -/
structure Traced (p : Params n) (s : State n) (i : Fin n) (past : List Call) : Prop where
  within : Within p (runCaught p.build p.configuration past (ThreadData.initial p.build))
    (s.threads i) (s.workers i).pc
  program : past.filterMap Call.op ++ (s.workers i).pending = (p.program i).filter Op.own
  ticks : (0 :: times past).IsChain Ticks
  last : lastTime past ≤ p.readings s.reads
  reading : ∀ now, (s.workers i).pc.reading = some now →
    Ticks (lastTime past) now ∧ now ≤ p.readings s.reads

theorem ticks_snoc {last : ℕ} {readings : List ℕ} {now : ℕ}
    (chain : (last :: readings).IsChain Ticks) (tick : Ticks (readings.getLastD last) now) :
    (last :: (readings ++ [now])).IsChain Ticks := by
  rw [← List.cons_append, List.isChain_append]
  refine ⟨chain, .singleton now, ?_⟩
  intro first isLast second isFirst
  cases isFirst
  have same : readings.getLastD last = first := by
    simpa [List.getLast?_cons, List.getLastD_eq_getLast?] using isLast
  rwa [same] at tick

theorem times_snoc {c : Call} {now : ℕ} (time : c.time = some now) (past : List Call) :
    times (past ++ [c]) = times past ++ [now] := by
  simp [times, List.filterMap_append, time]

/-- A call that carries a time ends. -/
theorem Traced.completes {c : Call} {op : Op} {now : ℕ} (traced : Traced p s i past)
    (time : c.time = some now) (tick : Ticks (lastTime past) now)
    (later : now ≤ p.readings t.reads) (idle : (t.workers i).pc = .idle)
    (record : t.threads i = (call p.build p.configuration c
      (runCaught p.build p.configuration past (ThreadData.initial p.build))).record)
    (ops : c.op = some op)
    (pending : (s.workers i).pending = op :: (t.workers i).rest.filter Op.own) :
    Traced p t i (past ++ [c]) := by
  have last : lastTime (past ++ [c]) = now := by
    rw [lastTime, times_snoc time, List.getLastD_concat]
  refine ⟨?_, ?_, ?_, ?_, ?_⟩
  · rw [idle, runCaught_append]
    exact record
  · rw [← traced.program, pending, Worker.pending, idle, List.filterMap_append]
    simp [ops]
  · rw [times_snoc time]
    exact ticks_snoc traced.ticks tick
  · rwa [last]
  · intro now evaluating
    rw [idle] at evaluating
    cases evaluating

/-- A write of the support thread, or a custom value. -/
theorem Traced.neutral {c : Call} (traced : Traced p s i past) (time : c.time = none)
    (reads : t.reads = s.reads)
    (within : Within p (call p.build p.configuration c
      (runCaught p.build p.configuration past (ThreadData.initial p.build))).record
      (t.threads i) (t.workers i).pc)
    (reading : (t.workers i).pc.reading = (s.workers i).pc.reading)
    (pending : (s.workers i).pending = c.op.toList ++ (t.workers i).pending) :
    Traced p t i (past ++ [c]) := by
  have same : times (past ++ [c]) = times past := by
    simp [times, List.filterMap_append, time]
  refine ⟨?_, ?_, ?_, ?_, ?_⟩
  · rw [runCaught_append]
    exact within
  · rw [← traced.program, pending, List.filterMap_append, List.append_assoc]
    cases op : c.op <;> simp [op]
  · rw [same]
    exact traced.ticks
  · rw [lastTime, same, reads]
    exact traced.last
  · rw [lastTime, same, reads, reading]
    exact traced.reading

/-- A step within a call. -/
theorem Traced.goes (traced : Traced p s i past) (reads : p.readings s.reads ≤ p.readings t.reads)
    (within : Within p (runCaught p.build p.configuration past (ThreadData.initial p.build))
      (t.threads i) (t.workers i).pc)
    (reading : ∀ now, (t.workers i).pc.reading = some now →
      Ticks (lastTime past) now ∧ now ≤ p.readings t.reads)
    (pending : (t.workers i).pending = (s.workers i).pending) : Traced p t i past :=
  ⟨within, by rw [pending]; exact traced.program, traced.ticks, traced.last.trans reads, reading⟩

theorem beginCall_quiet {t₀ : ThreadData} {now : ℕ} (near : (advance t₀).currentSample ≤ 1)
    (idle : ¬ Evaluates (stamp now (advance t₀))) :
    beginCall p.build p.configuration now t₀ = .returned (restart now (stamp now (advance t₀))) := by
  simp only [beginCall, Nat.not_lt.mpr near, idle, ↓reduceIte]

theorem beginCall_noTasks {t₀ : ThreadData} {now : ℕ} {error : RuntimeError}
    (near : (advance t₀).currentSample ≤ 1) (evaluates : Evaluates (stamp now (advance t₀)))
    (failed : newSamplingLength p.build p.configuration now (measure now (stamp now (advance t₀))) =
      .error error) :
    beginCall p.build p.configuration now t₀ = .threw error (measure now (stamp now (advance t₀))) := by
  simp only [beginCall, Nat.not_lt.mpr near, evaluates, failed, ↓reduceIte]

/-- What a step adds to the calls, and to the samples that are handed over. -/
def Grows (p : Params n) (s t : State n) (i : Fin n) (past : List Call) : Prop :=
  ∃ calls, Traced p t i (past ++ calls) ∧
    (t.ledger.publications i).map Publication.sample =
      (s.ledger.publications i).map Publication.sample ++
        (handedOver p.build p.configuration calls
          (runCaught p.build p.configuration past (ThreadData.initial p.build))).map
            Consolidation.sample

theorem Grows.inside (publications : t.ledger.publications i = s.ledger.publications i)
    (traced : Traced p t i past) : Grows p s t i past := by
  refine ⟨[], ?_, ?_⟩
  · rw [List.append_nil]
    exact traced
  · rw [publications]
    exact (List.append_nil _).symm

theorem Grows.silent {c : Call} (publications : t.ledger.publications i = s.ledger.publications i)
    (kept : (call p.build p.configuration c
      (runCaught p.build p.configuration past (ThreadData.initial p.build))).record.consolidate =
        (runCaught p.build p.configuration past (ThreadData.initial p.build)).consolidate)
    (traced : Traced p t i (past ++ [c])) : Grows p s t i past := by
  refine ⟨[c], traced, ?_⟩
  rw [publications, handedOver_kept kept]
  exact (List.append_nil _).symm

theorem Traced.grows (sends : ∀ k, p.startSends k = true) (positive : ∀ k, 0 < p.readings k)
    (clock : Monotone p.readings) (traced : Traced p s i past) (moves : WorkerMoves p i s t) :
    Grows p s t i past := by
  have within := traced.within
  have tick : Ticks (lastTime past) (p.readings s.reads) := ⟨traced.last, positive _⟩
  have ahead := clock moves.reads
  cases moves with
  | @skipped rest pc next far =>
      rw [pc] at within
      have made : call p.build p.configuration (.beginAt (p.readings s.reads)) (s.threads i) =
          .returned (advance (s.threads i)) := by
        rw [call, beginCall, if_pos far]
      rw [show s.threads i = _ from within] at made
      refine .silent rfl (by rw [made]; rfl) (traced.completes rfl tick le_rfl (by simp) ?_ rfl ?_)
      · rw [State.setThread_threads, Function.update_self, made, ← within]
        rfl
      · simp only [Worker.pending, pc, next, State.setThread_workers, State.pop_workers,
          Function.update_self]
        rfl
  | @entered rest pc next near =>
      rw [pc] at within
      refine .inside rfl (traced.goes le_rfl ?_ ?_ ?_)
      · rw [← show s.threads i = _ from within, State.goto_workers, Function.update_self]
        exact ⟨near, by simp⟩
      · intro now evaluating
        simp [WorkerPc.reading] at evaluating
      · simp only [Worker.pending, pc, next, State.goto_workers, State.setThread_workers,
          State.pop_workers, Function.update_self]
        rfl
  | @ended weight reads rest pc next later =>
      rw [pc] at within
      refine .silent (c := .endAt (p.readings s.reads) weight) rfl ?_
        (traced.completes rfl tick ahead (by simp) ?_ rfl ?_)
      · rw [call, record_returned, endCall]
        split <;> rfl
      · rw [State.setThread_threads, Function.update_self, call, ← within]
        rfl
      · simp only [Worker.pending, pc, next, State.setThread_workers, State.pop_workers,
          Function.update_self]
        rfl
  | @stored index value rest pc next =>
      rw [pc] at within
      refine .silent (c := .storeCustomValue index value) rfl ?_
        (traced.neutral rfl rfl ?_ ?_ ?_)
      · rw [call, storeCustomValue]
        split <;> rfl
      · rw [← show s.threads i = _ from within]
        simp [Within, call]
      · simp [pc]
      · simp only [Worker.pending, pc, next, State.setThread_workers, State.pop_workers,
          Function.update_self]
        rfl
  | @configured rest op phaseId totalThreads marked pc next shared =>
      rw [pc] at within
      refine .inside rfl (traced.goes le_rfl ?_ ?_ ?_)
      · simpa using within
      · intro now evaluating
        simp [WorkerPc.reading] at evaluating
      · simp [Worker.pending, pc, next, shared]
  | unsent pc fails =>
      rw [sends] at fails
      cases fails
  | quiet pc idle =>
      rw [pc] at within
      obtain ⟨near, entered⟩ := within
      rw [entered] at idle
      have made := beginCall_quiet (p := p) near idle
      refine .silent (c := .beginAt (p.readings s.reads)) rfl (by rw [call, made]; rfl)
        (traced.completes rfl tick ahead (by simp) ?_ rfl ?_)
      · rw [State.goto_threads, State.setThread_threads, Function.update_self, entered, call, made]
        rfl
      · simp [Worker.pending, pc]
  | noTasks pc evaluates failed =>
      rw [pc] at within
      obtain ⟨near, entered⟩ := within
      rw [entered] at evaluates failed
      have made := beginCall_noTasks (p := p) near evaluates failed
      refine .silent (c := .beginAt (p.readings s.reads)) rfl (by rw [call, made]; rfl)
        (traced.completes rfl tick ahead (by simp) ?_ rfl ?_)
      · rw [State.goto_threads, State.setThread_threads, Function.update_self, entered, call, made]
        rfl
      · simp [Worker.pending, pc]
  | @measured length pc evaluates chosen =>
      rw [pc] at within
      obtain ⟨near, entered⟩ := within
      rw [entered] at evaluates chosen
      refine .inside rfl (traced.goes ahead ?_ ?_ (by simp [Worker.pending, pc]))
      · rw [entered]
        simpa [Within] using Measured.mk near evaluates chosen
      · intro now evaluating
        have same : p.readings s.reads = now := by simpa [WorkerPc.reading] using evaluating
        subst same
        exact ⟨tick, ahead⟩
  | @asked now length pc flag =>
      rw [pc] at within
      obtain ⟨measured, reached⟩ := within
      refine .inside rfl (traced.goes le_rfl ?_ ?_ (by simp [Worker.pending, pc]))
      · rw [reached] at flag
        simpa [Within] using ⟨measured, flag, reached⟩
      · intro now evaluating
        exact traced.reading now (by simpa [pc, WorkerPc.reading] using evaluating)
  | @kept now length pc flag =>
      rw [pc] at within
      obtain ⟨measured, reached⟩ := within
      obtain ⟨tick, later⟩ := traced.reading now (by simp [pc, WorkerPc.reading])
      rw [reached] at flag
      have made := measured.kept flag
      refine .silent (c := .beginAt now) rfl (by rw [call, made]; rfl)
        (traced.completes rfl tick later (by simp) ?_ rfl (by simp [Worker.pending, pc]))
      rw [call, made, reached]
      simp
  | @rejected now length error u pc failed =>
      rw [pc] at within
      obtain ⟨measured, asked, reached⟩ := within
      obtain ⟨tick, later⟩ := traced.reading now (by simp [pc, WorkerPc.reading])
      rw [reached] at failed
      have made := measured.rejected asked failed
      refine .silent (c := .beginAt now) rfl ?_
        (traced.completes rfl tick later (by simp) ?_ rfl (by simp [Worker.pending, pc]))
      · rw [call, made, storeConsolidated_threw failed]
        rfl
      · rw [call, made]
        simp
  | @consolidated now length u pc written =>
      rw [pc] at within
      obtain ⟨measured, asked, reached⟩ := within
      rw [reached] at written
      refine .inside rfl (traced.goes le_rfl ?_ ?_ (by simp [Worker.pending, pc]))
      · simpa [Within] using ⟨measured, asked, written⟩
      · intro now evaluating
        exact traced.reading now (by simpa [pc, WorkerPc.reading] using evaluating)
  | @published now length round pc =>
      rw [pc] at within
      obtain ⟨measured, asked, written⟩ := within
      obtain ⟨tick, later⟩ := traced.reading now (by simp [pc, WorkerPc.reading])
      have made := measured.consolidated asked written
      refine ⟨[.beginAt now], traced.completes rfl tick later (by simp) ?_ rfl
        (by simp [Worker.pending, pc]), ?_⟩
      · rw [call, made]
        simp
      · simp [handedOver, consolidation, call, made, asked]
  | _ =>
      -- The steps that lead to the first START.
      refine .inside rfl (traced.goes le_rfl ?_ ?_ (by simp [Worker.pending, *]))
      · simpa [Within, *] using within
      · intro now evaluating
        simp [WorkerPc.reading] at evaluating

/-- The request of the support thread finds the flag of a thread that is writing set. -/
theorem Within.request {t₀ t : ThreadData} {pc : WorkerPc} (within : Within p t₀ t pc) :
    Within p { t₀ with consolidate := true } { t with consolidate := true } pc := by
  cases pc with
  | idle => exact congrArg (fun u : ThreadData => { u with consolidate := true }) within
  | asking now length =>
      obtain ⟨⟨near, evaluates, chosen⟩, reached⟩ := within
      exact ⟨⟨near, evaluates, chosen⟩, by rw [reached]; rfl⟩
  | storing now length =>
      obtain ⟨⟨near, evaluates, chosen⟩, _, reached⟩ := within
      exact ⟨⟨near, evaluates, chosen⟩, rfl, by rw [reached]; rfl⟩
  | publishing now length round =>
      obtain ⟨measured, asked, written⟩ := within
      have flag : t.consolidate = true := by
        rw [storeConsolidated_returned written]
        simpa using asked
      have before : { t₀ with consolidate := true } = t₀ := by rw [← asked]
      have after : { t with consolidate := true } = t := by rw [← flag]
      rw [before, after]
      exact ⟨measured, asked, written⟩
  | _ => exact ⟨within.1, by rw [within.2]; rfl⟩

theorem Within.collect {t₀ t : ThreadData} {pc : WorkerPc} (within : Within p t₀ t pc)
    (free : ¬ pc.writing) :
    Within p { t₀ with consolidatedSample := {} } { t with consolidatedSample := {} } pc := by
  cases pc with
  | idle => exact congrArg (fun u : ThreadData => { u with consolidatedSample := {} }) within
  | asking now length =>
      obtain ⟨⟨near, evaluates, chosen⟩, reached⟩ := within
      exact ⟨⟨near, evaluates, chosen⟩, by rw [reached]; rfl⟩
  | storing now length => exact absurd trivial free
  | publishing now length round => exact absurd trivial free
  | _ => exact ⟨within.1, by rw [within.2]; rfl⟩

theorem Traced.same (traced : Traced p s i past) (reads : p.readings s.reads ≤ p.readings t.reads)
    (thread : t.threads i = s.threads i) (worker : t.workers i = s.workers i) :
    Traced p t i past := by
  refine traced.goes reads ?_ ?_ (by rw [worker])
  · rw [thread, worker]
    exact traced.within
  · intro now evaluating
    rw [worker] at evaluating
    obtain ⟨tick, later⟩ := traced.reading now evaluating
    exact ⟨tick, later.trans reads⟩

theorem Traced.support (owned : Owned p s) (traced : Traced p s i past)
    (moves : SupportMoves p s t) : Grows p s t i past := by
  cases moves with
  | @requests j pc =>
      by_cases own : i = j
      · subst own
        refine ⟨[.request], traced.neutral rfl rfl ?_ rfl rfl, (List.append_nil _).symm⟩
        rw [State.supportTo_threads, State.setThread_threads, Function.update_self]
        exact traced.within.request
      · exact .inside rfl (traced.same le_rfl (by simp [own]) rfl)
  | @adds j g pc =>
      by_cases own : i = j
      · subst own
        have standing := owned.standing
        rw [pc] at standing
        have free : ¬ (s.workers i).pc.writing := fun writing => by
          have flag := owned.writers.flag i writing
          rw [standing.2.2.flag] at flag
          cases flag
        refine ⟨[.collect], traced.neutral rfl rfl ?_ rfl rfl, (List.append_nil _).symm⟩
        rw [State.setThread_threads, Function.update_self]
        exact traced.within.collect free
      · exact .inside rfl (traced.same le_rfl (by simp [own]) rfl)
  | _ => exact .inside rfl (traced.same le_rfl rfl rfl)

theorem Traced.initial (p : Params n) (i : Fin n) : Traced p (State.initial p) i [] where
  within := rfl
  program := rfl
  ticks := .singleton 0
  last := Nat.zero_le _
  reading _ evaluating := by cases evaluating

/-- The calls of a thread so far, and that it has handed over what they hand over. -/
def Sequential (p : Params n) (s : State n) (i : Fin n) (past : List Call) : Prop :=
  Traced p s i past ∧ (s.ledger.publications i).map Publication.sample =
    (handedOver p.build p.configuration past (ThreadData.initial p.build)).map
      Consolidation.sample

theorem Grows.sequential (grows : Grows p s t i past) (sequential : Sequential p s i past) :
    ∃ later, Sequential p t i later := by
  obtain ⟨calls, traced, publications⟩ := grows
  refine ⟨past ++ calls, traced, ?_⟩
  rw [publications, sequential.2, handedOver_append, List.map_append]

/-- Until `terminate()`, each thread is a sequential run of the thread's own program. -/
theorem reachable_sequential (sends : ∀ k, p.startSends k = true) (positive : ∀ k, 0 < p.readings k)
    (clock : Monotone p.readings) (reachable : (machine p).system.Reachable s) :
    s.main = .working → ∀ i, ∃ past, Sequential p s i past := by
  apply reachable.invariant (fun s => s.main = .working → ∀ i, ∃ past, Sequential p s i past)
    (fun _ i => ⟨[], Traced.initial p i, rfl⟩)
  intro u v reached histories step working i
  rcases moves_of_step step with ⟨j, moves⟩ | moves | moves | moves
  · have frame := moves.frame
    rw [frame.main] at working
    obtain ⟨past, history⟩ := histories working i
    by_cases own : i = j
    · subst own
      exact (history.1.grows sends positive clock moves).sequential history
    · exact (Grows.inside (frame.publications i own) (history.1.same (clock moves.reads)
        (frame.threads i own) (frame.workers i own))).sequential history
  · rw [moves.frame.main] at working
    obtain ⟨past, history⟩ := histories working i
    exact (history.1.support (reachable_owned reached) moves).sequential history
  · cases moves <;> cases working
  · have same : v.main = u.main := by cases moves <;> rfl
    obtain ⟨past, history⟩ := histories (same ▸ working) i
    apply Grows.sequential ?_ history
    cases moves <;> exact .inside rfl (history.1.same le_rfl rfl rfl)

theorem reachable_traced (sends : ∀ k, p.startSends k = true) (positive : ∀ k, 0 < p.readings k)
    (clock : Monotone p.readings) (reachable : (machine p).system.Reachable s) :
    s.main = .working → ∀ i, ∃ past, Traced p s i past := by
  intro working i
  obtain ⟨past, traced, _⟩ := reachable_sequential sends positive clock reachable working i
  exact ⟨past, traced⟩

/-! The disciplines of a program are those of its runs. -/

def Op.isEnd : Op → Bool
  | .endCall _ => true
  | _ => false

/-- Where strict alternation leaves a program. -/
def Op.phaseAfter : List Op → Phase → Option Phase
  | [], q => some q
  | op :: rest, q => (op.next q).bind (Op.phaseAfter rest)

theorem Op.phaseAfter_own (ops : List Op) (q : Phase) :
    Op.phaseAfter (ops.filter Op.own) q = Op.phaseAfter ops q := by
  induction ops generalizing q with
  | nil => rfl
  | cons op ops ih =>
      cases own : op.own
      · have stays : op.next q = some q := by cases op <;> first | rfl | cases own
        rw [List.filter_cons_of_neg (by simp [own]), ih, Op.phaseAfter, stays, Option.bind_some]
      · rw [List.filter_cons_of_pos own, Op.phaseAfter, Op.phaseAfter]
        exact congrArg _ (funext ih)

theorem Op.countP_own (ops : List Op) :
    (ops.filter Op.own).countP Op.isEnd = ops.countP Op.isEnd := by
  rw [List.countP_filter]
  exact List.countP_congr fun op _ => by cases op <;> exact Iff.rfl

theorem phaseAfter_ops (calls : List Call) (q : Phase) :
    phaseAfter calls q = Op.phaseAfter (calls.filterMap Call.op) q := by
  induction calls generalizing q with
  | nil => rfl
  | cons c calls ih =>
      rw [phaseAfter_cons, funext ih]
      cases c <;> cases q <;> rfl

theorem endCalls_ops (calls : List Call) :
    endCalls calls = (calls.filterMap Call.op).countP Op.isEnd := by
  rw [endCalls, List.countP_filterMap]
  exact List.countP_congr fun c _ => by cases c <;> exact Iff.rfl

theorem Traced.weighted {ok : ℕ → Prop} (traced : Traced p s i past)
    (weights : ∀ weight, .endCall weight ∈ p.program i → ok weight) : Weighted ok past := by
  intro c member
  cases c with
  | endAt now weight =>
      have made : Op.endCall weight ∈ past.filterMap Call.op :=
        List.mem_filterMap.mpr ⟨_, member, rfl⟩
      have planned : Op.endCall weight ∈ (p.program i).filter Op.own := by
        rw [← traced.program]
        exact List.mem_append_left _ made
      exact weights weight (List.mem_of_mem_filter planned)
  | _ => trivial

/-- A thread that has made all its calls is credited with each of its `end()`s. -/
theorem Traced.totalTasks (sampling : 0 ≤ p.configuration.samplingLengthMs)
    (traced : Traced p s i past) (finished : (s.workers i).finished = true)
    (alternates : Op.phaseAfter (p.program i) .outside = some .outside)
    (unit : ∀ weight, .endCall weight ∈ p.program i → weight = 1) :
    (s.threads i).totalTasks + (s.threads i).currentSample =
      (p.program i).countP Op.isEnd := by
  obtain ⟨idle, done⟩ := Worker.finished_iff.mp finished
  have program := traced.program
  rw [Worker.pending, idle, done, List.filter_nil, List.append_nil] at program
  have phases : phaseAfter past .outside = some .outside := by
    rw [phaseAfter_ops, program, Op.phaseAfter_own]
    exact alternates
  have reached := traced.within
  rw [idle] at reached
  have counted := (runCaught_counted p.build sampling phases (traced.weighted unit)).count
  rw [← show s.threads i = _ from reached, Nat.one_mul, Nat.one_mul, outstanding, Phase.begun,
    endCalls_ops, program, Op.countP_own] at counted
  exact counted

/-- In any interleaving, the total that `terminate()` computes is the number of `end()`s of
all programs. -/
theorem reachable_totalTasks (sends : ∀ k, p.startSends k = true)
    (positive : ∀ k, 0 < p.readings k) (clock : Monotone p.readings)
    (sampling : 0 ≤ p.configuration.samplingLengthMs) (orderly : p.orderly = true)
    (alternates : ∀ i, Op.phaseAfter (p.program i) .outside = some .outside)
    (unit : ∀ i weight, .endCall weight ∈ p.program i → weight = 1)
    (reachable : (machine p).system.Reachable s) :
    s.main ≠ .working → s.totalTasks = ∑ i, (p.program i).countP Op.isEnd := by
  refine reachable.invariant
    (fun s => s.main ≠ .working → s.totalTasks = ∑ i, (p.program i).countP Op.isEnd)
    (fun stopped => absurd rfl stopped) ?_
  intro u v reached counted step stopped
  rcases moves_of_step step with ⟨j, moves⟩ | moves | moves | moves
  · rw [moves.frame.totalTasks]
    exact counted (moves.frame.main ▸ stopped)
  · rw [moves.frame.totalTasks]
    exact counted (moves.frame.main ▸ stopped)
  · cases moves with
    | summarises pc allowed =>
        change (terminateTotals (List.ofFn u.threads)).totalTasks = _
        rw [terminateTotals_totalTasks, List.map_ofFn, List.sum_ofFn]
        apply Finset.sum_congr rfl
        intro i _
        obtain ⟨past, traced⟩ := reachable_traced sends positive clock reached pc i
        exact traced.totalTasks sampling (allowed orderly i) (alternates i) (unit i)
    | _ => exact counted (by simp [*])
  · cases moves <;> exact counted stopped

end Riff
