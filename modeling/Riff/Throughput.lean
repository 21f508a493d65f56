import Riff.LoadBound
import Riff.Phases
import Riff.Weights

set_option autoImplicit false

namespace Riff

open Exact Transition

variable {n : ℕ} {p : Params n} {s t : State n} {i : Fin n}

/-- Samples whose windows follow one another: the first opens at `first`, each other one
when the one before it closes, and the last closes at `last`. -/
def Abut (first : ℕ) : List Consolidation → ℕ → Prop
  | [], last => first = last
  | c :: cs, last => c.start = first ∧ c.start < c.close ∧ Abut c.close cs last

/-- Over its window, the throughput of a sample gives its tasks and the load its latency. -/
structure Consolidation.Exact (c : Consolidation) : Prop where
  tasks : c.sample.throughput * ((c.close - c.start : ℕ) : Double) =
    ((1000000000 : ℕ) : Double) * c.sample.numTasks
  latency : c.sample.loadPercentage * ((c.close - c.start : ℕ) : Double) =
    ((100 : ℕ) : Double) * c.sample.latency

theorem Abut.snoc {first start : ℕ} {cs : List Consolidation} (abut : Abut first cs start)
    {c : Consolidation} (opens : c.start = start) (moves : c.start < c.close) :
    Abut first (cs ++ [c]) c.close := by
  induction cs generalizing first with
  | nil => exact ⟨opens.trans abut.symm, moves, rfl⟩
  | cons b cs ih => exact ⟨abut.1, abut.2.1, ih abut.2.2⟩

/-- Windows that end where the clock has not been read are none. -/
theorem Abut.eq_nil {first : ℕ} {cs : List Consolidation} (abut : Abut first cs 0) : cs = [] := by
  induction cs generalizing first with
  | nil => rfl
  | cons c cs ih =>
      obtain ⟨_, moves, rest⟩ := abut
      rw [ih rest] at rest
      change c.close = 0 at rest
      omega

/-- Multiplying the quotient by the divisor again, in the units of the throughput. -/
theorem rate_mul (k elapsed : ℕ) (moves : 0 < elapsed) :
    (k : Double) / ((elapsed : Double) / ((1000000000 : ℕ) : Double)) * (elapsed : Double) =
      ((1000000000 : ℕ) : Double) * (k : Double) := by
  have divisor : (elapsed : ℚ) ≠ 0 := Nat.cast_ne_zero.mpr moves.ne'
  rw [Double.natCast_div_div k elapsed _ (by decide), Double.natCast_div _ _ moves,
    Double.natCast_def elapsed, Double.finite_mul, ← Double.natCast_mul, Double.natCast_def,
    div_mul_cancel₀ _ divisor, Nat.mul_comm]

theorem percentage_mul (k elapsed : ℕ) (moves : 0 < elapsed) :
    (k : Double) / (elapsed : Double) * ((100 : ℕ) : Double) * (elapsed : Double) =
      ((100 : ℕ) : Double) * (k : Double) := by
  have divisor : (elapsed : ℚ) ≠ 0 := Nat.cast_ne_zero.mpr moves.ne'
  rw [Double.natCast_div _ _ moves, Double.natCast_def 100, Double.natCast_def elapsed,
    Double.natCast_def k, Double.finite_mul, Double.finite_mul, Double.finite_mul]
  congr 1
  field_simp

/-- What a thread's record and its publications say about the windows. -/
structure Rated (p : Params n) (s : State n) (i : Fin n) : Prop where
  unset : (s.threads i).firstBegin = 0 ↔ (s.threads i).sampleStartTime = 0
  computed : ∀ now, (s.workers i).pc.reading = some now →
    (s.threads i).sample.throughput = (s.threads i).sample.numTasks /
      ((sampleTime now (s.threads i) : Double) / ((1000000000 : ℕ) : Double))
  copied : ∀ now length round, (s.workers i).pc = .publishing now length round →
    Consolidation.Exact
      ⟨(s.threads i).consolidatedSample, (s.threads i).sampleStartTime, now⟩
  covered : ∃ cs : List Consolidation,
    cs.map Consolidation.sample = (s.ledger.publications i).map Publication.sample ∧
      Abut (s.threads i).firstBegin cs (s.threads i).sampleStartTime ∧ ∀ c ∈ cs, c.Exact

/-- A step that stays within the window and does not leave the thread in the midst of an
evaluation. -/
theorem Rated.idle (rated : Rated p s i)
    (publications : t.ledger.publications i = s.ledger.publications i)
    (firstBegin : (t.threads i).firstBegin = (s.threads i).firstBegin)
    (start : (t.threads i).sampleStartTime = (s.threads i).sampleStartTime)
    (idle : (t.workers i).pc.reading = none) : Rated p t i := by
  refine ⟨?_, ?_, ?_, ?_⟩
  · rw [firstBegin, start]
    exact rated.unset
  · intro now evaluating
    rw [idle] at evaluating
    cases evaluating
  · intro now length round pc
    rw [pc] at idle
    cases idle
  · rw [publications, firstBegin, start]
    exact rated.covered

/-- The stamp of the first `begin()` opens the first window; later ones change nothing. -/
theorem Rated.stamped (now : ℕ) (rated : Rated p s i) :
    ((stamp now (s.threads i)).firstBegin = 0 ↔
        (stamp now (s.threads i)).sampleStartTime = 0) ∧
      ∃ cs : List Consolidation,
        cs.map Consolidation.sample = (s.ledger.publications i).map Publication.sample ∧
          Abut (stamp now (s.threads i)).firstBegin cs (stamp now (s.threads i)).sampleStartTime ∧
          ∀ c ∈ cs, c.Exact := by
  obtain ⟨cs, samples, abut, exact⟩ := rated.covered
  by_cases fresh : (s.threads i).firstBegin = 0
  · have unset := rated.unset.mp fresh
    rw [unset] at abut
    have none := abut.eq_nil
    subst none
    simp only [stamp_firstBegin, stamp_sampleStartTime, fresh, unset, ↓reduceIte, true_and]
    exact ⟨[], samples, rfl, exact⟩
  · have set : ¬ (s.threads i).sampleStartTime = 0 := fresh ∘ rated.unset.mpr
    simp only [stamp_firstBegin, stamp_sampleStartTime, fresh, set, ↓reduceIte, true_and]
    exact ⟨cs, samples, abut, exact⟩

theorem Rated.worker (clock : StrictMono p.readings) (reachable : (machine p).system.Reachable s)
    (rated : Rated p s i) (moves : WorkerMoves p i s t) : Rated p t i := by
  have stamped := rated.stamped (p.readings s.reads)
  cases moves with
  | @ended weight reads rest pc next later =>
      refine rated.idle rfl ?_ ?_ (by simp [WorkerPc.reading])
      · simp only [State.setThread_threads, Function.update_self, endCall]
        split <;> rfl
      · simp only [State.setThread_threads, Function.update_self, endCall]
        split <;> rfl
  | @stored index value rest pc next =>
      refine rated.idle rfl ?_ ?_ (by simp [WorkerPc.reading])
      · simp only [State.setThread_threads, Function.update_self, storeCustomValue]
        split <;> rfl
      · simp only [State.setThread_threads, Function.update_self, storeCustomValue]
        split <;> rfl
  | quiet pc idle =>
      refine ⟨by simpa using stamped.1, ?_, ?_, by simpa using stamped.2⟩
      · intro now evaluating
        simp [WorkerPc.reading] at evaluating
      · intro now length round pc
        simp at pc
  | noTasks pc evaluates failed =>
      refine ⟨by simpa using stamped.1, ?_, ?_, by simpa using stamped.2⟩
      · intro now evaluating
        simp [WorkerPc.reading] at evaluating
      · intro now length round pc
        simp at pc
  | @measured length pc evaluates chosen =>
      refine ⟨by simpa using stamped.1, ?_, ?_, by simpa using stamped.2⟩
      · intro now evaluating
        have same : p.readings s.reads = now := by simpa [WorkerPc.reading] using evaluating
        subst same
        simp [sampleTime]
      · intro now length round pc
        simp at pc
  | asked pc flag =>
      refine ⟨rated.unset, ?_, ?_, rated.covered⟩
      · intro now evaluating
        apply rated.computed now
        rw [pc]
        simpa [WorkerPc.reading] using evaluating
      · intro now length round pc
        simp at pc
  | rejected pc failed =>
      rw [storeConsolidated_threw failed]
      exact rated.idle rfl (by simp) (by simp) (by simp [WorkerPc.reading])
  | @consolidated now length u pc written =>
      have evaluating : (s.workers i).pc.reading = some now := by rw [pc]; rfl
      have throughput := rated.computed now evaluating
      have load := (reachable_metered clock reachable i).computed now evaluating
      obtain ⟨latency, recorded⟩ := (reachable_metered clock reachable i).latency
      obtain ⟨tasks, counted⟩ := (reachable_located reachable i).running
      obtain ⟨_, k, _, rfl, l, earlier, start⟩ := (reachable_dated reachable i).reading now evaluating
      have elapsed : sampleTime (p.readings k) (s.threads i) =
          p.readings k - (s.threads i).sampleStartTime := by
        rw [sampleTime, ← start, ullSub_of_le _ _ (clock earlier).le]
      have moves : 0 < p.readings k - (s.threads i).sampleStartTime := by
        have before := clock earlier
        omega
      rw [storeConsolidated_returned written]
      refine ⟨by simpa using rated.unset, ?_, ?_, by simpa using rated.covered⟩
      · intro later reading
        have same : p.readings k = later := by simpa [WorkerPc.reading] using reading
        subst same
        simpa [sampleTime] using throughput
      · intro later length round publishing
        simp only [State.goto_workers, Function.update_self, WorkerPc.publishing.injEq] at publishing
        obtain ⟨rfl, _, _⟩ := publishing
        rw [elapsed] at throughput load
        constructor
        · simp only [State.goto_threads, State.setThread_threads, Function.update_self, throughput,
            counted]
          exact rate_mul tasks _ moves
        · simp only [State.goto_threads, State.setThread_threads, Function.update_self, load,
            recorded]
          exact percentage_mul latency _ moves
  | @published now length round pc =>
      obtain ⟨set, k, earlier, same, l, before, start⟩ :=
        (reachable_dated reachable i).reading now (by simp [pc, WorkerPc.reading])
      have moves : (s.threads i).sampleStartTime < now := by
        rw [← start, ← same]
        exact clock before
      obtain ⟨cs, samples, abut, exact⟩ := rated.covered
      refine ⟨?_, ?_, ?_, ?_⟩
      · have begun : ¬ (s.threads i).firstBegin = 0 := set ∘ rated.unset.mp
        have later : now ≠ 0 := by omega
        simp [begun, later]
      · intro later evaluating
        simp [WorkerPc.reading] at evaluating
      · intro later length round pc
        simp at pc
      · refine ⟨cs ++ [⟨(s.threads i).consolidatedSample, (s.threads i).sampleStartTime, now⟩],
          ?_, ?_, ?_⟩
        · simp [samples]
        · simpa using abut.snoc (c := ⟨(s.threads i).consolidatedSample,
            (s.threads i).sampleStartTime, now⟩) rfl moves
        · intro c member
          rcases List.mem_append.mp member with earlier | last
          · exact exact c earlier
          · cases List.mem_singleton.mp last
            exact rated.copied now length round pc
  | _ => exact rated.idle rfl (by simp) (by simp) (by simp [WorkerPc.reading])

theorem Rated.bystander (rated : Rated p s i) (others : Bystander i s t) : Rated p t i := by
  obtain ⟨worker, _, publications, total, asked, stored, thread, kept⟩ := others
  refine ⟨?_, ?_, ?_, ?_⟩
  · rw [thread]
    exact rated.unset
  · intro now evaluating
    rw [worker] at evaluating
    rw [thread]
    exact rated.computed now evaluating
  · intro now length round pc
    rw [worker] at pc
    rw [thread, kept (by rw [pc]; trivial)]
    exact rated.copied now length round pc
  · rw [publications, thread]
    exact rated.covered

theorem Rated.initial (p : Params n) (i : Fin n) : Rated p (State.initial p) i where
  unset := Iff.rfl
  computed _ evaluating := by cases evaluating
  copied _ _ _ pc := by cases pc
  covered := ⟨[], rfl, rfl, fun _ member => absurd member List.not_mem_nil⟩

end Riff
