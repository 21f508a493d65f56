import Riff.Ownership

set_option autoImplicit false

namespace Riff

open Exact Transition

variable {n : ℕ} {p : Params n} {s t : State n} {i : Fin n}

/-- What a step of any other party can do to a thread's record: it leaves the running
sample alone, and the consolidated one too while the thread is writing it. -/
structure Bystander (i : Fin n) (s t : State n) : Prop where
  worker : t.workers i = s.workers i
  reads : s.reads ≤ t.reads
  publications : t.ledger.publications i = s.ledger.publications i
  record : ∃ (total : ℕ) (asked : Bool) (stored : ApplicationSample),
    t.threads i = { s.threads i with
      totalTasks := total
      consolidate := asked
      consolidatedSample := stored } ∧
    ((s.workers i).pc.writing → stored = (s.threads i).consolidatedSample)

theorem Bystander.of_same (worker : t.workers i = s.workers i) (reads : s.reads ≤ t.reads)
    (publications : t.ledger.publications i = s.ledger.publications i)
    (thread : t.threads i = s.threads i) : Bystander i s t :=
  ⟨worker, reads, publications, _, _, _, thread, fun _ => rfl⟩

theorem WorkerMoves.reads {j : Fin n} (moves : WorkerMoves p j s t) : s.reads ≤ t.reads := by
  cases moves with
  | ended pc next later => exact later
  | quiet pc idle => exact Nat.le_succ _
  | noTasks pc evaluates failed => exact Nat.le_succ _
  | measured pc evaluates chosen => exact Nat.le_succ _
  | _ => exact Nat.le_refl _

theorem WorkerMoves.bystander {j : Fin n} (moves : WorkerMoves p j s t) (other : i ≠ j) :
    Bystander i s t :=
  have frame := moves.frame
  .of_same (frame.workers i other) moves.reads (frame.publications i other)
    (frame.threads i other)

theorem SupportMoves.bystander (owned : Owned p s) (moves : SupportMoves p s t) :
    Bystander i s t := by
  cases moves with
  | @requests j pc =>
      by_cases own : i = j
      · subst own
        exact ⟨rfl, le_rfl, rfl, (s.threads i).totalTasks, true, _, by simp, fun _ => rfl⟩
      · exact .of_same rfl le_rfl rfl (by simp [own])
  | @adds j g pc =>
      by_cases own : i = j
      · subst own
        refine ⟨rfl, le_rfl, rfl, (s.threads i).totalTasks, (s.threads i).consolidate, {},
          by simp, ?_⟩
        intro writing
        -- A thread that is writing still has its flag set.
        have standing := owned.standing
        rw [pc] at standing
        have flag := owned.writers.flag i writing
        rw [standing.2.2.flag] at flag
        cases flag
      · exact .of_same rfl le_rfl rfl (by simp [own])
  | _ => exact .of_same rfl le_rfl rfl rfl

theorem MainMoves.bystander (moves : MainMoves p s t) : Bystander i s t := by
  cases moves with
  | summarises pc allowed => exact ⟨rfl, le_rfl, rfl, _, _, _, rfl, fun _ => rfl⟩
  | _ => exact .of_same rfl le_rfl rfl rfl

theorem MonitorMoves.bystander (moves : MonitorMoves s t) : Bystander i s t := by
  cases moves <;> exact .of_same rfl le_rfl rfl rfl

/-- The invariant rule of thread records: the thread's own steps keep the invariant, and
those of the others do not disturb it. -/
theorem reachable_records (Inv : State n → Fin n → Prop) (start : ∀ i, Inv (State.initial p) i)
    (own : ∀ u v i, (machine p).system.Reachable u → Inv u i → WorkerMoves p i u v → Inv v i)
    (others : ∀ u v i, Inv u i → Bystander i u v → Inv v i)
    (reachable : (machine p).system.Reachable s) : ∀ i, Inv s i := by
  apply reachable.invariant (fun s => ∀ i, Inv s i) start
  intro u v reached inv step i
  rcases moves_of_step step with ⟨j, moves⟩ | moves | moves | moves
  · by_cases same : i = j
    · subst same
      exact own u v i reached (inv i) moves
    · exact others u v i (inv i) (moves.bystander same)
  · exact others u v i (inv i) (moves.bystander (reachable_owned reached))
  · exact others u v i (inv i) moves.bystander
  · exact others u v i (inv i) moves.bystander

/-! The clock readings in a record. -/

/-- The reading with which the evaluation in progress works. -/
def WorkerPc.reading : WorkerPc → Option ℕ
  | .asking now _ => some now
  | .storing now _ => some now
  | .publishing now _ _ => some now
  | _ => none

/-- The clock has been read this way, before the reading of the given number. -/
def ReadBefore (p : Params n) (number time : ℕ) : Prop := ∃ k < number, p.readings k = time

theorem ReadBefore.mono {first second time : ℕ} (later : first ≤ second)
    (before : ReadBefore p first time) : ReadBefore p second time := by
  obtain ⟨k, earlier, same⟩ := before
  exact ⟨k, lt_of_lt_of_le earlier later, same⟩

/-- A window starts at an earlier reading than the one that evaluates it. -/
structure Dated (p : Params n) (s : State n) (i : Fin n) : Prop where
  start : (s.threads i).sampleStartTime ≠ 0 →
    ReadBefore p s.reads (s.threads i).sampleStartTime
  started : (s.threads i).computeStart ≠ 0 → (s.threads i).sampleStartTime ≠ 0
  reading : ∀ now, (s.workers i).pc.reading = some now →
    (s.threads i).sampleStartTime ≠ 0 ∧ ∃ k < s.reads, p.readings k = now ∧
      ReadBefore p k (s.threads i).sampleStartTime

theorem Dated.congr (dated : Dated p s i) (reads : s.reads ≤ t.reads)
    (start : (t.threads i).sampleStartTime = (s.threads i).sampleStartTime)
    (computeStart : (t.threads i).computeStart = (s.threads i).computeStart)
    (reading : (t.workers i).pc.reading = none ∨
      (t.workers i).pc.reading = (s.workers i).pc.reading) : Dated p t i := by
  constructor
  · rw [start]
    exact fun set => (dated.start set).mono reads
  · rw [start, computeStart]
    exact dated.started
  · intro now evaluating
    rw [start]
    rcases reading with none | same
    · rw [none] at evaluating
      cases evaluating
    · obtain ⟨set, k, earlier, this, before⟩ := dated.reading now (same ▸ evaluating)
      exact ⟨set, k, lt_of_lt_of_le earlier reads, this, before⟩

theorem Dated.worker (dated : Dated p s i) (moves : WorkerMoves p i s t) : Dated p t i := by
  have later := moves.reads
  -- The start that a stamp leaves behind.
  have stamped : ∀ time, (if (s.threads i).sampleStartTime = 0 then p.readings s.reads
      else (s.threads i).sampleStartTime) = time → ReadBefore p (s.reads + 1) time := by
    rintro time rfl
    split
    · exact ⟨s.reads, Nat.lt_succ_self _, rfl⟩
    · rename_i set
      exact (dated.start set).mono (Nat.le_succ _)
  cases moves with
  | @ended weight reads rest pc next more =>
      refine dated.congr later ?_ ?_ (.inl ?_)
      · simp only [State.setThread_threads, Function.update_self, endCall]
        split <;> rfl
      · simp only [State.setThread_threads, Function.update_self, endCall]
        split <;> rfl
      · simp [WorkerPc.reading]
  | @stored index value rest pc next =>
      refine dated.congr later ?_ ?_ (.inl ?_)
      · simp only [State.setThread_threads, Function.update_self, storeCustomValue]
        split <;> rfl
      · simp only [State.setThread_threads, Function.update_self, storeCustomValue]
        split <;> rfl
      · simp [WorkerPc.reading]
  | quiet pc idle =>
      refine ⟨?_, ?_, ?_⟩
      · intro _
        exact stamped _ (by simp)
      · intro reading
        simp only [State.goto_threads, State.setThread_threads, Function.update_self,
          restart_computeStart] at reading
        simp only [State.goto_threads, State.setThread_threads, Function.update_self,
          restart_sampleStartTime, stamp_sampleStartTime]
        split <;> assumption
      · intro now evaluating
        simp [WorkerPc.reading] at evaluating
  | noTasks pc evaluates failed =>
      have set := dated.started (by simpa using evaluates.1)
      refine ⟨?_, ?_, ?_⟩
      · intro _
        exact stamped _ (by simp)
      · intro _
        simp [set]
      · intro now evaluating
        simp [WorkerPc.reading] at evaluating
  | measured pc evaluates chosen =>
      have set := dated.started (by simpa using evaluates.1)
      refine ⟨?_, ?_, ?_⟩
      · intro _
        exact stamped _ (by simp)
      · intro _
        simp [set]
      · intro now evaluating
        have same : p.readings s.reads = now := by simpa [WorkerPc.reading] using evaluating
        refine ⟨by simp [set], s.reads, Nat.lt_succ_self _, same, ?_⟩
        simpa [set] using dated.start set
  | asked pc flag =>
      exact dated.congr later rfl rfl (.inr (by simp [pc, WorkerPc.reading]))
  | @kept now length pc flag =>
      obtain ⟨set, _⟩ := dated.reading now (by simp [pc, WorkerPc.reading])
      refine ⟨?_, ?_, ?_⟩
      · intro _
        simpa using dated.start set
      · intro _
        simpa using set
      · intro now evaluating
        simp [WorkerPc.reading] at evaluating
  | rejected pc failed =>
      rw [storeConsolidated_threw failed]
      exact dated.congr later (by simp) (by simp) (.inl (by simp [WorkerPc.reading]))
  | consolidated pc written =>
      rw [storeConsolidated_returned written]
      exact dated.congr later (by simp) (by simp) (.inr (by simp [pc, WorkerPc.reading]))
  | @published now length round pc =>
      obtain ⟨_, k, earlier, same, _⟩ := dated.reading now (by simp [pc, WorkerPc.reading])
      refine ⟨?_, ?_, ?_⟩
      · intro _
        exact ⟨k, earlier, by simp [same]⟩
      · intro reading
        simpa using reading
      · intro now evaluating
        simp [WorkerPc.reading] at evaluating
  | _ => exact dated.congr later (by simp) (by simp) (.inl (by simp [WorkerPc.reading, *]))

theorem Dated.bystander (dated : Dated p s i) (others : Bystander i s t) : Dated p t i := by
  obtain ⟨worker, reads, _, total, asked, stored, thread, _⟩ := others
  exact dated.congr reads (by rw [thread]) (by rw [thread]) (.inr (by rw [worker]))

theorem Dated.initial (p : Params n) (i : Fin n) : Dated p (State.initial p) i where
  start set := absurd rfl set
  started started := absurd rfl started
  reading _ evaluating := by cases evaluating

theorem reachable_dated (reachable : (machine p).system.Reachable s) : ∀ i, Dated p s i :=
  reachable_records (Dated p) (Dated.initial p) (fun _ _ _ _ dated moves => dated.worker moves)
    (fun _ _ _ dated others => dated.bystander others) reachable

end Riff
