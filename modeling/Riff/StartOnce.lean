import Riff.Progress

set_option autoImplicit false

namespace Riff

open Exact Transition

variable {n : ℕ} {p : Params n} {s t : State n}

/-- The START messages sent so far. -/
def State.starts (s : State n) : List Packet :=
  s.toMonitor.sent.filter fun packet => packet.message.type = .start

/-- With this step a `begin()` of thread `i` returns or throws. -/
def BeginLeaves (p : Params n) (i : Fin n) (s t : State n) : Prop :=
  stepWorker p i s = some t ∧ (t.workers i).pc = .idle ∧
    ((s.workers i).pc ≠ .idle ∨ ∃ rest, (s.workers i).rest = .beginCall :: rest)

/-- Past the test of `_started`. -/
def WorkerPc.admitted : WorkerPc → Prop
  | .unlocking => True
  | .timing => True
  | .asking _ _ => True
  | .storing _ _ => True
  | .publishing _ _ _ => True
  | _ => False

theorem State.startSent_iff (s : State n) : s.startSent ↔ s.starts ≠ [] := by
  rw [State.starts, ne_eq, List.filter_eq_nil_iff, not_forall]
  apply exists_congr
  intro packet
  rw [Classical.not_imp, decide_eq_true_eq, not_not]

theorem WorkerMoves.starts {i : Fin n} (moves : WorkerMoves p i s t) (starting : Starting s)
    (once : s.starts.length ≤ 1) : t.starts.length ≤ 1 := by
  cases moves with
  | announced pc _ =>
      have none : s.starts = [] := by
        by_contra some
        exact starting.unsent pc (s.startSent_iff.mpr some)
      rw [State.starts, State.goto_toMonitor, Channel.send_sent, List.filter_append]
      change (s.starts ++ _).length ≤ 1
      rw [none]
      exact List.length_filter_le _ _
  | _ => exact once

theorem reachable_starts (reachable : (machine p).system.Reachable s) : s.starts.length ≤ 1 := by
  apply reachable.invariant (fun s => s.starts.length ≤ 1) (Nat.zero_le 1)
  intro u v reached once step
  obtain ⟨starting, labelled⟩ := reachable_starting reached
  rcases moves_of_step step with ⟨i, moves⟩ | moves | moves | moves
  · exact moves.starts starting once
  · cases moves with
    | @sends m pc =>
        have other : m.type ≠ .start := by
          rw [labelled m (.inr pc)]
          exact MessageType.noConfusion
        rw [State.starts, Channel.send_sent, List.filter_append,
          List.filter_cons_of_neg (by simpa using other), List.filter_nil, List.append_nil]
        exact once
    | _ => exact once
  · cases moves with
    | sends pc =>
        rw [State.starts, Channel.send_sent, List.filter_append,
          List.filter_cons_of_neg (by simp [stopMessage]), List.filter_nil, List.append_nil]
        exact once
    | _ => exact once
  · rw [State.starts, moves.sent]
    exact once

theorem WorkerMoves.admitted {i : Fin n} (moves : WorkerMoves p i s t)
    (admitted : (s.workers i).pc.admitted → s.started = true) (now : (t.workers i).pc.admitted) :
    t.started = true := by
  cases moves with
  | passed pc started => exact started
  | late pc started => exact started
  | marked pc => rfl
  | unlocked pc => exact admitted (by rw [pc]; trivial)
  | measured pc evaluates chosen => exact admitted (by rw [pc]; trivial)
  | asked pc flag => exact admitted (by rw [pc]; trivial)
  | consolidated pc written => exact admitted (by rw [pc]; trivial)
  | _ => simp [WorkerPc.admitted, *] at now

theorem WorkerMoves.started {i : Fin n} (moves : WorkerMoves p i s t)
    (started : s.started = true) : t.started = true := by
  cases moves with
  | marked pc => rfl
  | _ => exact started

/-- Nobody gets past the test before the mark is set. -/
theorem reachable_admitted (reachable : (machine p).system.Reachable s) :
    ∀ i, (s.workers i).pc.admitted → s.started = true := by
  refine reachable.invariant (fun s => ∀ i, (s.workers i).pc.admitted → s.started = true)
    (fun i inside => inside.elim) ?_
  intro u v _ admitted step i now
  rcases moves_of_step step with ⟨j, moves⟩ | moves | moves | moves
  · by_cases own : i = j
    · subst own
      exact moves.admitted (admitted i) now
    · rw [moves.frame.workers i own] at now
      exact moves.started (admitted i now)
  · rw [moves.frame.workers] at now
    rw [moves.frame.started]
    exact admitted i now
  · cases moves <;> exact admitted i now
  · cases moves <;> exact admitted i now

theorem BeginLeaves.started {i : Fin n} (sends : ∀ k, p.startSends k = true)
    (reachable : (machine p).system.Reachable s) (leaves : BeginLeaves p i s t) :
    s.started = true := by
  obtain ⟨moved, idle, inside⟩ := leaves
  have admitted := reachable_admitted reachable i
  cases stepWorker_moves moved with
  | skipped pc next far =>
      -- The counter is past zero, so an earlier `begin()` has come through.
      by_contra unstarted
      rcases reachable_early sends reachable (Bool.eq_false_iff.mpr unstarted) i with
        starting | ⟨_, first, _⟩
      · rw [pc] at starting
        exact starting
      · exact absurd (advance_near first) (Nat.not_le.mpr far)
  | ended pc next later => simp [pc, next] at inside
  | stored pc next => simp [pc, next] at inside
  | configured pc next shared =>
      rcases inside with busy | ⟨rest, begins⟩
      · exact absurd pc busy
      · rw [next] at begins
        cases begins
        cases shared
  | unsent pc fails => rw [sends] at fails; cases fails
  | quiet pc _ => exact admitted (by rw [pc]; trivial)
  | noTasks pc _ _ => exact admitted (by rw [pc]; trivial)
  | kept pc flag => exact admitted (by rw [pc]; trivial)
  | rejected pc failed => exact admitted (by rw [pc]; trivial)
  | published pc => exact admitted (by rw [pc]; trivial)
  | _ => simp at idle

/-- Whatever the interleaving, START is sent once, by the one thread that holds the
mutex, and before any `begin()` returns; when the threads are done, it has been sent. -/
theorem start_sent_once (sends : ∀ k, p.startSends k = true)
    (reachable : (machine p).system.Reachable s) :
    s.starts.length ≤ 1 ∧
      (∀ i j, (s.workers i).pc.locked → (s.workers j).pc.locked → i = j) ∧
      (∀ i t, BeginLeaves p i s t → s.starts.length = 1) ∧
      ((∃ i, .beginCall ∈ p.program i) → (∀ i, stepWorker p i s = none) →
        s.starts.length = 1) := by
  have starting := (reachable_starting reachable).1
  have once := reachable_starts reachable
  have exactly : s.startSent → s.starts.length = 1 := fun sent =>
    Nat.le_antisymm once (List.length_pos_iff.mpr (s.startSent_iff.mp sent))
  refine ⟨once, fun i j => starting.only, ?_, fun ⟨i, begins⟩ still => ?_⟩
  · intro i t leaves
    exact exactly (starting.sent.mpr (.inl (leaves.started sends reachable)))
  · exact exactly (startSent_of_finished sends begins reachable
      (finished_of_still sends reachable still i))

/-- The first `begin()`, all but its last step. -/
def almostBegun : List (Party 1) := List.replicate 7 onlyWorker

theorem start_sent_once_twoCalls :
    ∃ s t, (machine twoCalls).system.Reachable s ∧ BeginLeaves twoCalls (Fin.last 0) s t ∧
      s.starts.length = 1 := by
  have run : ((machine twoCalls).follow almostBegun (machine twoCalls).start).map (fun s =>
      (match (s.workers (Fin.last 0)).pc with | .timing => true | _ => false,
        (s.threads (Fin.last 0)).computeStart)) = some (true, 0) := by
    decide +kernel
  obtain ⟨s, reachable, seen⟩ := Machine.reachable_of_observed run
  obtain ⟨place, unset⟩ := Prod.mk.inj seen
  have pc : (s.workers (Fin.last 0)).pc = .timing := by
    split at place
    · assumption
    · cases place
  have quiet : ¬ Evaluates (stamp (twoCalls.readings s.reads) (s.threads (Fin.last 0))) :=
    fun evaluates => evaluates.1 (by simpa using unset)
  obtain ⟨t, moved, idle⟩ : ∃ t, stepWorker twoCalls (Fin.last 0) s = some t ∧
      (t.workers (Fin.last 0)).pc = .idle := by
    simp only [stepWorker, pc, quiet, ↓reduceIte]
    exact ⟨_, rfl, by simp⟩
  have leaves : BeginLeaves twoCalls (Fin.last 0) s t :=
    ⟨moved, idle, .inl (by rw [pc]; exact WorkerPc.noConfusion)⟩
  exact ⟨s, t, reachable, leaves,
    (start_sent_once (fun _ => rfl) reachable).2.2.1 _ _ leaves⟩

end Riff
