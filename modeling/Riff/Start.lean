import Riff.SystemSteps

set_option autoImplicit false

namespace Riff

open Exact Transition

variable {n : ℕ}

/-- Between taking the mutex and giving it back. -/
def WorkerPc.locked : WorkerPc → Prop
  | .retesting => True
  | .announcing => True
  | .marking => True
  | .unlocking => True
  | _ => False

def State.startSent (s : State n) : Prop :=
  ∃ packet ∈ s.toMonitor.sent, packet.message.type = .start

/-- START has been sent and every thread knows, or will once its sender goes on. -/
def State.begun (s : State n) : Prop :=
  s.started = true ∨ ∃ i, (s.workers i).pc = .marking

/-- The double-checked test for the first `begin()`. -/
structure Starting (s : State n) : Prop where
  holder : ∀ i, (s.workers i).pc.locked → s.mutex = some i
  fresh : ∀ i, (s.workers i).pc = .announcing → s.started = false
  sent : s.startSent ↔ s.begun

variable {s t : State n} {i j : Fin n}

theorem Starting.only (starting : Starting s) (first : (s.workers i).pc.locked)
    (second : (s.workers j).pc.locked) : i = j :=
  Option.some.inj ((starting.holder i first).symm.trans (starting.holder j second))

/-- Whoever is about to send START is the first. -/
theorem Starting.unsent (starting : Starting s) (pc : (s.workers i).pc = .announcing) :
    ¬ s.startSent := by
  rw [starting.sent]
  rintro (started | ⟨j, marking⟩)
  · rw [starting.fresh i pc] at started
    cases started
  · have same := starting.only (i := i) (j := j) (by rw [pc]; trivial) (by rw [marking]; trivial)
    rw [← same, pc] at marking
    cases marking

/-- A step of thread `i` outside the locked section. -/
theorem Starting.outside (starting : Starting s)
    (others : ∀ j, j ≠ i → t.workers j = s.workers j) (before : ¬ (s.workers i).pc.locked)
    (after : ¬ (t.workers i).pc.locked) (mutex : t.mutex = s.mutex)
    (started : t.started = s.started) (toMonitor : t.toMonitor = s.toMonitor) : Starting t := by
  have away : ∀ j, (t.workers j).pc.locked → t.workers j = s.workers j := by
    rintro j inside
    apply others j
    rintro rfl
    exact after inside
  refine ⟨?_, ?_, ?_⟩
  · intro j inside
    rw [mutex]
    exact starting.holder j (away j inside ▸ inside)
  · intro j pc
    rw [started]
    exact starting.fresh j (away j (by rw [pc]; trivial) ▸ pc)
  · rw [State.startSent, toMonitor]
    refine starting.sent.trans (or_congr (by rw [started]) (exists_congr ?_))
    intro j
    by_cases own : j = i
    · subst own
      refine ⟨fun marking => absurd ?_ before, fun marking => absurd ?_ after⟩
      · rw [marking]; trivial
      · rw [marking]; trivial
    · rw [others j own]

/-- A step of thread `i` while nobody else is in the locked section. -/
theorem Starting.inside (others : ∀ j, j ≠ i → t.workers j = s.workers j)
    (alone : ∀ j, j ≠ i → ¬ (s.workers j).pc.locked)
    (holder : (t.workers i).pc.locked → t.mutex = some i)
    (fresh : (t.workers i).pc = .announcing → t.started = false)
    (sent : t.startSent ↔ t.started = true ∨ (t.workers i).pc = .marking) : Starting t := by
  have only : ∀ j, (t.workers j).pc.locked → j = i := by
    intro j inside
    by_contra other
    rw [others j other] at inside
    exact alone j other inside
  refine ⟨?_, ?_, sent.trans (or_congr Iff.rfl ?_)⟩
  · intro j inside
    obtain rfl := only j inside
    exact holder inside
  · intro j pc
    obtain rfl := only j (by rw [pc]; trivial)
    exact fresh pc
  · refine ⟨fun marking => ⟨i, marking⟩, ?_⟩
    rintro ⟨j, marking⟩
    obtain rfl := only j (by rw [marking]; trivial)
    exact marking

theorem Starting.alone (starting : Starting s) (before : (s.workers i).pc.locked) :
    (∀ j, j ≠ i → ¬ (s.workers j).pc.locked) ∧
      (s.startSent ↔ s.started = true ∨ (s.workers i).pc = .marking) := by
  refine ⟨fun j other inside => other (starting.only inside before), ?_⟩
  refine starting.sent.trans (or_congr Iff.rfl ⟨?_, fun marking => ⟨i, marking⟩⟩)
  rintro ⟨j, marking⟩
  rwa [starting.only (i := j) (by rw [marking]; trivial) before] at marking

theorem Starting.worker {p : Params n} (starting : Starting s) (moves : WorkerMoves p i s t) :
    Starting t := by
  have others := moves.frame.workers
  cases moves with
  | locked pc free =>
      have none : ∀ j, ¬ (s.workers j).pc.locked := by
        intro j inside
        rw [starting.holder j inside] at free
        cases free
      apply Starting.inside others (fun j _ => none j) (fun _ => rfl) (by simp)
      refine starting.sent.trans (or_congr Iff.rfl ?_)
      simp only [State.goto_workers, Function.update_self, reduceCtorEq, iff_false]
      rintro ⟨j, marking⟩
      exact none j (by rw [marking]; trivial)
  | late pc started =>
      obtain ⟨alone, sent⟩ := starting.alone (i := i) (by rw [pc]; trivial)
      refine Starting.inside others alone (fun _ => starting.holder i (by rw [pc]; trivial))
        (by simp) ?_
      apply sent.trans
      simp [pc]
  | retested pc unstarted =>
      obtain ⟨alone, sent⟩ := starting.alone (i := i) (by rw [pc]; trivial)
      refine Starting.inside others alone (fun _ => starting.holder i (by rw [pc]; trivial))
        (fun _ => unstarted) ?_
      apply sent.trans
      simp [pc]
  | announced pc sends =>
      obtain ⟨alone, sent⟩ := starting.alone (i := i) (by rw [pc]; trivial)
      refine Starting.inside others alone (fun _ => starting.holder i (by rw [pc]; trivial))
        (by simp) ?_
      simp [State.startSent, startMessage]
  | unsent pc fails =>
      obtain ⟨alone, sent⟩ := starting.alone (i := i) (by rw [pc]; trivial)
      apply Starting.inside others alone (by simp [WorkerPc.locked]) (by simp)
      apply sent.trans
      simp [pc]
  | marked pc =>
      obtain ⟨alone, sent⟩ := starting.alone (i := i) (by rw [pc]; trivial)
      refine Starting.inside others alone (fun _ => starting.holder i (by rw [pc]; trivial))
        (by simp) ?_
      apply sent.trans
      simp [pc]
  | unlocked pc =>
      obtain ⟨alone, sent⟩ := starting.alone (i := i) (by rw [pc]; trivial)
      apply Starting.inside others alone (by simp [WorkerPc.locked]) (by simp)
      apply sent.trans
      simp [pc]
  | _ =>
      refine starting.outside others ?_ ?_ rfl rfl rfl
      · simp [WorkerPc.locked, *]
      · simp [WorkerPc.locked]

/-- What is about to be sent as a response is one. -/
def Labelled (s : State n) : Prop :=
  ∀ m, s.support = .deciding m ∨ s.support = .sending m → m.type = .sampleRes

theorem Starting.congr (starting : Starting s) (workers : t.workers = s.workers)
    (mutex : t.mutex = s.mutex) (started : t.started = s.started)
    (sent : t.startSent ↔ s.startSent) : Starting t := by
  refine ⟨?_, ?_, ?_⟩
  · rw [workers, mutex]
    exact starting.holder
  · rw [workers, started]
    exact starting.fresh
  · rw [sent, State.begun, workers, started]
    exact starting.sent

theorem startSent_of_sent (sent : t.toMonitor.sent = s.toMonitor.sent) :
    t.startSent ↔ s.startSent := by
  rw [State.startSent, sent, State.startSent]

theorem startSent_of_send {packet : Packet} (other : packet.message.type ≠ .start)
    (sent : t.toMonitor = s.toMonitor.send packet) : t.startSent ↔ s.startSent := by
  simp [State.startSent, sent, other]

theorem SupportMoves.labelled {p : Params n} (moves : SupportMoves p s t) (labelled : Labelled s) :
    Labelled t := by
  intro m place
  cases moves with
  | labels pc =>
      rcases place with place | place <;> cases place
      rfl
  | decides pc go =>
      rcases place with place | place <;> cases place
      exact labelled _ (.inl pc)
  | _ => rcases place with place | place <;> cases place

theorem SupportMoves.starting {p : Params n} (moves : SupportMoves p s t) (labelled : Labelled s)
    (starting : Starting s) : Starting t := by
  have frame := moves.frame
  apply starting.congr frame.workers frame.mutex frame.started
  cases moves with
  | sends pc =>
      refine startSent_of_send ?_ rfl
      rw [labelled _ (.inr pc)]
      decide
  | _ => exact Iff.rfl

theorem MainMoves.starting {p : Params n} (moves : MainMoves p s t) (starting : Starting s) :
    Starting t := by
  cases moves with
  | sends pc => exact starting.congr rfl rfl rfl (startSent_of_send MessageType.noConfusion rfl)
  | _ => exact starting.congr rfl rfl rfl Iff.rfl

theorem MonitorMoves.starting (moves : MonitorMoves s t) (starting : Starting s) : Starting t := by
  have same := startSent_of_sent moves.sent
  cases moves <;> exact starting.congr rfl rfl rfl same

theorem reachable_starting {p : Params n} (reachable : (machine p).system.Reachable s) :
    Starting s ∧ Labelled s := by
  refine reachable.invariant (fun s => Starting s ∧ Labelled s) ?_ ?_
  · refine ⟨⟨fun i inside => inside.elim, fun i pc => WorkerPc.noConfusion pc, ?_⟩, ?_⟩
    · refine ⟨fun ⟨packet, member, _⟩ => absurd member List.not_mem_nil, ?_⟩
      rintro (started | ⟨i, marking⟩)
      · cases started
      · cases marking
    · rintro m (place | place) <;> cases place
  · rintro u v _ ⟨starting, labelled⟩ step
    rcases moves_of_step step with ⟨i, moves⟩ | moves | moves | moves
    · refine ⟨starting.worker moves, ?_⟩
      rw [Labelled, moves.frame.support]
      exact labelled
    · exact ⟨moves.starting labelled starting, moves.labelled labelled⟩
    · refine ⟨moves.starting starting, ?_⟩
      cases moves <;> exact labelled
    · refine ⟨moves.starting starting, ?_⟩
      cases moves <;> exact labelled

/-! How often it is tried. -/

/-- There is one attempt at most, and it has sent START. -/
def Tried (s : State n) : Prop := s.attempts ≤ 1 ∧ (s.attempts ≠ 0 → s.startSent)

theorem Tried.first (tried : Tried s) (starting : Starting s)
    (pc : (s.workers i).pc = .announcing) : s.attempts = 0 := by
  by_contra some
  exact starting.unsent pc (tried.2 some)

theorem Tried.congr (tried : Tried s) (attempts : t.attempts = s.attempts)
    (sent : s.startSent → t.startSent) : Tried t := by
  rw [Tried, attempts]
  exact ⟨tried.1, fun some => sent (tried.2 some)⟩

theorem startSent_mono {packets : List Packet}
    (sent : t.toMonitor.sent = s.toMonitor.sent ++ packets) (already : s.startSent) :
    t.startSent := by
  obtain ⟨packet, member, type⟩ := already
  refine ⟨packet, ?_, type⟩
  rw [sent]
  exact List.mem_append_left _ member

theorem WorkerMoves.tried {p : Params n} (first : p.startSends 0 = true)
    (moves : WorkerMoves p i s t) (starting : Starting s) (tried : Tried s) : Tried t := by
  cases moves with
  | announced pc _ =>
      have none := tried.first starting pc
      refine ⟨?_, fun _ => by simp [State.startSent, startMessage]⟩
      change s.attempts + 1 ≤ 1
      rw [none]
  | unsent pc fails =>
      rw [tried.first starting pc, first] at fails
      cases fails
  | _ => exact tried.congr rfl id

/-- If the first attempt succeeds, it is the only one. -/
theorem reachable_tried {p : Params n} (first : p.startSends 0 = true)
    (reachable : (machine p).system.Reachable s) : Tried s := by
  apply reachable.invariant Tried ⟨Nat.zero_le 1, fun some => absurd rfl some⟩
  intro u v reached tried step
  rcases moves_of_step step with ⟨i, moves⟩ | moves | moves | moves
  · exact moves.tried first (reachable_starting reached).1 tried
  · cases moves with
    | sends pc => exact tried.congr rfl (startSent_mono rfl)
    | _ => exact tried.congr rfl id
  · cases moves with
    | sends pc => exact tried.congr rfl (startSent_mono rfl)
    | _ => exact tried.congr rfl id
  · have same := startSent_of_sent moves.sent
    cases moves <;> exact tried.congr rfl same.mpr

end Riff
