import Riff.Phases
import Riff.ThreadHistory

set_option autoImplicit false

namespace Riff

open Exact Transition

variable {n : ℕ} {p : Params n} {s : State n}

/-- Between two of its calls, a thread of the application has the record of a sequential run
of its own program so far, at clock readings that do not go back, and it has handed over the
samples of that run: all that the others can do is to place requests and to collect. -/
theorem thread_runs_alone (sends : ∀ k, p.startSends k = true)
    (positive : ∀ k, 0 < p.readings k) (clock : Monotone p.readings)
    (reachable : (machine p).system.Reachable s) (working : s.main = .working) {i : Fin n}
    (between : (s.workers i).pc = .idle) :
    ∃ calls : List Call,
      calls.filterMap Call.op ++ (s.workers i).rest.filter Op.own =
        (p.program i).filter Op.own ∧
      (0 :: times calls).IsChain Ticks ∧
      s.threads i = runCaught p.build p.configuration calls (ThreadData.initial p.build) ∧
      (s.ledger.publications i).map Publication.sample =
        (handedOver p.build p.configuration calls (ThreadData.initial p.build)).map
          Consolidation.sample := by
  obtain ⟨calls, traced, publications⟩ :=
    reachable_sequential sends positive clock reachable working i
  obtain ⟨within, program, ticks, _, _⟩ := traced
  rw [between] at within
  rw [Worker.pending, between] at program
  exact ⟨calls, program, ticks, within, publications⟩

/-- The thread that has served the monitor's request, after its last call. -/
theorem thread_runs_alone_phased :
    ∃ s, (machine phased).system.Reachable s ∧ ∃ calls : List Call,
      calls.filterMap Call.op = [.beginCall, .endCall 1, .beginCall, .endCall 1] ∧
      s.threads 0 = runCaught {} {} calls (ThreadData.initial {}) ∧
      (handedOver {} {} calls (ThreadData.initial {})).length = 1 := by
  have answered : ((machine phased).follow (untilAsked ++ untilAnswered) (machine phased).start).map
      (fun s => (s.main matches .working, (s.workers 0).finished,
        (s.ledger.publications 0).length)) = some (true, true, 1) := by
    decide +kernel
  obtain ⟨s, toAnswered, after⟩ := Option.map_eq_some_iff.mp answered
  simp only [Prod.mk.injEq] at after
  obtain ⟨working, last, one⟩ := after
  obtain ⟨idle, none⟩ := Worker.finished_iff.mp last
  obtain ⟨calls, program, _, record, publications⟩ := thread_runs_alone (i := 0) (fun _ => rfl)
    (fun k => Nat.mul_pos (by decide) (Nat.succ_pos k))
    (fun k l later => Nat.mul_le_mul_left 1000 (Nat.succ_le_succ later))
    (Machine.reachable_of_follow toAnswered) (by cases main : s.main <;> simp_all) idle
  refine ⟨s, Machine.reachable_of_follow toAnswered, calls, ?_, record, ?_⟩
  · rw [none, List.filter_nil, List.append_nil] at program
    exact program
  · rw [← List.length_map (f := Consolidation.sample)]
    exact (congrArg List.length publications).symm.trans (by rw [List.length_map, one])

end Riff
