import Riff.FirstBegin
import Riff.Monitoring
import Riff.Responses

set_option autoImplicit false

namespace Riff

open Exact Transition

variable {n : ℕ} {p : Params n} {s t : State n} {i : Fin n}

/-- A count of tasks. -/
def Whole (x : Double) : Prop := ∃ k : ℕ, x = k

theorem Whole.zero : Whole 0 := ⟨0, Nat.cast_zero.symm⟩

theorem Whole.add_nat {x : Double} (whole : Whole x) (k : ℕ) : Whole (x + k) := by
  obtain ⟨l, rfl⟩ := whole
  exact ⟨l + k, (Nat.cast_add l k).symm⟩

theorem Whole.add {x y : Double} (first : Whole x) (second : Whole y) : Whole (x + y) := by
  obtain ⟨k, rfl⟩ := second
  exact first.add_nat k

theorem Whole.list_sum {values : List Double} (whole : ∀ x ∈ values, Whole x) :
    Whole values.sum := by
  induction values with
  | nil => exact .zero
  | cons x values ih =>
      rw [List.sum_cons]
      exact (whole x List.mem_cons_self).add (ih fun y member =>
        whole y (List.mem_cons_of_mem x member))

def tasksOf (publications : List Publication) : Double :=
  (publications.map fun publication => publication.sample.numTasks).sum

theorem tasksOf_append (first second : List Publication) :
    tasksOf (first ++ second) = tasksOf first + tasksOf second := by
  rw [tasksOf, List.map_append, List.sum_append]
  rfl

/-- What a step of a thread does to its tasks: it leaves them where they are, adds to
the total and to the running sample, or hands the running sample over. -/
inductive Counts (i : Fin n) (s t : State n) : Prop
  | keeps (total : (t.threads i).totalTasks = (s.threads i).totalTasks)
      (running : (t.threads i).sample.numTasks = (s.threads i).sample.numTasks)
      (publications : t.ledger.publications i = s.ledger.publications i)
      (copied : ∀ now length round, (t.workers i).pc = .publishing now length round →
        (t.threads i).consolidatedSample.numTasks = (t.threads i).sample.numTasks)
  | adds (k : ℕ) (total : (t.threads i).totalTasks = (s.threads i).totalTasks + k)
      (running : (t.threads i).sample.numTasks = (s.threads i).sample.numTasks + k)
      (publications : t.ledger.publications i = s.ledger.publications i)
      (idle : (t.workers i).pc = .idle)
  | hands (total : (t.threads i).totalTasks = (s.threads i).totalTasks)
      (running : (t.threads i).sample.numTasks = 0)
      (publications : tasksOf (t.ledger.publications i) =
        tasksOf (s.ledger.publications i) + (s.threads i).sample.numTasks)
      (whole : Whole (s.threads i).sample.numTasks →
        ∀ publication ∈ t.ledger.publications i, publication ∈ s.ledger.publications i ∨
          Whole publication.sample.numTasks)
      (idle : (t.workers i).pc = .idle)

theorem WorkerMoves.counts (moves : WorkerMoves p i s t)
    (copied : ∀ now length round, (s.workers i).pc = .publishing now length round →
      (s.threads i).consolidatedSample.numTasks = (s.threads i).sample.numTasks) :
    Counts i s t := by
  cases moves with
  | @ended weight reads rest pc next later =>
      by_cases recorded : (s.threads i).currentSample = 0
      · refine .adds ((s.threads i).samplingLength * weight) ?_ ?_ rfl ?_
        · simp [endCall_recorded recorded]
        · simp [endCall_recorded recorded]
        · simp
      · apply Counts.keeps <;> simp [endCall_skipped recorded]
  | @stored index value rest pc next =>
      have same : (storeCustomValue index value (s.threads i)).record.totalTasks =
          (s.threads i).totalTasks ∧
          (storeCustomValue index value (s.threads i)).record.sample.numTasks =
            (s.threads i).sample.numTasks := by
        unfold storeCustomValue
        split <;> exact ⟨rfl, rfl⟩
      apply Counts.keeps <;> simp [same]
  | rejected pc failed =>
      have written := storeConsolidated_threw failed
      apply Counts.keeps <;> simp [written]
  | consolidated pc stored =>
      have written := storeConsolidated_returned stored
      apply Counts.keeps <;> simp [written]
  | published pc =>
      have same := copied _ _ _ pc
      refine .hands (by simp) (by simp) ?_ ?_ (by simp)
      · simp [tasksOf, same]
      · intro whole publication member
        simp only [State.goto_ledger, Ledger.publish_publications, Function.update_self,
          List.mem_append, List.mem_singleton] at member
        apply member.imp_right
        rintro rfl
        rwa [same]
  | _ => apply Counts.keeps <;> simp

/-- Where the tasks of a thread are: handed over, or in its running sample. When
`terminate()` has added up, those that sampling has skipped are counted too. -/
structure Located (p : Params n) (s : State n) (i : Fin n) : Prop where
  running : Whole (s.threads i).sample.numTasks
  handed : ∀ publication ∈ s.ledger.publications i, Whole publication.sample.numTasks
  copied : ∀ now length round, (s.workers i).pc = .publishing now length round →
    (s.threads i).consolidatedSample.numTasks = (s.threads i).sample.numTasks
  working : s.main = .working → ((s.threads i).totalTasks : Double) =
    tasksOf (s.ledger.publications i) + (s.threads i).sample.numTasks
  summed : p.orderly = true → s.main ≠ .working → ((s.threads i).totalTasks : Double) =
    tasksOf (s.ledger.publications i) + (s.threads i).sample.numTasks +
      ((s.threads i).currentSample : Double)

theorem Located.congr (located : Located p s i)
    (main : t.main = s.main) (publications : t.ledger.publications i = s.ledger.publications i)
    (total : (t.threads i).totalTasks = (s.threads i).totalTasks)
    (running : (t.threads i).sample = (s.threads i).sample)
    (counter : (t.threads i).currentSample = (s.threads i).currentSample)
    (copied : ∀ now length round, (t.workers i).pc = .publishing now length round →
      (t.threads i).consolidatedSample.numTasks = (s.threads i).sample.numTasks) :
    Located p t i := by
  constructor
  · rw [running]
    exact located.running
  · rw [publications]
    exact located.handed
  · rw [running]
    exact copied
  · rw [main, publications, total, running]
    exact located.working
  · rw [main, publications, total, running, counter]
    exact located.summed

theorem Located.worker {j : Fin n} (located : Located p s i)
    (closed : p.orderly = true → s.main = .working) (moves : WorkerMoves p j s t) :
    Located p t i := by
  have frame := moves.frame
  by_cases own : i = j
  · subst own
    have open' : p.orderly = true → ¬ t.main ≠ .working := fun orderly closing =>
      closing (frame.main.trans (closed orderly))
    cases moves.counts located.copied with
    | keeps total running publications copied =>
        refine ⟨by rw [running]; exact located.running, by rw [publications]; exact located.handed,
          copied, ?_, fun orderly closing => absurd closing (open' orderly)⟩
        intro working
        rw [total, running, publications]
        exact located.working (frame.main ▸ working)
    | adds k total running publications idle =>
        refine ⟨by rw [running]; exact located.running.add_nat k,
          by rw [publications]; exact located.handed, by simp [idle], ?_,
          fun orderly closing => absurd closing (open' orderly)⟩
        intro working
        rw [total, running, publications, Nat.cast_add,
          located.working (frame.main ▸ working), add_assoc]
    | hands total running publications whole idle =>
        refine ⟨by rw [running]; exact .zero, ?_, by simp [idle], ?_,
          fun orderly closing => absurd closing (open' orderly)⟩
        · intro publication member
          exact (whole located.running publication member).elim (located.handed publication) id
        · intro working
          rw [total, running, publications, add_zero]
          exact located.working (frame.main ▸ working)
  · have thread := frame.threads i own
    apply located.congr frame.main (frame.publications i own) (by rw [thread]) (by rw [thread])
      (by rw [thread])
    rw [frame.workers i own, thread]
    exact located.copied

theorem Located.support (located : Located p s i) (owned : Owned p s) (moves : SupportMoves p s t) :
    Located p t i := by
  have frame := moves.frame
  have publications : t.ledger.publications i = s.ledger.publications i := by
    rw [frame.publications]
  cases moves with
  | @requests j pc =>
      by_cases own : i = j
      · subst own
        exact located.congr rfl publications (by simp) (by simp) (by simp)
          (by simpa using located.copied)
      · exact located.congr rfl publications (by simp [own]) (by simp [own]) (by simp [own])
          (by simpa [own] using located.copied)
  | @adds j g pc =>
      by_cases own : i = j
      · subst own
        refine located.congr rfl publications (by simp) (by simp) (by simp) ?_
        intro now length round publishing
        -- A thread that is publishing still has its flag set.
        have flag := owned.writers.flag i
        have standing := owned.standing
        change (s.workers i).pc = _ at publishing
        rw [publishing] at flag
        rw [pc] at standing
        exact absurd (flag trivial) (by rw [standing.2.2.flag]; exact Bool.false_ne_true)
      · exact located.congr rfl publications (by simp [own]) (by simp [own]) (by simp [own])
          (by simpa [own] using located.copied)
  | _ => exact located.congr rfl rfl rfl rfl rfl located.copied

theorem Located.main (located : Located p s i) (moves : MainMoves p s t) : Located p t i := by
  cases moves with
  | summarises pc allowed =>
      refine ⟨located.running, located.handed, located.copied, ?_, ?_⟩
      · intro working
        cases working
      · intro _ _
        simp only [recordSpurious, Nat.cast_add]
        rw [located.working pc]
  | _ =>
      exact ⟨located.running, located.handed, located.copied, MainPc.noConfusion,
        fun orderly _ => located.summed orderly
          (by rw [‹s.main = _›]; exact MainPc.noConfusion)⟩

theorem Located.monitor (located : Located p s i) (moves : MonitorMoves s t) : Located p t i := by
  cases moves <;> exact located.congr rfl rfl rfl rfl rfl located.copied

theorem Located.initial (p : Params n) (i : Fin n) : Located p (State.initial p) i where
  running := .zero
  handed _ member := absurd member List.not_mem_nil
  copied _ _ _ pc := WorkerPc.noConfusion pc
  working _ := (add_zero 0).symm
  summed _ closing := absurd rfl closing

theorem reachable_located (reachable : (machine p).system.Reachable s) :
    ∀ i, Located p s i := by
  apply reachable.invariant (fun s => ∀ i, Located p s i) (Located.initial p)
  intro u v reached located step i
  rcases moves_of_step step with ⟨j, moves⟩ | moves | moves | moves
  · refine (located i).worker ?_ moves
    intro orderly
    by_contra closing
    have done := reachable_finished orderly reached closing j
    rw [moves.unfinished] at done
    cases done
  · exact (located i).support (reachable_owned reached) moves
  · exact (located i).main moves
  · exact (located i).monitor moves

/-- The total that `terminate()` has computed is the sum over the threads. -/
theorem reachable_total (orderly : p.orderly = true)
    (reachable : (machine p).system.Reachable s) (closing : s.main ≠ .working) :
    s.totalTasks = ∑ i, (s.threads i).totalTasks := by
  revert closing
  apply reachable.invariant (fun s => s.main ≠ .working →
    s.totalTasks = ∑ i, (s.threads i).totalTasks) (fun closing => absurd rfl closing)
  intro u v reached total step closing
  rcases moves_of_step step with ⟨j, moves⟩ | moves | moves | moves
  · have done := reachable_finished orderly reached (moves.frame.main ▸ closing) j
    rw [moves.unfinished] at done
    cases done
  · have same : ∀ i, (v.threads i).totalTasks = (u.threads i).totalTasks := by
      intro i
      cases moves with
      | @requests j pc => by_cases own : i = j <;> simp [own]
      | @adds j g pc => by_cases own : i = j <;> simp [own]
      | _ => rfl
    simp only [moves.frame.totalTasks, same]
    exact total (moves.frame.main ▸ closing)
  · cases moves with
    | summarises pc allowed =>
        change (terminateTotals (List.ofFn u.threads)).totalTasks = _
        rw [terminateTotals_totalTasks, List.map_ofFn, List.sum_ofFn]
        rfl
    | _ => exact total (by rw [‹u.main = _›]; exact MainPc.noConfusion)
  · cases moves <;> exact total closing

/-! Which of the publications have been read. -/

/-- The samples of a thread that were folded into a response, sent or not. -/
def State.read (s : State n) (i : Fin n) : List Publication :=
  (s.ledger.publications i).take (s.ledger.folded i)

/-- The tasks in a published sample that the support thread has not read. -/
def State.unread (s : State n) (i : Fin n) : Double :=
  if (s.threads i).consolidate then 0 else (s.threads i).consolidatedSample.numTasks

theorem Standing.held {k : ℕ} {pc : SupportPc n} (standing : Standing p s k pc) (j : Fin n) :
    ∃ k, Clear s j k ∨ Behind s j k := by
  have round : ∀ {asked folded : ℕ}, Round s k asked folded → ∃ k, Clear s j k ∨ Behind s j k := by
    intro asked folded round
    by_cases past : j.val < folded
    · rcases round.passed j past with clear | ⟨_, behind⟩
      · exact ⟨k + 1, .inl clear⟩
      · exact ⟨k, .inr behind⟩
    · by_cases inside : j.val < asked
      · exact ⟨k, .inr (round.behind j (Nat.le_of_not_lt past) inside)⟩
      · exact ⟨k, .inl (round.clear j (Nat.le_of_not_lt past) (Nat.le_of_not_lt inside))⟩
  have idle : ((s.ledger.rounds = k ∧ ∀ j, Clear s j k) ∨
      (s.supportStop = true ∧ s.ledger.rounds = k + 1 ∧ ∀ j, Passed s j k)) →
      ∃ k, Clear s j k ∨ Behind s j k := by
    rintro (⟨_, clear⟩ | ⟨_, _, passed⟩)
    · exact ⟨k, .inl (clear j)⟩
    · rcases passed j with clear | ⟨_, behind⟩
      · exact ⟨k + 1, .inl clear⟩
      · exact ⟨k, .inr behind⟩
  cases pc with
  | testing => exact idle standing
  | returned => exact idle standing
  | receiving => exact ⟨k, .inl (standing.2 j)⟩
  | sending m => exact ⟨k + 1, .inl (standing.2.1 j)⟩
  | failed error => exact absurd standing (Nat.ne_of_gt j.pos)
  | _ => exact round standing.1

theorem Owned.unread (owned : Owned p s) (i : Fin n) :
    tasksOf (s.ledger.publications i) = tasksOf (s.read i) + s.unread i := by
  obtain ⟨k, clear | asked | ready⟩ := owned.standing.held i
  · have all : s.read i = s.ledger.publications i :=
      List.take_of_length_le (by rw [clear.count, clear.folded])
    simp [all, State.unread, clear.flag, clear.empty]
  · have all : s.read i = s.ledger.publications i :=
      List.take_of_length_le (by rw [asked.count, asked.folded])
    simp [all, State.unread, asked.flag]
  · have split : s.ledger.publications i = s.read i ++
        [{ sample := (s.threads i).consolidatedSample, round := k + 1 }] := by
      have whole : s.ledger.publications i = (s.ledger.publications i).take (k + 1) :=
        (List.take_of_length_le (by rw [ready.count])).symm
      rw [State.read, ready.folded, ← Option.toList_some, ← ready.sample, ← List.take_add_one]
      exact whole
    rw [split, tasksOf_append, State.unread, ready.flag]
    simp [tasksOf]

/-- A response carries the tasks of the publications it folds. -/
theorem Complete.numTasks {k : ℕ} {r : Response n} (complete : Complete p s k r) :
    r.message.payload.toSample.numTasks =
        ∑ i, tasksOf ((s.ledger.publications i)[k]?.toList) := by
  obtain ⟨publications, marked, found, payload⟩ := complete.samples
  rw [payload, Payload.toSample, respond_numTasks, List.map_map, Fin.sum_univ_def]
  congr 1
  apply List.map_congr_left
  intro i _
  rw [(found i).1]
  simp [tasksOf]

/-- The first responses carry the tasks of the first publications of all threads. -/
theorem Owned.responded (owned : Owned p s) {m : ℕ} (sent : m ≤ s.ledger.responses.length) :
    ((s.ledger.responses.take m).map fun r => r.message.payload.toSample.numTasks).sum =
      ∑ i, tasksOf ((s.ledger.publications i).take m) := by
  induction m with
  | zero => simp [tasksOf]
  | succ m ih =>
      have found := List.getElem?_eq_getElem sent
      simp only [List.take_add_one, tasksOf_append, Finset.sum_add_distrib, found,
        Option.toList_some, List.map_append, List.map_cons, List.map_nil, List.sum_append,
        List.sum_cons, List.sum_nil, add_zero, ih (Nat.le_of_succ_le sent)]
      rw [(owned.complete found).numTasks]

/-- What a thread has done and the monitor has not heard of: its samples that were
published but not delivered, its running sample, and the calls that sampling skipped. -/
def State.unreported (s : State n) (i : Fin n) : Double :=
  tasksOf ((s.ledger.publications i).drop s.monitor.samples.length) +
    (s.threads i).sample.numTasks + ((s.threads i).currentSample : Double)

theorem Located.unreported (located : Located p s i) : Whole (s.unreported i) := by
  refine ((Whole.list_sum ?_).add located.running).add_nat _
  intro x member
  obtain ⟨publication, inside, rfl⟩ := List.mem_map.mp member
  exact located.handed publication (List.mem_of_mem_drop inside)

theorem Whole.sum {f : Fin n → Double} (whole : ∀ i, Whole (f i)) : Whole (∑ i, f i) := by
  rw [Fin.sum_univ_def]
  apply Whole.list_sum
  intro x member
  obtain ⟨i, _, rfl⟩ := List.mem_map.mp member
  exact whole i

/-- The tasks that the monitor has heard of, and those that it has not, add up to what
`terminate()` reports. -/
theorem reported_and_unreported (orderly : p.orderly = true)
    (reachable : (machine p).system.Reachable s) (closing : s.main ≠ .working) :
    ∃ received remainder : ℕ,
      (s.monitor.samples.map ApplicationSample.numTasks).sum = received ∧
      ∑ i, s.unreported i = remainder ∧ s.totalTasks = received + remainder := by
  have owned := reachable_owned reachable
  have located := reachable_located reachable
  have samples := reachable_samples reachable
  have sent : s.monitor.samples.length ≤ s.ledger.responses.length := by
    have lengths := congrArg List.length samples
    rw [List.length_map, List.length_take] at lengths
    omega
  have heard : (s.monitor.samples.map ApplicationSample.numTasks).sum =
      ∑ i, tasksOf ((s.ledger.publications i).take s.monitor.samples.length) := by
    rw [← owned.responded sent]
    conv_lhs => rw [samples]
    rw [List.map_map]
    rfl
  obtain ⟨received, whole⟩ : Whole
      (∑ i, tasksOf ((s.ledger.publications i).take s.monitor.samples.length)) := by
    refine Whole.sum fun i => Whole.list_sum ?_
    intro x member
    obtain ⟨publication, inside, rfl⟩ := List.mem_map.mp member
    exact (located i).handed publication (List.mem_of_mem_take inside)
  obtain ⟨remainder, rest⟩ := Whole.sum fun i => (located i).unreported
  refine ⟨received, remainder, heard.trans whole, rest, Double.natCast_injective _ _ ?_⟩
  have each : ∀ i, ((s.threads i).totalTasks : Double) =
      tasksOf ((s.ledger.publications i).take s.monitor.samples.length) + s.unreported i := by
    intro i
    rw [(located i).summed orderly closing, State.unreported, ← add_assoc, ← add_assoc,
      ← tasksOf_append, List.take_append_drop]
  rw [reachable_total orderly reachable closing, Nat.cast_sum, Nat.cast_add, ← whole, ← rest,
    ← Finset.sum_add_distrib]
  exact Finset.sum_congr rfl fun i _ => each i

/-- No task is lost or located twice, whatever the interleaving. -/
theorem tasks_conserved (reachable : (machine p).system.Reachable s) :
    (s.main = .working → ∀ i, ((s.threads i).totalTasks : Double) =
      tasksOf (s.read i) + s.unread i + (s.threads i).sample.numTasks) ∧
    (∀ i g, s.support = .adding i g →
      (s.ledger.publications i)[s.ledger.folded i]?.map Publication.sample =
        some (s.threads i).consolidatedSample) ∧
    (p.orderly = true → ∀ packet ∈ s.toMonitor.sent, packet.message.type = .stop →
      ∃ received remainder : ℕ,
        (s.monitor.samples.map ApplicationSample.numTasks).sum = received ∧
        ∑ i, s.unreported i = remainder ∧
        packet.message.payload.toSummary.2 = received + remainder) := by
  have owned := reachable_owned reachable
  refine ⟨?_, ?_, ?_⟩
  · intro working i
    rw [(reachable_located reachable i).working working, owned.unread i]
  · intro i g pc
    have standing := owned.standing
    rw [pc] at standing
    obtain ⟨_, _, ready⟩ := standing
    rw [ready.folded, ready.sample]
    rfl
  · intro orderly packet member stop
    have summed := reachable_summed reachable
    have closing : s.main ≠ .working := by
      intro working
      exact summed.unsaid (by rw [working]; rfl) packet member stop
    rw [summed.said packet member stop]
    exact reported_and_unreported orderly reachable closing

/-- One sample has been delivered when STOP is sent. -/
def stopWithOneSample : List (Party 1) :=
  oneRequest 0 ++ [.monitor, .monitor, .main, .main] ++ List.replicate 12 .support ++ [.main, .main]

/-- One call is reported by the monitor's only sample, the other one is not. -/
theorem tasks_conserved_twoCalls :
    ∃ s, (machine twoCalls).system.Reachable s ∧
      (s.monitor.samples.map ApplicationSample.numTasks).sum = ((1 : ℕ) : Double) ∧
      ∑ i, s.unreported i = ((1 : ℕ) : Double) := by
  have run : ((machine twoCalls).follow stopWithOneSample (machine twoCalls).start).map
        (fun s => ((s.monitor.samples.map ApplicationSample.numTasks).sum,
          s.toMonitor.sent.getLast?.map fun packet =>
            (packet.message.type, packet.message.payload.toSummary.2))) =
      some (((1 : ℕ) : Double), some (.stop, 2)) := by
    decide +kernel
  obtain ⟨s, reachable, seen⟩ := Machine.reachable_of_observed run
  simp only [Prod.mk.injEq, Option.map_eq_some_iff] at seen
  obtain ⟨heard, packet, last, stop, total⟩ := seen
  obtain ⟨received, remainder, sum, rest, whole⟩ :=
    (tasks_conserved reachable).2.2 rfl packet (List.mem_of_getLast? last) stop
  have one : received = 1 := Double.natCast_injective _ _ (sum.symm.trans heard)
  have other : remainder = 1 := by omega
  exact ⟨s, reachable, heard, by rw [rest, other]⟩

end Riff
