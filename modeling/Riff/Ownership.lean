import Riff.SystemSteps

set_option autoImplicit false

namespace Riff

open Exact Transition

variable {n : ℕ}

/-- The thread has found its flag set and is writing its consolidated sample. -/
def WorkerPc.writing : WorkerPc → Prop
  | .storing _ _ => True
  | .publishing _ _ _ => True
  | _ => False

/-! A thread's consolidated sample, with `k` of its publications read before. -/

/-- It is empty, and nobody has been asked for a new one. -/
structure Clear (s : State n) (j : Fin n) (k : ℕ) : Prop where
  flag : (s.threads j).consolidate = false
  empty : (s.threads j).consolidatedSample = {}
  count : (s.ledger.publications j).length = k
  folded : s.ledger.folded j = k

/-- It belongs to the thread. -/
structure Asked (s : State n) (j : Fin n) (k : ℕ) : Prop where
  flag : (s.threads j).consolidate = true
  count : (s.ledger.publications j).length = k
  folded : s.ledger.folded j = k

/-- It belongs to the support thread, which has not read it yet. -/
structure Ready (s : State n) (j : Fin n) (k : ℕ) : Prop where
  flag : (s.threads j).consolidate = false
  count : (s.ledger.publications j).length = k + 1
  folded : s.ledger.folded j = k
  sample : (s.ledger.publications j)[k]? =
    some { sample := (s.threads j).consolidatedSample, round := k + 1 }

def Behind (s : State n) (j : Fin n) (k : ℕ) : Prop := Asked s j k ∨ Ready s j k

/-- The support thread is past this one. It has left the sample behind only if it
saw the stop flag. -/
def Passed (s : State n) (j : Fin n) (k : ℕ) : Prop :=
  Clear s j (k + 1) ∨ s.supportStop = true ∧ Behind s j k

/-- What a step of any thread does to the consolidated samples. -/
structure Handover (s t : State n) : Prop where
  grows : ∀ j, s.ledger.publications j <+: t.ledger.publications j
  clear : ∀ j k, Clear s j k → Clear t j k
  asked : ∀ j k, s.ledger.rounds = k + 1 → Asked s j k → Behind t j k
  ready : ∀ j k, Ready s j k → Ready t j k

theorem Handover.behind {s t : State n} (step : Handover s t) {j : Fin n} {k : ℕ}
    (round : s.ledger.rounds = k + 1) (behind : Behind s j k) : Behind t j k := by
  rcases behind with asked | ready
  · exact step.asked j k round asked
  · exact .inr (step.ready j k ready)

theorem Handover.passed {s t : State n} (step : Handover s t) {j : Fin n} {k : ℕ}
    (round : s.ledger.rounds = k + 1) (stop : s.supportStop = true → t.supportStop = true)
    (passed : Passed s j k) : Passed t j k := by
  rcases passed with clear | ⟨stopped, behind⟩
  · exact .inl (step.clear j (k + 1) clear)
  · exact .inr ⟨stop stopped, step.behind round behind⟩

/-- Who may touch which consolidated sample, from the threads' side. -/
structure Writers (s : State n) : Prop where
  flag : ∀ i, (s.workers i).pc.writing → (s.threads i).consolidate = true
  round : ∀ i now length round, (s.workers i).pc = .publishing now length round →
    round = s.ledger.rounds

/-- The two ways in which a thread's step can bear on its consolidated sample. -/
inductive Handles (i : Fin n) (s t : State n) : Prop
  | keeps (flag : (t.threads i).consolidate = (s.threads i).consolidate)
      (publications : t.ledger.publications i = s.ledger.publications i)
      (sample : (s.threads i).consolidate = false →
        (t.threads i).consolidatedSample = (s.threads i).consolidatedSample)
      (writing : (t.workers i).pc.writing → (t.threads i).consolidate = true)
      (round : ∀ now length round, (t.workers i).pc = .publishing now length round →
        round = s.ledger.rounds)
  | publishes (asked : (s.threads i).consolidate = true)
      (answered : (t.threads i).consolidate = false)
      (publications : t.ledger.publications i = s.ledger.publications i ++
        [{ sample := (t.threads i).consolidatedSample, round := s.ledger.rounds }])
      (done : (t.workers i).pc = .idle)

theorem endCall_handover (now weight : ℕ) (t : ThreadData) :
    (endCall now weight t).consolidate = t.consolidate ∧
      (endCall now weight t).consolidatedSample = t.consolidatedSample := by
  unfold endCall
  split <;> exact ⟨rfl, rfl⟩

theorem storeCustomValue_handover (index : ℕ) (value : Double) (t : ThreadData) :
    (storeCustomValue index value t).record.consolidate = t.consolidate ∧
      (storeCustomValue index value t).record.consolidatedSample = t.consolidatedSample := by
  unfold storeCustomValue
  split <;> exact ⟨rfl, rfl⟩

theorem WorkerMoves.handles {p : Params n} {i : Fin n} {s t : State n}
    (moves : WorkerMoves p i s t) (writers : Writers s) : Handles i s t := by
  have flag := writers.flag i
  cases moves with
  | @ended weight reads rest pc next later =>
      obtain ⟨same, kept⟩ := endCall_handover (p.readings s.reads) weight (s.threads i)
      apply Handles.keeps <;> simp [same, kept, WorkerPc.writing]
  | @stored index value rest pc next =>
      obtain ⟨same, kept⟩ := storeCustomValue_handover index value (s.threads i)
      apply Handles.keeps <;> simp [same, kept, WorkerPc.writing]
  | asked pc wanted =>
      apply Handles.keeps <;> simp [WorkerPc.writing, wanted]
  | rejected pc failed =>
      rw [pc] at flag
      have written := storeConsolidated_threw failed
      have owned := flag trivial
      apply Handles.keeps <;> simp [WorkerPc.writing, written, owned]
  | consolidated pc stored =>
      rw [pc] at flag
      have written := storeConsolidated_returned stored
      have owned := flag trivial
      apply Handles.keeps <;> simp [written, owned]
  | published pc =>
      rw [pc] at flag
      have round := writers.round i _ _ _ pc
      apply Handles.publishes <;> simp [flag trivial, round]
  | _ => apply Handles.keeps <;> simp [WorkerPc.writing]

theorem Handles.handover {i : Fin n} {s t : State n} (handles : Handles i s t)
    (frame : WorkerFrame i s t) : Handover s t := by
  have folded : ∀ j, t.ledger.folded j = s.ledger.folded j := fun j => by rw [frame.folded]
  cases handles with
  | keeps flag publications sample =>
      have same : ∀ j, t.ledger.publications j = s.ledger.publications j := by
        intro j
        by_cases own : j = i
        · rw [own, publications]
        · exact frame.publications j own
      have flags : ∀ j, (t.threads j).consolidate = (s.threads j).consolidate := by
        intro j
        by_cases own : j = i
        · rw [own, flag]
        · rw [frame.threads j own]
      have samples : ∀ j, (s.threads j).consolidate = false →
          (t.threads j).consolidatedSample = (s.threads j).consolidatedSample := by
        intro j unset
        by_cases own : j = i
        · subst own
          exact sample unset
        · rw [frame.threads j own]
      refine ⟨fun j => by rw [same], ?_, ?_, ?_⟩
      · intro j k clear
        exact ⟨(flags j).trans clear.flag, (samples j clear.flag).trans clear.empty,
          by rw [same, clear.count], (folded j).trans clear.folded⟩
      · intro j k _ asked
        exact .inl ⟨(flags j).trans asked.flag, by rw [same, asked.count],
          (folded j).trans asked.folded⟩
      · intro j k ready
        exact ⟨(flags j).trans ready.flag, by rw [same, ready.count],
          (folded j).trans ready.folded, by rw [same, samples j ready.flag, ready.sample]⟩
  | publishes wanted answered publications done =>
      have others : ∀ j, j ≠ i → t.ledger.publications j = s.ledger.publications j :=
        frame.publications
      refine ⟨?_, ?_, ?_, ?_⟩
      · intro j
        by_cases own : j = i
        · rw [own, publications]
          exact List.prefix_append _ _
        · rw [others j own]
      · intro j k clear
        have own : j ≠ i := by
          rintro rfl
          rw [clear.flag] at wanted
          cases wanted
        have thread := frame.threads j own
        exact ⟨by rw [thread, clear.flag], by rw [thread, clear.empty],
          by rw [others j own, clear.count], (folded j).trans clear.folded⟩
      · intro j k round asked
        by_cases own : j = i
        · subst own
          refine .inr ⟨answered, by simp [publications, asked.count],
            (folded j).trans asked.folded, ?_⟩
          rw [publications, ← asked.count, List.getElem?_concat_length, asked.count, round]
        · have thread := frame.threads j own
          exact .inl ⟨by rw [thread, asked.flag], by rw [others j own, asked.count],
            (folded j).trans asked.folded⟩
      · intro j k ready
        have own : j ≠ i := by
          rintro rfl
          rw [ready.flag] at wanted
          cases wanted
        have thread := frame.threads j own
        exact ⟨by rw [thread, ready.flag], by rw [others j own, ready.count],
          (folded j).trans ready.folded, by rw [others j own, thread, ready.sample]⟩

/-- A step that leaves flags, consolidated samples and ledger alone. -/
theorem Handover.of_same {s t : State n} (ledger : t.ledger = s.ledger)
    (flags : ∀ j, (t.threads j).consolidate = (s.threads j).consolidate)
    (samples : ∀ j, (t.threads j).consolidatedSample = (s.threads j).consolidatedSample) :
    Handover s t where
  grows j := by rw [ledger]
  clear j k clear := ⟨(flags j).trans clear.flag, (samples j).trans clear.empty,
    by rw [ledger, clear.count], by rw [ledger, clear.folded]⟩
  asked j k _ asked := .inl ⟨(flags j).trans asked.flag, by rw [ledger, asked.count],
    by rw [ledger, asked.folded]⟩
  ready j k ready := ⟨(flags j).trans ready.flag, by rw [ledger, ready.count],
    by rw [ledger, ready.folded], by rw [ledger, samples, ready.sample]⟩

theorem Writers.worker {i : Fin n} {s t : State n} (writers : Writers s)
    (handles : Handles i s t) (frame : WorkerFrame i s t) : Writers t := by
  constructor
  · intro j writing
    by_cases own : j = i
    · subst own
      cases handles with
      | keeps _ _ _ holds => exact holds writing
      | publishes _ _ _ done =>
          rw [done] at writing
          cases writing
    · rw [frame.workers j own] at writing
      rw [frame.threads j own]
      exact writers.flag j writing
  · intro j now length round pc
    rw [frame.rounds]
    by_cases own : j = i
    · subst own
      cases handles with
      | keeps _ _ _ _ stamp => exact stamp now length round pc
      | publishes _ _ _ done =>
          rw [done] at pc
          cases pc
    · rw [frame.workers j own] at pc
      exact writers.round j now length round pc

/-! The support thread. -/

/-- The sample of a thread's publication, given how many came before it. -/
def published (s : State n) (j : Fin n) (k : ℕ) : ApplicationSample :=
  ((s.ledger.publications j)[k]?.getD { sample := {}, round := 0 }).sample

/-- The `k`-th publications of the first `i` threads, in the order of the threads. -/
def firstSamples (s : State n) (k i : ℕ) : List ApplicationSample :=
  ((List.finRange n).take i).map fun j => published s j k

def firstParts (n k i : ℕ) : List (Fin n × ℕ) := ((List.finRange n).take i).map fun j => (j, k)

theorem take_finRange_succ (i : Fin n) :
    (List.finRange n).take (i + 1) = (List.finRange n).take i ++ [i] := by
  have inside : i.val < (List.finRange n).length := by
    rw [List.length_finRange]
    exact i.isLt
  rw [List.take_add_one, List.getElem?_eq_getElem inside]
  simp

theorem take_finRange_all {i : ℕ} (all : n ≤ i) : (List.finRange n).take i = List.finRange n :=
  List.take_of_length_le (by rwa [List.length_finRange])

theorem mem_take_finRange {i : ℕ} {j : Fin n} (member : j ∈ (List.finRange n).take i) :
    j.val < i := by
  obtain ⟨index, inside, here⟩ := List.mem_take_iff_getElem.mp member
  rw [List.getElem_finRange] at here
  subst here
  simpa using lt_of_lt_of_le inside (Nat.min_le_left _ _)

theorem published_congr {s t : State n} {j : Fin n} {k : ℕ}
    (grows : s.ledger.publications j <+: t.ledger.publications j)
    (inside : k < (s.ledger.publications j).length) : published t j k = published s j k := by
  obtain ⟨more, appended⟩ := grows
  rw [published, published, ← appended, List.getElem?_append_left inside]

theorem firstSamples_congr {s t : State n} {k i : ℕ}
    (grows : ∀ j, s.ledger.publications j <+: t.ledger.publications j)
    (inside : ∀ j : Fin n, j.val < i → k < (s.ledger.publications j).length) :
    firstSamples t k i = firstSamples s k i := by
  apply List.map_congr_left
  intro j member
  exact published_congr (grows j) (inside j (mem_take_finRange member))

/-- The round in which request `k + 1` is answered: so many threads have been asked,
and so many samples folded. -/
structure Round (s : State n) (k asked folded : ℕ) : Prop where
  rounds : s.ledger.rounds = k + 1
  passed : ∀ j : Fin n, j.val < folded → Passed s j k
  behind : ∀ j : Fin n, folded ≤ j.val → j.val < asked → Behind s j k
  clear : ∀ j : Fin n, folded ≤ j.val → asked ≤ j.val → Clear s j k

/-- As long as the stop flag is not set, no thread is missing in what was folded. -/
def Folds (s : State n) (k i : ℕ) (g : Gathering) : Prop :=
  s.supportStop = false →
    s.ledger.parts = firstParts n k i ∧ g = Gathering.addAll (firstSamples s k i)

/-- The message folds the `k`-th publications of all threads. -/
structure Answer (p : Params n) (s : State n) (k : ℕ) (m : Message)
    (parts : List (Fin n × ℕ)) : Prop where
  parts : parts = firstParts n k n
  type : m.type = .sampleRes
  payload : ∃ marked, m.payload = .sample (respond p.aggregator marked (firstSamples s k n))
  stored : ∀ j, k < (s.ledger.publications j).length

def Standing (p : Params n) (s : State n) (k : ℕ) : SupportPc n → Prop
  | .testing | .returned =>
      (s.ledger.rounds = k ∧ ∀ j, Clear s j k) ∨
        (s.supportStop = true ∧ s.ledger.rounds = k + 1 ∧ ∀ j, Passed s j k)
  | .receiving => s.ledger.rounds = k ∧ ∀ j, Clear s j k
  | .requesting i => Round s k i 0 ∧ s.ledger.parts = []
  | .waiting i g => Round s k n i ∧ Folds s k i g
  | .stopping i g => Round s k n i ∧ Folds s k i g
  | .rereading i g =>
      Round s k n i ∧ Folds s k i g ∧ (Ready s i k ∨ s.supportStop = true)
  | .adding i g => Round s k n i ∧ Folds s k i g ∧ Ready s i k
  | .closing g => Round s k n n ∧ Folds s k n g
  | .adjusting g => Round s k n n ∧ Folds s k n g ∧ g.updatedSamples ≠ n
  | .averaging g => Round s k n n ∧ Folds s k n g
  | .doubting g => Round s k n n ∧ Folds s k n g ∧ g.updatedSamples = 0
  | .labelling g =>
      Round s k n n ∧ (s.supportStop = false → s.ledger.parts = firstParts n k n ∧
        ∃ marked, g = (Gathering.addAll (firstSamples s k n)).average marked)
  | .deciding m =>
      Round s k n n ∧ (s.supportStop = false → Answer p s k m s.ledger.parts)
  | .sending m =>
      s.ledger.rounds = k + 1 ∧ (∀ j, Clear s j (k + 1)) ∧ Answer p s k m s.ledger.parts
  | .failed _ => n = 0

/-- A step of some other party. -/
structure Outside (s t : State n) : Prop extends Handover s t where
  rounds : t.ledger.rounds = s.ledger.rounds
  parts : t.ledger.parts = s.ledger.parts
  stop : s.supportStop = true → t.supportStop = true

theorem Outside.go {s t : State n} (step : Outside s t) (go : t.supportStop = false) :
    s.supportStop = false := by
  cases stop : s.supportStop with
  | false => rfl
  | true =>
      rw [step.stop stop] at go
      cases go

theorem Round.mono {s t : State n} {k asked folded : ℕ} (step : Outside s t)
    (round : Round s k asked folded) : Round t k asked folded where
  rounds := step.rounds.trans round.rounds
  passed j past := step.passed round.rounds step.stop (round.passed j past)
  behind j ahead inside := step.behind round.rounds (round.behind j ahead inside)
  clear j ahead outside := step.clear j k (round.clear j ahead outside)

/-- As long as the stop flag is not set, the folded samples have been published. -/
theorem Round.stored {s : State n} {k asked folded : ℕ} (round : Round s k asked folded)
    (go : s.supportStop = false) (j : Fin n) (past : j.val < folded) :
    Clear s j (k + 1) := by
  rcases round.passed j past with clear | ⟨stop, _⟩
  · exact clear
  · rw [go] at stop
    cases stop

theorem Round.firstSamples {s t : State n} {k asked folded : ℕ} (step : Outside s t)
    (round : Round s k asked folded) (go : s.supportStop = false) :
    firstSamples t k folded = firstSamples s k folded := by
  apply firstSamples_congr step.grows
  intro j past
  rw [(round.stored go j past).count]
  exact Nat.lt_succ_self k

theorem Folds.mono {s t : State n} {k asked i : ℕ} {g : Gathering} (step : Outside s t)
    (round : Round s k asked i) (folds : Folds s k i g) : Folds t k i g := by
  intro go
  obtain ⟨parts, sum⟩ := folds (step.go go)
  rw [step.parts, round.firstSamples step (step.go go)]
  exact ⟨parts, sum⟩

theorem Answer.mono {p : Params n} {s t : State n} {k : ℕ} {m : Message}
    {parts : List (Fin n × ℕ)} (grows : ∀ j, s.ledger.publications j <+: t.ledger.publications j)
    (answer : Answer p s k m parts) : Answer p t k m parts where
  parts := answer.parts
  type := answer.type
  payload := by
    rw [firstSamples_congr grows fun j _ => answer.stored j]
    exact answer.payload
  stored j := Nat.lt_of_lt_of_le (answer.stored j) (grows j).length_le

theorem Standing.mono {p : Params n} {s t : State n} {k : ℕ} {pc : SupportPc n}
    (step : Outside s t) (standing : Standing p s k pc) : Standing p t k pc := by
  have idle : (s.ledger.rounds = k ∧ ∀ j, Clear s j k) →
      t.ledger.rounds = k ∧ ∀ j, Clear t j k := fun idle =>
    ⟨step.rounds.trans idle.1, fun j => step.clear j k (idle.2 j)⟩
  have dropped : (s.supportStop = true ∧ s.ledger.rounds = k + 1 ∧ ∀ j, Passed s j k) →
      t.supportStop = true ∧ t.ledger.rounds = k + 1 ∧ ∀ j, Passed t j k := fun dropped =>
    ⟨step.stop dropped.1, step.rounds.trans dropped.2.1,
      fun j => step.passed dropped.2.1 step.stop (dropped.2.2 j)⟩
  cases pc with
  | testing => exact standing.imp idle dropped
  | returned => exact standing.imp idle dropped
  | receiving => exact idle standing
  | requesting i => exact ⟨standing.1.mono step, step.parts.trans standing.2⟩
  | waiting i g => exact ⟨standing.1.mono step, standing.2.mono step standing.1⟩
  | stopping i g => exact ⟨standing.1.mono step, standing.2.mono step standing.1⟩
  | rereading i g =>
      exact ⟨standing.1.mono step, standing.2.1.mono step standing.1,
        standing.2.2.imp (step.ready i k) step.stop⟩
  | adding i g =>
      exact ⟨standing.1.mono step, standing.2.1.mono step standing.1,
        step.ready i k standing.2.2⟩
  | closing g => exact ⟨standing.1.mono step, standing.2.mono step standing.1⟩
  | adjusting g =>
      exact ⟨standing.1.mono step, standing.2.1.mono step standing.1, standing.2.2⟩
  | averaging g => exact ⟨standing.1.mono step, standing.2.mono step standing.1⟩
  | doubting g =>
      exact ⟨standing.1.mono step, standing.2.1.mono step standing.1, standing.2.2⟩
  | labelling g =>
      refine ⟨standing.1.mono step, ?_⟩
      intro go
      rw [step.parts, standing.1.firstSamples step (step.go go)]
      exact standing.2 (step.go go)
  | deciding m =>
      refine ⟨standing.1.mono step, ?_⟩
      intro go
      rw [step.parts]
      exact (standing.2 (step.go go)).mono step.grows
  | sending m =>
      refine ⟨step.rounds.trans standing.1, fun j => step.clear j (k + 1) (standing.2.1 j), ?_⟩
      rw [step.parts]
      exact standing.2.2.mono step.grows
  | failed error => exact standing

theorem WorkerFrame.outside {i : Fin n} {s t : State n} (frame : WorkerFrame i s t)
    (handles : Handles i s t) : Outside s t where
  toHandover := handles.handover frame
  rounds := frame.rounds
  parts := frame.parts
  stop stop := frame.supportStop.trans stop

theorem MainMoves.outside {p : Params n} {s t : State n} (moves : MainMoves p s t) :
    Outside s t := by
  cases moves with
  | summarises pc allowed =>
      exact ⟨.of_same rfl (fun _ => rfl) (fun _ => rfl), rfl, rfl, id⟩
  | stops pc => exact ⟨.of_same rfl (fun _ => rfl) (fun _ => rfl), rfl, rfl, fun _ => rfl⟩
  | joins pc returned => exact ⟨.of_same rfl (fun _ => rfl) (fun _ => rfl), rfl, rfl, id⟩
  | sends pc => exact ⟨.of_same rfl (fun _ => rfl) (fun _ => rfl), rfl, rfl, id⟩
  | receives pc taken => exact ⟨.of_same rfl (fun _ => rfl) (fun _ => rfl), rfl, rfl, id⟩

theorem MonitorMoves.outside {s t : State n} (moves : MonitorMoves s t) : Outside s t := by
  cases moves <;> exact ⟨.of_same rfl (fun _ => rfl) (fun _ => rfl), rfl, rfl, id⟩

theorem Outside.supportTo (s : State n) (pc : SupportPc n) : Outside s (s.supportTo pc) :=
  ⟨.of_same rfl (fun _ => rfl) (fun _ => rfl), rfl, rfl, id⟩

theorem Clear.congr {s t : State n} {j : Fin n} {k : ℕ} (thread : t.threads j = s.threads j)
    (publications : t.ledger.publications j = s.ledger.publications j)
    (folded : t.ledger.folded j = s.ledger.folded j) (clear : Clear s j k) : Clear t j k :=
  ⟨by rw [thread, clear.flag], by rw [thread, clear.empty], by rw [publications, clear.count],
    folded.trans clear.folded⟩

theorem Behind.congr {s t : State n} {j : Fin n} {k : ℕ} (thread : t.threads j = s.threads j)
    (publications : t.ledger.publications j = s.ledger.publications j)
    (folded : t.ledger.folded j = s.ledger.folded j) (behind : Behind s j k) : Behind t j k := by
  rcases behind with asked | ready
  · exact .inl ⟨by rw [thread, asked.flag], by rw [publications, asked.count],
      folded.trans asked.folded⟩
  · exact .inr ⟨by rw [thread, ready.flag], by rw [publications, ready.count],
      folded.trans ready.folded, by rw [publications, thread, ready.sample]⟩

theorem Passed.congr {s t : State n} {j : Fin n} {k : ℕ} (thread : t.threads j = s.threads j)
    (publications : t.ledger.publications j = s.ledger.publications j)
    (folded : t.ledger.folded j = s.ledger.folded j) (stop : t.supportStop = s.supportStop)
    (passed : Passed s j k) : Passed t j k :=
  passed.imp (Clear.congr thread publications folded) fun left =>
    ⟨stop.trans left.1, left.2.congr thread publications folded⟩

/-- All threads are past the last index. -/
theorem Round.all {s : State n} {k i : ℕ} (all : n ≤ i) (round : Round s k n i) :
    Round s k n n where
  rounds := round.rounds
  passed j _ := round.passed j (Nat.lt_of_lt_of_le j.isLt all)
  behind j ahead := absurd j.isLt (Nat.not_lt.mpr ahead)
  clear j ahead := absurd j.isLt (Nat.not_lt.mpr ahead)

theorem Folds.all {s : State n} {k i : ℕ} {g : Gathering} (all : n ≤ i)
    (folds : Folds s k i g) : Folds s k n g := by
  intro go
  have both := folds go
  simp only [firstParts, Riff.firstSamples, take_finRange_all all] at both
  simpa only [firstParts, Riff.firstSamples, take_finRange_all (Nat.le_refl n)] using both

/-- With no thread missing, all are counted. -/
theorem Folds.updatedSamples {s : State n} {k : ℕ} {g : Gathering} (folds : Folds s k n g)
    (go : s.supportStop = false) : g.updatedSamples = n := by
  rw [(folds go).2, Gathering.addAll_updatedSamples, Riff.firstSamples,
    take_finRange_all (Nat.le_refl n), List.length_map, List.length_finRange]

theorem Standing.receives {p : Params n} {s : State n} {packet : Packet}
    {channel : Channel Packet} {k : ℕ} (standing : Standing p s k .receiving) :
    Standing p { s with
      support := .requesting 0
      toApplication := channel
      ledger := { s.ledger with
        rounds := s.ledger.rounds + 1
        request := packet.number
        parts := [] } } k (.requesting 0) := by
  obtain ⟨rounds, clear⟩ := standing
  refine ⟨⟨congrArg (· + 1) rounds, ?_, ?_, ?_⟩, rfl⟩
  · exact fun j past => absurd past (Nat.not_lt_zero _)
  · exact fun j _ past => absurd past (Nat.not_lt_zero _)
  · exact fun j _ _ => Clear.congr (s := s) rfl rfl rfl (clear j)

theorem Standing.requests {p : Params n} {s : State n} {k : ℕ} {i : Fin n}
    (standing : Standing p s k (.requesting i)) :
    Standing p ((s.setThread i { s.threads i with consolidate := true }).supportTo
      (.requesting (i + 1))) k (.requesting (i + 1)) := by
  obtain ⟨round, parts⟩ := standing
  have others : ∀ j, j ≠ i → ((s.setThread i { s.threads i with consolidate := true }).supportTo
      (.requesting (i + 1))).threads j = s.threads j := fun j other => by simp [other]
  refine ⟨⟨round.rounds, ?_, ?_, ?_⟩, parts⟩
  · exact fun j past => absurd past (Nat.not_lt_zero _)
  · intro j ahead past
    by_cases own : j = i
    · subst own
      have clear := round.clear j (Nat.zero_le _) (Nat.le_refl _)
      exact .inl ⟨by simp, clear.count, clear.folded⟩
    · have before : j.val < i.val :=
        Nat.lt_of_le_of_ne (Nat.le_of_lt_succ past) fun same => own (Fin.ext same)
      exact (round.behind j ahead before).congr (others j own) rfl rfl
  · intro j ahead after
    have other : j ≠ i := by
      rintro rfl
      exact Nat.not_succ_le_self _ after
    exact (round.clear j ahead (Nat.le_of_succ_le after)).congr (others j other) rfl rfl

theorem Standing.adds {p : Params n} {s : State n} {k : ℕ} {i : Fin n} {g : Gathering}
    (standing : Standing p s k (.adding i g)) :
    Standing p { s.setThread i { s.threads i with consolidatedSample := {} } with
      support := .waiting (i + 1) (g.add (s.threads i).consolidatedSample)
      ledger := { s.ledger with
        folded := Function.update s.ledger.folded i (s.ledger.folded i + 1)
        parts := s.ledger.parts ++ [(i, s.ledger.folded i)] } } k
      (.waiting (i + 1) (g.add (s.threads i).consolidatedSample)) := by
  obtain ⟨round, folds, ready⟩ := standing
  refine ⟨⟨round.rounds, ?_, ?_, ?_⟩, ?_⟩
  · intro j past
    by_cases own : j = i
    · subst own
      exact .inl ⟨by simp [ready.flag], by simp, by simp [ready.count], by simp [ready.folded]⟩
    · have before : j.val < i.val :=
        Nat.lt_of_le_of_ne (Nat.le_of_lt_succ past) fun same => own (Fin.ext same)
      exact Passed.congr (s := s) (by simp [own]) rfl (by simp [own]) rfl (round.passed j before)
  · intro j ahead inside
    have other : j ≠ i := by
      rintro rfl
      exact Nat.not_succ_le_self _ ahead
    exact Behind.congr (s := s) (by simp [other]) rfl (by simp [other])
      (round.behind j (Nat.le_of_succ_le ahead) inside)
  · exact fun j _ outside => absurd j.isLt (Nat.not_lt.mpr outside)
  · intro go
    obtain ⟨parts, sum⟩ := folds go
    have read : published s i k = (s.threads i).consolidatedSample := by
      rw [published, ready.sample]
      rfl
    constructor
    · simp only [parts, ready.folded, firstParts, take_finRange_succ, List.map_append,
        List.map_cons, List.map_nil]
    · rw [sum, ← read, ← Gathering.addAll_snoc]
      congr 1
      simp only [Riff.firstSamples, take_finRange_succ, List.map_append, List.map_cons,
        List.map_nil]
      rfl

theorem Standing.skips {p : Params n} {s : State n} {k : ℕ} {i : Fin n} {g : Gathering}
    (standing : Standing p s k (.rereading i g)) (flag : (s.threads i).consolidate = true) :
    Standing p s k (.waiting (i + 1) g) := by
  obtain ⟨round, folds, ready | stop⟩ := standing
  · rw [ready.flag] at flag
    cases flag
  · refine ⟨⟨round.rounds, ?_, ?_, ?_⟩, ?_⟩
    · intro j past
      by_cases own : j = i
      · rw [own]
        exact .inr ⟨stop, round.behind i (Nat.le_refl _) i.isLt⟩
      · exact round.passed j
          (Nat.lt_of_le_of_ne (Nat.le_of_lt_succ past) fun same => own (Fin.ext same))
    · intro j ahead inside
      exact round.behind j (Nat.le_of_succ_le ahead) inside
    · intro j _ outside
      exact absurd j.isLt (Nat.not_lt.mpr outside)
    · intro go
      rw [stop] at go
      cases go

theorem Standing.supportTo {p : Params n} {s : State n} (pc : SupportPc n)
    (standing : Standing p s s.ledger.responses.length pc) :
    Standing p (s.supportTo pc) (s.supportTo pc).ledger.responses.length
      (s.supportTo pc).support :=
  standing.mono (.supportTo s pc)

theorem Standing.sends {p : Params n} {s : State n} {k : ℕ} {m : Message}
    (standing : Standing p s k (.sending m)) :
    Standing p { s with
      support := .testing
      toMonitor := s.toMonitor.send { message := m, number := s.ledger.request }
      ledger := { s.ledger with
        responses := s.ledger.responses ++
          [⟨m, s.ledger.request, s.ledger.rounds, s.ledger.parts⟩] } } (k + 1) .testing :=
  .inl ⟨standing.1, fun j => Clear.congr (s := s) rfl rfl rfl (standing.2.1 j)⟩

/-- The support thread's own steps. It misses a thread only if the stop flag is set, so
it fails only where there is no thread at all. -/
theorem SupportMoves.standing {p : Params n} {s t : State n} (moves : SupportMoves p s t)
    (standing : Standing p s s.ledger.responses.length s.support) :
    Standing p t t.ledger.responses.length t.support := by
  cases moves with
  | returns pc stop =>
      rw [pc] at standing
      exact Standing.supportTo .returned standing
  | listens pc go =>
      rw [pc] at standing
      rcases standing with idle | ⟨stop, _⟩
      · exact Standing.supportTo .receiving idle
      · rw [go] at stop
        cases stop
  | receives pc taken =>
      rw [pc] at standing
      exact standing.receives
  | requests pc =>
      rw [pc] at standing
      exact standing.requests
  | @requested i pc all =>
      rw [pc] at standing
      obtain ⟨round, parts⟩ := standing
      refine Standing.supportTo (.waiting 0 {}) ⟨?_, fun _ => ⟨parts, rfl⟩⟩
      exact ⟨round.rounds, round.passed,
        fun j ahead inside => round.behind j ahead (Nat.lt_of_lt_of_le j.isLt all),
        fun j _ outside => absurd j.isLt (Nat.not_lt.mpr outside)⟩
  | @waits i g pc flag =>
      rw [pc] at standing
      exact Standing.supportTo (.stopping i g) standing
  | @stored i g pc flag =>
      rw [pc] at standing
      refine Standing.supportTo (.rereading i g)
        ⟨standing.1, standing.2, .inl ?_⟩
      rcases standing.1.behind i (Nat.le_refl _) i.isLt with asked | ready
      · rw [asked.flag] at flag
        cases flag
      · exact ready
  | @gathered i g pc all =>
      rw [pc] at standing
      exact Standing.supportTo (.closing g)
        ⟨standing.1.all all, standing.2.all all⟩
  | @abandons i g pc stop =>
      rw [pc] at standing
      exact Standing.supportTo (.rereading i g)
        ⟨standing.1, standing.2, .inr stop⟩
  | @waitsOn i g pc go =>
      rw [pc] at standing
      exact Standing.supportTo (.waiting i g) standing
  | @skips i g pc flag =>
      rw [pc] at standing
      exact Standing.supportTo (.waiting (i + 1) g) (standing.skips flag)
  | @rereads i g pc flag =>
      rw [pc] at standing
      obtain ⟨round, folds, _⟩ := standing
      refine Standing.supportTo (.adding i g) ⟨round, folds, ?_⟩
      rcases round.behind i (Nat.le_refl _) i.isLt with asked | ready
      · rw [asked.flag] at flag
        cases flag
      · exact ready
  | adds pc =>
      rw [pc] at standing
      exact standing.adds
  | @misses g pc some adjust missing =>
      rw [pc] at standing
      exact Standing.supportTo (.adjusting g)
        ⟨standing.1, standing.2, missing⟩
  | @closes g pc some whole =>
      rw [pc] at standing
      exact Standing.supportTo (.averaging g) standing
  | @doubts g pc none =>
      rw [pc] at standing
      exact Standing.supportTo (.doubting g) ⟨standing.1, standing.2, none⟩
  | @adjusts g pc stop =>
      rw [pc] at standing
      refine Standing.supportTo (.averaging _) ⟨standing.1, ?_⟩
      intro go
      rw [stop] at go
      cases go
  | adjustFails pc go =>
      rw [pc] at standing
      exact absurd (standing.2.1.updatedSamples go) standing.2.2
  | @averages g pc =>
      rw [pc] at standing
      refine Standing.supportTo (.labelling _) ⟨standing.1, ?_⟩
      intro go
      obtain ⟨parts, sum⟩ := standing.2 go
      exact ⟨parts, s.inconsistentSample, by rw [sum]⟩
  | @trusts g pc stop =>
      rw [pc] at standing
      refine Standing.supportTo (.labelling g) ⟨standing.1, ?_⟩
      intro go
      rw [stop] at go
      cases go
  | doubtFails pc go =>
      rw [pc] at standing
      have all := standing.2.1.updatedSamples go
      exact all.symm.trans standing.2.2
  | @labels g pc =>
      rw [pc] at standing
      refine Standing.supportTo (.deciding _) ⟨standing.1, ?_⟩
      intro go
      obtain ⟨parts, marked, average⟩ := standing.2 go
      refine ⟨parts, rfl, ⟨marked, by rw [responseMessage, average]; rfl⟩, ?_⟩
      intro j
      rw [(standing.1.stored go j j.isLt).count]
      exact Nat.lt_succ_self _
  | drops pc stop =>
      rw [pc] at standing
      exact Standing.supportTo .testing
        (.inr ⟨stop, standing.1.rounds, fun j => standing.1.passed j j.isLt⟩)
  | @decides m pc go =>
      rw [pc] at standing
      exact Standing.supportTo (.sending m)
        ⟨standing.1.rounds, fun j => standing.1.stored go j j.isLt, standing.2 go⟩
  | sends pc =>
      rw [pc] at standing
      have step := standing.sends
      simpa using step

theorem Behind.asked {s : State n} {j : Fin n} {k : ℕ} (behind : Behind s j k)
    (flag : (s.threads j).consolidate = true) : Asked s j k := by
  rcases behind with asked | ready
  · exact asked
  · rw [ready.flag] at flag
    cases flag

theorem Clear.unasked {s : State n} {j : Fin n} {k : ℕ} (clear : Clear s j k) :
    ¬ (s.threads j).consolidate = true := by
  rw [clear.flag]
  exact Bool.false_ne_true

theorem Round.asked {s : State n} {k asked folded : ℕ} (round : Round s k asked folded)
    {j : Fin n} (flag : (s.threads j).consolidate = true) :
    s.ledger.rounds = k + 1 ∧ Asked s j k := by
  refine ⟨round.rounds, ?_⟩
  by_cases past : j.val < folded
  · rcases round.passed j past with clear | ⟨_, behind⟩
    · exact absurd flag clear.unasked
    · exact behind.asked flag
  · by_cases inside : j.val < asked
    · exact (round.behind j (Nat.le_of_not_lt past) inside).asked flag
    · exact absurd flag
        (round.clear j (Nat.le_of_not_lt past) (Nat.le_of_not_lt inside)).unasked

/-- A flag is set only in a round, and only where no sample has been published yet. -/
theorem Standing.asked {p : Params n} {s : State n} {k : ℕ} {pc : SupportPc n} {j : Fin n}
    (standing : Standing p s k pc) (flag : (s.threads j).consolidate = true) :
    s.ledger.rounds = k + 1 ∧ Asked s j k := by
  have idle : ((s.ledger.rounds = k ∧ ∀ j, Clear s j k) ∨
      (s.supportStop = true ∧ s.ledger.rounds = k + 1 ∧ ∀ j, Passed s j k)) →
      s.ledger.rounds = k + 1 ∧ Asked s j k := by
    rintro (⟨_, clear⟩ | ⟨_, rounds, passed⟩)
    · exact absurd flag (clear j).unasked
    · rcases passed j with clear | ⟨_, behind⟩
      · exact absurd flag clear.unasked
      · exact ⟨rounds, behind.asked flag⟩
  cases pc with
  | testing => exact idle standing
  | returned => exact idle standing
  | receiving => exact absurd flag (standing.2 j).unasked
  | sending m => exact absurd flag (standing.2.1 j).unasked
  | failed error => exact absurd standing (Nat.ne_of_gt j.pos)
  | _ => exact standing.1.asked flag

def Response.packet (r : Response n) : Packet := { message := r.message, number := r.request }

/-- The invariant of the handover of consolidated samples. -/
structure Owned (p : Params n) (s : State n) : Prop where
  writers : Writers s
  standing : Standing p s s.ledger.responses.length s.support
  rounds : ∀ j k publication, (s.ledger.publications j)[k]? = some publication →
    publication.round = k + 1
  answers : ∀ k r, s.ledger.responses[k]? = some r →
    r.round = k + 1 ∧ Answer p s k r.message r.parts
  sent : s.toMonitor.sent.filter (fun packet => packet.message.type = .sampleRes) =
    s.ledger.responses.map Response.packet

theorem Owned.initial (p : Params n) : Owned p (State.initial p) where
  writers := ⟨fun _ writing => writing.elim, fun _ _ _ _ pc => WorkerPc.noConfusion pc⟩
  standing := .inl ⟨rfl, fun j => ⟨rfl, rfl, rfl, rfl⟩⟩
  rounds j k publication found := by cases found
  answers k r found := by cases found
  sent := rfl

theorem Owned.worker {p : Params n} {i : Fin n} {s t : State n} (owned : Owned p s)
    (moves : WorkerMoves p i s t) : Owned p t := by
  have frame := moves.frame
  have handles := moves.handles owned.writers
  have outside := frame.outside handles
  refine ⟨owned.writers.worker handles frame, ?_, ?_, ?_, ?_⟩
  · rw [frame.responses, frame.support]
    exact owned.standing.mono outside
  · intro j k publication found
    by_cases own : j = i
    · subst own
      cases handles with
      | keeps _ publications =>
          rw [publications] at found
          exact owned.rounds j k publication found
      | publishes asked _ publications _ =>
          obtain ⟨round, place⟩ := owned.standing.asked asked
          rw [publications, List.getElem?_append] at found
          split at found
          · exact owned.rounds j k publication found
          · rename_i outsideOld
            rw [List.getElem?_singleton] at found
            split at found
            · cases found
              rw [place.count] at *
              change s.ledger.rounds = k + 1
              omega
            · cases found
    · rw [frame.publications j own] at found
      exact owned.rounds j k publication found
  · intro k r found
    rw [frame.responses] at found
    obtain ⟨round, answer⟩ := owned.answers k r found
    exact ⟨round, answer.mono outside.grows⟩
  · rw [frame.responses, ← owned.sent]
    cases moves with
    | announced pc sends =>
        rw [State.goto_toMonitor, Channel.send_sent, List.filter_append]
        exact List.append_nil _
    | _ => rfl

theorem SupportMoves.writers {p : Params n} {s t : State n} (moves : SupportMoves p s t)
    (owned : Owned p s) : Writers t := by
  have frame := moves.frame
  have writers := owned.writers
  have standing := owned.standing
  have flags : ∀ i, (s.threads i).consolidate = true → (t.threads i).consolidate = true := by
    intro i flag
    cases moves with
    | @requests j pc =>
        by_cases own : i = j
        · subst own
          simp
        · simpa [own] using flag
    | @adds j g pc =>
        by_cases own : i = j
        · subst own
          simpa using flag
        · simpa [own] using flag
    | _ => exact flag
  refine ⟨?_, ?_⟩
  · intro i writing
    rw [frame.workers] at writing
    exact flags i (writers.flag i writing)
  · intro i now length round pc
    rw [frame.workers] at pc
    have current := writers.round i now length round pc
    cases moves with
    | receives receiving taken =>
        -- All flags are down, so no thread is writing.
        rw [receiving] at standing
        exact absurd (writers.flag i (by rw [pc]; trivial)) (standing.2 i).unasked
    | _ => exact current

theorem Owned.support {p : Params n} {s t : State n} (owned : Owned p s)
    (moves : SupportMoves p s t) : Owned p t := by
  have frame := moves.frame
  have grows : ∀ j, s.ledger.publications j <+: t.ledger.publications j := fun j => by
    rw [frame.publications]
  refine ⟨moves.writers owned, moves.standing owned.standing, ?_, ?_, ?_⟩
  · rw [frame.publications]
    exact owned.rounds
  · intro k r found
    cases moves with
    | sends pc =>
        have standing := owned.standing
        rw [pc] at standing
        rw [List.getElem?_append] at found
        split at found
        · obtain ⟨round, answer⟩ := owned.answers k r found
          exact ⟨round, answer.mono grows⟩
        · rename_i last
          rw [List.getElem?_singleton] at found
          split at found
          · rename_i latest
            have place : k = s.ledger.responses.length := by omega
            cases found
            rw [place]
            exact ⟨standing.1, standing.2.2.mono grows⟩
          · cases found
    | _ =>
        obtain ⟨round, answer⟩ := owned.answers k r found
        exact ⟨round, answer.mono grows⟩
  · cases moves with
    | sends pc =>
        have standing := owned.standing
        rw [pc] at standing
        rw [Channel.send_sent, List.filter_append, owned.sent, List.map_append]
        congr 1
        exact List.filter_cons_of_pos (by simpa using standing.2.2.type)
    | _ => exact owned.sent

theorem Owned.main {p : Params n} {s t : State n} (owned : Owned p s)
    (moves : MainMoves p s t) : Owned p t := by
  have outside := moves.outside
  obtain ⟨writers, standing, rounds, answers, sent⟩ := owned
  cases moves with
  | sends pc =>
      refine ⟨⟨writers.flag, writers.round⟩, standing.mono outside, rounds,
        fun k r found => (answers k r found).imp_right (Answer.mono outside.grows), ?_⟩
      rw [Channel.send_sent, List.filter_append, sent]
      exact List.append_nil _
  | _ =>
      exact ⟨⟨writers.flag, writers.round⟩, standing.mono outside, rounds,
        fun k r found => (answers k r found).imp_right (Answer.mono outside.grows), sent⟩

theorem Owned.monitor {p : Params n} {s t : State n} (owned : Owned p s)
    (moves : MonitorMoves s t) : Owned p t := by
  have outside := moves.outside
  have same := moves.sent
  obtain ⟨writers, standing, rounds, answers, sent⟩ := owned
  cases moves <;>
    exact ⟨⟨writers.flag, writers.round⟩, standing.mono outside, rounds,
      fun k r found => (answers k r found).imp_right (Answer.mono outside.grows), same ▸ sent⟩

theorem reachable_owned {p : Params n} {s : State n} (reachable : (machine p).system.Reachable s) : Owned p s := by
  apply reachable.invariant (Owned p) (Owned.initial p)
  intro u v _ owned step
  rcases moves_of_step step with ⟨i, moves⟩ | moves | moves | moves
  · exact owned.worker moves
  · exact owned.support moves
  · exact owned.main moves
  · exact owned.monitor moves

end Riff
