import Riff.Aggregation

set_option autoImplicit false

namespace Riff

open Exact Transition

variable {n : ℕ} {p : Params n} {s t u : State n}

/-! The support thread on its own. -/

/-- Steps of the support thread only. -/
def SupportRuns (p : Params n) : State n → State n → Prop :=
  Relation.ReflTransGen fun s t => stepSupport p s = some t

theorem SupportRuns.tail (runs : SupportRuns p s t) (moved : stepSupport p t = some u) :
    SupportRuns p s u :=
  Relation.ReflTransGen.tail runs moved

def consolidatedSamples (s : State n) : List ApplicationSample :=
  (List.finRange n).map fun j => (s.threads j).consolidatedSample

/-- The samples of the first `i` threads have been folded and taken away. -/
structure Emptied (s : State n) (i : ℕ) (t : State n) : Prop where
  support : t.support = .waiting i (Gathering.addAll ((consolidatedSamples s).take i))
  taken : ∀ j : Fin n, j.val < i → (t.threads j).consolidatedSample = {}
  left : ∀ j : Fin n, i ≤ j.val → t.threads j = s.threads j
  supportStop : t.supportStop = s.supportStop
  inconsistentSample : t.inconsistentSample = s.inconsistentSample
  toMonitor : t.toMonitor = s.toMonitor
  request : t.ledger.request = s.ledger.request
  phaseId : t.phaseId = s.phaseId
  totalThreads : t.totalThreads = s.totalThreads

theorem Emptied.next {i : ℕ} (emptied : Emptied s i t) (inside : i < n)
    (stored : ∀ j, (s.threads j).consolidate = false) :
    ∃ u, SupportRuns p t u ∧ Emptied s (i + 1) u := by
  let j : Fin n := ⟨i, inside⟩
  have same : t.threads j = s.threads j := emptied.left j (Nat.le_refl i)
  have flag : (t.threads j).consolidate = false := by
    rw [same]
    exact stored j
  let g := Gathering.addAll ((consolidatedSamples s).take i)
  have finds : stepSupport p t = some (t.supportTo (.rereading j g)) := by
    simp only [stepSupport, emptied.support]
    rw [dif_pos inside, if_neg (by rw [flag]; exact Bool.false_ne_true)]
  have rereads : stepSupport p (t.supportTo (.rereading j g)) =
      some (t.supportTo (.adding j g)) := by
    simp only [stepSupport, State.supportTo_support, State.supportTo_threads, flag,
      Bool.false_eq_true, ↓reduceIte]
    rfl
  have adds : ∃ u, stepSupport p (t.supportTo (.adding j g)) = some u ∧ Emptied s (i + 1) u := by
    refine ⟨_, rfl, ?_, ?_, ?_, emptied.supportStop, emptied.inconsistentSample,
      emptied.toMonitor, emptied.request, emptied.phaseId, emptied.totalThreads⟩
    · have last : (consolidatedSamples s).take (i + 1) =
          (consolidatedSamples s).take i ++ [(s.threads j).consolidatedSample] := by
        rw [consolidatedSamples, ← List.map_take, ← List.map_take]
        rw [show i + 1 = j.val + 1 from rfl, take_finRange_succ, List.map_append]
        rfl
      rw [last, Gathering.addAll_snoc, ← same]
      rfl
    · intro l before
      by_cases own : l = j
      · subst own
        simp
      · have earlier : l.val < i := by
          have other : l.val ≠ i := fun equal => own (Fin.ext equal)
          omega
        simpa [own] using emptied.taken l earlier
    · intro l after
      have other : l ≠ j := by
        rintro rfl
        exact absurd after (Nat.not_succ_le_self i)
      simpa [other] using emptied.left l (Nat.le_of_succ_le after)
  obtain ⟨u, moved, next⟩ := adds
  exact ⟨u, .tail (.tail (.single finds) rereads) moved, next⟩

/-- The response to the samples that are there. -/
def referenceMessage (p : Params n) (s : State n) : Message where
  type := .sampleRes
  payload := .sample (respond p.aggregator s.inconsistentSample (consolidatedSamples s))
  phaseId := s.phaseId
  totalThreads := s.totalThreads

/-- With all samples folded, the message goes out. -/
theorem Emptied.sends (threads : 0 < n) (emptied : Emptied s n t) (go : s.supportStop = false) :
    ∃ u, SupportRuns p t u ∧
      u.toMonitor =
        s.toMonitor.send { message := referenceMessage p s, number := s.ledger.request } ∧
      ∀ j, (u.threads j).consolidatedSample = {} := by
  have all : (consolidatedSamples s).take n = consolidatedSamples s := by
    apply List.take_of_length_le
    simp [consolidatedSamples]
  let g := Gathering.addAll (consolidatedSamples s)
  have count : g.updatedSamples = n := by
    rw [Gathering.addAll_updatedSamples]
    simp [consolidatedSamples]
  have support : t.support = .waiting n g := by
    rw [emptied.support, all]
  have closes : stepSupport p t = some (t.supportTo (.closing g)) := by
    simp only [stepSupport, support]
    rw [dif_neg (Nat.lt_irrefl n)]
  have averages : stepSupport p (t.supportTo (.closing g)) = some (t.supportTo (.averaging g)) := by
    have whole : ¬ (p.configuration.adjustThroughput = true ∧ g.updatedSamples ≠ n) :=
      fun missing => missing.2 count
    have some : g.updatedSamples ≠ 0 := by omega
    simp only [stepSupport, State.supportTo_support, if_pos some, if_neg whole]
    rfl
  have labels : stepSupport p (t.supportTo (.averaging g)) =
      some (t.supportTo (.labelling (g.average t.inconsistentSample))) := rfl
  have decides : stepSupport p (t.supportTo (.labelling (g.average t.inconsistentSample))) =
      some (t.supportTo (.deciding (referenceMessage p s))) := by
    simp only [stepSupport, State.supportTo_support, responseMessage, referenceMessage, respond,
      emptied.inconsistentSample, State.supportTo_phaseId, State.supportTo_totalThreads,
      emptied.phaseId, emptied.totalThreads, g]
    rfl
  have running : (t.supportTo (.deciding (referenceMessage p s))).supportStop = false :=
    emptied.supportStop.trans go
  have goes : stepSupport p (t.supportTo (.deciding (referenceMessage p s))) =
      some (t.supportTo (.sending (referenceMessage p s))) := by
    simp only [stepSupport, State.supportTo_support, running, Bool.false_eq_true, ↓reduceIte]
    rfl
  have runs : SupportRuns p t (t.supportTo (.sending (referenceMessage p s))) :=
    .tail (.tail (.tail (.tail (.single closes) averages) labels) decides) goes
  refine ⟨_, runs.tail rfl, ?_, ?_⟩
  · simp only [State.supportTo_toMonitor, State.supportTo_ledger, emptied.toMonitor,
      emptied.request]
  · exact fun j => emptied.taken j j.isLt

/-- The program calls `markInconsistentSamples()` with this step. -/
def Marks (s : State n) (party : Party n) : Prop :=
  ∃ i rest, party = .worker i ∧ (s.workers i).pc = .idle ∧
    (s.workers i).rest = .markInconsistentSamples :: rest

theorem stepWorker_marks {i : Fin n} (moved : stepWorker p i s = some t) :
    t.inconsistentSample = true ↔ s.inconsistentSample = true ∨ Marks s (.worker i) := by
  by_cases marks : Marks s (.worker i)
  · obtain ⟨j, rest, same, pc, next⟩ := marks
    cases same
    simp only [stepWorker, pc, next] at moved
    cases moved
    exact iff_of_true rfl (.inr ⟨_, rest, rfl, pc, next⟩)
  · have keeps : t.inconsistentSample = s.inconsistentSample := by
      cases stepWorker_moves moved with
      | @configured rest op phaseId totalThreads marked pc next shared =>
          simp only [stepWorker, pc, next] at moved
          cases op with
          | markInconsistentSamples => exact absurd ⟨i, rest, rfl, pc, next⟩ marks
          | setPhaseId _ _ =>
              have after := congrArg State.inconsistentSample (Option.some.inj moved)
              exact after.symm
          | setTotalThreads _ =>
              have after := congrArg State.inconsistentSample (Option.some.inj moved)
              exact after.symm
          | _ => cases shared
      | _ => rfl
    rw [keeps]
    exact (or_iff_left marks).symm

/-- The mark is set by that call and never taken back. -/
theorem step_marks {party : Party n} (moved : (machine p).move party s = some t) :
    t.inconsistentSample = true ↔ s.inconsistentSample = true ∨ Marks s party := by
  cases party with
  | worker i => exact stepWorker_marks moved
  | _ =>
      have keeps : t.inconsistentSample = s.inconsistentSample := by
        first
          | cases stepSupport_moves moved <;> rfl
          | cases stepMain_moves moved <;> rfl
          | cases stepMonitor_moves moved <;> rfl
      rw [keeps]
      refine (or_iff_left ?_).symm
      rintro ⟨i, rest, same, _⟩
      cases same

theorem Step.marked (step : (machine p).system.Step s t) (marked : s.inconsistentSample = true) :
    t.inconsistentSample = true := by
  obtain ⟨party, moved⟩ := step
  exact (step_marks moved).mpr (.inl marked)

/-- The mean has been taken, but the message is not sent yet. -/
def SupportPc.averaged : SupportPc n → Prop
  | .labelling _ => True
  | .deciding _ => True
  | .sending _ => True
  | _ => False

/-- `Q` holds of the flag that the response under construction will have, unless it is
dropped, and of those sent. -/
structure Verdicts (Q : State n → ℕ → Bool → Prop) (s : State n) : Prop where
  labelling : ∀ g, s.support = .labelling g → s.supportStop = false →
    Q s s.ledger.responses.length g.sample.inconsistent
  deciding : ∀ m, s.support = .deciding m → s.supportStop = false →
    Q s s.ledger.responses.length m.payload.toSample.inconsistent
  sending : ∀ m, s.support = .sending m →
    Q s s.ledger.responses.length m.payload.toSample.inconsistent
  sent : ∀ k r, s.ledger.responses[k]? = some r →
    Q s k r.message.payload.toSample.inconsistent

variable {Q : State n → ℕ → Bool → Prop}

/-- The samples of round `k` are stored, and stay what they are. -/
def Stored (s : State n) (k : ℕ) : Prop := ∀ j, k < (s.ledger.publications j).length

theorem Owned.stored_sent (owned : Owned p s) {k : ℕ} {r : Response n}
    (found : s.ledger.responses[k]? = some r) : Stored s k :=
  (owned.answers k r found).2.stored

theorem Round.all_stored {k : ℕ} (round : Round s k n n) (go : s.supportStop = false) :
    Stored s k := by
  intro j
  rw [(round.stored go j j.isLt).count]
  exact Nat.lt_succ_self k

theorem Owned.stored_labelling (owned : Owned p s) {g : Gathering} (pc : s.support = .labelling g)
    (go : s.supportStop = false) : Stored s s.ledger.responses.length := by
  have standing := owned.standing
  rw [pc] at standing
  exact standing.1.all_stored go

theorem Owned.stored_deciding (owned : Owned p s) {m : Message} (pc : s.support = .deciding m)
    (go : s.supportStop = false) : Stored s s.ledger.responses.length := by
  have standing := owned.standing
  rw [pc] at standing
  exact standing.1.all_stored go

theorem Owned.stored_sending (owned : Owned p s) {m : Message} (pc : s.support = .sending m) :
    Stored s s.ledger.responses.length := by
  have standing := owned.standing
  rw [pc] at standing
  exact standing.2.2.stored

/-- A step of another party only has to keep what `Q` says. -/
theorem Verdicts.outside (verdicts : Verdicts Q s) (owned : Owned p s)
    (stable : ∀ k b, Stored s k → Q s k b → Q t k b)
    (support : t.support = s.support) (responses : t.ledger.responses = s.ledger.responses)
    (stop : t.supportStop = false → s.supportStop = false) : Verdicts Q t where
  labelling g pc go := by
    rw [support] at pc
    rw [responses]
    exact stable _ _ (owned.stored_labelling pc (stop go)) (verdicts.labelling g pc (stop go))
  deciding m pc go := by
    rw [support] at pc
    rw [responses]
    exact stable _ _ (owned.stored_deciding pc (stop go)) (verdicts.deciding m pc (stop go))
  sending m pc := by
    rw [support] at pc
    rw [responses]
    exact stable _ _ (owned.stored_sending pc) (verdicts.sending m pc)
  sent k r found := by
    rw [responses] at found
    exact stable _ _ (owned.stored_sent found) (verdicts.sent k r found)

/-- A step of the support thread to some other place. -/
theorem Verdicts.elsewhere (verdicts : Verdicts Q s) (owned : Owned p s)
    (stable : ∀ k b, Stored s k → Q s k b → Q t k b)
    (responses : t.ledger.responses = s.ledger.responses)
    (away : ¬ t.support.averaged) : Verdicts Q t where
  labelling g pc _ := absurd (by rw [pc]; trivial) away
  deciding m pc _ := absurd (by rw [pc]; trivial) away
  sending m pc := absurd (by rw [pc]; trivial) away
  sent k r found := by
    rw [responses] at found
    exact stable _ _ (owned.stored_sent found) (verdicts.sent k r found)

theorem SupportMoves.verdicts (moves : SupportMoves p s t) (owned : Owned p s)
    (verdicts : Verdicts Q s) (stable : ∀ k b, Stored s k → Q s k b → Q t k b)
    (averages : ∀ k g, s.support = .averaging g → g = Gathering.addAll (firstSamples s k n) →
      Stored s k → Q s k (g.average s.inconsistentSample).sample.inconsistent) :
    Verdicts Q t := by
  have earlier : ∀ k r, s.ledger.responses[k]? = some r →
      Q t k r.message.payload.toSample.inconsistent := fun k r found =>
    stable k _ (owned.stored_sent found) (verdicts.sent k r found)
  have elsewhere : ¬ t.support.averaged → t.ledger.responses = s.ledger.responses → Verdicts Q t :=
    fun away responses => verdicts.elsewhere owned stable responses away
  cases moves with
  | @averages g pc =>
      refine ⟨?_, ?_, ?_, earlier⟩
      · intro h place go
        cases place
        have standing := owned.standing
        rw [pc] at standing
        obtain ⟨round, folds⟩ := standing
        have stored := round.all_stored go
        exact stable _ _ stored (averages _ g pc (folds go).2 stored)
      · intro m place
        cases place
      · intro m place
        cases place
  | @trusts g pc stop =>
      refine ⟨?_, ?_, ?_, earlier⟩
      · intro h _ go
        rw [State.supportTo_supportStop, stop] at go
        cases go
      · intro m place
        cases place
      · intro m place
        cases place
  | @labels g pc =>
      refine ⟨?_, ?_, ?_, earlier⟩
      · intro h place
        cases place
      · intro m place go
        cases place
        exact stable _ _ (owned.stored_labelling pc go) (verdicts.labelling g pc go)
      · intro m place
        cases place
  | @decides m pc go =>
      refine ⟨?_, ?_, ?_, earlier⟩
      · intro h place
        cases place
      · intro m place
        cases place
      · intro m place
        cases place
        exact stable _ _ (owned.stored_deciding pc go) (verdicts.deciding m pc go)
  | @sends m pc =>
      refine ⟨?_, ?_, ?_, ?_⟩
      · intro h place
        cases place
      · intro m place
        cases place
      · intro m place
        cases place
      · intro k r found
        rw [List.getElem?_append] at found
        split at found
        · exact earlier k r found
        · rename_i later
          have last : k = s.ledger.responses.length := by
            by_contra other
            rw [List.getElem?_eq_none (by rw [List.length_singleton]; omega)] at found
            cases found
          rw [last, Nat.sub_self] at found
          cases found
          rw [last]
          exact stable _ _ (owned.stored_sending pc) (verdicts.sending m pc)
  | _ => exact elsewhere (fun place => place) rfl

/-- The run lemma, from any state on. -/
theorem Verdicts.reaches (reachable : (machine p).system.Reachable u)
    (reaches : (machine p).system.Reaches u s) (start : Verdicts Q u)
    (stable : ∀ v w, (machine p).system.Reachable v → (machine p).system.Step v w →
      ∀ k b, Stored v k → Q v k b → Q w k b)
    (averages : ∀ v k g, (machine p).system.Reaches u v → v.support = .averaging g →
      g = Gathering.addAll (firstSamples v k n) → Stored v k →
        Q v k (g.average v.inconsistentSample).sample.inconsistent) : Verdicts Q s := by
  apply reaches.invariant (Verdicts Q) start
  intro v w between verdicts step
  have reached := reachable.trans between
  have owned := reachable_owned reached
  have keeps := stable v w reached step
  rcases moves_of_step step with ⟨i, moves⟩ | moves | moves | moves
  · have frame := moves.frame
    exact verdicts.outside owned keeps frame.support frame.responses
      fun go => frame.supportStop.symm.trans go
  · exact moves.verdicts owned verdicts keeps fun k g => averages v k g between
  · have outside := moves.outside
    refine verdicts.outside owned keeps ?_ ?_ outside.go
    · cases moves <;> rfl
    · cases moves <;> rfl
  · have outside := moves.outside
    refine verdicts.outside owned keeps ?_ ?_ outside.go
    · cases moves <;> rfl
    · cases moves <;> rfl

end Riff
