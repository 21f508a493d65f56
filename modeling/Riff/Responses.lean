import Riff.Adjust

set_option autoImplicit false

namespace Riff

open Exact Transition

variable {n : ℕ}

/-- Response `k` folds the publication `k` of each thread and nothing else, and each
of these was stored after request `k + 1` had been received and before the next. -/
structure Complete (p : Params n) (s : State n) (k : ℕ) (r : Response n) : Prop where
  type : r.message.type = .sampleRes
  round : r.round = k + 1
  parts : r.parts = (List.finRange n).map fun j => (j, k)
  samples : ∃ (publications : Fin n → Publication) (marked : Bool),
    (∀ j, (s.ledger.publications j)[k]? = some (publications j) ∧
      (publications j).round = r.round) ∧
    r.message.payload = .sample (respond p.aggregator marked
      ((List.finRange n).map fun j => (publications j).sample))

theorem Owned.complete {p : Params n} {s : State n} (owned : Owned p s) {k : ℕ} {r : Response n}
    (found : s.ledger.responses[k]? = some r) : Complete p s k r := by
  obtain ⟨round, answer⟩ := owned.answers k r found
  have all : (List.finRange n).take n = List.finRange n := take_finRange_all (Nat.le_refl n)
  refine ⟨answer.type, round, ?_, ?_⟩
  · rw [answer.parts, firstParts, all]
  · obtain ⟨marked, payload⟩ := answer.payload
    refine ⟨fun j => (s.ledger.publications j).get ⟨k, answer.stored j⟩, marked, ?_, ?_⟩
    · intro j
      have here := List.getElem?_eq_getElem (answer.stored j)
      exact ⟨here, (owned.rounds j k _ here).trans round.symm⟩
    · rw [payload, firstSamples, all]
      congr 2
      apply List.map_congr_left
      intro j _
      rw [published, List.getElem?_eq_getElem (answer.stored j), Option.getD_some]
      rfl

/-- Whose turn it is with the consolidated samples: a thread that is writing has its flag
set, the support thread reads one whose flag is not set, and no other step changes any. -/
structure Disciplined (p : Params n) (s : State n) : Prop where
  writes : ∀ i, (s.workers i).pc.writing → (s.threads i).consolidate = true
  reads : ∀ i g, s.support = .adding i g → (s.threads i).consolidate = false
  changes : ∀ party t, (machine p).move party s = some t → ∀ j,
    (t.threads j).consolidatedSample ≠ (s.threads j).consolidatedSample →
      (party = .worker j ∧ (s.workers j).pc.writing) ∨
        (party = .support ∧ ∃ g, s.support = .adding j g)

/-- A thread's own sample changes only while it is writing. -/
theorem WorkerMoves.writing {p : Params n} {i : Fin n} {s t : State n}
    (moves : WorkerMoves p i s t)
    (changed : (t.threads i).consolidatedSample ≠ (s.threads i).consolidatedSample) :
    (s.workers i).pc.writing := by
  cases moves with
  | @ended weight reads rest pc next later =>
      exact absurd (by simp [(endCall_handover (p.readings s.reads) weight (s.threads i)).2])
        changed
  | @stored index value rest pc next =>
      exact absurd (by simp [(storeCustomValue_handover index value (s.threads i)).2]) changed
  | rejected pc failed => rw [pc]; trivial
  | consolidated pc written => rw [pc]; trivial
  | published pc => rw [pc]; trivial
  | _ => exact absurd (by simp) changed

theorem SupportMoves.adding {p : Params n} {s t : State n} (moves : SupportMoves p s t) {j : Fin n}
    (changed : (t.threads j).consolidatedSample ≠ (s.threads j).consolidatedSample) :
    ∃ g, s.support = .adding j g := by
  cases moves with
  | @requests i pc =>
      by_cases own : j = i
      · subst own
        exact absurd (by simp) changed
      · exact absurd (by simp [own]) changed
  | @adds i g pc =>
      by_cases own : j = i
      · subst own
        exact ⟨g, pc⟩
      · exact absurd (by simp [own]) changed
  | _ => exact absurd rfl changed

theorem Owned.disciplined {p : Params n} {s : State n} (owned : Owned p s) : Disciplined p s where
  writes := owned.writers.flag
  reads i g pc := by
    have standing := owned.standing
    rw [pc] at standing
    exact standing.2.2.flag
  changes party t moved j changed := by
    cases party with
    | worker i =>
        have moves := stepWorker_moves moved
        by_cases own : j = i
        · subst own
          exact .inl ⟨rfl, moves.writing changed⟩
        · exact absurd (by rw [moves.frame.threads j own]) changed
    | support => exact .inr ⟨rfl, (stepSupport_moves moved).adding changed⟩
    | main =>
        cases stepMain_moves moved <;> exact absurd rfl changed
    | monitor =>
        cases stepMonitor_moves moved <;> exact absurd rfl changed

/-- Whatever the interleaving, a response that is sent is complete and fresh, the two
assertions of the support thread on the stop flag hold, and the correction for missing
threads never shows. -/
theorem responses_complete_and_fresh (p : Params n) (threads : 0 < n) :
    (∀ s, (machine p).system.Reachable s →
      s.toMonitor.sent.filter (fun packet => packet.message.type = .sampleRes) =
        s.ledger.responses.map Response.packet ∧
      (∀ k r, s.ledger.responses[k]? = some r → Complete p s k r) ∧
      Disciplined p s ∧
      ∀ error, s.support ≠ .failed error) ∧
    ∀ adjust, sentBy (p.withAdjust adjust) = sentBy p := by
  refine ⟨?_, fun adjust => sentBy_withAdjust p adjust⟩
  intro s reachable
  have owned := reachable_owned reachable
  refine ⟨owned.sent, fun k r found => owned.complete found, owned.disciplined, ?_⟩
  intro error failed
  have standing := owned.standing
  rw [failed] at standing
  exact absurd standing (Nat.ne_of_gt threads)

theorem responses_complete_and_fresh_two :
    0 < 2 ∧ ∀ adjust : Bool, sentBy (n := 2) (Params.withAdjust
      { program := fun _ => [.beginCall, .endCall 1], readings := id } adjust) =
        sentBy (n := 2) { program := fun _ => [.beginCall, .endCall 1], readings := id } :=
  ⟨by decide, (responses_complete_and_fresh _ (by decide)).2⟩

end Riff
