import Riff.Conservation
import Riff.Records

set_option autoImplicit false

namespace Riff

open Exact Transition

variable {n : ℕ} {p : Params n} {s t : State n} {i : Fin n}

/-- A load from 0 to the given percentage. -/
def LoadWithin (bound : ℚ) (sample : ApplicationSample) : Prop :=
  ∃ load : ℚ, sample.loadPercentage = .finite load ∧ 0 ≤ load ∧ load ≤ bound

/-- Where the estimate is close to the elapsed time, so is the latency, which is part of
the estimate. -/
theorem latency_le_of_close {configuration : ApplicationConfiguration} {now latency : ℕ}
    {t : ThreadData} (recorded : t.sample.latency = latency) (elapsed : 0 < sampleTime now t)
    (close : gapTooWide configuration now t = false) :
    100 * (latency : ℚ) ≤ (100 + configuration.consistencyThreshold) * (sampleTime now t : ℕ) := by
  rw [gapTooWide, Double.exceeds_percentage, if_neg elapsed.ne', decide_eq_false_iff_not, not_lt,
    absDiff_cast, sampleTimeEstimated_eq recorded, abs_sub_comm] at close
  have gap := le_abs_self (((latency + t.idleTime : ℕ) : ℚ) - (sampleTime now t : ℕ))
  have idle : (0 : ℚ) ≤ t.idleTime := Nat.cast_nonneg _
  rw [Nat.cast_add] at gap close
  linarith

/-- The load as `begin()` has computed it, if the check did not mark it. -/
theorem loadWithin_of_close {configuration : ApplicationConfiguration} {now : ℕ} {t : ThreadData}
    (recorded : Whole t.sample.latency) (elapsed : 0 < sampleTime now t)
    (computed : t.sample.loadPercentage =
      t.sample.latency / (sampleTime now t : Double) * ((100 : ℕ) : Double))
    (close : gapTooWide configuration now t = false) :
    LoadWithin (100 + configuration.consistencyThreshold) t.sample := by
  obtain ⟨latency, same⟩ := recorded
  have bound := latency_le_of_close same elapsed close
  have spent : (0 : ℚ) < (sampleTime now t : ℕ) := Nat.cast_pos.mpr elapsed
  refine ⟨latency / (sampleTime now t : ℕ) * (100 : ℕ), ?_, by positivity, ?_⟩
  · rw [computed, same, Double.natCast_div _ _ elapsed, Double.natCast_def 100, Double.finite_mul]
  · rw [div_mul_eq_mul_div, div_le_iff₀ spent, Nat.cast_ofNat]
    linarith

/-- What a thread's record and its publications say about its load. -/
structure Metered (p : Params n) (s : State n) (i : Fin n) : Prop where
  latency : Whole (s.threads i).sample.latency
  unmarked : (s.threads i).sample.inconsistent = false
  computed : ∀ now, (s.workers i).pc.reading = some now →
    (s.threads i).sample.loadPercentage = (s.threads i).sample.latency /
      (sampleTime now (s.threads i) : Double) * ((100 : ℕ) : Double)
  copied : ∀ now length round, (s.workers i).pc = .publishing now length round →
    (s.threads i).consolidatedSample.inconsistent = false →
    LoadWithin (100 + p.configuration.consistencyThreshold) (s.threads i).consolidatedSample
  handed : ∀ publication ∈ s.ledger.publications i, publication.sample.inconsistent = false →
    LoadWithin (100 + p.configuration.consistencyThreshold) publication.sample

/-- A step that does not leave the thread in the midst of an evaluation. -/
theorem Metered.idle (metered : Metered p s i)
    (publications : t.ledger.publications i = s.ledger.publications i)
    (latency : Whole (t.threads i).sample.latency)
    (unmarked : (t.threads i).sample.inconsistent = false)
    (idle : (t.workers i).pc.reading = none) : Metered p t i := by
  refine ⟨latency, unmarked, ?_, ?_, ?_⟩
  · intro now evaluating
    rw [idle] at evaluating
    cases evaluating
  · intro now length round pc
    rw [pc] at idle
    cases idle
  · rw [publications]
    exact metered.handed

theorem Metered.worker (clock : StrictMono p.readings) (dated : Dated p s i)
    (metered : Metered p s i) (moves : WorkerMoves p i s t) : Metered p t i := by
  have latency := metered.latency
  have unmarked := metered.unmarked
  cases moves with
  | @ended weight reads rest pc next later =>
      refine metered.idle rfl ?_ ?_ (by simp [WorkerPc.reading])
      · by_cases recorded : (s.threads i).currentSample = 0
        · simp only [State.setThread_threads, Function.update_self, endCall_recorded recorded,
            ← Double.natCast_mul]
          exact latency.add_nat _
        · simpa [endCall_skipped recorded] using latency
      · simp only [State.setThread_threads, Function.update_self, endCall]
        split <;> exact unmarked
  | @stored index value rest pc next =>
      obtain ⟨_, _, fields, stored, asked, frame⟩ :=
        (call_neutral {} {} (c := .storeCustomValue index value) rfl (s.threads i)).2
      change (storeCustomValue index value (s.threads i)).record = _ at frame
      exact metered.idle rfl (by simpa [frame] using latency) (by simpa [frame] using unmarked)
        (by simp [WorkerPc.reading])
  | @measured length pc evaluates chosen =>
      refine ⟨by simpa using latency, by simpa using unmarked, ?_, ?_, metered.handed⟩
      · intro now evaluating
        have same : p.readings s.reads = now := by simpa [WorkerPc.reading] using evaluating
        subst same
        simp [sampleTime]
      · intro now length round pc
        simp at pc
  | asked pc flag =>
      refine ⟨latency, unmarked, ?_, ?_,
        metered.handed⟩
      · intro now evaluating
        apply metered.computed now
        rw [pc]
        simpa [WorkerPc.reading] using evaluating
      · intro now length round pc
        simp at pc
  | rejected pc failed =>
      rw [storeConsolidated_threw failed]
      exact metered.idle rfl (by simpa using latency) (by simpa using unmarked)
        (by simp [WorkerPc.reading])
  | @consolidated now length u pc written =>
      have evaluating : (s.workers i).pc.reading = some now := by rw [pc]; rfl
      have computed := metered.computed now evaluating
      rw [storeConsolidated_returned written]
      refine ⟨by simpa using latency, by simpa using unmarked, ?_, ?_, metered.handed⟩
      · intro later reading
        have same : now = later := by simpa [WorkerPc.reading] using reading
        subst same
        simpa [sampleTime] using computed
      · intro later length round _
        obtain ⟨_, k, _, rfl, l, earlier, start⟩ := dated.reading now evaluating
        have elapsed : 0 < sampleTime (p.readings k) (s.threads i) := by
          have before := clock earlier
          rw [sampleTime, ← start, ullSub_of_le _ _ before.le]
          omega
        simp only [State.goto_threads, State.setThread_threads, Function.update_self]
        intro close
        rw [unmarked, Bool.or_false] at close
        exact loadWithin_of_close latency elapsed computed close
  | @published now length round pc =>
      refine ⟨by simpa using Whole.zero, by simp, ?_, ?_, ?_⟩
      · intro later evaluating
        simp [WorkerPc.reading] at evaluating
      · intro later length round pc
        simp at pc
      · intro publication member
        simp only [State.goto_ledger, Ledger.publish_publications, Function.update_self,
          List.mem_append, List.mem_singleton] at member
        rcases member with earlier | rfl
        · exact metered.handed publication earlier
        · exact metered.copied now length round pc
  | _ =>
      exact metered.idle rfl (by simpa using latency) (by simpa using unmarked)
        (by simp [WorkerPc.reading])

theorem Metered.bystander (metered : Metered p s i) (others : Bystander i s t) :
    Metered p t i := by
  obtain ⟨worker, _, publications, total, asked, stored, thread, kept⟩ := others
  refine ⟨?_, ?_, ?_, ?_, ?_⟩
  · rw [thread]
    exact metered.latency
  · rw [thread]
    exact metered.unmarked
  · intro now evaluating
    rw [worker] at evaluating
    rw [thread]
    exact metered.computed now evaluating
  · intro now length round pc
    rw [worker] at pc
    rw [thread, kept (by rw [pc]; trivial)]
    exact metered.copied now length round pc
  · rw [publications]
    exact metered.handed

theorem Metered.initial (p : Params n) (i : Fin n) : Metered p (State.initial p) i where
  latency := .zero
  unmarked := rfl
  computed _ evaluating := by cases evaluating
  copied _ _ _ pc := by cases pc
  handed _ member := absurd member List.not_mem_nil

theorem reachable_metered (clock : StrictMono p.readings)
    (reachable : (machine p).system.Reachable s) : ∀ i, Metered p s i :=
  reachable_records (Metered p) (Metered.initial p)
    (fun _ _ i reached metered moves => metered.worker clock (reachable_dated reached i) moves)
    (fun _ _ _ metered others => metered.bystander others) reachable

/-! The fold over the threads. -/

/-- The load that has been summed up, over the threads that are counted as consistent. -/
structure Gathering.LoadSum (bound : ℚ) (g : Gathering) : Prop where
  counts : g.inconsistentSamples ≤ g.updatedSamples
  unmarked : g.sample.inconsistent = false
  load : LoadWithin (bound * ((g.updatedSamples - g.inconsistentSamples : ℕ) : ℚ)) g.sample

theorem Gathering.LoadSum.add {bound : ℚ} {g : Gathering} {sample : ApplicationSample}
    (sum : g.LoadSum bound) (within : sample.inconsistent = false → LoadWithin bound sample) :
    (g.add sample).LoadSum bound := by
  obtain ⟨counts, unmarked, total, summed, nonnegative, below⟩ := sum
  cases marked : sample.inconsistent with
  | true =>
      refine ⟨?_, unmarked, total, ?_, nonnegative, ?_⟩
      · simp only [Gathering.add, marked, ↓reduceIte]
        omega
      · simp only [Gathering.add, marked, ↓reduceIte, summed]
      · simpa only [Gathering.add, marked, ↓reduceIte, Nat.add_sub_add_right] using below
  | false =>
      obtain ⟨load, same, positive, bounded⟩ := within marked
      refine ⟨?_, unmarked, total + load, ?_, add_nonneg nonnegative positive, ?_⟩
      · simp only [Gathering.add, marked, Bool.false_eq_true, ↓reduceIte]
        omega
      · simp only [Gathering.add, marked, Bool.false_eq_true, ↓reduceIte, summed, same,
          Double.finite_add]
      · simp only [Gathering.add, marked, Bool.false_eq_true, ↓reduceIte,
          Nat.sub_add_comm counts, Nat.cast_add, Nat.cast_one, mul_add, mul_one]
        exact add_le_add below bounded

theorem Gathering.addAll_loadSum {bound : ℚ} {samples : List ApplicationSample}
    (within : ∀ sample ∈ samples, sample.inconsistent = false → LoadWithin bound sample) :
    (addAll samples).LoadSum bound := by
  induction samples using List.reverseRecOn with
  | nil => exact ⟨le_rfl, rfl, 0, rfl, le_rfl, by simp [addAll]⟩
  | append_singleton samples sample ih =>
      rw [addAll_snoc]
      refine (ih ?_).add (within sample (by simp))
      intro other member
      exact within other (List.mem_append_left _ member)

/-- Summed over the consistent threads and divided by their number, the load keeps their
common bound. -/
theorem respond_loadWithin {bound : ℚ} {aggregator : Option Aggregator} {marked : Bool}
    {samples : List ApplicationSample}
    (within : ∀ sample ∈ samples, sample.inconsistent = false → LoadWithin bound sample)
    (consistent : (respond aggregator marked samples).inconsistent = false) :
    LoadWithin bound (respond aggregator marked samples) := by
  obtain ⟨counts, _, total, summed, nonnegative, below⟩ := Gathering.addAll_loadSum within
  have same : (respond aggregator marked samples).inconsistent =
      ((Gathering.addAll samples).average marked).sample.inconsistent := rfl
  rw [same] at consistent
  have load : (respond aggregator marked samples).loadPercentage =
      ((Gathering.addAll samples).average marked).sample.loadPercentage := rfl
  rw [LoadWithin, load]
  unfold Gathering.average at consistent ⊢
  split at consistent
  · cases consistent
  · rename_i some
    rw [if_neg some]
    have less := lt_of_le_of_ne counts fun none => some (.inl none)
    have positive : (0 : ℚ) < ((Gathering.addAll samples).updatedSamples -
        (Gathering.addAll samples).inconsistentSamples : ℕ) :=
      Nat.cast_pos.mpr (Nat.sub_pos_of_lt less)
    refine ⟨_, ?_, div_nonneg nonnegative positive.le, (div_le_iff₀ positive).mpr below⟩
    simp only [summed, Double.natCast_def]
    exact Double.finite_div _ _ positive.ne'

/-- Whichever threads were inconsistent, a response that is not marked reports a load of at
most 100 percent and the tolerated gap. -/
theorem consistent_load_bounded (clock : StrictMono p.readings)
    (reachable : (machine p).system.Reachable s) :
    ∀ packet ∈ s.toMonitor.sent, packet.message.type = .sampleRes →
      packet.message.payload.toSample.inconsistent = false →
      LoadWithin (100 + p.configuration.consistencyThreshold) packet.message.payload.toSample := by
  intro packet member type consistent
  have owned := reachable_owned reachable
  have metered := reachable_metered clock reachable
  have response : packet ∈ s.ledger.responses.map Response.packet := by
    rw [← owned.sent]
    exact List.mem_filter.mpr ⟨member, by simp [type]⟩
  obtain ⟨r, inside, rfl⟩ := List.mem_map.mp response
  obtain ⟨k, found⟩ := List.mem_iff_getElem?.mp inside
  obtain ⟨publications, marked, handed, payload⟩ := (owned.complete found).samples
  have sample : r.packet.message.payload.toSample = respond p.aggregator marked
      ((List.finRange n).map fun j => (publications j).sample) := congrArg Payload.toSample payload
  rw [sample] at consistent ⊢
  refine respond_loadWithin ?_ consistent
  intro other found
  obtain ⟨j, _, rfl⟩ := List.mem_map.mp found
  exact (metered j).handed _ (List.mem_of_getElem? (handed j).1)

/-- The answer to the monitor's first request. -/
theorem consistent_load_bounded_twoCalls :
    StrictMono twoCalls.readings ∧
      ∃ s, (machine twoCalls).system.Reachable s ∧ ∃ packet ∈ s.toMonitor.sent,
        packet.message.type = .sampleRes ∧
        packet.message.payload.toSample.inconsistent = false ∧
        LoadWithin (100 + 5) packet.message.payload.toSample := by
  have strict : StrictMono twoCalls.readings := by
    intro k l less
    change 1000 * (k + 1) < 1000 * (l + 1)
    omega
  refine ⟨strict, ?_⟩
  have run : ((machine twoCalls).follow (oneRequest 0) (machine twoCalls).start).map
      (fun s => s.toMonitor.sent.getLast?.map fun packet =>
        (packet.message.type, packet.message.payload.toSample.inconsistent)) =
      some (some (.sampleRes, false)) := by
    decide +kernel
  obtain ⟨s, reachable, seen⟩ := Machine.reachable_of_observed run
  obtain ⟨packet, last, same⟩ := Option.map_eq_some_iff.mp seen
  obtain ⟨type, consistent⟩ := Prod.mk.inj same
  have member := List.mem_of_getLast? last
  exact ⟨s, reachable, packet, member, type, consistent,
    consistent_load_bounded strict reachable packet member type consistent⟩

end Riff
