import Riff.Application
import Riff.CorrectUse
import Mathlib.Data.Fintype.Lattice

set_option autoImplicit false

namespace Riff

open Exact

def Call.beginTime : Call → Option ℕ
  | .beginAt now => some now
  | _ => none

def Call.endTime : Call → Option ℕ
  | .endAt now _ => some now
  | _ => none

def beginTimes (calls : List Call) : List ℕ := calls.filterMap Call.beginTime

def endTimes (calls : List Call) : List ℕ := calls.filterMap Call.endTime

/-- The time of an `end()` made with `currentSample == 0`. -/
def recordedEnd (t : ThreadData) : Call → Option ℕ
  | .endAt now _ => if t.currentSample = 0 then some now else none
  | _ => none

/-- The times of the `end()` calls that find `currentSample == 0`. -/
def recordedEnds (build : Build) (configuration : ApplicationConfiguration) :
    List Call → ThreadData → List ℕ
  | [], _ => []
  | c :: calls, t =>
      (recordedEnd t c).toList ++
        recordedEnds build configuration calls (call build configuration c t).record

variable {build : Build} {configuration : ApplicationConfiguration}

theorem recordedEnds_snoc (past : List Call) (c : Call) (t : ThreadData) :
    recordedEnds build configuration (past ++ [c]) t =
      recordedEnds build configuration past t ++
        (recordedEnd (runCaught build configuration past t) c).toList := by
  induction past generalizing t with
  | nil => simp [recordedEnds, runCaught]
  | cons d past ih => simp [recordedEnds, runCaught, ih]

/-- Where `begin()` leaves the fields that only its first call sets. -/
theorem beginCall_firstBegin (now : ℕ) (t : ThreadData) :
    ∃ u, (beginCall build configuration now t).record = u ∧ u.lastEnd = t.lastEnd ∧
      u.firstBegin = if t.firstBegin = 0 ∧ (advance t).currentSample ≤ 1 then now
        else t.firstBegin := by
  refine ⟨_, rfl, ?_⟩
  have cases := beginCall_begins build configuration now t
  generalize beginCall build configuration now t = outcome at cases ⊢
  cases cases with
  | skipped far => simp [Nat.not_le.mpr far, -advance_currentSample]
  | quiet near idle => simp [near, -advance_currentSample]
  | noTasks near evaluates failed => simp [near, -advance_currentSample]
  | kept near evaluates chosen unasked => simp [near, -advance_currentSample]
  | rejected near evaluates chosen asked failed =>
      simp [storeConsolidated_threw failed, near, -advance_currentSample]
  | consolidated near evaluates chosen asked stored =>
      have written := storeConsolidated_returned stored
      simp [written, near, -advance_currentSample]

@[simp] theorem beginTimes_snoc (past : List Call) (c : Call) :
    beginTimes (past ++ [c]) = beginTimes past ++ c.beginTime.toList := by
  cases c <;> simp [beginTimes, Call.beginTime]

@[simp] theorem endTimes_snoc (past : List Call) (c : Call) :
    endTimes (past ++ [c]) = endTimes past ++ c.endTime.toList := by
  cases c <;> simp [endTimes, Call.endTime]

theorem mem_endTimes_of_recorded {calls : List Call} {t : ThreadData} {e : ℕ}
    (member : e ∈ recordedEnds build configuration calls t) : e ∈ endTimes calls := by
  induction calls generalizing t with
  | nil => cases member
  | cons c calls ih =>
      rcases List.mem_append.mp member with first | later
      · cases c with
        | endAt now weight =>
            have same : now = e := by
              by_cases recorded : t.currentSample = 0 <;> simp_all [recordedEnd]
            exact List.mem_filterMap.mpr ⟨_, List.mem_cons_self, congrArg some same⟩
        | _ => cases first
      · obtain ⟨d, inside, time⟩ := List.mem_filterMap.mp (ih later)
        exact List.mem_filterMap.mpr ⟨d, List.mem_cons_of_mem c inside, time⟩

/-- `firstBegin` is the earliest `begin()`, or nothing has happened yet. -/
structure FirstBegun (p : Phase) (last : ℕ) (past : List Call) (t : ThreadData) : Prop where
  untouched : t.firstBegin = 0 →
    p = .outside ∧ beginTimes past = [] ∧ endTimes past = [] ∧ t.currentSample = 0
  begun : t.firstBegin ≠ 0 →
    t.firstBegin ∈ beginTimes past ∧ ∀ b ∈ beginTimes past, t.firstBegin ≤ b
  bounded : t.firstBegin ≤ last

theorem FirstBegun.beginAt {last now : ℕ} {past : List Call} {t : ThreadData}
    (tick : Ticks last now) (inv : FirstBegun .outside last past t) :
    FirstBegun .inside now (past ++ [.beginAt now])
      (beginCall build configuration now t).record := by
  obtain ⟨untouched, begun, bounded⟩ := inv
  obtain ⟨ordered, positive⟩ := tick
  obtain ⟨u, left, _, firstBegin⟩ :=
    @beginCall_firstBegin build configuration now t
  rw [left]
  by_cases fresh : t.firstBegin = 0
  · obtain ⟨_, noBegin, _, first⟩ := untouched fresh
    have near : (advance t).currentSample ≤ 1 := by
      rw [advance_currentSample, first]
      split_ifs <;> omega
    have now_first : u.firstBegin = now := by rw [firstBegin, if_pos ⟨fresh, near⟩]
    refine ⟨?_, ?_, ?_⟩
    · intro unset
      omega
    · intro _
      simp [noBegin, now_first, Call.beginTime]
    · exact Nat.le_of_eq now_first
  · obtain ⟨member, least⟩ := begun fresh
    have kept : u.firstBegin = t.firstBegin := by
      rw [firstBegin, if_neg (fun both => fresh both.1)]
    refine ⟨fun unset => absurd (kept ▸ unset) fresh, ?_, ?_⟩
    · intro _
      rw [kept, beginTimes_snoc]
      refine ⟨List.mem_append_left _ member, ?_⟩
      intro b inside
      rcases List.mem_append.mp inside with earlier | latest
      · exact least b earlier
      · cases List.mem_singleton.mp latest
        exact Nat.le_trans bounded ordered
    · rw [kept]
      exact Nat.le_trans bounded ordered

theorem FirstBegun.endAt {last now weight : ℕ} {past : List Call} {t : ThreadData}
    (tick : Ticks last now) (inv : FirstBegun .inside last past t) :
    FirstBegun .outside now (past ++ [.endAt now weight]) (endCall now weight t) := by
  obtain ⟨untouched, begun, bounded⟩ := inv
  have same : (endCall now weight t).firstBegin = t.firstBegin := by
    unfold endCall
    split <;> rfl
  refine ⟨?_, ?_, ?_⟩
  · intro unset
    cases (untouched (same ▸ unset)).1
  · intro started
    rw [same] at started ⊢
    simpa [Call.beginTime] using begun started
  · rw [same]
    exact Nat.le_trans bounded tick.1

/-- `lastEnd` is the latest recorded `end()`; until one is recorded, the thread is
at most inside its first iteration. -/
structure LastEnded (build : Build) (configuration : ApplicationConfiguration)
    (p : Phase) (last : ℕ) (past : List Call) (t : ThreadData) : Prop where
  latest : ∀ e ∈ recordedEnds build configuration past (ThreadData.initial build), e ≤ t.lastEnd
  recorded : t.lastEnd ∈ recordedEnds build configuration past (ThreadData.initial build) ∧
      t.firstBegin ≤ t.lastEnd ∨
    endTimes past = [] ∧ t.samplingLength = 1 ∧ t.currentSample = 0 ∧
      (p = .outside → t.computeStart = 0)
  bounded : t.lastEnd ≤ last

theorem LastEnded.beginAt {last now : ℕ} {past : List Call} {t : ThreadData}
    (tick : Ticks last now) (first : FirstBegun .outside last past t)
    (inv : LastEnded build configuration .outside last past t) :
    LastEnded build configuration .inside now (past ++ [.beginAt now])
      (beginCall build configuration now t).record := by
  obtain ⟨latest, recorded, bounded⟩ := inv
  obtain ⟨u, left, lastEnd, firstBegin⟩ := @beginCall_firstBegin build configuration now t
  have same : recordedEnds build configuration (past ++ [.beginAt now])
      (ThreadData.initial build) =
      recordedEnds build configuration past (ThreadData.initial build) := by
    rw [recordedEnds_snoc]
    exact List.append_nil _
  rw [left]
  refine ⟨?_, ?_, ?_⟩
  · rw [same, lastEnd]
    exact latest
  · rcases recorded with ⟨member, ordered⟩ | ⟨noEnd, length, counter, unset⟩
    · have started : t.firstBegin ≠ 0 := by
        intro fresh
        have none := mem_endTimes_of_recorded member
        rw [(first.untouched fresh).2.2.1] at none
        cases none
      refine Or.inl ⟨by rw [same, lastEnd]; exact member, ?_⟩
      rw [lastEnd, firstBegin, if_neg (fun both => started both.1)]
      exact ordered
    · have quiet : u = restart now (stamp now (advance t)) := by
        rw [← left, beginCall_first now (unset rfl) (by simp [length, counter])]
        rfl
      refine Or.inr ⟨by simpa [Call.endTime] using noEnd, ?_, ?_, fun outside => by cases outside⟩
      · simpa [quiet] using length
      · simp [quiet, length]
  · rw [lastEnd]
    exact Nat.le_trans bounded tick.1

theorem LastEnded.endAt {last now weight : ℕ} {past : List Call} {t : ThreadData}
    (reached : runCaught build configuration past (ThreadData.initial build) = t) (tick : Ticks last now) (first : FirstBegun .inside last past t)
    (inv : LastEnded build configuration .inside last past t) :
    LastEnded build configuration .outside now (past ++ [.endAt now weight])
      (endCall now weight t) := by
  obtain ⟨latest, recorded, bounded⟩ := inv
  have snoc := @recordedEnds_snoc build configuration past (.endAt now weight)
    (ThreadData.initial build)
  rw [reached] at snoc
  by_cases recording : t.currentSample = 0
  · simp only [recordedEnd, recording, ↓reduceIte, Option.toList_some] at snoc
    rw [endCall_recorded recording]
    refine ⟨?_, Or.inl ⟨?_, ?_⟩, Nat.le_refl now⟩
    · intro e member
      rw [snoc] at member
      rcases List.mem_append.mp member with earlier | this
      · exact Nat.le_trans (latest e earlier) (Nat.le_trans bounded tick.1)
      · exact Nat.le_of_eq (List.mem_singleton.mp this)
    · rw [snoc]
      exact List.mem_append_right _ (List.mem_singleton.mpr rfl)
    · exact Nat.le_trans first.bounded tick.1
  · simp only [recordedEnd, recording, ↓reduceIte, Option.toList_none, List.append_nil] at snoc
    rw [endCall_skipped recording]
    refine ⟨?_, ?_, Nat.le_trans bounded tick.1⟩
    · rw [snoc]
      exact latest
    · rw [snoc]
      rcases recorded with kept | ⟨_, _, counter, _⟩
      · exact Or.inl kept
      · exact absurd counter recording

theorem FirstBegun.neutral {c : Call} {p : Phase} {last : ℕ} {past : List Call}
    {t u : ThreadData} (step : Neutral build configuration c t u)
    (inv : FirstBegun p last past t) : FirstBegun p last (past ++ [c]) u := by
  obtain ⟨quiet, _, fields, stored, asked, rfl⟩ := step
  obtain ⟨untouched, begun, bounded⟩ := inv
  have noBegin : c.beginTime = none := by cases c <;> first | rfl | cases quiet
  have noEnd : c.endTime = none := by cases c <;> first | rfl | cases quiet
  refine ⟨?_, ?_, bounded⟩
  · simpa [noBegin, noEnd] using untouched
  · simpa [noBegin] using begun

theorem LastEnded.neutral {c : Call} {p : Phase} {last : ℕ} {past : List Call}
    {t u : ThreadData}
    (reached : runCaught build configuration past (ThreadData.initial build) = t)
    (step : Neutral build configuration c t u)
    (inv : LastEnded build configuration p last past t) :
    LastEnded build configuration p last (past ++ [c]) u := by
  obtain ⟨quiet, _, fields, stored, asked, rfl⟩ := step
  obtain ⟨latest, recorded, bounded⟩ := inv
  have noEnd : c.endTime = none := by cases c <;> first | rfl | cases quiet
  have unrecorded : recordedEnd t c = none := by cases c <;> first | rfl | cases quiet
  have snoc := @recordedEnds_snoc build configuration past c (ThreadData.initial build)
  rw [reached, unrecorded, Option.toList_none, List.append_nil] at snoc
  refine ⟨?_, ?_, bounded⟩
  · rw [snoc]
    exact latest
  · simpa [snoc, noEnd] using recorded

theorem LastEnded.initial (configuration : ApplicationConfiguration)
    (unsampled : build.riffDefaultSamplingLength = 1) :
    LastEnded build configuration .outside 0 [] (ThreadData.initial build) where
  latest _ member := by cases member
  recorded := Or.inr ⟨rfl, unsampled, rfl, fun _ => rfl⟩
  bounded := Nat.le_refl 0

def latest (readings : List ℕ) : ℕ := readings.max?.getD 0

theorem terminateTotals_firstBegin (threadData : List ThreadData) :
    (terminateTotals threadData).firstBegin =
      (threadData.map ThreadData.firstBegin).foldl min (2 ^ 64 - 1) := by
  rw [List.foldl_map]
  refine (List.foldl_hom Totals.firstBegin ?_).symm
  intro totals td
  change min totals.firstBegin td.firstBegin = if td.firstBegin < totals.firstBegin then _ else _
  rw [Nat.min_def]
  split_ifs <;> first | rfl | omega

theorem terminateTotals_lastEnd (threadData : List ThreadData) :
    (terminateTotals threadData).lastEnd =
      (threadData.map ThreadData.lastEnd).foldl max 0 := by
  rw [List.foldl_map]
  refine (List.foldl_hom Totals.lastEnd ?_).symm
  intro totals td
  change max totals.lastEnd td.lastEnd = if td.lastEnd > totals.lastEnd then _ else _
  rw [Nat.max_def]
  split_ifs <;> first | rfl | omega

end Riff
