import Riff.Ownership

set_option autoImplicit false

namespace Riff

open Exact Transition

variable {n : ℕ}

/-- The same program with `adjustThroughput` set or not. -/
def Params.withAdjust (p : Params n) (adjust : Bool) : Params n :=
  { p with configuration := { p.configuration with adjustThroughput := adjust } }

@[simps] def State.withSupport (pc : SupportPc n) (s : State n) : State n := { s with support := pc }

/-- Only the support thread looks at the flag, and only the support thread and
`terminate()` look at where the support thread stands. -/
theorem stepWorker_withSupport (p : Params n) (adjust : Bool) (i : Fin n) (s : State n)
    (pc : SupportPc n) :
    stepWorker (p.withAdjust adjust) i (s.withSupport pc) =
      (stepWorker p i s).map (State.withSupport pc) := by
  unfold stepWorker
  simp only [State.withSupport_workers]
  cases (s.workers i).pc with
  | idle =>
      cases (s.workers i).rest with
      | nil => rfl
      | cons op rest =>
          cases op with
          | beginCall =>
              by_cases far : 1 < (advance (s.threads i)).currentSample
              · simp [enter, far, -advance_currentSample]
                rfl
              · simp [enter, far, -advance_currentSample]
                rfl
          | _ => rfl
  | locking =>
      simp only [State.withSupport_mutex]
      cases s.mutex <;> rfl
  | announcing =>
      simp only [State.withSupport_attempts]
      change (if p.startSends s.attempts then _ else _) = _
      split <;> rfl
  | timing =>
      have same : ∀ now t, newSamplingLength (p.withAdjust adjust).build
          (p.withAdjust adjust).configuration now t =
            newSamplingLength p.build p.configuration now t := fun _ _ => rfl
      have readings : (p.withAdjust adjust).readings = p.readings := rfl
      simp only [State.withSupport_threads, State.withSupport_reads, readings, same]
      by_cases evaluates : Evaluates (stamp (p.readings s.reads) (s.threads i))
      · simp only [evaluates, ↓reduceIte]
        cases newSamplingLength p.build p.configuration (p.readings s.reads)
          (measure (p.readings s.reads) (stamp (p.readings s.reads) (s.threads i))) <;> rfl
      · simp only [evaluates, ↓reduceIte]
        rfl
  | asking now length =>
      simp only [State.withSupport_threads]
      split <;> rfl
  | storing now length =>
      have same : ∀ t, storeConsolidated (p.withAdjust adjust).build
          (p.withAdjust adjust).configuration now t =
            storeConsolidated p.build p.configuration now t := fun _ => rfl
      simp only [State.withSupport_threads, same]
      cases storeConsolidated p.build p.configuration now (s.threads i) <;> rfl
  | _ => rfl

theorem stepMonitor_withSupport (s : State n) (pc : SupportPc n) :
    stepMonitor (s.withSupport pc) = (stepMonitor s).map (State.withSupport pc) := by
  unfold stepMonitor
  simp only [State.withSupport_monitor, State.withSupport_toMonitor]
  cases s.monitor.pc with
  | waiting => cases s.toMonitor.recv <;> rfl
  | receiving =>
      cases s.toMonitor.recv with
      | none => rfl
      | some taken =>
          obtain ⟨packet, channel⟩ := taken
          cases type : packet.message.type <;> simp only [type] <;> rfl
  | _ => rfl

theorem stepMain_withSupport {p : Params n} (adjust : Bool) {s t : State n} {pc : SupportPc n}
    (returned : s.support = .returned → pc = .returned) (moved : stepMain p s = some t) :
    stepMain (p.withAdjust adjust) (s.withSupport pc) = some (t.withSupport pc) := by
  unfold stepMain
  cases stepMain_moves moved with
  | summarises main allowed =>
      have granted : (p.withAdjust adjust).orderly = true → ∀ i, (s.workers i).finished = true :=
        allowed
      simp only [State.withSupport_main, State.withSupport_workers, main]
      exact if_pos granted
  | stops main =>
      simp only [State.withSupport_main, main]
      rfl
  | joins main back =>
      simp only [State.withSupport_main, main, State.withSupport_support, returned back]
      rfl
  | sends main =>
      simp only [State.withSupport_main, main]
      rfl
  | receives main taken =>
      simp only [State.withSupport_main, main, State.withSupport_toApplication, taken]
      rfl

theorem stepSupport_withAdjust (p : Params n) (adjust : Bool) {s : State n}
    (notClosing : ∀ g, s.support ≠ .closing g) :
    stepSupport (p.withAdjust adjust) s = stepSupport p s := by
  unfold stepSupport
  cases pc : s.support with
  | closing g => exact absurd pc (notClosing g)
  | _ => rfl

/-- Where the support thread may stand with the flag set differently: in the same
place, except for the test of the stop flag that the correction makes, and with
different sums only if the stop flag is set, so that nothing will be sent. -/
inductive Alike (stop : Bool) : SupportPc n → SupportPc n → Prop
  | same (pc : SupportPc n) : Alike stop pc pc
  | ahead {g : Gathering} (some : g.updatedSamples ≠ 0) : Alike stop (.adjusting g) (.closing g)
  | averaging (stopped : stop = true) (g h : Gathering) : Alike stop (.averaging g) (.averaging h)
  | labelling (stopped : stop = true) (g h : Gathering) : Alike stop (.labelling g) (.labelling h)
  | deciding (stopped : stop = true) (m l : Message) : Alike stop (.deciding m) (.deciding l)

def Agree (s t : State n) : Prop :=
  ∃ pc, Alike s.supportStop s.support pc ∧ t = s.withSupport pc

theorem Alike.returned {stop : Bool} {first second : SupportPc n} (alike : Alike stop first second)
    (returned : first = .returned) : second = .returned := by
  cases alike with
  | same => exact returned
  | _ => cases returned

theorem Alike.mono {stop later : Bool} {first second : SupportPc n}
    (stays : stop = true → later = true) (alike : Alike stop first second) :
    Alike later first second := by
  cases alike with
  | same => exact .same _
  | ahead some => exact .ahead some
  | averaging stopped => exact .averaging (stays stopped) _ _
  | labelling stopped => exact .labelling (stays stopped) _ _
  | deciding stopped => exact .deciding (stays stopped) _ _

theorem Agree.refl (s : State n) : Agree s s := ⟨s.support, .same _, rfl⟩

/-- After a stop, the averages are reached whatever the flag says. -/
theorem closing_reaches_averaging (p : Params n) {s : State n} {g : Gathering}
    (pc : s.support = .closing g) (some : g.updatedSamples ≠ 0) (stop : s.supportStop = true) :
    ∃ h, (machine p).system.Reaches s (s.withSupport (.averaging h)) := by
  by_cases misses : p.configuration.adjustThroughput ∧ g.updatedSamples ≠ n
  · have first : stepSupport p s = Option.some (s.withSupport (.adjusting g)) := by
      simp only [stepSupport, pc, some, misses, ne_eq, not_false_eq_true, and_self, ↓reduceIte]
      rfl
    have second : stepSupport p (s.withSupport (.adjusting g)) =
        Option.some (s.withSupport (.averaging (g.adjust n))) := by
      simp only [stepSupport, State.withSupport_support, State.withSupport_supportStop, stop,
        ↓reduceIte]
      rfl
    exact ⟨_, .tail (.single ⟨.support, first⟩) ⟨.support, second⟩⟩
  · have only : stepSupport p s = Option.some (s.withSupport (.averaging g)) := by
      simp only [stepSupport, pc, some, misses, ne_eq, not_false_eq_true, ↓reduceIte]
      rfl
    exact ⟨g, .single ⟨.support, only⟩⟩

/-- The support thread closes the round: the flags agree, or the stop flag is set. -/
theorem Agree.closing {p : Params n} (adjust : Bool) {s t : State n} {k : ℕ} {g : Gathering}
    (pc : s.support = .closing g) (folds : Folds s k n g) (moves : SupportMoves p s t) :
    ∃ v, (machine (p.withAdjust adjust)).system.Reaches s v ∧ Agree t v := by
  cases moves with
  | misses place some adjusts missing =>
      cases pc.symm.trans place
      refine ⟨s, .refl, .closing g, .ahead some, ?_⟩
      rw [State.withSupport, ← pc]
      rfl
  | closes place some whole =>
      cases pc.symm.trans place
      cases stop : s.supportStop with
      | true =>
          obtain ⟨sum, reaches⟩ := closing_reaches_averaging (p.withAdjust adjust) pc some stop
          exact ⟨_, reaches, .averaging sum, .averaging stop g sum, rfl⟩
      | false =>
          have all := folds.updatedSamples stop
          rw [all] at some
          have only : stepSupport (p.withAdjust adjust) s =
              Option.some (s.supportTo (.averaging g)) := by
            simp only [stepSupport, pc, some, all, ne_eq, not_true_eq_false, and_false,
              ↓reduceIte, not_false_eq_true]
          exact ⟨_, .single ⟨.support, only⟩, .refl _⟩
  | doubts place none =>
      cases pc.symm.trans place
      have only : stepSupport (p.withAdjust adjust) s =
          Option.some (s.supportTo (.doubting g)) := by
        simp only [stepSupport, pc, none, ne_eq, not_true_eq_false, ↓reduceIte]
      exact ⟨_, .single ⟨.support, only⟩, .refl _⟩
  | _ => cases pc.symm.trans ‹s.support = _›

/-- The support thread's step is matched. -/
theorem Agree.support {p : Params n} (adjust : Bool) {s t u : State n}
    (reachable : (machine p).system.Reachable s) (agree : Agree s u)
    (moved : stepSupport p s = some t) :
    ∃ v, (machine (p.withAdjust adjust)).system.Reaches u v ∧ Agree t v := by
  have standing := (reachable_owned reachable).standing
  have moves := stepSupport_moves moved
  obtain ⟨pc, alike, rfl⟩ := agree
  generalize place : s.support = here at alike
  cases alike with
  | same =>
      subst place
      change ∃ v, (machine (p.withAdjust adjust)).system.Reaches s v ∧ Agree t v
      by_cases closing : ∃ g, s.support = .closing g
      · obtain ⟨g, pc⟩ := closing
        rw [pc] at standing
        exact Agree.closing adjust pc standing.2 moves
      · have same := stepSupport_withAdjust p adjust fun g pc => closing ⟨g, pc⟩
        exact ⟨t, .single ⟨.support, same.trans moved⟩, .refl t⟩
  | @ahead g some =>
      cases moves with
      | @adjusts h pc stop =>
          obtain ⟨sum, reaches⟩ := closing_reaches_averaging (p.withAdjust adjust)
            (s := s.withSupport (.closing g)) rfl some stop
          exact ⟨_, reaches, .averaging sum, .averaging stop (h.adjust n) sum, rfl⟩
      | adjustFails pc go =>
          rw [pc] at standing
          exact absurd (standing.2.1.updatedSamples go) standing.2.2
      | _ => cases place.symm.trans ‹s.support = _›
  | averaging stopped g h =>
      cases moves with
      | @averages l pc =>
          exact ⟨s.withSupport (.labelling (h.average s.inconsistentSample)),
            .single ⟨.support, rfl⟩, _, .labelling stopped _ _, rfl⟩
      | _ => cases place.symm.trans ‹s.support = _›
  | labelling stopped g h =>
      cases moves with
      | @labels l pc =>
          exact ⟨s.withSupport (.deciding (responseMessage p s h)), .single ⟨.support, rfl⟩, _,
            .deciding stopped _ _, rfl⟩
      | _ => cases place.symm.trans ‹s.support = _›
  | deciding stopped m l =>
      cases moves with
      | drops pc stop =>
          have same : stepSupport (p.withAdjust adjust) (s.withSupport (.deciding l)) =
              some (s.supportTo .testing) := by
            simp only [stepSupport, State.withSupport_support, State.withSupport_supportStop, stop,
              ↓reduceIte]
            rfl
          exact ⟨_, .single ⟨.support, same⟩, .refl _⟩
      | decides pc go =>
          rw [stopped] at go
          cases go
      | _ => cases place.symm.trans ‹s.support = _›

theorem Agree.mono {s t : State n} {pc : SupportPc n} (support : t.support = s.support)
    (stop : s.supportStop = true → t.supportStop = true)
    (alike : Alike s.supportStop s.support pc) : Agree t (t.withSupport pc) :=
  ⟨pc, support ▸ alike.mono stop, rfl⟩

theorem Agree.step {p : Params n} (adjust : Bool) {s t u : State n}
    (reachable : (machine p).system.Reachable s) (agree : Agree s u)
    (step : (machine p).system.Step s t) :
    ∃ v, (machine (p.withAdjust adjust)).system.Reaches u v ∧ Agree t v := by
  obtain ⟨party, moved⟩ := step
  cases party with
  | support => exact agree.support adjust reachable moved
  | worker i =>
      obtain ⟨pc, alike, rfl⟩ := agree
      have frame := (stepWorker_moves moved).frame
      have matched : stepWorker (p.withAdjust adjust) i (s.withSupport pc) =
          some (t.withSupport pc) := by
        change stepWorker p i s = some t at moved
        rw [stepWorker_withSupport, moved, Option.map_some]
      exact ⟨_, .single ⟨.worker i, matched⟩,
        .mono frame.support (fun stop => frame.supportStop.trans stop) alike⟩
  | main =>
      obtain ⟨pc, alike, rfl⟩ := agree
      have matched := stepMain_withSupport adjust (fun back => alike.returned back) moved
      refine ⟨_, .single ⟨.main, matched⟩, ?_⟩
      cases stepMain_moves moved with
      | stops main => exact Agree.mono (s := s) rfl (fun _ => rfl) alike
      | _ => exact Agree.mono (s := s) rfl id alike
  | monitor =>
      obtain ⟨pc, alike, rfl⟩ := agree
      have matched : stepMonitor (s.withSupport pc) = some (t.withSupport pc) := by
        change stepMonitor s = some t at moved
        rw [stepMonitor_withSupport, moved, Option.map_some]
      refine ⟨_, .single ⟨.monitor, matched⟩, ?_⟩
      cases stepMonitor_moves moved <;> exact .mono rfl id alike

/-- Whatever the application does with one value of the flag, it can do with the other,
as seen by the monitor. -/
theorem agree_simulation (p : Params n) (adjust : Bool) :
    System.Simulation (machine p).system (machine (p.withAdjust adjust)).system Agree where
  start := .refl _
  step _ _ _ reachable _ agree step := agree.step adjust reachable step

/-- What the application may have sent to the monitor at some point. -/
def sentBy (p : Params n) : Set (List Packet) :=
  { sent | ∃ s, (machine p).system.Reachable s ∧ s.toMonitor.sent = sent }

theorem sentBy_subset (p : Params n) (adjust : Bool) :
    sentBy p ⊆ sentBy (p.withAdjust adjust) := by
  rintro sent ⟨s, reachable, rfl⟩
  obtain ⟨u, reached, pc, _, rfl⟩ := (agree_simulation p adjust).reachable reachable
  exact ⟨_, reached, rfl⟩

theorem sentBy_withAdjust (p : Params n) (adjust : Bool) :
    sentBy (p.withAdjust adjust) = sentBy p := by
  refine Set.Subset.antisymm ?_ (sentBy_subset p adjust)
  have back : (p.withAdjust adjust).withAdjust p.configuration.adjustThroughput = p := rfl
  have subset := sentBy_subset (p.withAdjust adjust) p.configuration.adjustThroughput
  rwa [back] at subset

end Riff
