import Mathlib.Data.Nat.Notation
import Mathlib.Logic.Relation

set_option autoImplicit false

namespace Transition

/-- A start state and a step relation. -/
structure System (σ : Type*) where
  start : σ
  Step : σ → σ → Prop

namespace System

variable {σ τ : Type*} (m : System σ) (n : System τ)

def Reaches : σ → σ → Prop := Relation.ReflTransGen m.Step

def Reachable (s : σ) : Prop := m.Reaches m.start s

variable {m n}

theorem Reachable.start : m.Reachable m.start := .refl

theorem Reachable.tail {s t : σ} (reachable : m.Reachable s) (step : m.Step s t) :
    m.Reachable t := Relation.ReflTransGen.tail reachable step

theorem Reachable.trans {s t : σ} (reachable : m.Reachable s) (later : m.Reaches s t) :
    m.Reachable t := Relation.ReflTransGen.trans reachable later

/-- The invariant rule from any state on. A step may use what is known of all
states reached so far. -/
theorem Reaches.invariant {s t : σ} (reaches : m.Reaches s t) (Inv : σ → Prop) (start : Inv s)
    (step : ∀ u v, m.Reaches s u → Inv u → m.Step u v → Inv v) : Inv t := by
  induction reaches with
  | refl => exact start
  | tail earlier last ih => exact step _ _ earlier ih last

theorem Reachable.invariant {s : σ} (reachable : m.Reachable s) (Inv : σ → Prop)
    (start : Inv m.start)
    (step : ∀ u v, m.Reachable u → Inv u → m.Step u v → Inv v) : Inv s :=
  Reaches.invariant reachable Inv start step

/-- Every step of the first system is matched by some steps of the second. -/
structure Simulation (m : System σ) (n : System τ) (R : σ → τ → Prop) : Prop where
  start : R m.start n.start
  step : ∀ s t u, m.Reachable s → n.Reachable u → R s u → m.Step s t → ∃ v, n.Reaches u v ∧ R t v

theorem Simulation.reachable {R : σ → τ → Prop} (simulation : Simulation m n R) {s : σ}
    (reachable : m.Reachable s) : ∃ u, n.Reachable u ∧ R s u := by
  induction reachable with
  | refl => exact ⟨n.start, .start, simulation.start⟩
  | tail earlier last ih =>
      obtain ⟨u, reached, related⟩ := ih
      obtain ⟨v, later, relatedLast⟩ := simulation.step _ _ u earlier reached related last
      exact ⟨v, reached.trans later, relatedLast⟩

/-- The special case of an abstraction function, whose steps match one to one or not at all. -/
theorem Simulation.of_abstraction {abs : σ → τ} (start : abs m.start = n.start)
    (step : ∀ s t, m.Reachable s → m.Step s t → abs t = abs s ∨ n.Step (abs s) (abs t)) :
    Simulation m n fun s u => abs s = u where
  start := start
  step s t u reachable _ related moved := by
    subst related
    rcases step s t reachable moved with same | moves
    · exact ⟨abs s, .refl, same⟩
    · exact ⟨abs t, .single moves, rfl⟩

theorem Simulation.abstraction_reaches {abs : σ → τ}
    (step : ∀ s t, m.Reachable s → m.Step s t → abs t = abs s ∨ n.Step (abs s) (abs t))
    {s t : σ} (reachable : m.Reachable s) (reaches : m.Reaches s t) :
    n.Reaches (abs s) (abs t) := by
  induction reaches with
  | refl => exact .refl
  | tail earlier last ih =>
      rcases step _ _ (reachable.trans earlier) last with same | moves
      · rw [same]
        exact ih
      · exact ih.tail moves

end System

/-- Parties that take turns in any order. Each has at most one move in a state. -/
structure Machine (π σ : Type*) where
  start : σ
  move : π → σ → Option σ

namespace Machine

variable {π σ : Type*} (m : Machine π σ)

def system : System σ where
  start := m.start
  Step s t := ∃ p, m.move p s = some t

def Stuck (s : σ) : Prop := ∀ p, m.move p s = none

/-- The state after the given turns, if each of them is possible. -/
def follow : List π → σ → Option σ
  | [], s => some s
  | p :: turns, s =>
      match m.move p s with
      | some t => follow turns t
      | none => none

variable {m}

theorem reaches_of_follow {turns : List π} {s t : σ} (followed : m.follow turns s = some t) :
    m.system.Reaches s t := by
  induction turns generalizing s with
  | nil =>
      cases followed
      exact .refl
  | cons p turns ih =>
      simp only [follow] at followed
      split at followed
      · rename_i u moved
        exact .head ⟨p, moved⟩ (ih followed)
      · cases followed

/-- The invariant rule for a run, whose turns may be restricted. -/
theorem follow_invariant {turns : List π} {s t : σ} (followed : m.follow turns s = some t)
    (Inv : σ → Prop) (start : Inv s)
    (step : ∀ p ∈ turns, ∀ u v, Inv u → m.move p u = some v → Inv v) : Inv t := by
  induction turns generalizing s with
  | nil =>
      cases followed
      exact start
  | cons p turns ih =>
      simp only [follow] at followed
      split at followed
      · rename_i u moved
        exact ih followed (step p List.mem_cons_self s u start moved) fun q member =>
          step q (List.mem_cons_of_mem p member)
      · cases followed

/-- A run is no longer than a rank that every turn lowers. -/
theorem follow_length {turns : List π} {s t : σ} (followed : m.follow turns s = some t)
    (Inv : σ → Prop) (rank : σ → ℕ) (start : Inv s)
    (step : ∀ p u v, Inv u → m.move p u = some v → Inv v ∧ rank v < rank u) :
    Inv t ∧ turns.length + rank t ≤ rank s := by
  induction turns generalizing s with
  | nil =>
      cases followed
      exact ⟨start, Nat.le_of_eq (Nat.zero_add _)⟩
  | cons p turns ih =>
      simp only [follow] at followed
      split at followed
      · rename_i u moved
        obtain ⟨inv, lower⟩ := step p s u start moved
        obtain ⟨last, within⟩ := ih followed inv
        refine ⟨last, ?_⟩
        rw [List.length_cons]
        omega
      · cases followed

theorem follow_append (turns later : List π) (s : σ) :
    m.follow (turns ++ later) s = (m.follow turns s).bind (m.follow later) := by
  induction turns generalizing s with
  | nil => rfl
  | cons p turns ih =>
      rw [List.cons_append, follow, follow]
      cases m.move p s with
      | none => rfl
      | some t => exact ih t

theorem reachable_of_follow {turns : List π} {s : σ} (followed : m.follow turns m.start = some s) :
    m.system.Reachable s := reaches_of_follow followed

/-- What is observed at the end of a run is observed in a reachable state. -/
theorem reachable_of_observed {β : Type*} {turns : List π} {observe : σ → β} {seen : β}
    (observed : (m.follow turns m.start).map observe = some seen) :
    ∃ s, m.system.Reachable s ∧ observe s = seen := by
  obtain ⟨s, followed, same⟩ := Option.map_eq_some_iff.mp observed
  exact ⟨s, reachable_of_follow followed, same⟩

end Machine

end Transition
