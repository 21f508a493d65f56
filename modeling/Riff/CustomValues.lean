import Riff.Application

set_option autoImplicit false

namespace Riff

open Exact

/-! `storeCustomValue` as the application offers it. -/

/-- What it throws, the checked access to the thread's record included. -/
inductive StoreError where
  | runtime (error : RuntimeError)
  | outOfRange
  deriving DecidableEq

inductive StoreOutcome (n : ℕ) where
  | returned (threads : Fin n → ThreadData)
  | threw (error : StoreError) (threads : Fin n → ThreadData)

def StoreOutcome.threads {n : ℕ} : StoreOutcome n → Fin n → ThreadData
  | .returned threads => threads
  | .threw _ threads => threads

/-- The first test lets the number of threads itself pass. -/
def Application.storeCustomValue {n : ℕ} (index : ℕ) (value : Double) (threadId : ℕ)
    (threads : Fin n → ThreadData) : StoreOutcome n :=
  if threadId > n then
    .threw (.runtime .wrongThreadId) threads
  else if inside : index < riffMaxCustomFields then
    if found : threadId < n then
      let tData := threads ⟨threadId, found⟩
      .returned (Function.update threads ⟨threadId, found⟩ { tData with sample := { tData.sample with
        customFields := Function.update tData.sample.customFields ⟨index, inside⟩ value } })
    else
      .threw .outOfRange threads
  else
    .threw (.runtime .customIndexOutOfBound) threads

variable {n : ℕ} {build : Build} {configuration : ApplicationConfiguration}

/-- A thread that stores for itself makes the call of its history. -/
theorem Application.storeCustomValue_threads (index : ℕ) (value : Double) (i : Fin n)
    (threads : Fin n → ThreadData) :
    (Application.storeCustomValue index value i threads).threads =
      threadDataAfter build configuration [(i, .storeCustomValue index value)] threads := by
  have accepted : ¬ i.val > n := Nat.not_lt.mpr i.isLt.le
  simp only [threadDataAfter, call, Application.storeCustomValue, Riff.storeCustomValue, accepted,
    ↓reduceIte, i.isLt, ↓reduceDIte]
  by_cases inside : index < riffMaxCustomFields
  · simp only [inside, ↓reduceDIte]
    rfl
  · simp only [inside, ↓reduceDIte, record_threw, Function.update_eq_self]
    rfl

/-- What one call does: if it succeeds, it writes one field of one thread's sample. -/
structure StoresOnce (index : ℕ) (value : Double) (threadId : ℕ) (threads : Fin n → ThreadData) :
    Prop where
  fails : (∃ error after, Application.storeCustomValue index value threadId threads =
    .threw error after) ↔ n ≤ threadId ∨ riffMaxCustomFields ≤ index
  unchanged : ∀ error after, Application.storeCustomValue index value threadId threads =
    .threw error after → after = threads
  writes : ∀ after, Application.storeCustomValue index value threadId threads =
    .returned after → ∃ (i : Fin n) (j : Fin riffMaxCustomFields), i.val = threadId ∧
      j.val = index ∧ after = Function.update threads i { threads i with
        sample := { (threads i).sample with
          customFields := Function.update (threads i).sample.customFields j value } }

theorem StoresOnce.of_threw {index : ℕ} {value : Double} {threadId : ℕ}
    {threads : Fin n → ThreadData} {error : StoreError}
    (threw : Application.storeCustomValue index value threadId threads = .threw error threads)
    (bad : n ≤ threadId ∨ riffMaxCustomFields ≤ index) :
    StoresOnce index value threadId threads := by
  refine ⟨iff_of_true ⟨error, threads, threw⟩ bad, ?_, ?_⟩
  · intro e after same
    rw [threw] at same
    cases same
    rfl
  · intro after same
    rw [threw] at same
    cases same

theorem storesOnce (index : ℕ) (value : Double) (threadId : ℕ) (threads : Fin n → ThreadData) :
    StoresOnce index value threadId threads := by
  by_cases outside : threadId > n
  · exact .of_threw (if_pos outside) (.inl outside.le)
  by_cases inside : index < riffMaxCustomFields
  · by_cases found : threadId < n
    · have returned : Application.storeCustomValue index value threadId threads =
          .returned (Function.update threads ⟨threadId, found⟩ { threads ⟨threadId, found⟩ with
            sample := { (threads ⟨threadId, found⟩).sample with
              customFields := Function.update (threads ⟨threadId, found⟩).sample.customFields
                ⟨index, inside⟩ value } }) := by
        simp only [Application.storeCustomValue, outside, ↓reduceIte, inside, found, ↓reduceDIte]
      refine ⟨iff_of_false ?_ (by omega), ?_, ?_⟩
      · rintro ⟨error, after, same⟩
        rw [returned] at same
        cases same
      · intro error after same
        rw [returned] at same
        cases same
      · intro after same
        rw [returned] at same
        cases same
        exact ⟨_, _, rfl, rfl, rfl⟩
    · have threw : Application.storeCustomValue index value threadId threads =
          .threw .outOfRange threads := by
        simp only [Application.storeCustomValue, outside, ↓reduceIte, inside, found, ↓reduceDIte]
      exact .of_threw threw (.inl (Nat.le_of_not_lt found))
  · have threw : Application.storeCustomValue index value threadId threads =
        .threw (.runtime .customIndexOutOfBound) threads := by
      simp only [Application.storeCustomValue, outside, ↓reduceIte, inside, ↓reduceDIte]
    exact .of_threw threw (.inr (Nat.le_of_not_lt inside))

/-! What becomes of the stored values. -/

/-- With this call the thread hands over a consolidated sample. -/
def Delivers (build : Build) (configuration : ApplicationConfiguration) (c : Call)
    (t : ThreadData) : Prop :=
  t.consolidate = true ∧ (call build configuration c t).record.consolidate = false

instance (c : Call) (t : ThreadData) : Decidable (Delivers build configuration c t) :=
  inferInstanceAs (Decidable (_ ∧ _))

def NoneDelivers (build : Build) (configuration : ApplicationConfiguration) :
    List Call → ThreadData → Prop
  | [], _ => True
  | c :: calls, t => ¬ Delivers build configuration c t ∧
      NoneDelivers build configuration calls (call build configuration c t).record

instance decidableNoneDelivers : ∀ (calls : List Call) (t : ThreadData),
    Decidable (NoneDelivers build configuration calls t)
  | [], _ => .isTrue trivial
  | c :: calls, t =>
      have := decidableNoneDelivers calls (call build configuration c t).record
      inferInstanceAs (Decidable (_ ∧ _))

/-- The value that a call stores in field `j`, if it stores one. -/
def Call.stores (j : Fin riffMaxCustomFields) : Call → Option Double
  | .storeCustomValue index value => if index = j then some value else none
  | _ => none

def lastStored (j : Fin riffMaxCustomFields) (calls : List Call) : Double :=
  (calls.filterMap (Call.stores j)).getLastD 0

theorem lastStored_snoc (j : Fin riffMaxCustomFields) (calls : List Call) (c : Call) :
    lastStored j (calls ++ [c]) = (c.stores j).getD (lastStored j calls) := by
  rw [lastStored, List.filterMap_append]
  cases stored : c.stores j with
  | none => rw [List.filterMap_cons_none stored, List.filterMap_nil, List.append_nil]; rfl
  | some value =>
      rw [List.filterMap_cons_some stored, List.filterMap_nil]
      simp

/-- A `begin()` either hands the values over and starts from zero, or keeps them. -/
theorem Begins.customFields {now : ℕ} {t : ThreadData} {outcome : Outcome}
    (begins : Begins build configuration now t outcome) :
    (outcome.record.sample = {} ∧
      outcome.record.consolidatedSample.customFields = t.sample.customFields ∧
      t.consolidate = true ∧ outcome.record.consolidate = false) ∨
    (outcome.record.sample.customFields = t.sample.customFields ∧
      outcome.record.consolidate = t.consolidate) := by
  cases begins with
  | rejected near evaluates chosen asked failed =>
      rw [storeConsolidated_threw failed]
      exact .inr ⟨rfl, rfl⟩
  | consolidated near evaluates chosen asked stored =>
      rw [storeConsolidated_returned stored]
      exact .inl ⟨rfl, rfl, asked, rfl⟩
  | _ => exact .inr ⟨rfl, rfl⟩

/-- Only a `begin()` clears the flag. -/
theorem Delivers.customFields {c : Call} {t : ThreadData}
    (delivers : Delivers build configuration c t) :
    (call build configuration c t).record.sample = {} ∧
      (call build configuration c t).record.consolidatedSample.customFields =
        t.sample.customFields := by
  obtain ⟨asked, answered⟩ := delivers
  cases c with
  | beginAt now =>
      rcases (beginCall_begins build configuration now t).customFields with
        ⟨empty, handed, _⟩ | ⟨_, still⟩
      · exact ⟨empty, handed⟩
      · exact absurd ((still.trans asked).symm.trans answered) Bool.noConfusion
  | endAt now weight =>
      have still : (endCall now weight t).consolidate = t.consolidate := by
        unfold endCall
        split <;> rfl
      exact absurd ((still.trans asked).symm.trans answered) Bool.noConfusion
  | storeCustomValue index value =>
      have still : (storeCustomValue index value t).record.consolidate = t.consolidate := by
        unfold storeCustomValue
        split <;> rfl
      exact absurd ((still.trans asked).symm.trans answered) Bool.noConfusion
  | request => cases answered
  | collect => exact absurd (asked.symm.trans answered) Bool.noConfusion

/-- Any other call stores its value, if it has one, and leaves the rest alone. -/
theorem call_customFields {c : Call} {t : ThreadData}
    (keeps : ¬ Delivers build configuration c t) (j : Fin riffMaxCustomFields) :
    (call build configuration c t).record.sample.customFields j =
      (c.stores j).getD (t.sample.customFields j) := by
  cases c with
  | beginAt now =>
      rcases (beginCall_begins build configuration now t).customFields with
        ⟨_, _, asked, answered⟩ | ⟨same, _⟩
      · exact absurd ⟨asked, answered⟩ keeps
      · exact congrFun same j
  | endAt now weight =>
      simp only [call, record_returned, endCall, Call.stores, Option.getD_none]
      split <;> rfl
  | storeCustomValue index value =>
      simp only [call, storeCustomValue, Call.stores]
      by_cases inside : index < riffMaxCustomFields
      · by_cases here : index = j
        · subst here
          simp
        · have other : j ≠ ⟨index, inside⟩ := fun same => here (congrArg Fin.val same).symm
          simp [inside, here, other]
      · have outside : index ≠ j := by omega
        simp [inside, outside]
  | request => rfl
  | collect => rfl

theorem NoneDelivers.snoc {calls : List Call} {c : Call} {t : ThreadData}
    (none : NoneDelivers build configuration (calls ++ [c]) t) :
    NoneDelivers build configuration calls t ∧
      ¬ Delivers build configuration c (runCaught build configuration calls t) := by
  induction calls generalizing t with
  | nil => exact ⟨trivial, none.1⟩
  | cons d calls ih =>
      obtain ⟨keeps, later⟩ := none
      exact ⟨⟨keeps, (ih later).1⟩, (ih later).2⟩

/-- The values in the running sample are those stored since it was empty. -/
theorem runCaught_customFields {t : ThreadData} {calls : List Call}
    (none : NoneDelivers build configuration calls t) (empty : t.sample = {})
    (j : Fin riffMaxCustomFields) :
    (runCaught build configuration calls t).sample.customFields j = lastStored j calls := by
  induction calls using List.reverseRecOn with
  | nil =>
      rw [runCaught, empty]
      rfl
  | append_singleton calls c ih =>
      obtain ⟨earlier, keeps⟩ := none.snoc
      rw [runCaught_append, lastStored_snoc, ← ih earlier]
      exact call_customFields keeps j

/-- A run that leaves the running sample empty: it makes no call, or ends with a
consolidation. -/
def StartsAfresh (build : Build) (configuration : ApplicationConfiguration)
    (before : List Call) : Prop :=
  before = [] ∨ ∃ past c, before = past ++ [c] ∧
    Delivers build configuration c
      (runCaught build configuration past (ThreadData.initial build))

theorem StartsAfresh.empty {before : List Call} (afresh : StartsAfresh build configuration before) :
    (runCaught build configuration before (ThreadData.initial build)).sample = {} := by
  rcases afresh with rfl | ⟨past, c, rfl, delivers⟩
  · rfl
  · rw [runCaught_append]
    exact delivers.customFields.1

/-- Between two consolidations the last value stored in a field is the one delivered, and
a call of `storeCustomValue` writes at most one field of one thread. -/
theorem custom_values_delivered_once (build : Build) (configuration : ApplicationConfiguration) :
    (∀ before since c, StartsAfresh build configuration before →
      let t := runCaught build configuration before (ThreadData.initial build)
      let u := runCaught build configuration since t
      NoneDelivers build configuration since t → Delivers build configuration c u →
      ∀ j, (call build configuration c u).record.consolidatedSample.customFields j =
        lastStored j since) ∧
    ∀ (n : ℕ) (threads : Fin n → ThreadData) (index : ℕ) (value : Double),
      (∀ i : Fin n, (Application.storeCustomValue index value i threads).threads =
        threadDataAfter build configuration [(i, .storeCustomValue index value)] threads) ∧
      ∀ threadId, StoresOnce index value threadId threads := by
  refine ⟨?_, ?_⟩
  · intro before since c afresh t u none delivers j
    rw [← runCaught_customFields none afresh.empty j]
    exact congrFun delivers.customFields.2 j
  · intro n threads index value
    exact ⟨fun i => Application.storeCustomValue_threads index value i threads,
      fun threadId => storesOnce index value threadId threads⟩

/-- Two values for one field, before the first request is answered. -/
def storedTwice : List Call :=
  [.beginAt 1, .storeCustomValue 2 (7 : ℕ), .storeCustomValue 2 (5 : ℕ), .endAt 2 1, .request]

theorem custom_values_delivered_once_twice :
    let u := runCaught {} {} storedTwice (ThreadData.initial {})
    (call {} {} (.beginAt 3) u).record.consolidatedSample.customFields 2 =
      lastStored 2 storedTwice :=
  (custom_values_delivered_once {} {}).1 [] storedTwice (.beginAt 3) (.inl rfl)
    (by decide +kernel) (by decide +kernel) 2

end Riff
