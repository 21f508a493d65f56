import Mathlib.Data.List.Basic

set_option autoImplicit false

/-- A reliable channel that keeps the order: everything sent on it, and how much
of that has been taken off. -/
structure Channel (α : Type*) where
  sent : List α := []
  taken : ℕ := 0
  within : taken ≤ sent.length := by decide

namespace Channel

variable {α β : Type*}

def send (c : Channel α) (a : α) : Channel α where
  sent := c.sent ++ [a]
  taken := c.taken
  within := by
    rw [List.length_append]
    exact Nat.le_add_right_of_le c.within

/-- The message that a receiver would take next. -/
def next (c : Channel α) : Option α := c.sent[c.taken]?

def take (c : Channel α) (more : c.taken < c.sent.length) : Channel α where
  sent := c.sent
  taken := c.taken + 1
  within := more

def recv (c : Channel α) : Option (α × Channel α) :=
  if more : c.taken < c.sent.length then some (c.sent[c.taken], c.take more) else none

def received (c : Channel α) : List α := c.sent.take c.taken

/-- How many messages have not been taken off. -/
def pending (c : Channel α) : ℕ := c.sent.length - c.taken

def map (f : α → β) (c : Channel α) : Channel β where
  sent := c.sent.map f
  taken := c.taken
  within := by
    rw [List.length_map]
    exact c.within

@[ext] theorem ext {c d : Channel α} (sent : c.sent = d.sent) (taken : c.taken = d.taken) :
    c = d := by
  cases c
  cases d
  cases sent
  cases taken
  rfl

@[simp] theorem send_sent (c : Channel α) (a : α) : (c.send a).sent = c.sent ++ [a] := rfl
@[simp] theorem send_taken (c : Channel α) (a : α) : (c.send a).taken = c.taken := rfl
@[simp] theorem map_sent (f : α → β) (c : Channel α) : (c.map f).sent = c.sent.map f := rfl
@[simp] theorem map_taken (f : α → β) (c : Channel α) : (c.map f).taken = c.taken := rfl

@[simp] theorem map_send (f : α → β) (c : Channel α) (a : α) :
    (c.send a).map f = (c.map f).send (f a) := by
  ext1
  · simp
  · rfl

theorem recv_eq_some {c d : Channel α} {a : α} (taken : c.recv = some (a, d)) :
    c.next = some a ∧ d.sent = c.sent ∧ d.taken = c.taken + 1 := by
  unfold recv at taken
  split at taken
  · rename_i more
    cases taken
    exact ⟨List.getElem?_eq_getElem more, rfl, rfl⟩
  · cases taken

theorem recv_eq_none {c : Channel α} : c.recv = none ↔ c.taken = c.sent.length := by
  unfold recv
  have within := c.within
  split
  · simp only [reduceCtorEq, false_iff]
    omega
  · simp only [true_iff]
    omega

/-- What has been sent after the messages taken off is what comes next. -/
theorem recv_of_prefix {c : Channel α} {a : α} (next : c.received ++ [a] <+: c.sent) :
    ∃ d, c.recv = some (a, d) := by
  have taken : c.received.length = c.taken := List.length_take_of_le c.within
  have more : c.taken < c.sent.length := by
    have longer := next.length_le
    rw [List.length_append, taken, List.length_singleton] at longer
    exact longer
  have first : c.sent[c.taken] = a := by
    rw [← next.getElem (by rw [List.length_append, taken, List.length_singleton]; omega)]
    simp [taken]
  refine ⟨c.take more, ?_⟩
  rw [recv, dif_pos more, first]

theorem recv_map {c d : Channel α} {a : α} (f : α → β) (taken : c.recv = some (a, d)) :
    (c.map f).recv = some (f a, d.map f) := by
  unfold recv at taken ⊢
  split at taken
  · rename_i more
    cases taken
    have mapped : (c.map f).taken < (c.map f).sent.length := by
      rw [map_sent, List.length_map]
      exact more
    rw [dif_pos mapped]
    simp only [map_sent, map_taken, List.getElem_map]
    rfl
  · cases taken

theorem received_of_recv {c d : Channel α} {a : α} (taken : c.recv = some (a, d)) :
    d.received = c.received ++ [a] := by
  obtain ⟨next, sent, count⟩ := recv_eq_some taken
  rw [received, received, sent, count, List.take_add_one, show c.sent[c.taken]? = some a from next]
  rfl

@[simp] theorem pending_send (c : Channel α) (a : α) : (c.send a).pending = c.pending + 1 := by
  have within := c.within
  rw [pending, pending, send_sent, send_taken, List.length_append, List.length_singleton]
  omega

theorem pending_recv {c d : Channel α} {a : α} (taken : c.recv = some (a, d)) :
    d.pending + 1 = c.pending := by
  obtain ⟨next, sent, count⟩ := recv_eq_some taken
  obtain ⟨more, _⟩ := List.getElem?_eq_some_iff.mp next
  rw [pending, pending, sent, count]
  omega

@[simp] theorem received_send (c : Channel α) (a : α) : (c.send a).received = c.received := by
  rw [received, received, send_sent, send_taken, List.take_append_of_le_length c.within]

end Channel
