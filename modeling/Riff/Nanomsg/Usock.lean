import Riff.Nanomsg.Frame

set_option autoImplicit false

namespace Riff.Nanomsg

def usockBatchSize : ℕ := 2048

def usockMaxIovcnt : ℕ := 3

inductive UsockState
  | active
  | removingFd
  | done
  deriving DecidableEq

/-- What `nn_usock_send_raw` and `nn_usock_recv_raw` return. -/
inductive Rc
  | ok
  | again
  | connReset
  deriving DecidableEq

/-- A socket that is connected. `buf` is what the receive request under way has been
given so far, `len` what it still wants; `batch` is the unread part of the batch
buffer, `iov` what is left to send. `sent` and `received` are all the bytes that the
kernel has taken and given. -/
structure Usock where
  state : UsockState := .active
  registered : Bool := true
  pollIn : Bool := false
  pollOut : Bool := false
  buf : List UInt8 := []
  len : ℕ := 0
  batch : List UInt8 := []
  iov : List (List UInt8) := []
  sent : List UInt8 := []
  received : List UInt8 := []

/-- The loop of `nn_usock_send_raw` that skips `nbytes` bytes of the iovecs. -/
def adjust : List (List UInt8) → ℕ → Option (Rc × List (List UInt8))
  | [], 0 => some (.ok, [])
  | v :: iov, 0 => some (.again, v :: iov)
  | [], _ + 1 => none
  | [v], n + 1 =>
      if v.length ≤ n + 1 then
        -- The assertion: no more bytes than there are.
        if n + 1 = v.length then some (.ok, []) else none
      else some (.again, [v.drop (n + 1)])
  | v :: w :: iov, n + 1 =>
      if v.length ≤ n + 1 then adjust (w :: iov) (n + 1 - v.length)
      else some (.again, v.drop (n + 1) :: w :: iov)

/-- The kernel takes as much as it has room for, or reports an error. -/
def Usock.sendRaw (room : Option ℕ) (u : Usock) : Option (Rc × Usock) :=
  match room with
  | none => some (.connReset, u)
  | some room =>
      let nbytes := min room u.iov.flatten.length
      (adjust u.iov nbytes).map fun (rc, iov) =>
        (rc, { u with iov := iov, sent := u.sent ++ u.iov.flatten.take nbytes })

/-- The kernel gives as much of its offer as there is place for, or reports an error.
An empty offer is `EAGAIN`. -/
def Usock.recvRaw (len : ℕ) (offer : Option (List UInt8)) (u : Usock) :
    Option (List UInt8) × Usock :=
  let sz := min u.batch.length len
  let first := u.batch.take sz
  let u := { u with batch := u.batch.drop sz }
  let length := len - sz
  if sz ≠ 0 ∧ length = 0 then (some first, u)
  else
    match offer with
    | none => (none, u)
    | some offer =>
        if usockBatchSize < length then
          let given := offer.take length
          (some (first ++ given), { u with received := u.received ++ given })
        else
          let given := offer.take usockBatchSize
          (some (first ++ given.take length),
            { u with batch := given.drop length, received := u.received ++ given })

theorem flatten_ne_nil {v : List UInt8} {iov : List (List UInt8)} (whole : [] ∉ v :: iov) :
    (v :: iov).flatten ≠ [] := by
  intro none
  have empty : v = [] := (List.append_eq_nil_iff.mp (List.flatten_cons ▸ none)).1
  exact whole (empty ▸ List.mem_cons_self)

theorem eq_nil_of_flatten {iov : List (List UInt8)} (whole : [] ∉ iov) (none : iov.flatten = []) :
    iov = [] := by
  cases iov with
  | nil => rfl
  | cons v iov => exact absurd none (flatten_ne_nil whole)

/-- The loop drops the bytes that were sent, across the borders of the iovecs. -/
theorem adjust_eq {iov : List (List UInt8)} (whole : [] ∉ iov) {n : ℕ}
    (within : n ≤ iov.flatten.length) :
    ∃ rest, adjust iov n = some (if n = iov.flatten.length then .ok else .again, rest) ∧
      rest.flatten = iov.flatten.drop n ∧ [] ∉ rest := by
  induction iov generalizing n with
  | nil =>
      have zero : n = 0 := Nat.le_zero.mp within
      subst zero
      exact ⟨[], rfl, rfl, whole⟩
  | cons v iov ih =>
      have others : [] ∉ iov := fun member => whole (List.mem_cons_of_mem v member)
      rw [List.flatten_cons, List.length_append] at within
      cases n with
      | zero =>
          have some : 0 ≠ (v :: iov).flatten.length :=
            (Nat.ne_of_lt (List.length_pos_of_ne_nil (flatten_ne_nil whole)))
          exact ⟨v :: iov, by rw [adjust, if_neg some], rfl, whole⟩
      | succ n =>
          by_cases reached : v.length ≤ n + 1
          · cases iov with
            | nil =>
                have last : n + 1 = v.length := by
                  simp only [List.flatten_nil, List.length_nil] at within
                  omega
                refine ⟨[], ?_, ?_, others⟩
                · simp [adjust, last]
                · simp [last]
            | cons w iov =>
                have fewer : n + 1 - v.length ≤ (w :: iov).flatten.length := by omega
                obtain ⟨rest, adjusted, left, whole'⟩ := ih others fewer
                have joined : (v :: w :: iov).flatten = v ++ (w :: iov).flatten := List.flatten_cons
                have last : (n + 1 - v.length = (w :: iov).flatten.length) =
                    (n + 1 = (v :: w :: iov).flatten.length) := by
                  rw [joined, List.length_append]
                  apply propext
                  omega
                refine ⟨rest, ?_, ?_, whole'⟩
                · rw [adjust, if_pos reached, adjusted]
                  simp only [last]
                · rw [left, joined, List.drop_append, List.drop_eq_nil_of_le reached,
                    List.nil_append]
          · have inside : n + 1 < v.length := Nat.lt_of_not_le reached
            have some : n + 1 ≠ (v :: iov).flatten.length := by
              rw [List.flatten_cons, List.length_append]
              omega
            refine ⟨v.drop (n + 1) :: iov, ?_, ?_, ?_⟩
            · rw [if_neg some]
              cases iov <;> simp [adjust, reached]
            · rw [List.flatten_cons, List.flatten_cons, List.drop_append_of_le_length (by omega)]
            · intro member
              rcases List.mem_cons.mp member with empty | member
              · have short := List.drop_eq_nil_iff.mp empty.symm
                omega
              · exact others member

namespace Usock

/-- A call of the kernel that sends moves bytes from the iovecs to the kernel, and tells
whether it moved all of them. -/
theorem sendRaw_eq {u : Usock} (whole : [] ∉ u.iov) (room : ℕ) :
    ∃ now later rest, u.iov.flatten = now ++ later ∧
      now.length = min room u.iov.flatten.length ∧ rest.flatten = later ∧ [] ∉ rest ∧
      u.sendRaw (some room) = some (if later = [] then .ok else .again,
        { u with iov := rest, sent := u.sent ++ now }) := by
  obtain ⟨rest, adjusted, left, whole'⟩ :=
    adjust_eq whole (Nat.min_le_right room u.iov.flatten.length)
  refine ⟨u.iov.flatten.take (min room u.iov.flatten.length),
    u.iov.flatten.drop (min room u.iov.flatten.length), rest,
    (List.take_append_drop _ _).symm, ?_, left, whole', ?_⟩
  · rw [List.length_take, Nat.min_assoc, Nat.min_self]
  · simp only [sendRaw, adjusted, Option.map_some]
    congr 2
    by_cases all : min room u.iov.flatten.length = u.iov.flatten.length
    · rw [if_pos all, if_pos (List.drop_eq_nil_of_le (Nat.le_of_eq all.symm))]
    · rw [if_neg all, if_neg]
      intro none
      have short := List.drop_eq_nil_iff.mp none
      omega

theorem adjust_goes_on {iov rest : List (List UInt8)} {n : ℕ} {rc : Rc}
    (adjusted : adjust iov n = some (rc, rest)) : rc ≠ .connReset := by
  fun_induction adjust iov n with
  | case7 v w iov n reached ih => exact ih adjusted
  | case1 | case2 | case3 | case4 | case5 | case6 | case8 => grind

theorem sendRaw_frame {u u' : Usock} {room : Option ℕ} {rc : Rc}
    (sent : u.sendRaw room = some (rc, u')) :
    ∃ iov now, now.length ≤ room.getD 0 ∧
      u' = { u with iov := iov, sent := u.sent ++ now } ∧ (rc = .connReset → room = none) := by
  cases room with
  | none =>
      cases sent
      exact ⟨_, [], Nat.le_refl 0, by rw [List.append_nil], fun _ => rfl⟩
  | some room =>
      simp only [sendRaw, Option.map_eq_some_iff] at sent
      obtain ⟨⟨rc', iov⟩, adjusted, same⟩ := sent
      cases same
      refine ⟨iov, u.iov.flatten.take (min room u.iov.flatten.length), ?_, rfl, ?_⟩
      · rw [List.length_take, Option.getD_some]
        omega
      · intro reset
        exact absurd reset (adjust_goes_on adjusted)

theorem recvRaw_frame (u : Usock) (len : ℕ) (offer : Option (List UInt8)) :
    ∃ batch given, given <+: offer.getD [] ∧
      (u.recvRaw len offer).2 = { u with batch := batch, received := u.received ++ given } ∧
      ((u.recvRaw len offer).1 = none → offer = none) := by
  simp only [recvRaw]
  split
  · exact ⟨_, [], List.nil_prefix, by rw [List.append_nil], nofun⟩
  · cases offer with
    | none => exact ⟨_, [], List.nil_prefix, by rw [List.append_nil], fun _ => rfl⟩
    | some offer =>
        simp only
        split
        · exact ⟨_, _, List.take_prefix .., rfl, nofun⟩
        · exact ⟨_, _, List.take_prefix .., rfl, nofun⟩

/-- When the batch is empty, the kernel is asked, and what it has is taken. -/
theorem recvRaw_takes {u : Usock} {len : ℕ} (batch : u.batch = []) (positive : 0 < len)
    (b : UInt8) (offer : List UInt8) :
    ∃ bytes batch given, 0 < given.length ∧ given <+: b :: offer ∧
      u.recvRaw len (some (b :: offer)) =
        (some bytes, { u with batch := batch, received := u.received ++ given }) := by
  have asks : ¬ (min u.batch.length len ≠ 0 ∧ len - min u.batch.length len = 0) := by
    simp [batch]
  simp only [recvRaw, if_neg asks]
  split
  · refine ⟨_, _, (b :: offer).take (len - min u.batch.length len), ?_, List.take_prefix .., rfl⟩
    rw [List.length_take, List.length_cons, batch, List.length_nil]
    omega
  · refine ⟨_, _, (b :: offer).take usockBatchSize, ?_, List.take_prefix .., rfl⟩
    rw [List.length_take, List.length_cons, usockBatchSize]
    omega

/-- A call of the kernel that receives hands on bytes in the order they came, by way of
the batch, and keeps none back while some are wanted. -/
theorem recvRaw_eq (u : Usock) {len : ℕ} (positive : 0 < len) (offer : Option (List UInt8)) :
    (∃ batch, u.recvRaw len offer = (none, { u with batch := batch })) ∨
      ∃ bytes batch given, u.batch ++ given = bytes ++ batch ∧ bytes.length ≤ len ∧
        (bytes.length = len ∨ batch = []) ∧
        u.recvRaw len offer =
          (some bytes, { u with batch := batch, received := u.received ++ given }) := by
  by_cases served : min u.batch.length len ≠ 0 ∧ len - min u.batch.length len = 0
  · have size : min u.batch.length len = len := by omega
    refine .inr ⟨u.batch.take len, u.batch.drop len, [], ?_, ?_, ?_, ?_⟩
    · rw [List.append_nil, List.take_append_drop]
    · exact List.length_take_le ..
    · left
      rw [List.length_take, Nat.min_comm, size]
    · simp only [recvRaw, if_pos served]
      rw [size, List.append_nil]
  · -- The batch does not suffice: it is emptied, and the kernel is asked.
    have short : min u.batch.length len = u.batch.length := by omega
    rw [short] at served
    cases offer with
    | none =>
        refine .inl ⟨u.batch.drop u.batch.length, ?_⟩
        simp only [recvRaw, short, if_neg served]
    | some offer =>
        right
        by_cases direct : usockBatchSize < len - u.batch.length
        · refine ⟨u.batch ++ offer.take (len - u.batch.length), [],
            offer.take (len - u.batch.length), by rw [List.append_nil], ?_, .inr rfl, ?_⟩
          · rw [List.length_append, List.length_take]
            omega
          · simp only [recvRaw, short, if_neg served, if_pos direct, List.take_length,
              List.drop_length]
        · refine ⟨u.batch ++ (offer.take usockBatchSize).take (len - u.batch.length),
            (offer.take usockBatchSize).drop (len - u.batch.length),
            offer.take usockBatchSize, ?_, ?_, ?_, ?_⟩
          · rw [List.append_assoc, List.take_append_drop]
          · rw [List.length_append, List.length_take]
            omega
          · rw [List.length_append, List.length_take, List.drop_eq_nil_iff]
            omega
          · simp only [recvRaw, short, if_neg served, if_neg direct, List.take_length]

end Usock

end Riff.Nanomsg
