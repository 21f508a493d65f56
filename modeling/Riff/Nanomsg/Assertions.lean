import Riff.Nanomsg.Connection

set_option autoImplicit false

namespace Riff.Nanomsg

open Transition

/-- One end of a connection is in order. -/
structure Orderly (side : Side) (c : Connection) : Prop where
  sane : Sane c
  inv : Inv (c side).line
  running : (c side).aborted = false

variable {capacity : ℕ} {c d : Connection} {side other : Side} {turn : Turn}

theorem Orderly.start : Orderly side (connection capacity).start where
  sane := .start
  inv := .fresh
  running := rfl

/-- A turn of an end in order does what it is for. -/
theorem Orderly.ran {s : Socket} (orderly : Orderly side c) (stepped : (c side).step turn = some s)
    (calm : turn ≠ .timeout) :
    turn.run (c side).line = some s.line ∧ Inv s.line ∧ s.aborted = false := by
  obtain ⟨_, held, may, _, outcome⟩ := (orderly.sane.signals side).step stepped
  obtain ⟨e', ran, inv⟩ := orderly.inv.run (orderly.sane.free side held) may
    (orderly.sane.wellformed side) calm
  rcases outcome with ⟨fails, _, _⟩ | ⟨ran', running⟩
  · cases fails.symm.trans ran
  · cases ran'.symm.trans ran
    exact ⟨ran', inv, running⟩

theorem Orderly.move (orderly : Orderly side c) (moved : Moved c d other turn)
    (calm : other = side → turn ≠ .timeout) : Orderly side d := by
  have sane := orderly.sane.move moved
  rcases other.eq_or_other side with rfl | rfl
  · obtain ⟨_, inv, running⟩ := orderly.ran moved.stepped (calm rfl)
    exact ⟨sane, inv, running⟩
  · refine ⟨sane, ?_, ?_⟩
    · rw [moved.rest]
      exact orderly.inv
    · rw [moved.rest]
      exact orderly.running

theorem Orderly.of_follow {turns : List (Side × Turn)}
    (followed : (connection capacity).follow turns (connection capacity).start = some c)
    (calm : (side, Turn.timeout) ∉ turns) : Orderly side c := by
  refine Machine.follow_invariant followed (Orderly side) .start ?_
  rintro ⟨other, turn⟩ member u v orderly moves
  refine orderly.move (Connection.moved moves) fun same expired => calm ?_
  rw [← same, ← expired]
  exact member

/-- No assertion of an end fails before its timer for the header exchange has expired,
however the turns of both ends are ordered, and whatever calls of the kernel fail. -/
theorem no_assertion_fails {turns : List (Side × Turn)}
    (followed : (connection capacity).follow turns (connection capacity).start = some c)
    (calm : (side, Turn.timeout) ∉ turns) : (c side).aborted = false :=
  (Orderly.of_follow followed calm).running

/-- All that a thread has to do at an end after a turn whose calls of the kernel bring nothing. -/
def leaves (side : Side) (n : ℕ) : List (Side × Turn) := List.replicate n (side, .leave (some []))

/-- The ends exchange their headers, then one of them sends three bytes to the other. -/
def arrival : List (Side × Turn) :=
  (.bound, .start (some 100)) :: leaves .bound 2 ++
  (.connected, .start (some 3)) :: leaves .connected 1 ++
  (.connected, .task) :: leaves .connected 1 ++
  (.connected, .fdOut (some 5)) :: (.connected, .leave (some Endpoint.protohdr)) ::
    leaves .connected 2 ++
  (.connected, .task) :: leaves .connected 5 ++
  (.bound, .task) :: leaves .bound 1 ++
  (.bound, .fdIn (some Endpoint.protohdr)) :: leaves .bound 2 ++
  (.bound, .task) :: leaves .bound 5 ++
  (.bound, .task) :: leaves .bound 1 ++
  (.connected, .send ⟨[], [7, 8, 9], by decide⟩ false (some 5)) :: leaves .connected 1 ++
  (.connected, .task) :: leaves .connected 1 ++
  (.connected, .task) :: leaves .connected 1 ++
  (.connected, .fdOut (some 50)) :: leaves .connected 2 ++
  (.bound, .fdIn (some [1, 0, 0, 0, 0, 0, 0, 0, 3, 7, 8, 9])) :: leaves .bound 4

/-- After which the other calls for the message. -/
def exchange : List (Side × Turn) := arrival ++ (.bound, .recv true (some [])) :: leaves .bound 1

theorem no_assertion_fails_exchange :
    ∃ c, (connection 65536).follow exchange (connection 65536).start = some c ∧
      (c .bound).line.delivered.map Payload.bytes = [[7, 8, 9]] ∧ (c .bound).aborted = false := by
  have exchanged : ((connection 65536).follow exchange (connection 65536).start).map
      (fun c => (c .bound).line.delivered.map Payload.bytes) = some [[7, 8, 9]] := by
    decide +kernel
  obtain ⟨c, followed, delivered⟩ := Option.map_eq_some_iff.mp exchanged
  exact ⟨c, followed, delivered, no_assertion_fails followed (by simp [exchange, arrival, leaves])⟩

/-- A timer that expires while the worker waits for the header: the header then comes as an
event that `STOPPING_TIMER_ERROR` does not expect. -/
def lateHeader : List (Side × Turn) :=
  (.connected, .start (some 8)) :: leaves .connected 2 ++
  (.bound, .start (some 8)) :: leaves .bound 2 ++
  (.bound, .task) :: leaves .bound 1 ++
  (.bound, .timeout) :: leaves .bound 2 ++
  (.bound, .fdIn (some Endpoint.protohdr)) :: leaves .bound 1

example : ((connection 65536).follow lateHeader (connection 65536).start).map
    (fun c => (c .bound).aborted) = some true := by
  decide +kernel

/-- The timer of one end of a connection has expired. -/
structure Expired (side : Side) (c : Connection) : Prop where
  sane : Sane c
  line : Alarmed (c side).line ∨ Barred (c side).line

namespace Expired

theorem move (expired : Expired side c) (moved : Moved c d other turn) : Expired side d := by
  refine ⟨expired.sane.move moved, ?_⟩
  rcases other.eq_or_other side with rfl | rfl
  · obtain ⟨_, held, may, _, outcome⟩ := (expired.sane.signals side).step moved.stepped
    rcases outcome with ⟨_, same, _⟩ | ⟨ran, _⟩
    · rw [same]
      exact expired.line
    · rcases expired.line with alarmed | barred
      · exact .inr (alarmed.run (expired.sane.free side held) ran)
      · exact .inr (barred.run may ran)
  · rw [moved.rest]
    exact expired.line

end Expired

theorem Alarmed.unused {e : Endpoint} (alarmed : Alarmed e) :
    e.accepted = [] ∧ e.delivered = [] := by
  obtain ⟨e', processed, barred⟩ := alarmed.process alarmed.events (some [])
  have follows := Endpoint.process_follows processed
  exact ⟨follows.accepted.symm.trans barred.accepted, follows.delivered.symm.trans barred.delivered⟩

end Riff.Nanomsg
