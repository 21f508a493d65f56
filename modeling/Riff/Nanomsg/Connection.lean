import Riff.Lib.Channel
import Riff.Lib.Transition
import Riff.Nanomsg.SocketSteps

set_option autoImplicit false

namespace Riff.Nanomsg

/-- The two ends of a connection. -/
inductive Side
  | bound
  | connected
  deriving DecidableEq

def Side.other : Side → Side
  | .bound => .connected
  | .connected => .bound

@[simp] theorem Side.other_other (side : Side) : side.other.other = side := by cases side <;> rfl

theorem Side.other_ne (side : Side) : side.other ≠ side := by cases side <;> nofun

theorem Side.eq_or_other (side side' : Side) : side' = side ∨ side' = side.other := by
  cases side <;> cases side' <;> simp [Side.other]

instance {p : Side → Prop} [DecidablePred p] : Decidable (∀ side, p side) :=
  decidable_of_iff (p .bound ∧ p .connected)
    ⟨fun both side => by cases side <;> simp [both], fun all => ⟨all _, all _⟩⟩

abbrev Connection := Side → Socket

/-- One turn at one end. The kernel gives an end what it has taken from the other, in the
same order, and holds no more than `capacity` bytes on the way. -/
def Connection.move (capacity : ℕ) : Side × Turn → Connection → Option Connection
  | (side, turn), c =>
      match (c side).step turn with
      | none => none
      | some s =>
          if s.line.usock.received <+: (c side.other).line.usock.sent ∧
              s.line.usock.sent.length ≤
                (c side.other).line.usock.received.length + capacity then
            some (Function.update c side s)
          else none

def connection (capacity : ℕ) : Transition.Machine (Side × Turn) Connection where
  start := fun _ => {}
  move := Connection.move capacity

variable {capacity : ℕ} {c d : Connection} {side : Side} {turn : Turn}

/-- What a turn at one end changes. -/
structure Moved (c d : Connection) (side : Side) (turn : Turn) : Prop where
  stepped : (c side).step turn = some (d side)
  received : (d side).line.usock.received <+: (c side.other).line.usock.sent
  rest : d side.other = c side.other

theorem Connection.moved (moves : (connection capacity).move (side, turn) c = some d) :
    Moved c d side turn := by
  simp only [connection, Connection.move] at moves
  split at moves
  · cases moves
  · rename_i s stepped
    split at moves
    · rename_i kernel
      cases moves
      refine ⟨?_, ?_, Function.update_of_ne side.other_ne s c⟩
      · rw [Function.update_self]
        exact stepped
      · rw [Function.update_self]
        exact kernel.1
    · cases moves

/-- What holds of a connection at any time, whatever fails. -/
structure Sane (c : Connection) : Prop where
  signals : ∀ side, Signals (c side)
  sound : ∀ side, Sound (c side).line
  received : ∀ side, (c side).line.usock.received <+: (c side.other).line.usock.sent

namespace Sane

theorem wellformed (sane : Sane c) (side : Side) : Wellformed (c side).line :=
  ⟨_, (sane.received side).trans (sane.sound side.other).sent⟩

theorem free (sane : Sane c) (side : Side) {turn : Turn} (held : (c side).held = turn.leaves)
    (stays : turn.leaves = false) : (c side).line.events = [] :=
  (sane.signals side).free (held.trans stays)

/-- What the end that has the turn calls and sends. -/
theorem calls (sane : Sane c) (moved : Moved c d side turn) :
    (c side).line = (d side).line ∨ Calls turn (c side).line (d side).line := by
  obtain ⟨_, _, _, _, ⟨_, same, _⟩ | ⟨ran, _⟩⟩ := (sane.signals side).step moved.stepped
  · exact .inl same.symm
  · exact .inr (turn.calls ran)

theorem move (sane : Sane c) (moved : Moved c d side turn) : Sane d := by
  obtain ⟨_, held, may, signals, outcome⟩ := (sane.signals side).step moved.stepped
  have sent : (c side).line.usock.sent <+: (d side).line.usock.sent := by
    rcases sane.calls moved with same | calls
    · rw [same]
    · exact calls.sent
  refine ⟨fun side' => ?_, fun side' => ?_, fun side' => ?_⟩
  · rcases side.eq_or_other side' with rfl | rfl
    · exact signals
    · rw [moved.rest]
      exact sane.signals side.other
  · rcases side.eq_or_other side' with rfl | rfl
    · rcases outcome with ⟨_, same, _⟩ | ⟨ran, _⟩
      · rw [same]
        exact sane.sound side'
      · exact (sane.sound side').run (sane.free side' held) may (sane.wellformed side') ran
    · rw [moved.rest]
      exact sane.sound side.other
  · rcases side.eq_or_other side' with rfl | rfl
    · rw [moved.rest]
      exact moved.received
    · rw [moved.rest, side.other_other]
      have before := sane.received side.other
      rw [side.other_other] at before
      exact before.trans sent

theorem start : Sane fun _ => {} :=
  ⟨fun _ => ⟨rfl, rfl, fun _ => rfl, fun _ => rfl, fun _ => rfl⟩, fun _ => .orderly .fresh,
    fun _ => List.prefix_rfl⟩

theorem of_reachable (reachable : (connection capacity).system.Reachable c) : Sane c :=
  reachable.invariant Sane start fun _ _ _ sane ⟨(_, _), moves⟩ =>
    sane.move (Connection.moved moves)

/-- Each end has been given the first messages of those that the other has sent. -/
theorem delivered (sane : Sane c) (side : Side) :
    (c side.other).line.delivered <+: (c side).line.accepted.map Msg.payload := by
  rcases (sane.sound side.other).delivered with none | consumed
  · rw [none]
    exact List.nil_prefix
  · have received := sane.received side.other
    rw [side.other_other] at received
    have begins := (consumed.trans received).trans (sane.sound side).sent
    rw [Endpoint.consumed, List.prefix_append_right_inj,
      ← List.append_nil (framing.stream _)] at begins
    obtain ⟨later, all, _⟩ := PrefixCode.stream_prefix begins
    exact ⟨later, all.symm⟩

end Sane

end Riff.Nanomsg
