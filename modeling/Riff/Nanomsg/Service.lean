import Riff.Nanomsg.Connection

set_option autoImplicit false

namespace Riff.Nanomsg

open Transition

/-- What a connection is for: a channel of messages from each end to the other. -/
def channels : System (Side → Channel Payload) where
  start := fun _ => {}
  Step c d := ∃ side, (∃ p, d = Function.update c side ((c side).send p)) ∨
    ∃ p channel, (c side).recv = some (p, channel) ∧ d = Function.update c side channel

/-- The channels hold what the programs at the ends have sent and been given. -/
structure Carries (c : Connection) (d : Side → Channel Payload) : Prop where
  sent : ∀ side, (d side).sent = (c side).line.accepted.map Msg.payload
  received : ∀ side, (d side).received = (c side.other).line.delivered

variable {capacity : ℕ} {c c' : Connection} {d : Side → Channel Payload} {side : Side} {turn : Turn}

/-- A call that sends, if the turn is one, is a message more in the channel. -/
theorem Carries.accepted (carries : Carries c d)
    (calls : (c side).line = (c' side).line ∨ Calls turn (c side).line (c' side).line) :
    ∃ d', channels.Reaches d d' ∧
      (d' side).sent = (c' side).line.accepted.map Msg.payload ∧
      (d' side.other).sent = (d side.other).sent ∧
      ∀ side', (d' side').received = (d side').received := by
  have idle (same : (c' side).line.accepted = (c side).line.accepted) : ∃ d',
      channels.Reaches d d' ∧ (d' side).sent = (c' side).line.accepted.map Msg.payload ∧
      (d' side.other).sent = (d side.other).sent ∧
      ∀ side', (d' side').received = (d side').received :=
    ⟨d, .refl, by rw [same, carries.sent], rfl, fun _ => rfl⟩
  rcases calls with same | calls
  · exact idle (by rw [same])
  · rcases calls.accepted with same | ⟨msg, more⟩
    · exact idle same
    · refine ⟨Function.update d side ((d side).send msg.payload),
        .single ⟨side, .inl ⟨msg.payload, rfl⟩⟩, ?_, ?_, fun side' => ?_⟩
      · rw [Function.update_self, Channel.send_sent, carries.sent, more, List.map_append]
        rfl
      · rw [Function.update_of_ne side.other_ne]
      · rcases side.eq_or_other side' with rfl | rfl
        · rw [Function.update_self, Channel.received_send]
        · rw [Function.update_of_ne side.other_ne]

/-- A call that receives, if the turn is one, takes the next message of the channel. -/
theorem Carries.delivered (received : (d side.other).received = (c side).line.delivered)
    (calls : (c side).line = (c' side).line ∨ Calls turn (c side).line (c' side).line)
    (next : (c' side).line.delivered <+: (d side.other).sent) :
    ∃ d', channels.Reaches d d' ∧ d' side = d side ∧
      (d' side.other).sent = (d side.other).sent ∧
      (d' side.other).received = (c' side).line.delivered := by
  have idle (same : (c' side).line.delivered = (c side).line.delivered) : ∃ d',
      channels.Reaches d d' ∧ d' side = d side ∧ (d' side.other).sent = (d side.other).sent ∧
      (d' side.other).received = (c' side).line.delivered :=
    ⟨d, .refl, rfl, rfl, by rw [same, received]⟩
  rcases calls with same | calls
  · exact idle (by rw [same])
  · rcases calls.delivered with same | ⟨p, more⟩
    · exact idle same
    · rw [more, ← received] at next
      obtain ⟨channel, taken⟩ := Channel.recv_of_prefix next
      refine ⟨Function.update d side.other channel,
        .single ⟨side.other, .inr ⟨p, channel, taken, rfl⟩⟩, ?_, ?_, ?_⟩
      · rw [Function.update_of_ne side.other_ne.symm]
      · rw [Function.update_self]
        exact (Channel.recv_eq_some taken).2.1
      · rw [Function.update_self, Channel.received_of_recv taken, received, more]

/-- In every run, whatever the turns and whatever fails, the connection does what a pair
of channels could do: no message is lost between two others, doubled, altered or
delivered out of order. -/
theorem connection_refines_channels (capacity : ℕ) :
    System.Simulation (connection capacity).system channels Carries where
  start := ⟨fun _ => rfl, fun _ => rfl⟩
  step := by
    rintro c c' d reachable _ carries ⟨⟨side, turn⟩, moves⟩
    have sane := Sane.of_reachable reachable
    have moved := Connection.moved moves
    have calls := sane.calls moved
    obtain ⟨d₁, first, sent, others, received⟩ := carries.accepted calls
    have next : (c' side).line.delivered <+: (d₁ side.other).sent := by
      rw [others, carries.sent, ← moved.rest]
      have begins := (sane.move moved).delivered side.other
      rw [side.other_other] at begins
      exact begins
    obtain ⟨d₂, second, same, kept, taken⟩ := Carries.delivered
      (by rw [received, carries.received, side.other_other]) calls next
    refine ⟨d₂, first.trans second, fun side' => ?_, fun side' => ?_⟩
    · rcases side.eq_or_other side' with rfl | rfl
      · rw [same, sent]
      · rw [kept, others, carries.sent, moved.rest]
    · rcases side.eq_or_other side' with rfl | rfl
      · rw [same, received, carries.received, moved.rest]
      · rw [taken, side.other_other]

end Riff.Nanomsg
