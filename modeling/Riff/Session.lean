import Riff.Lib.Channel
import Riff.Lib.Transition
import Riff.Support

set_option autoImplicit false

namespace Riff

open Transition

/-- A message without what it carries. `number` tells which request it is, or which
request it answers. -/
structure Signal where
  type : MessageType
  number : ℕ := 0
  deriving DecidableEq

inductive Serving where
  | testing
  | receiving
  | gathering
  | sending
  | returned
  | failed
  deriving DecidableEq

inductive Closing where
  | working
  | stopping
  | joining
  | sendingStop
  | receivingAck
  | done (consumed : Signal)
  deriving DecidableEq

inductive Asking where
  | waiting
  | requesting
  | receiving
  | acking
  | finished
  | failed
  deriving DecidableEq

/-- The conversation of one application with one monitor: one side answers requests
until it is told to stop, the other asks until it hears of it. -/
structure Session where
  stop : Bool := false
  serving : Serving := .testing
  closing : Closing := .working
  asking : Asking := .waiting
  asked : ℕ := 0
  served : ℕ := 0
  current : ℕ := 0
  replied : ℕ := 0
  toMonitor : Channel Signal := {}
  toApplication : Channel Signal := {}

/-- The STOP message, once it has been sent. -/
def Closing.stops : Closing → List Signal
  | .receivingAck | .done _ => [{ type := .stop }]
  | _ => []

/-- Its acknowledgement, once that has been sent. -/
def Asking.acks : Asking → List Signal
  | .finished => [{ type := .stopAck }]
  | _ => []

def Closing.taken : Closing → ℕ
  | .done _ => 1
  | _ => 0

namespace Session

/-- The greeting is sent at most once, at any time. A request that is being answered
when the stop flag is set gets no reply. -/
inductive Step (s : Session) : Session → Prop
  | greets (fresh : ∀ signal ∈ s.toMonitor.sent, signal.type ≠ .start) :
      Step s { s with toMonitor := s.toMonitor.send { type := .start } }
  | returns (serving : s.serving = .testing) (stop : s.stop = true) :
      Step s { s with serving := .returned }
  | listens (serving : s.serving = .testing) (go : s.stop = false) :
      Step s { s with serving := .receiving }
  | receives {signal : Signal} {channel : Channel Signal} (serving : s.serving = .receiving)
      (taken : s.toApplication.recv = some (signal, channel)) :
      Step s { s with
        serving := .gathering
        served := s.served + 1
        current := signal.number
        toApplication := channel }
  | drops (serving : s.serving = .gathering) (stop : s.stop = true) :
      Step s { s with serving := .testing }
  | decides (serving : s.serving = .gathering) (go : s.stop = false) :
      Step s { s with serving := .sending }
  | fails (serving : s.serving = .gathering) (go : s.stop = false) :
      Step s { s with serving := .failed }
  | replies (serving : s.serving = .sending) :
      Step s { s with
        serving := .testing
        replied := s.replied + 1
        toMonitor := s.toMonitor.send { type := .sampleRes, number := s.current } }
  | summarises (closing : s.closing = .working) : Step s { s with closing := .stopping }
  | stops (closing : s.closing = .stopping) : Step s { s with closing := .joining, stop := true }
  | joins (closing : s.closing = .joining) (returned : s.serving = .returned) :
      Step s { s with closing := .sendingStop }
  | announces (closing : s.closing = .sendingStop) :
      Step s { s with
        closing := .receivingAck
        toMonitor := s.toMonitor.send { type := .stop } }
  | consumes {signal : Signal} {channel : Channel Signal} (closing : s.closing = .receivingAck)
      (taken : s.toApplication.recv = some (signal, channel)) :
      Step s { s with closing := .done signal, toApplication := channel }
  | hears {signal : Signal} {channel : Channel Signal} (asking : s.asking = .waiting)
      (taken : s.toMonitor.recv = some (signal, channel)) :
      Step s { s with asking := .requesting, toMonitor := channel }
  | asks (asking : s.asking = .requesting) :
      Step s { s with
        asking := .receiving
        asked := s.asked + 1
        toApplication := s.toApplication.send { type := .sampleReq, number := s.asked + 1 } }
  | learns {signal : Signal} {channel : Channel Signal} (asking : s.asking = .receiving)
      (taken : s.toMonitor.recv = some (signal, channel)) (type : signal.type = .sampleRes) :
      Step s { s with asking := .requesting, toMonitor := channel }
  | ends {signal : Signal} {channel : Channel Signal} (asking : s.asking = .receiving)
      (taken : s.toMonitor.recv = some (signal, channel)) (type : signal.type = .stop) :
      Step s { s with asking := .acking, toMonitor := channel }
  | objects {signal : Signal} {channel : Channel Signal} (asking : s.asking = .receiving)
      (taken : s.toMonitor.recv = some (signal, channel)) (noSample : signal.type ≠ .sampleRes)
      (noStop : signal.type ≠ .stop) :
      Step s { s with asking := .failed, toMonitor := channel }
  | acks (asking : s.asking = .acking) :
      Step s { s with
        asking := .finished
        toApplication := s.toApplication.send { type := .stopAck } }

def system : System Session where
  start := {}
  Step := Step

/-! What each side has sent is determined by how far both have come. -/

def replies (count : ℕ) : List Signal :=
  (List.range count).map fun k => { type := .sampleRes, number := k + 1 }

def requests (count : ℕ) : List Signal :=
  (List.range count).map fun k => { type := .sampleReq, number := k + 1 }

theorem replies_succ (count : ℕ) :
    replies (count + 1) = replies count ++ [{ type := .sampleRes, number := count + 1 }] := by
  simp only [replies, List.range_succ, List.map_append, List.map_cons, List.map_nil]

theorem requests_succ (count : ℕ) :
    requests (count + 1) = requests count ++ [{ type := .sampleReq, number := count + 1 }] := by
  simp only [requests, List.range_succ, List.map_append, List.map_cons, List.map_nil]

@[simp] theorem replies_length (count : ℕ) : (replies count).length = count := by simp [replies]

@[simp] theorem requests_length (count : ℕ) : (requests count).length = count := by simp [requests]

/-- How far the server is behind. -/
def Serves (s : Session) : Prop :=
  match s.serving with
  | .testing => s.served = s.replied ∨ s.stop = true ∧ s.served = s.replied + 1
  | .receiving => s.served = s.replied
  | .gathering | .sending => s.served = s.replied + 1 ∧ s.current = s.served
  | .returned => s.stop = true ∧ (s.served = s.replied ∨ s.served = s.replied + 1)
  | .failed => s.served = s.replied + 1

def Closes (s : Session) : Prop :=
  match s.closing with
  | .working | .stopping => s.stop = false
  | .joining => s.stop = true
  | .sendingStop | .receivingAck => s.stop = true ∧ s.serving = .returned
  | .done consumed => s.stop = true ∧ s.serving = .returned ∧
      (s.served < s.asked ∧ consumed = { type := .sampleReq, number := s.served + 1 } ∨
        s.served = s.asked ∧ s.asking = .finished ∧ consumed = { type := .stopAck })

/-- Where a monitor stands that was greeted by START. -/
def Hears (s : Session) : Prop :=
  match s.asking with
  | .waiting => s.toMonitor.taken = 0 ∧ s.asked = 0
  | .requesting => s.toMonitor.taken = s.asked + 1 ∧ s.asked ≤ s.replied
  | .receiving => s.toMonitor.taken = s.asked ∧ 0 < s.asked ∧ s.asked ≤ s.replied + 1
  | .acking | .finished =>
      s.toMonitor.taken = s.asked + 1 ∧ s.asked = s.replied + 1 ∧ s.closing.stops ≠ []
  | .failed => False

/-- Where a monitor stands that takes STOP for a greeting. -/
def Mishears (s : Session) : Prop :=
  match s.asking with
  | .waiting => s.toMonitor.taken = 0 ∧ s.asked = 0
  | .requesting => s.toMonitor.taken = 1 ∧ s.asked = 0
  | .receiving => s.toMonitor.taken = 1 ∧ s.asked = 1
  | .failed => s.asked = 1
  | .acking | .finished => False

inductive Opening (s : Session) : Prop
  | silent (sent : s.toMonitor.sent = []) (unsaid : s.closing.stops = [])
      (asking : s.asking = .waiting) (asked : s.asked = 0)
  | regular (sent : s.toMonitor.sent = { type := .start } :: (replies s.replied ++ s.closing.stops))
      (hears : Hears s)
  | misled (sent : s.toMonitor.sent = [{ type := .stop }] ∨
        s.toMonitor.sent = [{ type := .stop }, { type := .start }])
      (said : s.closing.stops ≠ []) (replied : s.replied = 0) (served : s.served = 0)
      (mishears : Mishears s)

structure Coherent (s : Session) : Prop where
  asks : s.toApplication.sent = requests s.asked ++ s.asking.acks
  takes : s.toApplication.taken = s.served + s.closing.taken
  served : s.served ≤ s.asked
  serves : Serves s
  closes : Closes s
  opening : Opening s

variable {s t : Session}

/-- What `Opening` depends on. -/
theorem Opening.congr (toMonitor : t.toMonitor = s.toMonitor)
    (stops : t.closing.stops = s.closing.stops) (asking : t.asking = s.asking)
    (asked : t.asked = s.asked) (replied : t.replied = s.replied)
    (served : s.closing.stops ≠ [] → t.served = s.served)
    (opening : Opening s) : Opening t := by
  cases opening with
  | silent sent unsaid waiting none =>
      exact .silent (by rw [toMonitor, sent]) (stops.trans unsaid) (asking.trans waiting)
        (asked.trans none)
  | regular sent hears =>
      refine .regular (by rw [toMonitor, sent, replied, stops]) ?_
      unfold Hears at hears ⊢
      rwa [asking, toMonitor, asked, replied, stops]
  | misled sent said none unserved mishears =>
      refine .misled (by rwa [toMonitor]) (by rwa [stops]) (replied.trans none)
        ((served said).trans unserved) ?_
      unfold Mishears at mishears ⊢
      rwa [asking, toMonitor, asked]

theorem Serves.replied (serves : Serves s) : s.replied ≤ s.served := by
  unfold Serves at serves
  cases serving : s.serving <;> simp only [serving] at serves <;> omega

/-- Before the server has returned, nobody has got further than to wait for it. -/
theorem Closes.unsaid (closes : Closes s) (active : s.serving ≠ .returned) :
    s.closing.stops = [] ∧ s.closing.taken = 0 := by
  unfold Closes at closes
  cases closing : s.closing <;> simp_all [Closing.stops, Closing.taken]

theorem Closes.of_active (closes : Closes s) (active : s.serving ≠ .returned)
    (closing : t.closing = s.closing) (stop : t.stop = s.stop) : Closes t := by
  unfold Closes at closes ⊢
  rw [closing]
  cases here : s.closing <;> simp_all

theorem Closes.of_asking (closes : Closes s) (unfinished : s.asking ≠ .finished)
    (closing : t.closing = s.closing) (stop : t.stop = s.stop) (serving : t.serving = s.serving)
    (served : t.served = s.served) (asked : s.asked ≤ t.asked) : Closes t := by
  unfold Closes at closes ⊢
  rw [closing]
  cases here : s.closing with
  | done consumed =>
      simp only [here] at closes ⊢
      rcases closes with ⟨stopped, returned, ⟨more, request⟩ | ⟨_, finished, _⟩⟩
      · exact ⟨stop.trans stopped, serving.trans returned,
          .inl ⟨by omega, by rw [served, request]⟩⟩
      · exact absurd finished unfinished
  | _ => simp_all

/-- The messages to the application, in the order in which it takes them. -/
theorem Coherent.next (coherent : Coherent s) (untaken : s.closing.taken = 0) {signal : Signal}
    (next : s.toApplication.next = some signal) :
    s.served < s.asked ∧ signal = { type := .sampleReq, number := s.served + 1 } ∨
      s.served = s.asked ∧ s.asking = .finished ∧ signal = { type := .stopAck } := by
  rw [Channel.next, coherent.asks, coherent.takes, untaken, Nat.add_zero,
    List.getElem?_append] at next
  split at next
  · rename_i inside
    rw [requests_length] at inside
    refine .inl ⟨inside, ?_⟩
    simpa [requests, inside] using next.symm
  · rename_i outside
    rw [requests_length] at outside next
    have all : s.served = s.asked := Nat.le_antisymm coherent.served (Nat.le_of_not_lt outside)
    rw [all, Nat.sub_self] at next
    refine .inr ⟨all, ?_⟩
    cases asking : s.asking <;> simp_all [Asking.acks]

/-- The server hears only requests, each of them once and in order. -/
theorem Coherent.next_request (coherent : Coherent s) (serving : s.serving = .receiving)
    {signal : Signal} (next : s.toApplication.next = some signal) :
    s.served < s.asked ∧ signal = { type := .sampleReq, number := s.served + 1 } := by
  have silent := coherent.closes.unsaid (by rw [serving]; exact Serving.noConfusion)
  rcases coherent.next silent.2 next with request | ⟨_, finished, _⟩
  · exact request
  · cases coherent.opening with
    | silent _ _ asking => rw [finished] at asking; cases asking
    | regular _ hears => simp [Hears, finished, silent.1] at hears
    | misled _ said => exact absurd silent.1 said

/-- What a monitor that was greeted by START hears next. -/
theorem Opening.next (sent : s.toMonitor.sent =
      { type := .start } :: (replies s.replied ++ s.closing.stops)) {k : ℕ}
    (taken : s.toMonitor.taken = k + 1) {signal : Signal} (next : s.toMonitor.next = some signal) :
    k < s.replied ∧ signal = { type := .sampleRes, number := k + 1 } ∨
      k = s.replied ∧ s.closing.stops ≠ [] ∧ signal = { type := .stop } := by
  rw [Channel.next, sent, taken, List.getElem?_cons_succ, List.getElem?_append] at next
  split at next
  · rename_i inside
    rw [replies_length] at inside
    refine .inl ⟨inside, ?_⟩
    simpa [replies, inside] using next.symm
  · rename_i outside
    rw [replies_length] at outside next
    cases closing : s.closing <;> simp_all [Closing.stops, List.getElem?_singleton] <;> omega

theorem Coherent.greets (coherent : Coherent s)
    (fresh : ∀ signal ∈ s.toMonitor.sent, signal.type ≠ .start) :
    Opening { s with toMonitor := s.toMonitor.send { type := .start } } := by
  cases coherent.opening with
  | silent sent unsaid asking asked =>
      have none : s.replied = 0 := by
        have behind := coherent.serves.replied
        have limit := coherent.served
        omega
      have untaken : s.toMonitor.taken = 0 := by
        have within := s.toMonitor.within
        rw [sent] at within
        exact Nat.le_zero.mp within
      refine .regular (by simp [sent, none, unsaid, Session.replies]) ?_
      simp only [Hears, asking]
      exact ⟨untaken, asked⟩
  | regular sent hears => simp [sent] at fresh
  | misled sent said replied served mishears =>
      rcases sent with sent | sent
      · exact .misled (.inr (by simp [sent])) said replied served mishears
      · simp [sent] at fresh

/-- A reply is sent only to a monitor that was greeted by START. -/
theorem Coherent.replies (coherent : Coherent s) (serving : s.serving = .sending) :
    Opening { s with
      serving := .testing
      replied := s.replied + 1
      toMonitor := s.toMonitor.send { type := .sampleRes, number := s.current } } := by
  have serves := coherent.serves
  have served := coherent.served
  have silent := coherent.closes.unsaid (by rw [serving]; exact Serving.noConfusion)
  simp only [Serves, serving] at serves
  cases coherent.opening with
  | silent sent unsaid asking asked => omega
  | regular sent hears =>
      refine .regular ?_ ?_
      · rw [Channel.send_sent, sent, serves.2, serves.1, silent.1, List.append_nil,
          List.append_nil, replies_succ, List.cons_append]
      · unfold Hears at hears ⊢
        cases asking : s.asking <;> simp_all <;> omega
  | misled sent said replied unserved mishears => omega

theorem Coherent.announces (coherent : Coherent s) (closing : s.closing = .sendingStop) :
    Opening { s with
      closing := .receivingAck
      toMonitor := s.toMonitor.send { type := .stop } } := by
  cases coherent.opening with
  | silent sent unsaid asking asked =>
      have none := coherent.serves.replied
      have limit := coherent.served
      have untaken : s.toMonitor.taken = 0 := by
        have within := s.toMonitor.within
        rw [sent] at within
        exact Nat.le_zero.mp within
      refine .misled (.inl (by simp [sent])) (List.cons_ne_nil _ _) (by dsimp only; omega)
        (by dsimp only; omega) ?_
      simp only [Mishears, asking]
      exact ⟨untaken, asked⟩
  | regular sent hears =>
      refine .regular (by simp [sent, closing, Closing.stops]) ?_
      unfold Hears at hears ⊢
      cases asking : s.asking <;> simp_all [Closing.stops]
  | misled sent said replied unserved mishears =>
      rw [closing] at said
      exact absurd rfl said

theorem Coherent.hears (coherent : Coherent s) {signal : Signal} {channel : Channel Signal}
    (asking : s.asking = .waiting) (taken : s.toMonitor.recv = some (signal, channel)) :
    Opening { s with asking := .requesting, toMonitor := channel } := by
  obtain ⟨next, same, count⟩ := Channel.recv_eq_some taken
  cases coherent.opening with
  | silent sent unsaid waiting asked => simp [Channel.next, sent] at next
  | regular sent hears =>
      refine .regular (same.trans sent) ?_
      simp only [Hears, asking] at hears ⊢
      omega
  | misled sent said replied served mishears =>
      refine .misled (by rwa [same]) said replied served ?_
      simp only [Mishears, asking] at mishears ⊢
      omega

/-- A monitor that waits for a reply and was greeted by START gets the reply to this
very request, or STOP. -/
theorem Opening.next_reply (asking : s.asking = .receiving)
    (sent : s.toMonitor.sent = { type := .start } :: (Session.replies s.replied ++ s.closing.stops))
    {signal : Signal} (next : s.toMonitor.next = some signal) (hears : Hears s) :
    s.asked ≤ s.replied ∧ signal = { type := .sampleRes, number := s.asked } ∨
      s.asked = s.replied + 1 ∧ s.closing.stops ≠ [] ∧ signal = { type := .stop } := by
  simp only [Hears, asking] at hears
  obtain ⟨count, positive, limit⟩ := hears
  obtain ⟨k, here⟩ := Nat.exists_eq_succ_of_ne_zero (Nat.ne_of_gt positive)
  rw [here] at count ⊢
  rcases Opening.next sent count next with ⟨more, reply⟩ | ⟨all, said, stop⟩
  · exact .inl ⟨more, reply⟩
  · exact .inr ⟨by rw [all], said, stop⟩

/-- One that took STOP for a greeting gets START, if anything. -/
theorem Opening.next_misled (asking : s.asking = .receiving)
    (sent : s.toMonitor.sent = [{ type := .stop }] ∨
      s.toMonitor.sent = [{ type := .stop }, { type := .start }])
    {signal : Signal} (next : s.toMonitor.next = some signal) (mishears : Mishears s) :
    signal = { type := .start } := by
  simp only [Mishears, asking] at mishears
  rw [Channel.next, mishears.1] at next
  rcases sent with sent | sent <;> simp [sent] at next
  exact next.symm

theorem Coherent.learns (coherent : Coherent s) {signal : Signal} {channel : Channel Signal}
    (asking : s.asking = .receiving) (taken : s.toMonitor.recv = some (signal, channel))
    (type : signal.type = .sampleRes) :
    Opening { s with asking := .requesting, toMonitor := channel } := by
  obtain ⟨next, same, count⟩ := Channel.recv_eq_some taken
  cases coherent.opening with
  | silent sent unsaid waiting none => rw [asking] at waiting; cases waiting
  | regular sent hears =>
      rcases Opening.next_reply asking sent next hears with ⟨limit, _⟩ | ⟨_, _, stop⟩
      · refine .regular (same.trans sent) ?_
        simp only [Hears, asking] at hears ⊢
        omega
      · rw [stop] at type
        cases type
  | misled sent said replied unserved mishears =>
      rw [Opening.next_misled asking sent next mishears] at type
      cases type

theorem Coherent.ends (coherent : Coherent s) {signal : Signal} {channel : Channel Signal}
    (asking : s.asking = .receiving) (taken : s.toMonitor.recv = some (signal, channel))
    (type : signal.type = .stop) :
    Opening { s with asking := .acking, toMonitor := channel } := by
  obtain ⟨next, same, count⟩ := Channel.recv_eq_some taken
  cases coherent.opening with
  | silent sent unsaid waiting none => rw [asking] at waiting; cases waiting
  | regular sent hears =>
      rcases Opening.next_reply asking sent next hears with ⟨_, reply⟩ | ⟨last, said, _⟩
      · rw [reply] at type
        cases type
      · refine .regular (same.trans sent) ?_
        simp only [Hears, asking] at hears ⊢
        exact ⟨by omega, last, said⟩
  | misled sent said replied unserved mishears =>
      rw [Opening.next_misled asking sent next mishears] at type
      cases type

theorem Coherent.objects (coherent : Coherent s) {signal : Signal} {channel : Channel Signal}
    (asking : s.asking = .receiving) (taken : s.toMonitor.recv = some (signal, channel))
    (noSample : signal.type ≠ .sampleRes) (noStop : signal.type ≠ .stop) :
    Opening { s with asking := .failed, toMonitor := channel } := by
  obtain ⟨next, same, count⟩ := Channel.recv_eq_some taken
  cases coherent.opening with
  | silent sent unsaid waiting none => rw [asking] at waiting; cases waiting
  | regular sent hears =>
      rcases Opening.next_reply asking sent next hears with ⟨_, reply⟩ | ⟨_, _, stop⟩
      · rw [reply] at noSample
        exact absurd rfl noSample
      · rw [stop] at noStop
        exact absurd rfl noStop
  | misled sent said replied unserved mishears =>
      refine .misled (by rwa [same]) said replied unserved ?_
      simp only [Mishears, asking] at mishears ⊢
      exact mishears.2

/-- The server moves on without a message. -/
theorem Coherent.serve (coherent : Coherent s) {place : Serving} (active : s.serving ≠ .returned)
    (serves : Serves { s with serving := place }) : Coherent { s with serving := place } :=
  ⟨coherent.asks, coherent.takes, coherent.served, serves,
    coherent.closes.of_active active rfl rfl,
    Opening.congr (s := s) rfl rfl rfl rfl rfl (fun _ => rfl) coherent.opening⟩

/-- The monitor takes a message. -/
theorem Coherent.hear (coherent : Coherent s) {place : Asking} {channel : Channel Signal}
    (unfinished : s.asking ≠ .finished) (acks : place.acks = [])
    (opening : Opening { s with asking := place, toMonitor := channel }) :
    Coherent { s with asking := place, toMonitor := channel } := by
  refine ⟨?_, coherent.takes, coherent.served, coherent.serves,
    coherent.closes.of_asking unfinished rfl rfl rfl rfl (Nat.le_refl _), opening⟩
  have unsent : s.asking.acks = [] := by
    cases asking : s.asking <;> simp_all [Asking.acks]
  simpa only [acks, unsent] using coherent.asks

theorem Coherent.step (coherent : Coherent s) (step : Step s t) : Coherent t := by
  have ⟨asks, takes, served, serves, closes, opening⟩ := coherent
  have active : ∀ {place}, s.serving = place → place ≠ .returned → s.serving ≠ .returned := by
    rintro place rfl active
    exact active
  have unfinished : ∀ {place}, s.asking = place → place ≠ .finished → s.asking ≠ .finished := by
    rintro place rfl unfinished
    exact unfinished
  cases step with
  | greets fresh => exact ⟨asks, takes, served, serves, closes, coherent.greets fresh⟩
  | returns serving stop =>
      apply coherent.serve (active serving Serving.noConfusion)
      simp only [Serves, serving] at serves ⊢
      exact ⟨stop, serves.imp_right And.right⟩
  | listens serving go =>
      apply coherent.serve (active serving Serving.noConfusion)
      simpa [Serves, serving, go] using serves
  | receives serving taken =>
      have busy := active serving Serving.noConfusion
      have unsaid := closes.unsaid busy
      obtain ⟨next, sent, count⟩ := Channel.recv_eq_some taken
      obtain ⟨more, request⟩ := coherent.next_request serving next
      refine ⟨sent.trans asks, ?_, more, ?_, closes.of_active busy rfl rfl,
        Opening.congr (s := s) rfl rfl rfl rfl rfl (fun said => absurd unsaid.1 said) opening⟩
      · dsimp only
        omega
      · simp only [Serves, serving] at serves ⊢
        rw [request, serves]
        exact ⟨rfl, rfl⟩
  | drops serving stop =>
      apply coherent.serve (active serving Serving.noConfusion)
      simp only [Serves, serving] at serves ⊢
      exact .inr ⟨stop, serves.1⟩
  | decides serving go =>
      apply coherent.serve (active serving Serving.noConfusion)
      simpa [Serves, serving, go] using serves
  | fails serving go =>
      apply coherent.serve (active serving Serving.noConfusion)
      simp only [Serves, serving] at serves ⊢
      exact serves.1
  | replies serving =>
      refine ⟨asks, takes, served, ?_,
        closes.of_active (active serving Serving.noConfusion) rfl rfl, coherent.replies serving⟩
      simp only [Serves, serving] at serves ⊢
      exact .inl serves.1
  | summarises closing =>
      refine ⟨asks, by simpa [closing, Closing.taken] using takes, served, serves, ?_,
        Opening.congr (s := s) rfl (by simp [closing, Closing.stops]) rfl rfl rfl (fun _ => rfl)
          opening⟩
      simpa [Closes, closing] using closes
  | stops closing =>
      refine ⟨asks, by simpa [closing, Closing.taken] using takes, served, ?_, rfl,
        Opening.congr (s := s) rfl (by simp [closing, Closing.stops]) rfl rfl rfl (fun _ => rfl)
          opening⟩
      unfold Serves at serves ⊢
      cases serving : s.serving <;> simp_all
      omega
  | joins closing returned =>
      refine ⟨asks, by simpa [closing, Closing.taken] using takes, served, serves, ?_,
        Opening.congr (s := s) rfl (by simp [closing, Closing.stops]) rfl rfl rfl (fun _ => rfl)
          opening⟩
      simp only [Closes, closing] at closes ⊢
      exact ⟨closes, returned⟩
  | announces closing =>
      refine ⟨asks, by simpa [closing, Closing.taken] using takes, served, serves, ?_,
        coherent.announces closing⟩
      simpa only [Closes, closing] using closes
  | consumes closing taken =>
      obtain ⟨next, sent, count⟩ := Channel.recv_eq_some taken
      have untaken : s.closing.taken = 0 := by rw [closing]; rfl
      have consumed := coherent.next untaken next
      refine ⟨sent.trans asks, ?_, served, serves, ?_,
        Opening.congr (s := s) rfl (by simp [closing, Closing.stops]) rfl rfl rfl (fun _ => rfl)
          opening⟩
      · change _ = _ + 1
        dsimp only
        omega
      · simp only [Closes, closing] at closes ⊢
        exact ⟨closes.1, closes.2, consumed⟩
  | hears asking taken =>
      exact coherent.hear (unfinished asking Asking.noConfusion) rfl (coherent.hears asking taken)
  | asks asking =>
      refine ⟨?_, takes, Nat.le_succ_of_le served, serves,
        closes.of_asking (unfinished asking Asking.noConfusion) rfl rfl rfl rfl (Nat.le_succ _), ?_⟩
      · simp [asks, asking, Asking.acks, requests_succ]
      · cases opening with
        | silent sent unsaid waiting none => rw [asking] at waiting; cases waiting
        | regular sent hears =>
            refine .regular sent ?_
            simp only [Hears, asking] at hears ⊢
            omega
        | misled sent said replied unserved mishears =>
            refine .misled sent said replied unserved ?_
            simp only [Mishears, asking] at mishears ⊢
            omega
  | learns asking taken type =>
      exact coherent.hear (unfinished asking Asking.noConfusion) rfl
        (coherent.learns asking taken type)
  | ends asking taken type =>
      exact coherent.hear (unfinished asking Asking.noConfusion) rfl
        (coherent.ends asking taken type)
  | objects asking taken noSample noStop =>
      exact coherent.hear (unfinished asking Asking.noConfusion) rfl
        (coherent.objects asking taken noSample noStop)
  | acks asking =>
      refine ⟨?_, takes, served, serves,
        closes.of_asking (unfinished asking Asking.noConfusion) rfl rfl rfl rfl (Nat.le_refl _), ?_⟩
      · simp [asks, asking, Asking.acks]
      · cases opening with
        | silent sent unsaid waiting none => rw [asking] at waiting; cases waiting
        | regular sent hears =>
            refine .regular sent ?_
            simpa only [Hears, asking] using hears
        | misled sent said replied unserved mishears =>
            simp only [Mishears, asking] at mishears

theorem reachable_coherent (reachable : system.Reachable s) : Coherent s := by
  refine reachable.invariant Coherent ?_ fun u v _ coherent step => coherent.step step
  exact ⟨rfl, rfl, Nat.le_refl _, .inl rfl, rfl, .silent rfl rfl rfl rfl⟩

end Session

end Riff
