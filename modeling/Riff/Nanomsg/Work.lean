import Riff.Nanomsg.SocketSteps

set_option autoImplicit false

namespace Riff.Nanomsg

/-! How much the machines of an end can still do without a new call. Each figure leaves room
for the events and tasks that leaving the state gives rise to. -/

def UsockState.rank : UsockState → ℕ
  | .active => 5
  | .removingFd => 1
  | .done => 0

def StreamhdrState.rank : StreamhdrState → ℕ
  | .idle => 0
  | .sending => 7
  | .receiving => 4
  | .stoppingTimerError => 1
  | .stoppingTimerDone => 1
  | .done => 0

def Instate.rank : Instate → ℕ
  | .hdr => 4
  | .body => 1
  | .hasMsg => 0

def Outstate.rank : Outstate → ℕ
  | .idle => 0
  | .sending => 1

def Sipc.rank (s : Sipc) : ℕ :=
  match s.state with
  | .idle => 0
  | .protohdr => 10
  | .stoppingStreamhdr => 9
  | .active => 1 + (s.instate.map Instate.rank).getD 0 + (s.outstate.map Outstate.rank).getD 0
  | .shuttingDown => 1
  | .done => 0

namespace Endpoint

/-- What is in the queues, and the errors that the socket can still report. -/
def load (e : Endpoint) : ℕ := e.usock.state.rank + e.events.length + 3 * e.tasks.length

def phase (e : Endpoint) : ℕ := e.streamhdr.rank + e.sipc.rank

def work (e : Endpoint) : ℕ := e.load + e.phase

end Endpoint

/-- The bytes of an end after a handler that may ask the kernel for some. -/
structure Draws (offer : List UInt8) (e e' : Endpoint) : Prop where
  iov : e'.usock.iov = e.usock.iov
  sent : e'.usock.sent = e.usock.sent
  received : ∃ given, given <+: offer ∧ e'.usock.received = e.usock.received ++ given

/-- What a request of a handler adds to the load, at most. -/
structure Adds (k : ℕ) (offer : List UInt8) (e e' : Endpoint) : Prop where
  streamhdr : e'.streamhdr = e.streamhdr
  sipc : e'.sipc = e.sipc
  draws : Draws offer e e'
  load : e'.load ≤ e.load + k

/-- A handler that leaves no more work than there was. -/
structure Settles (offer : List UInt8) (e e' : Endpoint) : Prop where
  draws : Draws offer e e'
  work : e'.work ≤ e.work

section

variable {e e₁ e₂ e' : Endpoint} {j k : ℕ} {offer : List UInt8}

theorem Draws.same (usock : e'.usock = e.usock) : Draws offer e e' :=
  ⟨by rw [usock], by rw [usock], [], List.nil_prefix, by rw [usock, List.append_nil]⟩

/-- Only one of the parts of a handler asks the kernel. -/
theorem Draws.first (first : Draws offer e e₁) (second : Draws [] e₁ e') : Draws offer e e' := by
  obtain ⟨given, inside, received⟩ := first.received
  obtain ⟨more, none, received'⟩ := second.received
  rw [List.prefix_nil.mp none, List.append_nil] at received'
  exact ⟨second.iov.trans first.iov, second.sent.trans first.sent, given, inside,
    received'.trans received⟩

theorem Draws.second (first : Draws [] e e₁) (second : Draws offer e₁ e') : Draws offer e e' := by
  obtain ⟨given, none, received⟩ := first.received
  obtain ⟨more, inside, received'⟩ := second.received
  rw [List.prefix_nil.mp none, List.append_nil] at received
  exact ⟨second.iov.trans first.iov, second.sent.trans first.sent, more, inside,
    received ▸ received'⟩

namespace Adds

theorem same (streamhdr : e'.streamhdr = e.streamhdr) (sipc : e'.sipc = e.sipc)
    (usock : e'.usock = e.usock) (load : e'.load ≤ e.load + k) : Adds k offer e e' :=
  ⟨streamhdr, sipc, .same usock, load⟩

theorem first (first : Adds j offer e e₁) (second : Adds k [] e₁ e') :
    Adds (j + k) offer e e' where
  streamhdr := second.streamhdr.trans first.streamhdr
  sipc := second.sipc.trans first.sipc
  draws := first.draws.first second.draws
  load := by
    have one := first.load
    have two := second.load
    omega

theorem second (first : Adds j [] e e₁) (second : Adds k offer e₁ e') :
    Adds (j + k) offer e e' where
  streamhdr := second.streamhdr.trans first.streamhdr
  sipc := second.sipc.trans first.sipc
  draws := first.draws.second second.draws
  load := by
    have one := first.load
    have two := second.load
    omega

/-- A request between two changes of state pays for itself by the progress it stands for. -/
theorem settles (adds : Adds k offer e₁ e₂) (before : e₁.usock = e.usock)
    (load : e₁.load = e.load) (after : e'.usock = e₂.usock) (load' : e'.load = e₂.load)
    (pays : e'.phase + k ≤ e.phase) : Settles offer e e' where
  draws := by
    obtain ⟨given, inside, received⟩ := adds.draws.received
    refine ⟨?_, ?_, given, inside, ?_⟩
    · rw [after, adds.draws.iov, before]
    · rw [after, adds.draws.sent, before]
    · rw [after, received, before]
  work := by
    have added := adds.load
    rw [Endpoint.work, Endpoint.work]
    omega

end Adds

namespace Endpoint

theorem raise_adds {event : Event} (raised : e.raise event = some e') : Adds 1 offer e e' := by
  cases raise_some raised
  refine .same rfl rfl rfl ?_
  simp only [load, List.length_append, List.length_singleton]
  omega

theorem execute_adds {task : Task} (given : e.execute task = some e') : Adds 3 offer e e' := by
  cases execute_some given
  refine .same rfl rfl rfl ?_
  simp only [load, List.length_append, List.length_singleton]
  omega

/-- A socket can fail once. -/
theorem usockActionError_adds (failed : e.usockActionError = some e') : Adds 0 offer e e' := by
  rw [usockActionError] at failed
  split at failed
  · rename_i active
    obtain ⟨e₁, given, raised⟩ := Option.bind_eq_some_iff.mp failed
    cases execute_some given
    cases raise_some raised
    refine ⟨rfl, rfl, ⟨rfl, rfl, [], List.nil_prefix, (List.append_nil _).symm⟩, ?_⟩
    simp only [load, active, UsockState.rank, List.length_append, List.length_singleton]
    omega
  · cases failed
    exact .same rfl rfl rfl (Nat.le_refl _)
  · cases failed
    exact .same rfl rfl rfl (Nat.le_refl _)

theorem usockDone_adds (done : e.usockDone = some e') (goes : e.usock.state ≠ .done) :
    Adds 0 offer e e' := by
  rw [usockDone] at done
  cases raise_some done
  have rank : 1 ≤ e.usock.state.rank := by
    cases state : e.usock.state with
    | active | removingFd => decide
    | done => exact absurd state goes
  have none : UsockState.done.rank = 0 := rfl
  refine ⟨rfl, rfl, ⟨rfl, rfl, [], List.nil_prefix, (List.append_nil _).symm⟩, ?_⟩
  simp only [load, List.length_append, List.length_singleton]
  omega

/-- A call of the kernel that receives, as a step of a handler. -/
theorem draws_usock {u : Usock} {given : List UInt8} (inside : given <+: offer)
    (iov : u.iov = e.usock.iov) (sent : u.sent = e.usock.sent)
    (received : u.received = e.usock.received ++ given) (state : u.state = e.usock.state) :
    Adds 0 offer e { e with usock := u } :=
  ⟨rfl, rfl, ⟨iov, sent, given, inside, received⟩, by simp only [load, state]; omega⟩

theorem usockRecv_adds {len : ℕ} {offer : Option (List UInt8)}
    (received : e.usockRecv len offer = some e') : Adds 3 (offer.getD []) e e' := by
  rw [usockRecv] at received
  split at received
  · have adds : Adds 0 (offer.getD []) e e' := usockActionError_adds received
    exact { adds with load := by have := adds.load; omega }
  · obtain ⟨batch, given, inside, frame, _⟩ := e.usock.recvRaw_frame len offer
    have more {k : ℕ} {e₁ : Endpoint} (first : Adds 0 (offer.getD []) e e₁)
        (second : Adds k [] e₁ e') (few : k ≤ 3) : Adds 3 (offer.getD []) e e' :=
      { first.first second with load := by have := (first.first second).load; omega }
    split at received
    · rename_i u raw
      rw [raw] at frame
      cases frame
      exact more (draws_usock inside (by rfl) (by rfl) (by rfl) (by rfl))
        (usockActionError_adds received) (by decide)
    · rename_i bytes u raw
      rw [raw] at frame
      cases frame
      split at received
      · refine more ?_ (raise_adds received) (by decide)
        exact draws_usock inside rfl rfl rfl rfl
      · refine more ?_ (execute_adds received) (by decide)
        exact draws_usock inside rfl rfl rfl rfl

/-! The pipe and the timer. -/

theorem pipebaseReceived_adds (received : e.pipebaseReceived = some e') :
    Adds 1 offer e e' := by
  rw [pipebaseReceived] at received
  split at received
  · cases received
    exact .same rfl rfl rfl (Nat.le_succ _)
  · cases raise_some received
    exact .same rfl rfl rfl (by simp only [load, List.length_append, List.length_singleton]; omega)
  · cases received

theorem pipebaseSent_adds (sent : e.pipebaseSent = some e') : Adds 1 offer e e' := by
  rw [pipebaseSent] at sent
  split at sent
  · cases sent
    exact .same rfl rfl rfl (Nat.le_succ _)
  · cases raise_some sent
    exact .same rfl rfl rfl (by simp only [load, List.length_append, List.length_singleton]; omega)
  · cases sent

theorem pipebaseStart_adds {taken : Bool} (started : e.pipebaseStart = some (taken, e')) :
    Adds 1 offer e e' := by
  rw [pipebaseStart] at started
  split at started
  · cases started
  · split at started
    · cases started
      exact .same rfl rfl rfl (Nat.le_succ _)
    · obtain ⟨e₁, raised, same⟩ := Option.map_eq_some_iff.mp started
      cases same
      cases raise_some raised
      exact .same rfl rfl rfl
        (by simp only [load, List.length_append, List.length_singleton]; omega)

theorem pipebaseStop_adds (stopped : e.pipebaseStop = some e') : Adds 0 offer e e' := by
  rw [pipebaseStop] at stopped
  split at stopped
  · obtain ⟨e₁, removed, rfl⟩ := Option.map_eq_some_iff.mp stopped
    rw [exclRm] at removed
    split at removed
    · cases removed
      exact .same rfl rfl rfl (Nat.le_refl _)
    · cases removed
  · cases stopped
    exact .same rfl rfl rfl (Nat.le_refl _)

theorem timerStop_adds (stopped : e.timerStop = some e') : Adds 3 offer e e' := by
  rw [timerStop] at stopped
  split at stopped
  · cases execute_some stopped
    exact .same rfl rfl rfl (by simp only [load, List.length_append, List.length_singleton]; omega)
  · cases stopped
    exact .same rfl rfl rfl (Nat.le_add_right _ _)

/-! The handlers. -/

theorem settled (draws : Draws offer e e') (load : e'.load ≤ e.load)
    (phase : e'.phase ≤ e.phase) : Settles offer e e' where
  draws := draws
  work := Nat.add_le_add load phase

theorem streamhdrStopTimer_settles {state : StreamhdrState}
    (stopped : e.streamhdrStopTimer state = some e')
    (pays : state.rank + 3 ≤ e.streamhdr.rank) : Settles offer e e' := by
  obtain ⟨e₁, timed, rfl⟩ := Option.map_eq_some_iff.mp stopped
  have adds : Adds 3 offer e e₁ := timerStop_adds timed
  refine adds.settles rfl rfl rfl rfl ?_
  simp only [phase, adds.sipc]
  omega

theorem streamhdrUsock_settles {type : UsockEvent} {offer : Option (List UInt8)}
    (handled : e.streamhdrUsock type offer = some e') : Settles (offer.getD []) e e' := by
  have ignored (same : some e = some e') : Settles (offer.getD []) e e' := by
    cases same
    exact settled (.same rfl) (Nat.le_refl _) (Nat.le_refl _)
  unfold streamhdrUsock at handled
  split at handled
  · rename_i sending
    obtain ⟨e₁, received, rfl⟩ := Option.map_eq_some_iff.mp handled
    have adds := usockRecv_adds received
    refine adds.settles rfl rfl rfl rfl ?_
    simp only [phase, adds.sipc, sending, StreamhdrState.rank]
    omega
  · exact ignored handled
  · rename_i sending
    exact streamhdrStopTimer_settles handled (by rw [sending]; decide)
  · rename_i receiving
    split at handled
    · exact streamhdrStopTimer_settles handled (by rw [receiving]; decide)
    · exact streamhdrStopTimer_settles handled (by rw [receiving]; decide)
  · exact ignored handled
  · rename_i receiving
    exact streamhdrStopTimer_settles handled (by rw [receiving]; decide)
  · exact ignored handled
  · exact ignored handled
  · cases handled

theorem streamhdrTimer_settles {type : TimerEvent} (handled : e.streamhdrTimer type = some e') :
    Settles offer e e' := by
  unfold streamhdrTimer at handled
  split at handled
  · rename_i sending
    exact streamhdrStopTimer_settles handled (by rw [sending]; decide)
  · rename_i receiving
    exact streamhdrStopTimer_settles handled (by rw [receiving]; decide)
  · rename_i stopping
    refine (raise_adds handled).settles rfl rfl rfl rfl ?_
    cases raise_some handled
    simp only [phase, stopping, StreamhdrState.rank]
    omega
  · rename_i stopping
    refine (raise_adds handled).settles rfl rfl rfl rfl ?_
    cases raise_some handled
    simp only [phase, stopping, StreamhdrState.rank]
    omega
  · cases handled

theorem sipcFail_settles (failed : e.sipcFail = some e') (pays : 1 ≤ e.sipc.rank) :
    Settles offer e e' := by
  rw [sipcFail] at failed
  refine (raise_adds failed).settles rfl rfl rfl rfl ?_
  cases raise_some failed
  simp only [phase, Sipc.rank] at pays ⊢
  omega

theorem sipcReceived_settles {offer : Option (List UInt8)} (active : e.sipc.state = .active)
    (handled : e.sipcReceived offer = some e') : Settles (offer.getD []) e e' := by
  simp only [sipcReceived] at handled
  split at handled
  · rename_i hdr
    split at handled
    · cases handled
    · split at handled
      · have adds : Adds 1 (offer.getD []) _ e' := pipebaseReceived_adds handled
        refine adds.settles rfl rfl rfl rfl ?_
        simp only [phase, adds.streamhdr, adds.sipc, Sipc.rank, active, hdr, Option.map_some,
          Option.getD_some, Instate.rank]
        omega
      · have adds := usockRecv_adds handled
        refine adds.settles rfl rfl rfl rfl ?_
        simp only [phase, adds.streamhdr, adds.sipc, Sipc.rank, active, hdr, Option.map_some,
          Option.getD_some, Instate.rank]
        omega
  · rename_i body
    have adds : Adds 1 (offer.getD []) _ e' := pipebaseReceived_adds handled
    refine adds.settles rfl rfl rfl rfl ?_
    simp only [phase, adds.streamhdr, adds.sipc, Sipc.rank, active, body, Option.map_some,
      Option.getD_some, Instate.rank]
    omega
  · cases handled

theorem sipcUsock_settles {type : UsockEvent} {offer : Option (List UInt8)}
    (handled : e.sipcUsock type offer = some e') : Settles (offer.getD []) e e' := by
  unfold sipcUsock at handled
  split at handled
  · rename_i active
    split at handled
    · rename_i sending
      have adds : Adds 1 (offer.getD []) _ e' := pipebaseSent_adds handled
      refine adds.settles rfl rfl rfl rfl ?_
      simp only [phase, adds.streamhdr, adds.sipc, Sipc.rank, active, sending, Option.map_some,
        Option.getD_some, Outstate.rank]
      omega
    · cases handled
  · rename_i active
    exact sipcReceived_settles active handled
  · rename_i active
    obtain ⟨e₁, stopped, rfl⟩ := Option.map_eq_some_iff.mp handled
    have adds : Adds 0 (offer.getD []) e e₁ := pipebaseStop_adds stopped
    refine adds.settles rfl rfl rfl rfl ?_
    simp only [phase, adds.streamhdr, Sipc.rank, active]
    omega
  · rename_i active
    obtain ⟨e₁, stopped, failed⟩ := Option.bind_eq_some_iff.mp handled
    have adds : Adds 0 [] e e₁ := pipebaseStop_adds stopped
    have settles : Settles (offer.getD []) e₁ e' := sipcFail_settles failed (by
      rw [adds.sipc]
      simp only [Sipc.rank, active]
      omega)
    refine ⟨adds.draws.second settles.draws, ?_⟩
    have added := adds.load
    have work := settles.work
    simp only [Endpoint.work, phase, adds.streamhdr, adds.sipc] at work ⊢
    omega
  · rename_i shuttingDown
    exact sipcFail_settles handled (by simp only [Sipc.rank, shuttingDown]; omega)
  · cases handled

theorem sipcStreamhdr_settles {type : StreamhdrEvent} {offer : Option (List UInt8)}
    (handled : e.sipcStreamhdr type offer = some e') : Settles (offer.getD []) e e' := by
  unfold sipcStreamhdr at handled
  split at handled
  · rename_i protohdr
    obtain ⟨e₁, stopped, rfl⟩ := Option.map_eq_some_iff.mp handled
    rw [streamhdrStop] at stopped
    split at stopped
    · refine (raise_adds stopped).settles rfl rfl rfl rfl ?_
      cases raise_some stopped
      simp only [phase, Sipc.rank, protohdr, StreamhdrState.rank]
      omega
    · cases stopped
  · rename_i protohdr
    exact sipcFail_settles handled (by simp only [Sipc.rank, protohdr]; omega)
  · rename_i stopping
    split at handled
    · cases handled
    · rename_i e₁ started
      have adds : Adds 1 [] e e₁ := pipebaseStart_adds started
      rw [sipcFail] at handled
      cases raise_some handled
      refine ⟨adds.draws.second (.same rfl), ?_⟩
      have added := adds.load
      simp only [Endpoint.work, load, phase, adds.streamhdr, Sipc.rank, stopping,
        List.length_append, List.length_singleton] at added ⊢
      omega
    · rename_i e₁ started
      obtain ⟨e₂, received, rfl⟩ := Option.map_eq_some_iff.mp handled
      have adds : Adds 1 [] e e₁ := pipebaseStart_adds started
      have adds' := usockRecv_adds received
      refine ⟨adds.draws.second ⟨adds'.draws.iov, adds'.draws.sent, adds'.draws.received⟩, ?_⟩
      have added := adds.load
      have added' := adds'.load
      simp only [Endpoint.work, load, phase, adds'.streamhdr, adds.streamhdr, adds'.sipc, Sipc.rank,
        stopping, Option.map_some, Option.getD_some, Instate.rank, Outstate.rank] at added added' ⊢
      omega
  · cases handled

theorem process_settles {event : Event} {offer : Option (List UInt8)}
    (handled : process event offer e = some e') : Settles (offer.getD []) e e' := by
  cases event with
  | usock owner type =>
      cases owner with
      | streamhdr => exact streamhdrUsock_settles handled
      | sipc => exact sipcUsock_settles handled
  | timer type => exact streamhdrTimer_settles handled
  | streamhdr type => exact sipcStreamhdr_settles handled
  | pipeIn =>
      simp only [process, exclIn] at handled
      split at handled
      · cases handled
        exact settled (.same rfl) (Nat.le_refl _) (Nat.le_refl _)
      · cases handled
  | pipeOut =>
      simp only [process, exclOut] at handled
      split at handled
      · cases handled
        exact settled (.same rfl) (Nat.le_refl _) (Nat.le_refl _)
      · cases handled
  | sipcError =>
      cases handled
      exact settled (.same rfl) (Nat.le_refl _) (Nat.le_refl _)

/-! The worker. Its turns may add one event. -/

/-- A task is worth more than what the worker does for it. -/
theorem workerTask_works (some_ : e.tasks ≠ []) (worked : e.workerTask = some e') :
    Draws [] e e' ∧ e'.work + 2 ≤ e.work := by
  rw [workerTask] at worked
  split at worked
  · contradiction
  · rename_i tasks first
    cases worked
    refine ⟨⟨rfl, rfl, [], List.nil_prefix, (List.append_nil _).symm⟩, ?_⟩
    simp only [work, load, phase, first, List.length_cons]
    omega
  · rename_i tasks first
    cases worked
    refine ⟨⟨rfl, rfl, [], List.nil_prefix, (List.append_nil _).symm⟩, ?_⟩
    simp only [work, load, phase, first, List.length_cons]
    omega
  · rename_i tasks first
    rw [usockTaskStop] at worked
    split at worked
    · cases worked
    · rename_i removing
      have adds : Adds 0 [] { e with tasks := tasks } e' :=
        usockDone_adds worked (by rw [removing]; decide)
      refine ⟨⟨adds.draws.iov, adds.draws.sent, adds.draws.received⟩, ?_⟩
      have added := adds.load
      simp only [work, load, phase, first, adds.streamhdr, adds.sipc, List.length_cons] at added ⊢
      omega
    · cases worked
      refine ⟨.same rfl, ?_⟩
      simp only [work, load, phase, first, List.length_cons]
      omega
  · rename_i tasks first
    rw [timerTaskStop] at worked
    split at worked
    · cases raise_some worked
      refine ⟨.same rfl, ?_⟩
      simp only [work, load, phase, first, List.length_cons, List.length_append, List.length_nil]
      omega
    · cases worked

/-- A socket in use that fails has less to do. -/
theorem usockDone_works {u : Usock} (active : e.usock.state = .active)
    (done : usockDone { e with usock := u } = some e') :
    e'.usock = { u with registered := false, state := .done } ∧ e'.work + 4 ≤ e.work := by
  rw [usockDone] at done
  cases raise_some done
  have none : UsockState.done.rank = 0 := rfl
  have some_ : UsockState.active.rank = 5 := rfl
  refine ⟨rfl, ?_⟩
  simp only [work, load, phase, active, List.length_append, List.length_singleton]
  omega

/-- The worker hands over some bytes, or finds the connection broken. -/
theorem usockFdOut_works {room : Option ℕ} (active : e.usock.state = .active)
    (busy : OutBusy e.usock e.tasks) (some_ : room ≠ some 0)
    (worked : e.usockFdOut room = some e') :
    ∃ now, now.length ≤ room.getD 0 ∧ e'.usock.sent = e.usock.sent ++ now ∧
      e'.usock.iov.flatten.length + now.length = e.usock.iov.flatten.length ∧
      e'.usock.received = e.usock.received ∧ e'.work + 2 ≤ e.work + 3 * now.length := by
  simp only [usockFdOut, active] at worked
  cases room with
  | none =>
      obtain ⟨usock, less⟩ := usockDone_works (u := e.usock) active worked
      refine ⟨[], Nat.le_refl 0, by simp [usock], by simp [usock], by rw [usock], by omega⟩
  | some room =>
      obtain ⟨now, later, rest, split, length, left, whole, sent⟩ :=
        Usock.sendRaw_eq busy.nonempty room
      have more := List.length_pos_of_ne_nil (mt (eq_nil_of_flatten busy.nonempty) busy.more)
      have positive : 0 < room := Nat.pos_of_ne_zero fun zero => some_ (by rw [zero])
      have total : rest.flatten.length + now.length = e.usock.iov.flatten.length := by
        rw [split, left, List.length_append, Nat.add_comm]
      rw [sent] at worked
      by_cases all : later = []
      · simp only [all, ↓reduceIte] at worked
        cases raise_some worked
        refine ⟨now, ?_, rfl, total, rfl, ?_⟩
        · rw [Option.getD_some]
          omega
        · simp only [work, load, phase, List.length_append, List.length_singleton]
          omega
      · simp only [all, ↓reduceIte] at worked
        cases worked
        refine ⟨now, ?_, rfl, total, rfl, ?_⟩
        · rw [Option.getD_some]
          omega
        · simp only [work, load, phase]
          omega

/-- The worker gets some bytes, or finds the connection broken. -/
theorem usockFdIn_works {n : ℕ} {offer : Option (List UInt8)} (active : e.usock.state = .active)
    (busy : InBusy e.usock e.tasks n) (some_ : offer ≠ some [])
    (worked : e.usockFdIn offer = some e') :
    ∃ given, given <+: offer.getD [] ∧ e'.usock.received = e.usock.received ++ given ∧
      e'.usock.iov = e.usock.iov ∧ e'.usock.sent = e.usock.sent ∧
      e'.work + 2 ≤ e.work + 3 * given.length := by
  simp only [usockFdIn, active] at worked
  cases offer with
  | none =>
      obtain ⟨batch, given, inside, frame, _⟩ := e.usock.recvRaw_frame e.usock.len none
      have asks : ¬ (min e.usock.batch.length e.usock.len ≠ 0 ∧
          e.usock.len - min e.usock.batch.length e.usock.len = 0) := by
        simp [busy.batch]
      have fails : (e.usock.recvRaw e.usock.len none).1 = none := by
        simp only [Usock.recvRaw, if_neg asks]
      rw [← Prod.mk.eta (p := e.usock.recvRaw e.usock.len none), fails, frame] at worked
      rw [List.prefix_nil.mp inside] at worked
      obtain ⟨usock, less⟩ := usockDone_works active worked
      exact ⟨[], List.nil_prefix, by rw [usock], by rw [usock], by rw [usock], by omega⟩
  | some offer =>
      cases offer with
      | nil => contradiction
      | cons b offer =>
          obtain ⟨bytes, batch, given, positive, inside, taken⟩ :=
            Usock.recvRaw_takes busy.batch busy.wants b offer
          rw [taken] at worked
          simp only at worked
          split at worked
          · cases raise_some worked
            refine ⟨given, inside, rfl, rfl, rfl, ?_⟩
            simp only [work, load, phase, List.length_append, List.length_singleton]
            omega
          · cases worked
            refine ⟨given, inside, rfl, rfl, rfl, ?_⟩
            simp only [work, load, phase]
            omega

end Endpoint

end

end Riff.Nanomsg
