import TestRpc.TransitionRuns

/-!
# Threads that call stubs

The transport of all stubs of a process goes through the one static `sock`:
`connect_to_server` stores the new socket in it, and `send`, `recv` and
`close` use whatever it holds then.  Each of these is one step of a call, and
the steps of calls in different threads interleave.  A call keeps to its own
connection in the runs in which no call connects while another one is between
its `connect` and its `close`, and in which `read` can allocate its response;
a `read` that cannot returns with its connection open.
-/

namespace TestRpc

open TransitionRuns

/-! ## States and steps -/

/-- How far a call has got.  A `send` or `recv` that fails is followed by
`real_close(sock)` all the same; a `read` whose `response_payload` cannot be
allocated behind its `send` is not. -/
inductive CallPhase
  | start
  | connected
  | sent
  | received
  | failing
  | done
  | failed
  | abandoned
  deriving DecidableEq

def CallPhase.active : CallPhase → Bool
  | .start => false
  | .connected => true
  | .sent => true
  | .received => true
  | .failing => true
  | .done => false
  | .failed => false
  | .abandoned => false

/-- A call of a stub: its request, the connection that it opened, and the
history of the connections that its `send`, `recv` and `close` acted on, with
what `recv` returned. -/
structure StubCall where
  request : List UInt8
  phase : CallPhase
  own : Option ℕ
  sentOn : List ℕ
  receivedFrom : List ℕ
  response : Option (List UInt8)
  closed : List ℕ
  deriving DecidableEq

def StubCall.fresh (request : List UInt8) : StubCall :=
  ⟨request, .start, none, [], [], none, []⟩

/-- The client process: the static `sock` (`none` for `-1`), the connections
that its sockets refer to, the bytes sent on each connection, and the calls
made so far. -/
structure ClientThreads where
  sock : Option ℕ
  sockets : ℕ → Option ℕ
  connections : List (List UInt8)
  calls : List StubCall

def ClientThreads.initial : ClientThreads where
  sock := some 0
  sockets := fun _ => none
  connections := []
  calls := []

/-- The steps of the calls.  `connect` is given the descriptor that `socket`
returns; a `connect_to_server` that fails has either got none or closed it
again. -/
inductive CallEvent
  | call (request : List UInt8)
  | connect (index fildes : ℕ)
  | connectFails (index : ℕ) (fildes : Option ℕ)
  | send (index : ℕ)
  | sendFails (index : ℕ)
  | recv (index : ℕ)
  | recvFails (index : ℕ)
  | mallocFails (index : ℕ)
  | close (index : ℕ)

def ClientThreads.current (threads : ClientThreads) : Option ℕ :=
  threads.sock.bind threads.sockets

def ClientThreads.setCall (threads : ClientThreads) (index : ℕ)
    (call : StubCall) : ClientThreads :=
  { threads with calls := threads.calls.set index call }

/-- `connect_to_server` -/
def ClientThreads.connect (threads : ClientThreads) (index fildes : ℕ)
    (call : StubCall) : Option ClientThreads :=
  if call.phase = .start ∧ threads.sockets fildes = none then
    some ({ threads with
      sock := some fildes
      sockets := Function.update threads.sockets fildes
        (some threads.connections.length)
      connections := threads.connections ++ [[]] }.setCall index
        { call with
          phase := .connected
          own := some threads.connections.length })
  else
    none

def ClientThreads.connectFails (threads : ClientThreads) (index : ℕ)
    (fildes : Option ℕ) (call : StubCall) : Option ClientThreads :=
  if call.phase = .start ∧ fildes.bind threads.sockets = none then
    some ({ threads with sock := fildes }.setCall index
      { call with phase := .failed })
  else
    none

/-- `send(sock, …)` -/
def ClientThreads.send (threads : ClientThreads) (index : ℕ)
    (call : StubCall) : Option ClientThreads :=
  match call.phase, threads.current with
  | .connected, some connection =>
      some ({ threads with
        connections := threads.connections.modify connection
          fun bytes => bytes ++ call.request }.setCall index
          { call with phase := .sent, sentOn := call.sentOn ++ [connection] })
  | _, _ => none

/-- `recv(sock, …)`, which returns what the server answers to what it got on
that connection. -/
def ClientThreads.recv (answer : ℕ → List UInt8 → List UInt8)
    (threads : ClientThreads) (index : ℕ) (call : StubCall) :
    Option ClientThreads :=
  match call.phase, threads.current with
  | .sent, some connection =>
      some (threads.setCall index
        { call with
          phase := .received
          receivedFrom := call.receivedFrom ++ [connection]
          response := (threads.connections[connection]?).map
            (answer connection) })
  | _, _ => none

def ClientThreads.fail (threads : ClientThreads) (index : ℕ)
    (call : StubCall) (phase : CallPhase) : Option ClientThreads :=
  if call.phase = phase then
    some (threads.setCall index { call with phase := .failing })
  else
    none

/-- `read` without its `response_payload`. -/
def ClientThreads.abandon (threads : ClientThreads) (index : ℕ)
    (call : StubCall) : Option ClientThreads :=
  if call.phase = .sent then
    some (threads.setCall index { call with phase := .abandoned })
  else
    none

/-- `real_close(sock)`; a call whose `close` fails returns `-1`. -/
def ClientThreads.close (threads : ClientThreads) (index : ℕ)
    (call : StubCall) : Option ClientThreads :=
  if call.phase = .received ∨ call.phase = .failing then
    match threads.sock, threads.current with
    | some fildes, some connection =>
        some ({ threads with
          sockets := Function.update threads.sockets fildes none }.setCall
            index
            { call with
              phase := if call.phase = CallPhase.received then .done
                else .failed
              closed := call.closed ++ [connection] })
    | _, _ => some (threads.setCall index { call with phase := .failed })
  else
    none

def ClientThreads.step (answer : ℕ → List UInt8 → List UInt8)
    (threads : ClientThreads) : CallEvent → Option ClientThreads
  | .call request =>
      some { threads with calls := threads.calls ++ [.fresh request] }
  | .connect index fildes =>
      (threads.calls[index]?).bind (threads.connect index fildes)
  | .connectFails index fildes =>
      (threads.calls[index]?).bind (threads.connectFails index fildes)
  | .send index => (threads.calls[index]?).bind (threads.send index)
  | .sendFails index =>
      (threads.calls[index]?).bind fun call =>
        threads.fail index call .connected
  | .recv index => (threads.calls[index]?).bind (threads.recv answer index)
  | .recvFails index =>
      (threads.calls[index]?).bind fun call => threads.fail index call .sent
  | .mallocFails index => (threads.calls[index]?).bind (threads.abandon index)
  | .close index => (threads.calls[index]?).bind (threads.close index)

/-- A call connects only while no call is between its `connect` and its
`close`, and `read` can allocate its response. -/
def OneAtATime (threads : ClientThreads) : CallEvent → Prop
  | .connect _ _ => ∀ call ∈ threads.calls, call.phase.active = false
  | .connectFails _ _ => ∀ call ∈ threads.calls, call.phase.active = false
  | .mallocFails _ => False
  | _ => True

instance (threads : ClientThreads) (event : CallEvent) :
    Decidable (OneAtATime threads event) :=
  match event with
  | .connect _ _ | .connectFails _ _ =>
      inferInstanceAs
        (Decidable (∀ call ∈ threads.calls, call.phase.active = false))
  | .mallocFails _ => isFalse id
  | .call _ | .send _ | .sendFails _ | .recv _ | .recvFails _ | .close _ =>
      isTrue trivial

section Server

variable (answer : ℕ → List UInt8 → List UInt8)

/-! ## Calls that keep to their connection -/

/-- A call that has used no connection but its own, each step of it once, and
has got the server's response to its own request. -/
def StubCall.Progress (call : StubCall) : Prop :=
  match call.phase with
  | .start =>
      call.own = none ∧ call.sentOn = [] ∧ call.receivedFrom = [] ∧
        call.closed = []
  | .connected => ∃ connection, call.own = some connection ∧
      call.sentOn = [] ∧ call.receivedFrom = [] ∧ call.closed = []
  | .sent => ∃ connection, call.own = some connection ∧
      call.sentOn = [connection] ∧ call.receivedFrom = [] ∧ call.closed = []
  | .received => ∃ connection, call.own = some connection ∧
      call.sentOn = [connection] ∧ call.receivedFrom = [connection] ∧
        call.closed = [] ∧
        call.response = some (answer connection call.request)
  | .failing => ∃ connection, call.own = some connection ∧
      (call.sentOn = [] ∨ call.sentOn = [connection]) ∧
        call.receivedFrom = [] ∧ call.closed = []
  | .done => ∃ connection, call.own = some connection ∧
      call.sentOn = [connection] ∧ call.receivedFrom = [connection] ∧
        call.closed = [connection] ∧
        call.response = some (answer connection call.request)
  | .failed =>
      call.own = none ∧ call.sentOn = [] ∧ call.receivedFrom = [] ∧
        call.closed = [] ∨
      ∃ connection, call.own = some connection ∧
        (call.sentOn = [] ∨ call.sentOn = [connection]) ∧
          call.receivedFrom = [] ∧ call.closed = [connection]
  | .abandoned => False

/-- `sock` refers to the call's own connection, on which the server has got
nothing before the call's `send` and its request after it. -/
def StubCall.Holds (threads : ClientThreads) (call : StubCall) : Prop :=
  ∃ connection bytes, threads.current = some connection ∧
    call.own = some connection ∧
    threads.connections[connection]? = some bytes ∧
    (call.phase = .connected → bytes = []) ∧
    (call.phase = .sent → bytes = call.request)

/-- At most one call is between its `connect` and its `close`, and `sock` is
that call's. -/
structure ClientThreads.Exclusive (threads : ClientThreads) : Prop where
  progress : ∀ call ∈ threads.calls, call.Progress answer
  holds : ∀ call ∈ threads.calls, call.phase.active = true →
    call.Holds threads
  single : ∀ (i j : ℕ) (left right : StubCall),
    threads.calls[i]? = some left → threads.calls[j]? = some right →
    left.phase.active = true → right.phase.active = true → i = j

variable {answer}

theorem ClientThreads.initial_exclusive :
    ClientThreads.initial.Exclusive answer where
  progress := fun _ hmem => by cases hmem
  holds := fun _ hmem => by cases hmem
  single := fun _ _ _ _ hleft => by cases hleft

theorem ClientThreads.Exclusive.others_inactive {threads : ClientThreads}
    (hinv : threads.Exclusive answer) {index : ℕ} {call : StubCall}
    (hcall : threads.calls[index]? = some call)
    (hactive : call.phase.active = true) :
    ∀ (i : ℕ) (other : StubCall), i ≠ index →
      threads.calls[i]? = some other → other.phase.active = false := by
  intro i other hne hother
  cases hphase : other.phase.active with
  | false => rfl
  | true => exact absurd (hinv.single i index other call hother hcall hphase
      hactive) hne

theorem ClientThreads.Exclusive.setCall {threads next : ClientThreads}
    (hinv : threads.Exclusive answer) {index : ℕ} {call : StubCall}
    (hothers : ∀ (i : ℕ) (other : StubCall), i ≠ index →
      threads.calls[i]? = some other → other.phase.active = false)
    (hcalls : next.calls = threads.calls.set index call)
    (hprogress : call.Progress answer)
    (hholds : call.phase.active = true → call.Holds next) :
    next.Exclusive answer := by
  have hcases : ∀ (i : ℕ) (other : StubCall), next.calls[i]? = some other →
      i = index ∧ other = call ∨ i ≠ index ∧
        threads.calls[i]? = some other := by
    intro i other hother
    rw [hcalls] at hother
    exact getElem?_set_cases hother
  have hindex : ∀ (i : ℕ) (other : StubCall), next.calls[i]? = some other →
      other.phase.active = true → i = index ∧ other = call := by
    intro i other hother hactive
    rcases hcases i other hother with hsame | ⟨hne, hold⟩
    · exact hsame
    · rw [hothers i other hne hold] at hactive
      cases hactive
  constructor
  · intro other hmem
    obtain ⟨i, hother⟩ := List.mem_iff_getElem?.mp hmem
    rcases hcases i other hother with ⟨_, rfl⟩ | ⟨_, hold⟩
    · exact hprogress
    · exact hinv.progress other (List.mem_of_getElem? hold)
  · intro other hmem hactive
    obtain ⟨i, hother⟩ := List.mem_iff_getElem?.mp hmem
    obtain ⟨_, rfl⟩ := hindex i other hother hactive
    exact hholds hactive
  · intro i j left right hleft hright hleftActive hrightActive
    exact (hindex i left hleft hleftActive).1.trans
      (hindex j right hright hrightActive).1.symm

theorem ClientThreads.Exclusive.call {threads : ClientThreads}
    (hinv : threads.Exclusive answer) (request : List UInt8) :
    ClientThreads.Exclusive answer
      { threads with calls := threads.calls ++ [.fresh request] } := by
  have hold : ∀ (i : ℕ) (other : StubCall),
      (threads.calls ++ [.fresh request])[i]? = some other →
      other.phase.active = true → threads.calls[i]? = some other := by
    intro i other hother hactive
    rcases getElem?_append_singleton hother with hold | ⟨_, rfl⟩
    · exact hold
    · cases hactive
  constructor
  · intro other hmem
    rcases List.mem_append.mp hmem with hmem | hnew
    · exact hinv.progress other hmem
    · rw [List.mem_singleton.mp hnew]
      exact ⟨rfl, rfl, rfl, rfl⟩
  · intro other hmem hactive
    obtain ⟨i, hother⟩ := List.mem_iff_getElem?.mp hmem
    exact hinv.holds other
      (List.mem_of_getElem? (hold i other hother hactive)) hactive
  · intro i j left right hleft hright hleftActive hrightActive
    exact hinv.single i j left right (hold i left hleft hleftActive)
      (hold j right hright hrightActive) hleftActive hrightActive

theorem ClientThreads.Exclusive.connect {threads next : ClientThreads}
    (hinv : threads.Exclusive answer)
    (hidle : ∀ call ∈ threads.calls, call.phase.active = false)
    {index fildes : ℕ} {call : StubCall}
    (hcall : threads.calls[index]? = some call)
    (hstep : threads.connect index fildes call = some next) :
    next.Exclusive answer := by
  simp only [ClientThreads.connect] at hstep
  split at hstep
  · next hstart =>
    cases hstep
    have hprogress := hinv.progress call (List.mem_of_getElem? hcall)
    simp only [StubCall.Progress, hstart.1] at hprogress
    refine hinv.setCall (fun i other _ hother =>
      hidle other (List.mem_of_getElem? hother)) rfl ?_ fun _ => ?_
    · exact ⟨_, rfl, hprogress.2⟩
    · refine ⟨threads.connections.length, [], ?_, rfl, ?_, fun _ => rfl,
        nofun⟩
      · simp [ClientThreads.current, ClientThreads.setCall]
      · simp [ClientThreads.setCall]
  · cases hstep

theorem ClientThreads.Exclusive.connectFails {threads next : ClientThreads}
    (hinv : threads.Exclusive answer)
    (hidle : ∀ call ∈ threads.calls, call.phase.active = false)
    {index : ℕ} {fildes : Option ℕ} {call : StubCall}
    (hcall : threads.calls[index]? = some call)
    (hstep : threads.connectFails index fildes call = some next) :
    next.Exclusive answer := by
  simp only [ClientThreads.connectFails] at hstep
  split at hstep
  · next hstart =>
    cases hstep
    have hprogress := hinv.progress call (List.mem_of_getElem? hcall)
    simp only [StubCall.Progress, hstart.1] at hprogress
    exact hinv.setCall (fun i other _ hother =>
      hidle other (List.mem_of_getElem? hother)) rfl (.inl hprogress) nofun
  · cases hstep

theorem ClientThreads.Exclusive.holds_current {threads : ClientThreads}
    (hinv : threads.Exclusive answer) {index : ℕ} {call : StubCall}
    (hcall : threads.calls[index]? = some call)
    (hactive : call.phase.active = true) {connection : ℕ}
    (hcurrent : threads.current = some connection) :
    ∃ bytes, call.own = some connection ∧
      threads.connections[connection]? = some bytes ∧
      (call.phase = .connected → bytes = []) ∧
      (call.phase = .sent → bytes = call.request) := by
  obtain ⟨own, bytes, hown, hrest⟩ :=
    hinv.holds call (List.mem_of_getElem? hcall) hactive
  rw [hcurrent, Option.some.injEq] at hown
  exact ⟨bytes, hown ▸ hrest⟩

theorem ClientThreads.Exclusive.send {threads next : ClientThreads}
    (hinv : threads.Exclusive answer) {index : ℕ} {call : StubCall}
    (hcall : threads.calls[index]? = some call)
    (hstep : threads.send index call = some next) :
    next.Exclusive answer := by
  simp only [ClientThreads.send] at hstep
  split at hstep
  · next connection hphase hcurrent =>
    cases hstep
    have hactive : call.phase.active = true := by rw [hphase]; rfl
    have hprogress := hinv.progress call (List.mem_of_getElem? hcall)
    simp only [StubCall.Progress, hphase] at hprogress
    obtain ⟨_, _, hsentOn, hreceived, hclosed⟩ := hprogress
    obtain ⟨bytes, hown, hbytes, hempty, _⟩ :=
      hinv.holds_current hcall hactive hcurrent
    refine hinv.setCall (hinv.others_inactive hcall hactive) rfl ?_
      fun _ => ?_
    · exact ⟨connection, hown, by simp [hsentOn], hreceived, hclosed⟩
    · refine ⟨connection, call.request, hcurrent, hown, ?_, nofun,
        fun _ => rfl⟩
      simp [ClientThreads.setCall, hbytes, hempty hphase]
  · cases hstep

theorem ClientThreads.Exclusive.recv {threads next : ClientThreads}
    (hinv : threads.Exclusive answer) {index : ℕ} {call : StubCall}
    (hcall : threads.calls[index]? = some call)
    (hstep : threads.recv answer index call = some next) :
    next.Exclusive answer := by
  simp only [ClientThreads.recv] at hstep
  split at hstep
  · next connection hphase hcurrent =>
    cases hstep
    have hactive : call.phase.active = true := by rw [hphase]; rfl
    have hprogress := hinv.progress call (List.mem_of_getElem? hcall)
    simp only [StubCall.Progress, hphase] at hprogress
    obtain ⟨_, hsame, hsentOn, hreceived, hclosed⟩ := hprogress
    obtain ⟨bytes, hown, hbytes, _, hrequest⟩ :=
      hinv.holds_current hcall hactive hcurrent
    rw [hown, Option.some.injEq] at hsame
    subst hsame
    refine hinv.setCall (hinv.others_inactive hcall hactive) rfl ?_
      fun _ => ?_
    · refine ⟨connection, hown, hsentOn, by simp [hreceived], hclosed, ?_⟩
      simp [hbytes, hrequest hphase]
    · exact ⟨connection, bytes, hcurrent, hown, hbytes, nofun, nofun⟩
  · cases hstep

theorem ClientThreads.Exclusive.fail {threads next : ClientThreads}
    (hinv : threads.Exclusive answer) {index : ℕ} {call : StubCall}
    {phase : CallPhase} (hphase : phase = .connected ∨ phase = .sent)
    (hcall : threads.calls[index]? = some call)
    (hstep : threads.fail index call phase = some next) :
    next.Exclusive answer := by
  simp only [ClientThreads.fail] at hstep
  split at hstep
  · next hsame =>
    cases hstep
    have hactive : call.phase.active = true := by
      rw [hsame]
      rcases hphase with rfl | rfl <;> rfl
    have hmem := List.mem_of_getElem? hcall
    obtain ⟨connection, bytes, hcurrent, hown, hbytes, _⟩ :=
      hinv.holds call hmem hactive
    refine hinv.setCall (hinv.others_inactive hcall hactive) rfl ?_
      fun _ => ⟨connection, bytes, hcurrent, hown, hbytes, nofun, nofun⟩
    have hprogress := hinv.progress call hmem
    simp only [StubCall.Progress, hsame] at hprogress
    rcases hphase with rfl | rfl
    · obtain ⟨own, hown, hsentOn, hrest⟩ := hprogress
      exact ⟨own, hown, .inl hsentOn, hrest⟩
    · obtain ⟨own, hown, hsentOn, hrest⟩ := hprogress
      exact ⟨own, hown, .inr hsentOn, hrest⟩
  · cases hstep

theorem ClientThreads.Exclusive.close {threads next : ClientThreads}
    (hinv : threads.Exclusive answer) {index : ℕ} {call : StubCall}
    (hcall : threads.calls[index]? = some call)
    (hstep : threads.close index call = some next) :
    next.Exclusive answer := by
  simp only [ClientThreads.close] at hstep
  split at hstep
  · next hphase =>
    have hactive : call.phase.active = true := by
      rcases hphase with hphase | hphase <;> rw [hphase] <;> rfl
    have hmem := List.mem_of_getElem? hcall
    obtain ⟨connection, bytes, hcurrent, hown, _⟩ :=
      hinv.holds call hmem hactive
    have hprogress := hinv.progress call hmem
    split at hstep
    · next fildes current hsock hcurrent' =>
      rw [hcurrent, Option.some.injEq] at hcurrent'
      subst hcurrent'
      cases hstep
      rcases hphase with hphase | hphase
      · simp only [StubCall.Progress, hphase] at hprogress
        obtain ⟨own, hsame, hsentOn, hreceived, hclosed, hresponse⟩ :=
          hprogress
        rw [hown, Option.some.injEq] at hsame
        subst hsame
        refine hinv.setCall (hinv.others_inactive hcall hactive) rfl ?_ ?_
        · simp only [StubCall.Progress, hphase, if_true]
          exact ⟨connection, hown, hsentOn, hreceived, by simp [hclosed],
            hresponse⟩
        · simp [hphase, CallPhase.active]
      · simp only [StubCall.Progress, hphase] at hprogress
        obtain ⟨own, hsame, hsentOn, hreceived, hclosed⟩ := hprogress
        rw [hown, Option.some.injEq] at hsame
        subst hsame
        refine hinv.setCall (hinv.others_inactive hcall hactive) rfl ?_ ?_
        · have hfailed : ¬CallPhase.failing = .received := nofun
          simp only [StubCall.Progress, hphase, hfailed, if_false]
          exact .inr ⟨connection, hown, hsentOn, hreceived, by simp [hclosed]⟩
        · simp [hphase, CallPhase.active]
    · next hnone =>
      -- `sock` refers to the call's own connection, so it is open.
      cases hsock : threads.sock with
      | none => simp [ClientThreads.current, hsock] at hcurrent
      | some fildes => exact absurd hcurrent (hnone fildes connection hsock)
  · cases hstep

theorem ClientThreads.Exclusive.step {threads next : ClientThreads}
    {event : CallEvent} (hinv : threads.Exclusive answer)
    (hallowed : OneAtATime threads event)
    (hstep : threads.step answer event = some next) :
    next.Exclusive answer := by
  cases event with
  | call request =>
      cases hstep
      exact hinv.call request
  | connect index fildes =>
      obtain ⟨call, hcall, hconnect⟩ := Option.bind_eq_some_iff.mp hstep
      exact hinv.connect hallowed hcall hconnect
  | connectFails index fildes =>
      obtain ⟨call, hcall, hfails⟩ := Option.bind_eq_some_iff.mp hstep
      exact hinv.connectFails hallowed hcall hfails
  | send index =>
      obtain ⟨call, hcall, hsend⟩ := Option.bind_eq_some_iff.mp hstep
      exact hinv.send hcall hsend
  | sendFails index =>
      obtain ⟨call, hcall, hfails⟩ := Option.bind_eq_some_iff.mp hstep
      exact hinv.fail (.inl rfl) hcall hfails
  | recv index =>
      obtain ⟨call, hcall, hrecv⟩ := Option.bind_eq_some_iff.mp hstep
      exact hinv.recv hcall hrecv
  | recvFails index =>
      obtain ⟨call, hcall, hfails⟩ := Option.bind_eq_some_iff.mp hstep
      exact hinv.fail (.inr rfl) hcall hfails
  | mallocFails index => exact absurd hallowed id
  | close index =>
      obtain ⟨call, hcall, hclose⟩ := Option.bind_eq_some_iff.mp hstep
      exact hinv.close hcall hclose

/-! ## Whole runs -/

variable (answer) in
/-- A call that is not mixed up with others: it sends on, receives from and
closes no connection but the one it opened itself.  When it returns a
response, it has done each of these once, and the response is the server's to
its own request; when it returns `-1`, it has closed what it opened. -/
structure StubCall.Unmixed (call : StubCall) : Prop where
  sends : ∀ connection ∈ call.sentOn, call.own = some connection
  receives : ∀ connection ∈ call.receivedFrom, call.own = some connection
  closes : ∀ connection ∈ call.closed, call.own = some connection
  returns : call.phase = .done → ∃ connection, call.own = some connection ∧
    call.sentOn = [connection] ∧ call.receivedFrom = [connection] ∧
      call.closed = [connection] ∧
      call.response = some (answer connection call.request)
  givesUp : call.phase = .failed ∨ call.phase = .abandoned →
    call.closed = call.own.toList

theorem StubCall.Progress.unmixed {call : StubCall}
    (hprogress : call.Progress answer) :
    call.Unmixed answer := by
  unfold StubCall.Progress at hprogress
  cases hphase : call.phase with
  | start =>
      simp only [hphase] at hprogress
      obtain ⟨hown, hsentOn, hreceived, hclosed⟩ := hprogress
      constructor <;> simp [*]
  | connected | sent =>
      simp only [hphase] at hprogress
      obtain ⟨connection, hown, hsentOn, hreceived, hclosed⟩ := hprogress
      constructor <;> simp [*]
  | received =>
      simp only [hphase] at hprogress
      obtain ⟨connection, hown, hsentOn, hreceived, hclosed, _⟩ := hprogress
      constructor <;> simp [*]
  | failing =>
      simp only [hphase] at hprogress
      obtain ⟨connection, hown, hsentOn, hreceived, hclosed⟩ := hprogress
      rcases hsentOn with hsentOn | hsentOn <;> constructor <;> simp [*]
  | done =>
      simp only [hphase] at hprogress
      obtain ⟨connection, hown, hsentOn, hreceived, hclosed, _⟩ := hprogress
      constructor <;> simp [*]
  | failed =>
      simp only [hphase] at hprogress
      rcases hprogress with ⟨hown, hsentOn, hreceived, hclosed⟩ |
        ⟨connection, hown, hsentOn, hreceived, hclosed⟩
      · constructor <;> simp [*]
      · rcases hsentOn with hsentOn | hsentOn <;> constructor <;> simp [*]
  | abandoned =>
      simp only [hphase] at hprogress

/-- In every run in which no call connects while another one is between its
`connect` and its `close`, and `read` can allocate its response, no call is
mixed up with another. -/
theorem ClientThreads.run_unmixed {events : List CallEvent}
    {final : ClientThreads}
    (hrun : Run (ClientThreads.step answer) OneAtATime ClientThreads.initial
      events final) :
    ∀ call ∈ final.calls, call.Unmixed answer := by
  have hinv : final.Exclusive answer := hrun.invariant
    (fun _ _ _ hinv hallowed hstep => hinv.step hallowed hstep)
    ClientThreads.initial_exclusive
  exact fun call hmem => (hinv.progress call hmem).unmixed

end Server

def echo : ℕ → List UInt8 → List UInt8 := fun _ bytes => bytes

def oneAfterTheOther : List CallEvent :=
  [.call [1], .call [2], .connect 0 3, .send 0, .recv 0, .close 0,
    .connect 1 3, .send 1, .recv 1, .close 1]

/-- Two calls, the second connecting between the first one's `connect` and
`send`. -/
def connectInBetween : List CallEvent :=
  [.call [1], .call [2], .connect 0 3, .connect 1 4, .send 0, .recv 0,
    .close 0, .sendFails 1, .close 1]

theorem run_unmixed_oneAfterTheOther :
    ∃ final, Run (ClientThreads.step echo) OneAtATime ClientThreads.initial
        oneAfterTheOther final ∧
      final.calls = [⟨[1], .done, some 0, [0], [0], some [1], [0]⟩,
        ⟨[2], .done, some 1, [1], [1], some [2], [1]⟩] ∧
      ∀ call ∈ final.calls, call.Unmixed echo := by
  obtain ⟨final, hexec, hcalls⟩ : ∃ final,
      execute (ClientThreads.step echo) OneAtATime ClientThreads.initial
        oneAfterTheOther = some final ∧
      final.calls = [⟨[1], .done, some 0, [0], [0], some [1], [0]⟩,
        ⟨[2], .done, some 1, [1], [1], some [2], [1]⟩] := ⟨_, rfl, rfl⟩
  have hrun := run_of_execute hexec
  exact ⟨final, hrun, hcalls, ClientThreads.run_unmixed hrun⟩

/-- The first call uses and closes the second one's connection, its own stays
open, and the second call finds `sock` closed and returns `-1`. -/
theorem mixed_connectInBetween :
    ∃ final, Run (ClientThreads.step echo) anyEvent ClientThreads.initial
        connectInBetween final ∧
      final.calls = [⟨[1], .done, some 0, [1], [1], some [1], [1]⟩,
        ⟨[2], .failed, some 1, [], [], none, []⟩] ∧
      ¬∀ call ∈ final.calls, call.Unmixed echo := by
  obtain ⟨final, hexec, hcalls⟩ : ∃ final,
      execute (ClientThreads.step echo) anyEvent ClientThreads.initial
        connectInBetween = some final ∧
      final.calls = [⟨[1], .done, some 0, [1], [1], some [1], [1]⟩,
        ⟨[2], .failed, some 1, [], [], none, []⟩] := ⟨_, rfl, rfl⟩
  refine ⟨final, run_of_execute hexec, hcalls, fun hunmixed => ?_⟩
  have hfirst := hunmixed ⟨[1], .done, some 0, [1], [1], some [1], [1]⟩
    (by rw [hcalls]; exact List.mem_cons_self ..)
  exact absurd (hfirst.sends 1 (List.mem_singleton.mpr rfl)) (by decide)

end TestRpc
