import TestRpc.ConnectionEnds
import TestRpc.Linearizability
import TestRpc.RemoteTransparency
import TestRpc.ServedHandles
import TestRpc.ServerProcess

/-!
# Many clients and one server

Any number of single-threaded clients call the stubs, and the server is its
accept loop with a handler thread for every request.  A call is sent, accepted
together with its request, given to a handler, executed, answered and received
in separate steps, and the steps of all calls interleave; a call may get stuck
at any of them, and a client may give a call up while its request is still on
the way.  Connections, the listening socket and the files that `open` returns
share the server's one descriptor table.
-/

namespace TestRpc

open TransitionRuns LittleEndian BlockCopies StreamReceive Linearizability

/-! ## States and steps -/

inductive CallState
  | waiting
  | returned (outcome : Outcome)
  | abandoned
  deriving DecidableEq

/-- A call of a stub that has sent its request; `bytes` is what its connection
carries to the server. -/
structure RemoteCall where
  client : ℕ
  call : LibCall
  memory : List UInt8
  bytes : List UInt8
  state : CallState

/-- The clients' calls, the server process and its operating system.
`accepted` are the calls whose connections `main` has accepted, in order;
`executed` holds the response, if any, of each handler that has made its call,
and `inbox` what has been sent back on the connection of a call.  `history` is
what the clients see.  `requesters` and `handles` are history too: who made
the accepted calls, and the handles made so far. -/
structure Service (σ : Type) where
  os : σ
  process : ServerProcess
  calls : List RemoteCall
  accepted : List ℕ
  executed : ℕ → Option (Option (List UInt8))
  inbox : ℕ → Option (List UInt8)
  history : List (Act (LibCall × List UInt8) Outcome)
  requesters : List (ℕ × LibCall)
  handles : List Handle

def Service.initial {σ : Type} (inherited : ℕ → Bool) (serverSocket : ℕ)
    (os : σ) (uninitialised : List UInt8) : Service σ where
  os := os
  process := ServerProcess.initial inherited serverSocket uninitialised
  calls := []
  accepted := []
  executed := fun _ => none
  inbox := fun _ => none
  history := []
  requesters := []
  handles := []

/-- `process` is a step of the server that has nothing to do with the clients'
connections.  `stray` answers a system call that names an open descriptor
which is no file of the handlers. -/
inductive ServiceEvent
  | invoke (client : ℕ) (call : LibCall) (memory : List UInt8)
      (contents : ℕ → UInt8)
  | accept (call socket sizeCut payloadCut : ℕ) (malloc : Malloc)
  | process (event : ProcessEvent)
  | execute (handler : ℕ) (bufMalloc malloc : Malloc) (stray : Os Unit)
  | finish (handler : ℕ) (sending : Sending)
  | receive (call : ℕ) (contents : ℕ → UInt8) (cut : ℕ)
  | abandon (call : ℕ)

/-- The operating system behind the descriptor table. -/
def FileServer.onTable {σ : Type} (files : FileServer) (os : Os σ)
    (stray : Os Unit) : Os σ where
  exec := fun state call =>
    match call.fildes?.bind fun fildes => files.table fildes.toNat with
    | none => os.exec state call
    | some (.file _) => os.exec state call
    | some _ => ((stray.exec () call).1, state)

/-- The descriptor that a successful `open` returns. -/
def LibCall.granted : (call : LibCall) → call.Reply → Option ℕ
  | .openCall _ _ _, fildes =>
      if 0 ≤ fildes.toInt then some fildes.toNat else none
  | _, _ => none

/-- The descriptor that the request of a handler is granted. -/
def grantedFor {σ : Type} (os : Os σ) (malloc : Malloc)
    (payload : List UInt8) (state : σ) : Option ℕ :=
  match decode malloc payload with
  | .ok (some call) => call.granted (os.exec state call).1
  | _ => none

section Steps

variable {σ : Type} (os : Os σ) (serverSocket : ℕ) (service : Service σ)

/-- The clients with the handles that they have got from the server. -/
def Service.clients : Clients :=
  ⟨service.process.files, service.requesters, service.handles⟩

def Service.handlesAfter (event : ClientEvent) : List Handle :=
  match service.clients.step event with
  | some clients => clients.handles
  | none => service.handles

/-- The call whose connection a descriptor of the server refers to. -/
def Service.connected (socket : ℕ) : Option ℕ :=
  match service.process.files.table socket with
  | some (.connection thread) => service.accepted[thread]?
  | _ => none

/-- The first half of a stub: the request is built, and connected and sent.
A client that waits for a call makes no other. -/
def Service.invoke (client : ℕ) (call : LibCall) (memory : List UInt8)
    (contents : ℕ → UInt8) : Option (Service σ) :=
  if ∃ made ∈ service.calls, made.client = client ∧ made.state = .waiting then
    none
  else
    match stubRequest call with
    | .error _ => none
    | .ok request =>
        match request.sent contents with
        | .error _ => none
        | .ok bytes =>
            some { service with
              calls := service.calls ++
                [⟨client, call, memory, bytes, .waiting⟩]
              history := service.history ++
                [.invoke service.calls.length (call, memory)] }

/-- A call is accepted when its request has been received; otherwise the
process has ended. -/
def Service.accept (call socket sizeCut payloadCut : ℕ) (malloc : Malloc) :
    Option (Service σ) :=
  match service.calls[call]? with
  | none => none
  | some made =>
      if call ∈ service.accepted then
        none
      else
        match service.process.step serverSocket (.accept ⟨socket,
            ⟨made.bytes, .closed⟩, sizeCut, payloadCut, malloc⟩) with
        | none => none
        | some process =>
            if process.server.running then
              some { service with
                process := process
                accepted := service.accepted ++ [call]
                requesters := service.requesters ++ [(made.client, made.call)]
                handles := service.handlesAfter
                  (.request made.client socket made.call) }
            else
              some { service with process := process }

def Service.processStep (event : ProcessEvent) : Option (Service σ) :=
  match event with
  | .accept _ | .execute _ _ _ | .finish _ _ => none
  | event =>
      (service.process.step serverSocket event).map fun process =>
        { service with process := process }

/-- The system call of a handler and its response. -/
def Service.execute (handler : ℕ) (bufMalloc malloc : Malloc)
    (stray : Os Unit) : Option (Service σ) :=
  match service.process.files.threads[handler]? with
  | none => none
  | some thread =>
      let behind := service.process.files.onTable os stray
      let granted := grantedFor behind bufMalloc thread.payload service.os
      match clientHandler behind bufMalloc malloc thread.payload service.os,
          service.process.step serverSocket
            (.execute handler bufMalloc granted) with
      | .ok run, some process =>
          some { service with
            os := run.state
            process := process
            executed := Function.update service.executed handler
              (some run.response)
            handles := service.handlesAfter
              (.execute handler bufMalloc granted) }
      | _, _ => none

/-- What a handler sends goes to the connection that its `client_socket`
refers to. -/
def Service.finish (handler : ℕ) (sending : Sending) : Option (Service σ) :=
  match service.process.server.handlers[handler]?,
      service.executed handler with
  | some (.copied arguments), some response =>
      let ending := finishHandler response sending
      match service.process.step serverSocket
          (.finish handler ending.closes) with
      | none => none
      | some process =>
          some { service with
            process := process
            inbox :=
              match ending.sent, service.connected arguments.clientSocket with
              | some bytes, some call =>
                  Function.update service.inbox call (some bytes)
              | _, _ => service.inbox }
  | _, _ => none

/-- The second half of a stub: one `recv` into `response_payload`, and what
the stub returns. -/
def stubOutcome (call : LibCall) (memory : List UInt8) (answer : Stream)
    (contents : ℕ → UInt8) (cut : ℕ) : Option (Except Fault Outcome) :=
  match recv answer call.responseSize.toNat cut with
  | none => none
  | some (got, _) =>
      some (decodeResponse call (fillFront
        (freshBlock contents call.responseSize.toNat) got) memory)

def Service.receive (call : ℕ) (contents : ℕ → UInt8) (cut : ℕ) :
    Option (Service σ) :=
  match service.calls[call]?, service.inbox call with
  | some ⟨client, made, memory, bytes, .waiting⟩, some answer =>
      match stubOutcome made memory ⟨answer, .closed⟩ contents cut with
      | some (.ok outcome) =>
          some { service with
            calls := service.calls.set call
              ⟨client, made, memory, bytes, .returned outcome⟩
            history := service.history ++ [.respond call outcome] }
      | _ => none
  | _, _ => none

/-- The call returns `-1` because of the transport: `recv`, the allocation of
the response or the final `close` has failed. -/
def Service.abandon (call : ℕ) : Option (Service σ) :=
  match service.calls[call]? with
  | some ⟨client, made, memory, bytes, .waiting⟩ =>
      some { service with
        calls := service.calls.set call
          ⟨client, made, memory, bytes, .abandoned⟩ }
  | _ => none

def Service.step : ServiceEvent → Option (Service σ)
  | .invoke client call memory contents =>
      service.invoke client call memory contents
  | .accept call socket sizeCut payloadCut malloc =>
      service.accept serverSocket call socket sizeCut payloadCut malloc
  | .process event => service.processStep serverSocket event
  | .execute handler bufMalloc malloc stray =>
      service.execute os serverSocket handler bufMalloc malloc stray
  | .finish handler sending => service.finish serverSocket handler sending
  | .receive call contents cut => service.receive call contents cut
  | .abandon call => service.abandon call

end Steps

/-! ## The two halves of a stub -/

theorem sendData_take {net : Net} {buf sent : List UInt8}
    {process next : ClientProcess}
    (hsend : sendData net buf process = (some sent, next)) :
    ∃ count, sent = buf.take count := by
  rw [sendData] at hsend
  split at hsend
  · cases hsend
  · split at hsend
    · cases hsend
    · cases hsend
      exact ⟨_, rfl⟩

/-- A stub that has sent its request gives up, or returns what the second half
makes of the answer. -/
theorem remoteStub_halves {κ : Type} {net : Net} {call : LibCall}
    {memory sent : List UInt8} {client : κ} {process : ClientProcess}
    {run : StubRun κ}
    (hrun : remoteStub net call memory client process = .ok run)
    (hsent : run.sent = some sent) :
    (∃ request bytes count, stubRequest call = .ok request ∧
      request.sent net.requestMalloc.contents = .ok bytes ∧
      sent = bytes.take count) ∧
    (run.outcome = gaveUp memory ∨
      stubOutcome call memory (net.peer sent) net.responseMalloc.contents
        net.cut = some (.ok run.outcome)) := by
  obtain ⟨request, hrequest, hrun⟩ := bind_eq_ok.mp hrun
  split at hrun
  · cases hrun
    cases hsent
  · obtain ⟨bytes, hbytes, hrun⟩ := bind_eq_ok.mp hrun
    split at hrun
    · cases hrun
      cases hsent
    · next sent' process' hsend =>
      obtain ⟨count, htake⟩ := sendData_take hsend
      split at hrun
      · cases hrun
        cases hsent
        exact ⟨⟨request, bytes, count, hrequest, hbytes, htake⟩, .inl rfl⟩
      · split at hrun
        · cases hrun
          cases hsent
          exact ⟨⟨request, bytes, count, hrequest, hbytes, htake⟩, .inl rfl⟩
        · next response process'' hgot =>
          obtain ⟨outcome, hdecode, hrun⟩ := bind_eq_ok.mp hrun
          cases hrun
          cases hsent
          refine ⟨⟨request, bytes, count, hrequest, hbytes, htake⟩, .inr ?_⟩
          rw [recvData, freshBlock_length] at hgot
          rw [stubOutcome]
          cases hrecv : recv (net.peer sent) call.responseSize.toNat
              net.cut with
          | none =>
              rw [hrecv] at hgot
              cases hgot
          | some result =>
              obtain ⟨got, rest⟩ := result
              rw [hrecv] at hgot
              by_cases hclose : net.close = true
              · simp only [hclose, if_true] at hgot
                cases hgot
                exact congrArg some hdecode
              · simp only [hclose] at hgot
                cases hgot

/-! ## What is asked of the service -/

section Service

variable {σ : Type}

/-- The calls as the server's operating system executes them, one at a time
and with the arguments that are transmitted, each with the outcome that its
caller sees. -/
def callsOn (os : Os σ) : Specification σ (LibCall × List UInt8) Outcome :=
  fun state operation outcome next =>
    next = (os.exec state operation.1.transmitted.onServer).2 ∧
      operation.1.transmitted.onServer.Conveys
        (os.exec state operation.1.transmitted.onServer).1 operation.2
        outcome

/-- The runs that the code is right for.  Stubs are called with arguments they
can send, and with descriptors that the client's own `open` calls returned and
that it has not closed; it closes one only when no other request on it, given
up or not, has still to be executed.  Whatever is delivered is delivered
whole, and `main` assigns `argument` only after all handlers have copied
it. -/
def Service.Orderly (service : Service σ) : ServiceEvent → Prop
  | .invoke _ call memory _ =>
      call.Sendable ∧ memory.length = call.memorySize
  | .accept call socket sizeCut payloadCut _ =>
      ∀ made ∈ service.calls[call]?,
        (8 ≤ sizeCut ∧
          made.call.transmitted.payload.length ≤ max 1 payloadCut) ∧
        Disciplined service.clients (.request made.client socket made.call) ∧
        Quiet service.clients (.request made.client socket made.call)
  | .process event =>
      ∀ taken ∈ event.ofServer, AssignsAfterCopies service.process.server taken
  | .execute _ _ _ _ => True
  | .finish handler sending =>
      ∀ response ∈ (service.executed handler).join,
        ∀ count ∈ sending.send, response.length ≤ count
  | .receive call _ cut =>
      ∀ made ∈ service.calls[call]?,
        made.call.responseSize.toNat ≤ max 1 cut
  | .abandon _ => True

instance : ∀ call : LibCall, Decidable call.Sendable
  | .openCall _ _ _ => inferInstanceAs (Decidable (_ ∧ _ ∧ _))
  | .close _ => inferInstanceAs (Decidable (_ = true))
  | .read _ _ => inferInstanceAs (Decidable (_ ∧ _))
  | .write _ _ => inferInstanceAs (Decidable (_ ∧ _))
  | .lseek _ _ _ => inferInstanceAs (Decidable (_ = true))
  | .truncate _ _ => inferInstanceAs (Decidable (_ ∧ _))
  | .ftruncate _ _ => inferInstanceAs (Decidable (_ = true))
  | .stat _ => inferInstanceAs (Decidable (_ ∧ _))
  | .fstat _ => inferInstanceAs (Decidable (_ = true))
  | .fsync _ => inferInstanceAs (Decidable (_ = true))
  | .rename _ _ => inferInstanceAs (Decidable ((_ ∧ _) ∧ _ ∧ _))
  | .unlink _ => inferInstanceAs (Decidable (_ ∧ _))

instance (clients : Clients) (client socket : ℕ) (call : LibCall) :
    Decidable (Disciplined clients (.request client socket call)) :=
  -- Only the one handle of the call is looked at.
  have := @Option.decidableForallMem _ (fun handle =>
    ∃ record ∈ clients.handles, record.client = client ∧
      record.handle = handle ∧ record.status = .held)
    (fun _ => inferInstance) call.fildes?
  inferInstanceAs (Decidable (call.Sendable ∧ ∀ handle ∈ call.fildes?,
    ∃ record ∈ clients.handles, record.client = client ∧
      record.handle = handle ∧ record.status = .held))

instance (clients : Clients) (client socket : ℕ) :
    ∀ call : LibCall,
      Decidable (Quiet clients (.request client socket call))
  | .close handle =>
      inferInstanceAs (Decidable (∀ served ∈ clients.calls.zip
        clients.server.threads, served.2.phase = .serving →
          served.1.2.fildes? ≠ some handle))
  | .openCall _ _ _ | .read _ _ | .write _ _ | .lseek _ _ _
  | .truncate _ _ | .ftruncate _ _ | .stat _ | .fstat _ | .fsync _
  | .rename _ _ | .unlink _ => isTrue trivial

instance (service : Service σ) :
    ∀ event, Decidable (service.Orderly event)
  | .invoke _ _ _ _ => inferInstanceAs (Decidable (_ ∧ _))
  | .accept call _ _ _ _ =>
      inferInstanceAs (Decidable (∀ made ∈ service.calls[call]?,
        (_ ∧ _) ∧ Disciplined _ (.request _ _ _) ∧ Quiet _ (.request _ _ _)))
  | .process event =>
      inferInstanceAs (Decidable (∀ taken ∈ event.ofServer,
        AssignsAfterCopies service.process.server taken))
  | .execute _ _ _ _ => inferInstanceAs (Decidable True)
  | .finish handler sending =>
      inferInstanceAs (Decidable (∀ response ∈
        (service.executed handler).join, ∀ count ∈ sending.send, _ ≤ _))
  | .receive call _ _ =>
      inferInstanceAs (Decidable (∀ made ∈ service.calls[call]?, _ ≤ _))
  | .abandon _ => inferInstanceAs (Decidable True)

/-! ## What a step can do -/

/-- What the stub hands to `send` is the request of the call. -/
theorem sent_of_request {call : LibCall} (hsend : call.Sendable)
    {request : Request} (hrequest : stubRequest call = .ok request)
    {contents : ℕ → UInt8} {bytes : List UInt8}
    (hbytes : request.sent contents = .ok bytes) :
    bytes = requestBytes call.transmitted.payload := by
  obtain ⟨request', hrequest', hencodes⟩ := stubRequest_encodes hsend
  rw [hrequest, Except.ok.injEq] at hrequest'
  subst hrequest'
  rw [hencodes.sent_requestBytes, Except.ok.injEq] at hbytes
  exact hbytes.symm

theorem Service.invoke_cases {service next : Service σ} {client : ℕ}
    {call : LibCall} {memory : List UInt8} {contents : ℕ → UInt8}
    (hsend : call.Sendable)
    (hinvoke : service.invoke client call memory contents = some next) :
    next = { service with
      calls := service.calls ++ [⟨client, call, memory,
        requestBytes call.transmitted.payload, .waiting⟩]
      history := service.history ++
        [.invoke service.calls.length (call, memory)] } := by
  unfold Service.invoke at hinvoke
  split at hinvoke
  · cases hinvoke
  · split at hinvoke
    · cases hinvoke
    · next request hrequest =>
      split at hinvoke
      · cases hinvoke
      · next bytes hbytes =>
        cases hinvoke
        rw [sent_of_request hsend hrequest hbytes]

theorem Service.receive_cases {service next : Service σ} {call : ℕ}
    {contents : ℕ → UInt8} {cut : ℕ}
    (hreceive : service.receive call contents cut = some next) :
    ∃ made answer outcome, service.calls[call]? = some made ∧
      service.inbox call = some answer ∧
      stubOutcome made.call made.memory ⟨answer, .closed⟩ contents cut =
        some (.ok outcome) ∧
      next = { service with
        calls := service.calls.set call
          { made with state := .returned outcome }
        history := service.history ++ [.respond call outcome] } := by
  unfold Service.receive at hreceive
  split at hreceive
  · next client made memory bytes answer hmade hanswer =>
    split at hreceive
    · next outcome houtcome =>
      cases hreceive
      exact ⟨_, answer, outcome, hmade, hanswer, houtcome, rfl⟩
    · cases hreceive
  · cases hreceive

theorem Service.abandon_cases {service next : Service σ} {call : ℕ}
    (habandon : service.abandon call = some next) :
    ∃ made, service.calls[call]? = some made ∧
      next = { service with
        calls := service.calls.set call { made with state := .abandoned } } := by
  unfold Service.abandon at habandon
  split at habandon
  · next client made memory bytes hmade =>
    cases habandon
    exact ⟨_, hmade, rfl⟩
  · cases habandon

theorem Service.accept_cases {service next : Service σ}
    {serverSocket call socket sizeCut payloadCut : ℕ} {malloc : Malloc}
    (haccept : service.accept serverSocket call socket sizeCut payloadCut
      malloc = some next) :
    ∃ made process, service.calls[call]? = some made ∧
      call ∉ service.accepted ∧
      service.process.step serverSocket (.accept ⟨socket,
        ⟨made.bytes, .closed⟩, sizeCut, payloadCut, malloc⟩) =
          some process ∧
      next = if process.server.running then
          { service with
            process := process
            accepted := service.accepted ++ [call]
            requesters := service.requesters ++ [(made.client, made.call)]
            handles := service.handlesAfter
              (.request made.client socket made.call) }
        else
          { service with process := process } := by
  unfold Service.accept at haccept
  split at haccept
  · cases haccept
  · next made hmade =>
    split at haccept
    · cases haccept
    · next hnew =>
      split at haccept
      · cases haccept
      · next process hprocess =>
        refine ⟨made, process, hmade, hnew, hprocess, ?_⟩
        split at haccept
        · next hrunning =>
          cases haccept
          rw [if_pos hrunning]
        · next hleft =>
          cases haccept
          rw [if_neg hleft]

theorem Service.processStep_cases {service next : Service σ}
    {serverSocket : ℕ} {event : ProcessEvent}
    (hprocess : service.processStep serverSocket event = some next) :
    ∃ process, service.process.step serverSocket event = some process ∧
      (∀ connection, event ≠ .accept connection) ∧
      (∀ handler malloc granted, event ≠ .execute handler malloc granted) ∧
      (∀ handler closes, event ≠ .finish handler closes) ∧
      next = { service with process := process } := by
  unfold Service.processStep at hprocess
  split at hprocess
  · cases hprocess
  · cases hprocess
  · cases hprocess
  · next haccept hexecute hfinish =>
    obtain ⟨process, hstep, rfl⟩ := Option.map_eq_some_iff.mp hprocess
    exact ⟨process, hstep, haccept, hexecute, hfinish, rfl⟩

theorem Service.execute_cases {os : Os σ} {serverSocket : ℕ}
    {service next : Service σ} {handler : ℕ} {bufMalloc malloc : Malloc}
    {stray : Os Unit}
    (hexecute : service.execute os serverSocket handler bufMalloc malloc
      stray = some next) :
    ∃ thread granted run process,
      service.process.files.threads[handler]? = some thread ∧
      clientHandler (service.process.files.onTable os stray) bufMalloc malloc
        thread.payload service.os = .ok run ∧
      service.process.step serverSocket
        (.execute handler bufMalloc granted) = some process ∧
      next = { service with
        os := run.state
        process := process
        executed := Function.update service.executed handler
          (some run.response)
        handles := service.handlesAfter
          (.execute handler bufMalloc granted) } := by
  unfold Service.execute at hexecute
  split at hexecute
  · cases hexecute
  · next thread hthread =>
    simp only at hexecute
    split at hexecute
    · next run process hrun hprocess =>
      cases hexecute
      exact ⟨thread, _, run, process, hthread, hrun, hprocess, rfl⟩
    · cases hexecute

theorem Service.finish_cases {service next : Service σ}
    {serverSocket handler : ℕ} {sending : Sending}
    (hfinish : service.finish serverSocket handler sending = some next) :
    ∃ arguments response process,
      service.process.server.handlers[handler]? =
        some (.copied arguments) ∧
      service.executed handler = some response ∧
      service.process.step serverSocket (.finish handler
        (finishHandler response sending).closes) = some process ∧
      next = { service with
        process := process
        inbox :=
          match (finishHandler response sending).sent,
              service.connected arguments.clientSocket with
          | some bytes, some call =>
              Function.update service.inbox call (some bytes)
          | _, _ => service.inbox } := by
  unfold Service.finish at hfinish
  split at hfinish
  · next arguments response hcopied hexecuted =>
    simp only at hfinish
    split at hfinish
    · cases hfinish
    · next process hprocess =>
      cases hfinish
      exact ⟨arguments, response, process, hcopied, hexecuted, hprocess,
        rfl⟩
  · cases hfinish

end Service

end TestRpc
