import TestRpc.RemoteService

/-!
# The remote file system is linearizable

Every handler works on the request of one call and answers on this call's
connection, and the descriptor that the request names still refers to the file
it was opened for.  So the calls take effect one after the other on the
server's operating system, each at most once, between its start and its
return.
-/

namespace TestRpc

open TransitionRuns LittleEndian BlockCopies StreamReceive Linearizability

section Service

variable {σ : Type}

/-! ## Connections and handlers -/

/-- What a call asks for, with the memory that its caller gave. -/
def Service.operation (service : Service σ) (call : ℕ) :
    Option (LibCall × List UInt8) :=
  (service.calls[call]?).map fun made => (made.call, made.memory)

def RemoteCall.Sent (made : RemoteCall) : Prop :=
  made.call.Sendable ∧ made.memory.length = made.call.memorySize ∧
    made.bytes = requestBytes made.call.transmitted.payload

/-- Every request that `main` has received is the request of the call whose
connection it came from, and the handler has it with this connection. -/
structure Service.Wired (serverSocket : ℕ) (service : Service σ) : Prop where
  dispatched : service.process.server.Dispatched
  own : service.process.server.OwnArguments
  sizeBuf : service.process.server.payloadSizeBuf.length = 8
  aligned : service.process.server.requests.length = service.accepted.length
  threads : service.process.server.requests.length =
    service.process.files.threads.length
  once : service.accepted.Nodup
  sent : ∀ made ∈ service.calls, made.Sent
  requests : ∀ (i : ℕ) (argument : ThreadArg),
    service.process.server.requests[i]? = some argument →
    ∃ call operation client thread, service.accepted[i]? = some call ∧
      service.operation call = some operation ∧
      service.requesters[i]? = some (client, operation.1) ∧
      service.process.files.threads[i]? = some thread ∧
      argument.payload = thread.payload ∧
      argument.clientSocket = thread.socket
  executed : ∀ (i : ℕ) (response : Option (List UInt8)),
    service.executed i = some response →
    ∃ thread, service.process.files.threads[i]? = some thread ∧
      thread.phase ≠ .serving
  sound : service.clients.Sound serverSocket
  attached : service.clients.Attached

/-- Only `accept` touches the requests and `payload_size_buf`. -/
theorem Server.requests_of_step {server next : Server} {event : Event}
    (hstep : server.step event = some next)
    (hevent : ∀ connection, event ≠ .acceptConnection connection) :
    next.requests = server.requests ∧
      next.payloadSizeBuf = server.payloadSizeBuf := by
  cases Server.steps_of_step hstep with
  | received hpc hreceive => exact absurd rfl (hevent _)
  | receiveFailed hpc hreceive hexit => exact absurd rfl (hevent _)
  | created hpc =>
      by_cases hindex : server.threadIndex < server.threadId.length
      · rw [Server.create_eq hindex]
        exact ⟨rfl, rfl⟩
      · rw [Server.create, if_neg hindex]
        exact ⟨rfl, rfl⟩
  | joined hpc hjoin =>
      rcases Server.join_cases hjoin with ⟨rfl, _⟩ | ⟨_, _, rfl⟩
      · exact ⟨rfl, rfl⟩
      · exact ⟨rfl, rfl⟩
  | copied hrunning hcreated hargument => exact ⟨rfl, rfl⟩
  | finished hrunning hcopied hfree => exact ⟨rfl, rfl⟩
  | unblocks hrunning => exact ⟨rfl, rfl⟩
  | silent hpc | acceptFailed hpc | assigned hpc | createFailed hpc
  | joinFailed hpc | blocks hrunning hcopied | crashed hrunning hcopied =>
      exact ⟨rfl, rfl⟩

/-! ### Steps of the clients -/

theorem Service.operation_append (service : Service σ) (new : RemoteCall)
    {history : List (Act (LibCall × List UInt8) Outcome)} {call : ℕ}
    {operation : LibCall × List UInt8}
    (hoperation : service.operation call = some operation) :
    ({ service with
      calls := service.calls ++ [new]
      history := history } : Service σ).operation call =
        some operation := by
  obtain ⟨made, hmade, rfl⟩ := Option.map_eq_some_iff.mp hoperation
  simp only [Service.operation, getElem?_append_left_of_some hmade,
    Option.map_some]

theorem Service.operation_set (service : Service σ) {call : ℕ}
    {made : RemoteCall} (hmade : service.calls[call]? = some made)
    (state : CallState)
    (history : List (Act (LibCall × List UInt8) Outcome)) :
    ({ service with
      calls := service.calls.set call { made with state := state }
      history := history } : Service σ).operation = service.operation := by
  funext other
  simp only [Service.operation]
  by_cases hsame : call = other
  · subst hsame
    obtain ⟨hlt, _⟩ := List.getElem?_eq_some_iff.mp hmade
    rw [List.getElem?_set_self hlt, hmade]
    rfl
  · rw [List.getElem?_set_ne hsame]

theorem Service.Wired.withCalls {serverSocket : ℕ} {service : Service σ}
    (hwired : service.Wired serverSocket) {calls : List RemoteCall}
    {history : List (Act (LibCall × List UInt8) Outcome)}
    (hsent : ∀ made ∈ calls, made.Sent)
    (hkeeps : ∀ call operation, service.operation call = some operation →
      ({ service with calls := calls, history := history } :
        Service σ).operation call = some operation) :
    ({ service with calls := calls, history := history } :
      Service σ).Wired serverSocket where
  dispatched := hwired.dispatched
  own := hwired.own
  sizeBuf := hwired.sizeBuf
  aligned := hwired.aligned
  threads := hwired.threads
  once := hwired.once
  sent := hsent
  requests := by
    intro i argument hargument
    obtain ⟨call, operation, client, thread, hcall, hoperation, hthread⟩ :=
      hwired.requests i argument hargument
    exact ⟨call, operation, client, thread, hcall,
      hkeeps call operation hoperation, hthread⟩
  executed := hwired.executed
  sound := hwired.sound
  attached := hwired.attached

theorem Service.Wired.setState {serverSocket : ℕ} {service : Service σ}
    (hwired : service.Wired serverSocket) {call : ℕ} {made : RemoteCall}
    (hmade : service.calls[call]? = some made) (state : CallState)
    (history : List (Act (LibCall × List UInt8) Outcome)) :
    ({ service with
      calls := service.calls.set call { made with state := state }
      history := history } : Service σ).Wired serverSocket := by
  apply hwired.withCalls
  · intro other hmem
    rcases List.mem_or_eq_of_mem_set hmem with hold | rfl
    · exact hwired.sent other hold
    · exact hwired.sent made (List.mem_of_getElem? hmade)
  · intro other operation hoperation
    rw [service.operation_set hmade state history]
    exact hoperation

theorem Service.Wired.invoke {serverSocket : ℕ} {service next : Service σ}
    {client : ℕ} {call : LibCall} {memory : List UInt8}
    {contents : ℕ → UInt8} (hwired : service.Wired serverSocket)
    (hsend : call.Sendable) (hmemory : memory.length = call.memorySize)
    (hinvoke : service.invoke client call memory contents = some next) :
    next.Wired serverSocket := by
  rw [Service.invoke_cases hsend hinvoke]
  apply hwired.withCalls
  · intro made hmem
    rcases List.mem_append.mp hmem with hold | hnew
    · exact hwired.sent made hold
    · rw [List.mem_singleton.mp hnew]
      exact ⟨hsend, hmemory, rfl⟩
  · intro other operation hoperation
    exact service.operation_append _ hoperation

/-! ### Steps of the server -/

/-- The handlers keep their requests and connections, and what they have
executed they have executed. -/
structure FileServer.KeepsThreads (files next : FileServer) : Prop where
  length : next.threads.length = files.threads.length
  thread : ∀ (i : ℕ) (thread : Thread), files.threads[i]? = some thread →
    ∃ after, next.threads[i]? = some after ∧
      after.payload = thread.payload ∧ after.socket = thread.socket ∧
      (thread.phase ≠ .serving → after.phase ≠ .serving)

theorem FileServer.KeepsThreads.of_eq {files next : FileServer}
    (hsame : next.threads = files.threads) : files.KeepsThreads next := by
  refine ⟨by rw [hsame], fun i thread hthread => ⟨thread, ?_, rfl, rfl, id⟩⟩
  rw [hsame]
  exact hthread

theorem FileServer.KeepsThreads.of_setPhase {files next : FileServer}
    {index : ℕ} {phase : Phase} (hphase : phase ≠ .serving)
    (hthreads : next.threads = (files.setPhase index phase).threads) :
    files.KeepsThreads next := by
  constructor
  · rw [hthreads]
    exact List.length_modify ..
  · intro i thread hthread
    obtain ⟨after, hafter, hpayload, hsocket, hafterPhase⟩ :=
      FileServer.exists_after_setPhase hthread index phase
    refine ⟨after, by rw [hthreads]; exact hafter, hpayload, hsocket,
      fun hserved => ?_⟩
    rw [hafterPhase]
    split
    · exact hphase
    · exact hserved

theorem Service.Wired.advance {serverSocket : ℕ} {service : Service σ}
    (hwired : service.Wired serverSocket) {process : ServerProcess}
    (hdispatched : process.server.Dispatched)
    (hown : process.server.OwnArguments)
    (hrequests : process.server.requests = service.process.server.requests)
    (hsizeBuf : process.server.payloadSizeBuf.length = 8)
    (hkeeps : service.process.files.KeepsThreads process.files)
    {handles : List Handle}
    (hsound : Clients.Sound serverSocket
      ⟨process.files, service.requesters, handles⟩)
    (hattached : Clients.Attached
      ⟨process.files, service.requesters, handles⟩)
    {executed : ℕ → Option (Option (List UInt8))}
    (hexecuted : ∀ i response, executed i = some response →
      service.executed i = some response ∨
        ∃ thread, process.files.threads[i]? = some thread ∧
          thread.phase ≠ .serving)
    {os : σ} {inbox : ℕ → Option (List UInt8)} :
    ({ service with
      os := os
      process := process
      executed := executed
      inbox := inbox
      handles := handles } : Service σ).Wired serverSocket where
  dispatched := hdispatched
  own := hown
  sizeBuf := hsizeBuf
  aligned := by
    rw [hrequests]
    exact hwired.aligned
  threads := by
    rw [hrequests, hkeeps.length]
    exact hwired.threads
  once := hwired.once
  sent := hwired.sent
  requests := by
    intro i argument hargument
    rw [hrequests] at hargument
    obtain ⟨call, operation, client, thread, hcall, hoperation, hrequester,
      hthread, hpayload, hsocket⟩ := hwired.requests i argument hargument
    obtain ⟨after, hafter, hafterPayload, hafterSocket, _⟩ :=
      hkeeps.thread i thread hthread
    exact ⟨call, operation, client, after, hcall, hoperation, hrequester,
      hafter, hpayload.trans hafterPayload.symm,
      hsocket.trans hafterSocket.symm⟩
  executed := by
    intro i response hresponse
    rcases hexecuted i response hresponse with hold | hnew
    · obtain ⟨thread, hthread, hphase⟩ := hwired.executed i response hold
      obtain ⟨after, hafter, _, _, hserved⟩ := hkeeps.thread i thread hthread
      exact ⟨after, hafter, hserved hphase⟩
    · exact hnew
  sound := hsound
  attached := hattached

/-- What `main` receives from a connection that delivers a request whole. -/
theorem handed_of_deliveredWhole {payload payloadSizeBuf next : List UInt8}
    {connection : Connection} {argument : ThreadArg}
    (hsize : payload.length < 2 ^ 64)
    (hclosed : connection.stream.ending = .closed)
    (hlength : payloadSizeBuf.length = 8)
    (hwhole : DeliveredWhole payload connection)
    (hreceive : receiveRequest payloadSizeBuf connection =
      (.handed argument, next)) :
    argument = ⟨payload, BitVec.ofNat 64 payload.length,
      connection.clientSocket⟩ := by
  have hserves : connection.malloc.serves payload.length = true := by
    have hhanded := (handed_iff_serves hclosed payloadSizeBuf).mp
      ⟨argument, by rw [hreceive]⟩
    have hgot := recv_whole_size hwhole.1 hclosed hwhole.2.1
    obtain ⟨rest, hrecv⟩ := recv_of_closed hclosed 8 connection.sizeCut
    rw [hrecv, Option.some.injEq, Prod.mk.injEq] at hgot
    rwa [Connection.gotSize, hgot.1, wordOf_fillFront_size hlength,
      wordOf_size hsize] at hhanded
  have hframed := framed_of_deliveredWhole hsize hclosed hserves hlength
    hwhole
  rw [Framed, if_pos hwhole.1, hreceive] at hframed
  cases hframed
  rfl

theorem Service.handlesAfter_of_step {service : Service σ}
    {event : ClientEvent} {clients : Clients}
    (hstep : service.clients.step event = some clients) :
    service.handlesAfter event = clients.handles := by
  rw [Service.handlesAfter, hstep]

/-- A request is received whole, and its handler will have it. -/
theorem Service.Wired.accept_received {serverSocket : ℕ}
    {service : Service σ} (hwired : service.Wired serverSocket)
    {call socket : ℕ} {made : RemoteCall} {size : SizeT}
    (hmade : service.calls[call]? = some made)
    (hnew : call ∉ service.accepted)
    (hdisciplined : Disciplined service.clients
      (.request made.client socket made.call))
    (hquiet : Quiet service.clients (.request made.client socket made.call))
    (hfree : service.process.files.free socket = true)
    {server : Server} (hdispatched : server.Dispatched)
    (hown : server.OwnArguments)
    (hsizeBuf : server.payloadSizeBuf.length = 8)
    (hrequests : server.requests = service.process.server.requests ++
      [⟨made.call.transmitted.payload, size, socket⟩]) :
    ({ service with
      process := ⟨server, { service.process.files.touch socket
          (some (.connection service.process.files.threads.length)) with
        threads := service.process.files.threads ++
          [⟨made.call.transmitted.payload, socket, .serving⟩] }, false⟩
      accepted := service.accepted ++ [call]
      requesters := service.requesters ++ [(made.client, made.call)]
      handles := service.handlesAfter
        (.request made.client socket made.call) } :
      Service σ).Wired serverSocket := by
  have hstep : service.clients.step
      (.request made.client socket made.call) = some
      ⟨{ service.process.files.touch socket
          (some (.connection service.process.files.threads.length)) with
        threads := service.process.files.threads ++
          [⟨made.call.transmitted.payload, socket, .serving⟩] },
        service.requesters ++ [(made.client, made.call)],
        service.handles.map (Handle.requested made.client made.call
          service.process.files.threads.length)⟩ := by
    simp [Clients.step, FileServer.accept, Service.clients, hfree]
  have hlength : service.requesters.length =
      service.process.files.threads.length := hwired.sound.calls_length
  rw [Service.handlesAfter_of_step hstep]
  constructor
  case dispatched => exact hdispatched
  case own => exact hown
  case sizeBuf => exact hsizeBuf
  case aligned => simp [hrequests, hwired.aligned]
  case threads => simp [hrequests, hwired.threads]
  case once =>
    rw [List.nodup_append]
    refine ⟨hwired.once, List.nodup_singleton _, fun left hleft right hright
      hsame => ?_⟩
    rw [hsame, List.mem_singleton.mp hright] at hleft
    exact hnew hleft
  case sent => exact hwired.sent
  case requests =>
    intro i argument hi
    rw [hrequests] at hi
    rcases getElem?_append_singleton hi with hold | ⟨rfl, rfl⟩
    · obtain ⟨other, operation, client, thread, hother, hoperation,
        hrequester, hthread, hsame⟩ := hwired.requests i argument hold
      exact ⟨other, operation, client, thread,
        getElem?_append_left_of_some hother, hoperation,
        getElem?_append_left_of_some hrequester,
        getElem?_append_left_of_some hthread, hsame⟩
    · refine ⟨call, (made.call, made.memory), made.client,
        ⟨made.call.transmitted.payload, socket, .serving⟩, ?_, ?_, ?_, ?_,
        rfl, rfl⟩
      · rw [hwired.aligned]
        exact List.getElem?_concat_length
      · simp only [Service.operation, hmade, Option.map_some]
      · rw [hwired.threads, ← hlength]
        exact List.getElem?_concat_length
      · rw [hwired.threads]
        exact List.getElem?_concat_length
  case executed =>
    intro i response hresponse
    obtain ⟨thread, hthread, hphase⟩ := hwired.executed i response hresponse
    exact ⟨thread, getElem?_append_left_of_some hthread, hphase⟩
  case sound => exact hwired.sound.step hdisciplined hstep
  case attached =>
    exact hwired.attached.step hwired.sound hdisciplined hquiet hstep

theorem Service.Wired.accept {serverSocket : ℕ} {service next : Service σ}
    {call socket sizeCut payloadCut : ℕ} {malloc : Malloc}
    (hwired : service.Wired serverSocket)
    (horderly : service.Orderly
      (.accept call socket sizeCut payloadCut malloc))
    (haccept : service.accept serverSocket call socket sizeCut payloadCut
      malloc = some next) : next.Wired serverSocket := by
  obtain ⟨made, process, hmade, hnew, hstep, rfl⟩ :=
    Service.accept_cases haccept
  obtain ⟨⟨hsizeCut, hpayloadCut⟩, hdisciplined, hquiet⟩ :=
    horderly made hmade
  obtain ⟨hsend, _, hbytes⟩ := hwired.sent made (List.mem_of_getElem? hmade)
  have hserver := ServerProcess.server_step hstep rfl
  have hdispatched := hwired.dispatched.step hserver
  have hown := hwired.own.step hwired.dispatched
    (show AssignsAfterCopies service.process.server (.acceptConnection _)
      from trivial) hserver
  have hsized := receiveRequest_sizeBuf_length hwired.sizeBuf
    ⟨socket, ⟨made.bytes, .closed⟩, sizeCut, payloadCut, malloc⟩
  cases ServerProcess.steps_of_step hstep with
  | received hpc hfree hreceive hsocket =>
      rw [hreceive] at hsized
      have hargument := handed_of_deliveredWhole hsend.payload_length rfl
        hwired.sizeBuf ⟨hbytes, hsizeCut, hpayloadCut⟩ hreceive
      subst hargument
      exact hwired.accept_received hmade hnew hdisciplined hquiet hfree
        hdispatched hown hsized rfl
  | receiveFailed hpc hreceive hexit =>
      rw [hreceive] at hsized
      exact hwired.advance hdispatched hown rfl hsized (.of_eq rfl)
        hwired.sound hwired.attached fun _ _ => .inl

/-- A handler that copies finds the arguments that it was created for. -/
theorem FileServer.setArguments_eq {files : FileServer} {handler : ℕ}
    {arguments : ThreadArg}
    (hown : ∀ thread, files.threads[handler]? = some thread →
      arguments.payload = thread.payload ∧
        arguments.clientSocket = thread.socket) :
    files.setArguments handler arguments = files := by
  have hthreads : (files.setArguments handler arguments).threads =
      files.threads := by
    apply List.ext_getElem?
    intro i
    rw [FileServer.getElem?_setArguments]
    cases hthread : files.threads[i]? with
    | none => rfl
    | some thread =>
        rw [Option.map_some]
        split
        · next hsame =>
          subst hsame
          obtain ⟨hpayload, hsocket⟩ := hown thread hthread
          rw [hpayload, hsocket]
        · rfl
  cases files
  exact congrArg (fun threads => FileServer.mk _ threads _) hthreads

theorem Service.Wired.process {serverSocket : ℕ} {service next : Service σ}
    {event : ProcessEvent} (hwired : service.Wired serverSocket)
    (hallowed : ∀ taken ∈ event.ofServer,
      AssignsAfterCopies service.process.server taken)
    (hprocess : service.processStep serverSocket event = some next) :
    next.Wired serverSocket := by
  obtain ⟨process, hstep, haccept, hexecute, hfinish, rfl⟩ :=
    Service.processStep_cases hprocess
  have hserver : process.server.Dispatched ∧ process.server.OwnArguments ∧
      process.server.requests = service.process.server.requests ∧
      process.server.payloadSizeBuf =
        service.process.server.payloadSizeBuf := by
    rcases ServerProcess.step_server hstep with hsame |
      ⟨taken, htaken, hkind⟩
    · rw [hsame]
      exact ⟨hwired.dispatched, hwired.own, rfl, rfl⟩
    · have hassigns : AssignsAfterCopies service.process.server taken := by
        rcases hkind with hof | rfl
        · exact hallowed taken hof
        · trivial
      have hconnection : ∀ connection,
          taken ≠ .acceptConnection connection := by
        rintro connection rfl
        rcases hkind with hof | hfails
        · cases event with
          | accept other => exact haccept other rfl
          | main event =>
              cases hof
              cases ServerProcess.steps_of_step hstep with
              | main hmain _ => cases hmain
          | _ => cases hof
        · cases hfails
      exact ⟨hwired.dispatched.step htaken,
        hwired.own.step hwired.dispatched hassigns htaken,
        Server.requests_of_step htaken hconnection⟩
  obtain ⟨hdispatched, hown, hrequests, hsizeBuf⟩ := hserver
  have hsized : process.server.payloadSizeBuf.length = 8 :=
    hsizeBuf ▸ hwired.sizeBuf
  cases ServerProcess.steps_of_step hstep with
  | received _ _ _ _ => exact absurd rfl (haccept _)
  | receiveFailed _ _ _ => exact absurd rfl (haccept _)
  | executed _ _ _ => exact absurd rfl (hexecute _ _ _)
  | finished _ _ => exact absurd rfl (hfinish _ _)
  | entered _ _ | refused _ _ | main _ _ =>
      exact hwired.advance hdispatched hown hrequests hsized (.of_eq rfl)
        hwired.sound hwired.attached fun _ _ => .inl
  | silent _ hfree =>
      exact hwired.advance hdispatched hown hrequests hsized (.of_eq rfl)
        (hwired.sound.touch hfree _) hwired.attached fun _ _ => .inl
  | @copied handler arguments _ hcreated _ =>
      have hfiles : service.process.files.setArguments handler arguments =
          service.process.files := by
        apply FileServer.setArguments_eq
        intro thread hthread
        obtain ⟨hlt, _⟩ := List.getElem?_eq_some_iff.mp hcreated
        have hrequest := hown.own handler _ arguments
          (List.getElem?_set_self hlt) rfl
        obtain ⟨_, _, _, other, _, _, _, hother, hpayload, hsocket⟩ :=
          hwired.requests handler arguments hrequest
        rw [hthread, Option.some.injEq] at hother
        rw [hother]
        exact ⟨hpayload, hsocket⟩
      refine hwired.advance hdispatched hown hrequests hsized
        (.of_eq (congrArg FileServer.threads hfiles)) ?_ ?_
        fun _ _ => .inl
      · simp only [hfiles]
        exact hwired.sound
      · simp only [hfiles]
        exact hwired.attached

/-- A handler that runs has the request of one call. -/
theorem Service.Wired.handler {serverSocket : ℕ} {service : Service σ}
    (hwired : service.Wired serverSocket) {handler : ℕ}
    {arguments : ThreadArg}
    (hcopied : service.process.server.handlers[handler]? =
      some (.copied arguments)) :
    ∃ call operation client thread,
      service.accepted[handler]? = some call ∧
      service.operation call = some operation ∧
      service.requesters[handler]? = some (client, operation.1) ∧
      service.process.files.threads[handler]? = some thread ∧
      thread.payload = operation.1.transmitted.payload ∧
      thread.socket = arguments.clientSocket := by
  have hrequest := hwired.own.own handler _ arguments hcopied rfl
  obtain ⟨call, operation, client, thread, hcall, hoperation, hrequester,
    hthread, _, hsocket⟩ := hwired.requests handler arguments hrequest
  obtain ⟨_, other, hother, hpayload⟩ :=
    hwired.sound.payloads handler client operation.1 hrequester
  rw [show service.clients.server.threads[handler]? = some thread
    from hthread, Option.some.injEq] at hother
  subst hother
  exact ⟨call, operation, client, thread, hcall, hoperation, hrequester,
    hthread, hpayload, hsocket.symm⟩

theorem Service.Wired.execute {os : Os σ} {serverSocket : ℕ}
    {service next : Service σ} {handler : ℕ} {bufMalloc malloc : Malloc}
    {stray : Os Unit} (hwired : service.Wired serverSocket)
    (hexecute : service.execute os serverSocket handler bufMalloc malloc
      stray = some next) : next.Wired serverSocket := by
  obtain ⟨thread, granted, run, process, hthread, hrun, hstep, rfl⟩ :=
    Service.execute_cases hexecute
  cases ServerProcess.steps_of_step hstep with
  | @executed _ _ _ arguments files hrunning hcopied hfiles =>
      obtain ⟨call, operation, client, _, _, _, hrequester, _⟩ :=
        hwired.handler hcopied
      have hclients : service.clients.step
          (.execute handler bufMalloc granted) = some ⟨files,
            service.requesters, service.handles.map (Handle.executed handler)
              ++ madeHandle handler client operation.1 granted⟩ := by
        have hfiles' : service.process.files.execute handler bufMalloc
            granted = some files := hfiles
        simp only [Clients.step, Service.clients, hfiles', hrequester]
      obtain ⟨acted, hthreads⟩ := FileServer.threads_of_execute hfiles
      have hkeeps : service.process.files.KeepsThreads files :=
        .of_setPhase (by simp) hthreads
      have hdisciplined : Disciplined service.clients
          (.execute handler bufMalloc granted) := trivial
      have hattached := hwired.attached.step hwired.sound hdisciplined
        (show Quiet _ (.execute handler bufMalloc granted) from trivial)
        hclients
      rw [Service.handlesAfter_of_step hclients]
      refine @Service.Wired.advance _ _ _ hwired
        { service.process with files := files } hwired.dispatched hwired.own
        rfl hwired.sizeBuf hkeeps _ (hwired.sound.step hdisciplined hclients)
        hattached _ (fun i response hresponse => ?_) _ _
      rcases update_cases hresponse with ⟨rfl, _⟩ | ⟨_, hold⟩
      · right
        obtain ⟨after, hafter, _, _, hphase⟩ :=
          FileServer.exists_after_setPhase hthread i (.executed acted)
        refine ⟨after, by rw [hthreads]; exact hafter, ?_⟩
        simp [hphase]
      · exact .inl hold

/-- A handler that returns answers on the connection of its own call. -/
theorem Service.Wired.connected {serverSocket : ℕ} {service : Service σ}
    (hwired : service.Wired serverSocket) {handler : ℕ}
    {arguments : ThreadArg}
    (hcopied : service.process.server.handlers[handler]? =
      some (.copied arguments))
    {closes : Bool} {files : FileServer}
    (hfiles : service.process.files.step (.leave handler closes) =
      some files) :
    service.connected arguments.clientSocket = service.accepted[handler]? := by
  obtain ⟨_, _, _, thread, _, _, _, hthread, _, hsocket⟩ :=
    hwired.handler hcopied
  have hphase : thread.phase ≠ .ended := by
    cases FileServer.steps_of_step hfiles with
    | closed hother | leaked hother =>
        rw [hthread, Option.some.injEq] at hother
        simp [hother]
  have hconnection := hwired.sound.sockets handler thread hthread hphase
  rw [Service.connected, ← hsocket]
  simp only [show service.process.files.table thread.socket = _
    from hconnection]

theorem Service.Wired.finish {serverSocket : ℕ} {service next : Service σ}
    {handler : ℕ} {sending : Sending} (hwired : service.Wired serverSocket)
    (hfinish : service.finish serverSocket handler sending = some next) :
    next.Wired serverSocket := by
  obtain ⟨arguments, response, process, _, _, hstep, rfl⟩ :=
    Service.finish_cases hfinish
  cases ServerProcess.steps_of_step hstep with
  | @finished _ _ server files hserver hfiles =>
      have hclients : service.clients.step (.leave handler
          (finishHandler response sending).closes) =
            some ⟨files, service.requesters, service.handles⟩ := by
        have hfiles' : service.process.files.leave handler
            (finishHandler response sending).closes = some files := hfiles
        simp only [Clients.step, Service.clients, hfiles']
      obtain ⟨hrequests, hsizeBuf⟩ := Server.requests_of_step hserver
        (by simp)
      have hdisciplined : Disciplined service.clients (.leave handler
          (finishHandler response sending).closes) := trivial
      have hattached := hwired.attached.step hwired.sound hdisciplined
        (show Quiet _ (.leave handler _) from trivial) hclients
      exact hwired.advance (hwired.dispatched.step hserver)
        (hwired.own.step hwired.dispatched
          (show AssignsAfterCopies _ (.finish handler) from trivial) hserver)
        hrequests (hsizeBuf ▸ hwired.sizeBuf)
        (.of_setPhase (by simp) (FileServer.threads_of_leave hfiles))
        (hwired.sound.step hdisciplined hclients) hattached fun _ _ => .inl

theorem Service.Wired.step {os : Os σ} {serverSocket : ℕ}
    {service next : Service σ} {event : ServiceEvent}
    (hwired : service.Wired serverSocket)
    (horderly : service.Orderly event)
    (hstep : service.step os serverSocket event = some next) :
    next.Wired serverSocket := by
  cases event with
  | invoke client call memory contents =>
      exact hwired.invoke horderly.1 horderly.2 hstep
  | accept call socket sizeCut payloadCut malloc =>
      exact hwired.accept horderly hstep
  | process event => exact hwired.process horderly hstep
  | execute handler bufMalloc malloc stray => exact hwired.execute hstep
  | finish handler sending => exact hwired.finish hstep
  | receive call contents cut =>
      obtain ⟨made, _, outcome, hmade, _, _, rfl⟩ :=
        Service.receive_cases hstep
      exact hwired.setState hmade _ _
  | abandon call =>
      obtain ⟨made, hmade, rfl⟩ := Service.abandon_cases hstep
      exact hwired.setState hmade _ _

/-! ## The order of the calls -/

/-- An order of the calls that have been executed, each of them by the handler
that was created for it, and what became of their responses. -/
structure Service.Explains (os : Os σ) (start : σ) (service : Service σ)
    (order : List (Effect (LibCall × List UInt8) Outcome)) : Prop where
  linearizes : Linearizes (callsOn os) start service.os service.history order
  fresh : ∀ call operation, .invoke call operation ∈ service.history →
    call < service.calls.length
  invoked : ∀ call operation, service.operation call = some operation →
    .invoke call operation ∈ service.history
  effects : ∀ effect ∈ order, ∃ i : ℕ,
    service.accepted[i]? = some effect.id ∧ service.executed i ≠ none
  responses : ∀ (i : ℕ) (response : List UInt8),
    service.executed i = some (some response) →
    ∃ effect ∈ order, service.accepted[i]? = some effect.id ∧
      service.operation effect.id = some effect.operation ∧
      response.length = effect.operation.1.responseSize.toNat ∧
      decodeResponse effect.operation.1 response effect.operation.2 =
        .ok effect.result
  inbox : ∀ call answer, service.inbox call = some answer →
    ∃ i : ℕ, service.accepted[i]? = some call ∧
      service.executed i = some (some answer)

/-- What a handler does for the request of a call: nothing, where it cannot
allocate its buffer, or the call itself, whose outcome is what its response
holds if there is one. -/
theorem clientHandler_request (os : Os σ) {call : LibCall}
    (hsend : call.Sendable) {memory : List UInt8}
    (hmemory : memory.length = call.memorySize) {bufMalloc malloc : Malloc}
    {state : σ} {run : HandlerRun σ}
    (hrun : clientHandler os bufMalloc malloc call.transmitted.payload
      state = .ok run) :
    (run.state = state ∧ run.response = none) ∨
      ∃ outcome, callsOn os state (call, memory) outcome run.state ∧
        ∀ response, run.response = some response →
          response.length = call.responseSize.toNat ∧
            decodeResponse call response memory = .ok outcome := by
  obtain ⟨result, hdecode, hrun⟩ := bind_eq_ok.mp hrun
  rw [decode_payload hsend bufMalloc, Except.ok.injEq] at hdecode
  subst hdecode
  by_cases hserves : bufMalloc.servesFor call = true
  · right
    rw [if_pos hserves] at hrun
    obtain ⟨response, hrespond, hrun⟩ := bind_eq_ok.mp hrun
    cases hrun
    refine ⟨call.transmitted.onServer.reported bufMalloc
      (os.exec state call.transmitted.onServer).1 memory,
      ⟨rfl, LibCall.conveys_reported _ _ _ _⟩, ?_⟩
    intro bytes hbytes
    simp only at hbytes
    subst hbytes
    have hserved := respond_isSome hrespond
    rw [Option.isSome_some] at hserved
    obtain ⟨bytes', hrespond', hlength, hdecode⟩ := @respond_conveys
      bufMalloc malloc call.transmitted.onServer
      (fun _ _ hread => hsend.count_onServer hread) hserved.symm
      (os.exec state call.transmitted.onServer).1 memory
      (by rw [LibCall.memorySize_onServer]; exact hmemory)
    rw [hrespond, Except.ok.injEq, Option.some.injEq] at hrespond'
    subst hrespond'
    rw [LibCall.responseSize_onServer] at hlength
    rw [decodeResponse_onServer] at hdecode
    exact ⟨hlength, hdecode⟩
  · left
    rw [if_neg hserves] at hrun
    cases hrun
    exact ⟨rfl, rfl⟩

theorem LibCall.fildes?_onServer (call : LibCall) :
    call.transmitted.onServer.fildes? =
      call.fildes?.map fun handle => INT_MAX - handle := by
  cases call <;> rfl

/-- Behind the table, a call that names no descriptor, or one of a file, is the
operating system's. -/
theorem FileServer.onTable_exec {files : FileServer} {os : Os σ}
    {stray : Os Unit} {state : σ} {call : LibCall}
    (hfile : ∀ fildes, call.fildes? = some fildes →
      ∃ opener, files.table fildes.toNat = some (.file opener)) :
    (files.onTable os stray).exec state call = os.exec state call := by
  simp only [FileServer.onTable]
  cases hfildes : call.fildes? with
  | none => rfl
  | some fildes =>
      obtain ⟨opener, hopener⟩ := hfile fildes hfildes
      rw [Option.bind_some, hopener]

/-- The request of a handler that has not made its system call yet names the
file that it was made for. -/
theorem Service.Wired.exec_onTable {os : Os σ} {serverSocket : ℕ}
    {service : Service σ} (hwired : service.Wired serverSocket)
    {handler client : ℕ} {call : LibCall} {thread : Thread}
    (hrequester : service.requesters[handler]? = some (client, call))
    (hthread : service.process.files.threads[handler]? = some thread)
    (hserving : thread.phase = .serving) (stray : Os Unit) (state : σ) :
    (service.process.files.onTable os stray).exec state
        call.transmitted.onServer =
      os.exec state call.transmitted.onServer := by
  apply FileServer.onTable_exec
  intro fildes hfildes
  rw [LibCall.fildes?_onServer, Option.map_eq_some_iff] at hfildes
  obtain ⟨handle, hhandle, rfl⟩ := hfildes
  exact hwired.attached.file hwired.sound hrequester hthread hserving hhandle

/-- The handler that makes its system call has still its call to make. -/
theorem Service.Wired.executes {serverSocket : ℕ} {service : Service σ}
    (hwired : service.Wired serverSocket) {handler : ℕ} {malloc : Malloc}
    {granted : Option ℕ} {process : ServerProcess} {thread : Thread}
    (hthread : service.process.files.threads[handler]? = some thread)
    (hstep : service.process.step serverSocket
      (.execute handler malloc granted) = some process) :
    ∃ call operation client, service.accepted[handler]? = some call ∧
      service.operation call = some operation ∧
      service.requesters[handler]? = some (client, operation.1) ∧
      thread.payload = operation.1.transmitted.payload ∧
      thread.phase = .serving := by
  cases ServerProcess.steps_of_step hstep with
  | executed _ hcopied hfiles =>
      obtain ⟨call, operation, client, other, hcall, hoperation, hrequester,
        hother, hpayload, _⟩ := hwired.handler hcopied
      rw [hthread, Option.some.injEq] at hother
      subst hother
      refine ⟨call, operation, client, hcall, hoperation, hrequester,
        hpayload, ?_⟩
      cases FileServer.steps_of_step hfiles with
      | rejected hserving _ | executed hserving _ _ =>
          rw [hthread, Option.some.injEq] at hserving
          rw [hserving]

theorem Service.Wired.unexecuted {serverSocket : ℕ} {service : Service σ}
    (hwired : service.Wired serverSocket) {handler : ℕ} {thread : Thread}
    (hthread : service.process.files.threads[handler]? = some thread)
    (hserving : thread.phase = .serving) : service.executed handler = none := by
  cases hexecuted : service.executed handler with
  | none => rfl
  | some response =>
      obtain ⟨other, hother, hphase⟩ :=
        hwired.executed handler response hexecuted
      rw [hthread, Option.some.injEq] at hother
      exact absurd (hother ▸ hserving) hphase

section Explains

variable {os : Os σ} {serverSocket : ℕ} {start : σ}
  {service next : Service σ}
  {order : List (Effect (LibCall × List UInt8) Outcome)}

theorem Service.Explains.invoke
    (hexplains : service.Explains os start order) {client : ℕ}
    {call : LibCall} {memory : List UInt8} {contents : ℕ → UInt8}
    (hsend : call.Sendable)
    (hinvoke : service.invoke client call memory contents = some next) :
    next.Explains os start order := by
  rw [Service.invoke_cases hsend hinvoke]
  constructor
  case linearizes =>
    apply hexplains.linearizes.invoke
    intro operation hmem
    exact absurd (hexplains.fresh _ _ hmem) (Nat.lt_irrefl _)
  case fresh =>
    intro other operation hmem
    simp only [List.length_append, List.length_singleton]
    rcases List.mem_append.mp hmem with hold | hnew
    · exact Nat.lt_succ_of_lt (hexplains.fresh _ _ hold)
    · cases List.mem_singleton.mp hnew
      exact Nat.lt_succ_self _
  case invoked =>
    intro other operation hoperation
    obtain ⟨made, hmade, rfl⟩ := Option.map_eq_some_iff.mp hoperation
    rcases getElem?_append_singleton hmade with hold | ⟨rfl, rfl⟩
    · apply List.mem_append_left
      apply hexplains.invoked
      simp only [Service.operation, hold, Option.map_some]
    · exact List.mem_append_right _ (List.mem_singleton_self _)
  case effects => exact hexplains.effects
  case responses =>
    intro i response hresponse
    obtain ⟨effect, heffect, haccepted, hoperation, hdecodes⟩ :=
      hexplains.responses i response hresponse
    exact ⟨effect, heffect, haccepted,
      service.operation_append _ hoperation, hdecodes⟩
  case inbox => exact hexplains.inbox

theorem Service.Explains.withProcess
    (hexplains : service.Explains os start order) {process : ServerProcess}
    {accepted : List ℕ} {requesters : List (ℕ × LibCall)}
    {handles : List Handle}
    (haccepted : ∀ i call : ℕ, service.accepted[i]? = some call →
      accepted[i]? = some call) :
    ({ service with
      process := process
      accepted := accepted
      requesters := requesters
      handles := handles } : Service σ).Explains os start order := by
  refine ⟨hexplains.linearizes, hexplains.fresh, hexplains.invoked, ?_, ?_,
    ?_⟩
  · intro effect heffect
    obtain ⟨i, hi, hexecuted⟩ := hexplains.effects effect heffect
    exact ⟨i, haccepted i _ hi, hexecuted⟩
  · intro i response hresponse
    obtain ⟨effect, heffect, hi, hdecodes⟩ :=
      hexplains.responses i response hresponse
    exact ⟨effect, heffect, haccepted i _ hi, hdecodes⟩
  · intro call answer hanswer
    obtain ⟨i, hi, hexecuted⟩ := hexplains.inbox call answer hanswer
    exact ⟨i, haccepted i _ hi, hexecuted⟩

theorem Service.Explains.accept
    (hexplains : service.Explains os start order)
    {call socket sizeCut payloadCut : ℕ} {malloc : Malloc}
    (haccept : service.accept serverSocket call socket sizeCut payloadCut
      malloc = some next) : next.Explains os start order := by
  obtain ⟨_, _, _, _, _, rfl⟩ := Service.accept_cases haccept
  split
  · apply hexplains.withProcess
    intro i other hother
    exact getElem?_append_left_of_some hother
  · exact hexplains.withProcess fun _ _ hcall => hcall

theorem Service.Explains.process
    (hexplains : service.Explains os start order) {event : ProcessEvent}
    (hprocess : service.processStep serverSocket event = some next) :
    next.Explains os start order := by
  obtain ⟨_, _, _, _, _, rfl⟩ := Service.processStep_cases hprocess
  exact hexplains.withProcess fun _ _ hcall => hcall

/-- Nothing that is known of the handlers that have made their calls is lost
when another one makes its call. -/
theorem Service.Explains.executed_ne
    (hexplains : service.Explains os start order) {handler call : ℕ}
    (hcall : service.accepted[handler]? = some call)
    (honce : service.accepted.Nodup)
    (hnone : service.executed handler = none) :
    call ∉ order.map Effect.id := by
  intro hmem
  obtain ⟨effect, heffect, rfl⟩ := List.mem_map.mp hmem
  obtain ⟨i, hi, hexecuted⟩ := hexplains.effects effect heffect
  obtain ⟨hlt, _⟩ := List.getElem?_eq_some_iff.mp hi
  have hsame := (List.getElem?_inj hlt honce).mp (hi.trans hcall.symm)
  subst hsame
  exact hexecuted hnone

theorem Service.Explains.execute (hwired : service.Wired serverSocket)
    (hexplains : service.Explains os start order) {handler : ℕ}
    {bufMalloc malloc : Malloc} {stray : Os Unit}
    (hexecute : service.execute os serverSocket handler bufMalloc malloc
      stray = some next) :
    ∃ longer, next.Explains os start longer := by
  obtain ⟨thread, granted, run, process, hthread, hrun, hstep, rfl⟩ :=
    Service.execute_cases hexecute
  obtain ⟨call, operation, client, hcall, hoperation, hrequester, hpayload,
    hserving⟩ := hwired.executes hthread hstep
  have hnone := hwired.unexecuted hthread hserving
  obtain ⟨made, hmade, rfl⟩ := Option.map_eq_some_iff.mp hoperation
  obtain ⟨hsend, hmemory, _⟩ := hwired.sent made (List.mem_of_getElem? hmade)
  have hnew := hexplains.executed_ne hcall hwired.once hnone
  have hexecuted : ∀ i, service.executed i ≠ none →
      Function.update service.executed handler (some run.response) i =
        service.executed i := by
    intro i hi
    apply Function.update_of_ne
    rintro rfl
    exact hi hnone
  have heffects : ∀ effect ∈ order, ∃ i : ℕ,
      service.accepted[i]? = some effect.id ∧
        Function.update service.executed handler (some run.response) i ≠
          none := by
    intro effect heffect
    obtain ⟨i, hi, hdone⟩ := hexplains.effects effect heffect
    exact ⟨i, hi, by rw [hexecuted i hdone]; exact hdone⟩
  have hinbox : ∀ other answer, service.inbox other = some answer →
      ∃ i : ℕ, service.accepted[i]? = some other ∧
        Function.update service.executed handler (some run.response) i =
          some (some answer) := by
    intro other answer hanswer
    obtain ⟨i, hi, hdone⟩ := hexplains.inbox other answer hanswer
    exact ⟨i, hi, by rw [hexecuted i (by simp [hdone]), hdone]⟩
  rw [hpayload] at hrun
  rcases clientHandler_request _ hsend hmemory hrun with
    ⟨hstate, hresponse⟩ | ⟨outcome, hspec, hresponse⟩
  · refine ⟨order, ?_, hexplains.fresh, hexplains.invoked, heffects, ?_,
      hinbox⟩
    · rw [hstate]
      exact hexplains.linearizes
    · intro i response hi
      rcases update_cases hi with ⟨_, hnew⟩ | ⟨_, hold⟩
      · rw [hresponse] at hnew
        cases hnew
      · exact hexplains.responses i response hold
  · refine ⟨order ++ [⟨call, (made.call, made.memory), outcome⟩], ?_,
      hexplains.fresh, hexplains.invoked, ?_, ?_, hinbox⟩
    · rw [callsOn, hwired.exec_onTable hrequester hthread hserving] at hspec
      exact hexplains.linearizes.commit
        (hexplains.invoked call _ hoperation) hnew hspec
    · intro effect hmem
      rcases List.mem_append.mp hmem with hold | hlast
      · exact heffects effect hold
      · rw [List.mem_singleton.mp hlast]
        exact ⟨handler, hcall, by simp⟩
    · intro i response hi
      rcases update_cases hi with ⟨rfl, hlast⟩ | ⟨_, hold⟩
      · obtain ⟨hlength, hdecode⟩ :=
          hresponse response (Option.some.inj hlast)
        exact ⟨_, List.mem_append_right _ (List.mem_singleton_self _),
          hcall, hoperation, hlength, hdecode⟩
      · obtain ⟨effect, heffect, hrest⟩ :=
          hexplains.responses i response hold
        exact ⟨effect, List.mem_append_left _ heffect, hrest⟩

theorem Service.Explains.finish (hwired : service.Wired serverSocket)
    (hexplains : service.Explains os start order) {handler : ℕ}
    {sending : Sending} (horderly : service.Orderly (.finish handler sending))
    (hfinish : service.finish serverSocket handler sending = some next) :
    next.Explains os start order := by
  obtain ⟨arguments, response, process, hcopied, hexecuted, hstep, rfl⟩ :=
    Service.finish_cases hfinish
  have hconnected : service.connected arguments.clientSocket =
      service.accepted[handler]? := by
    cases ServerProcess.steps_of_step hstep with
    | finished _ hfiles => exact hwired.connected hcopied hfiles
  refine ⟨hexplains.linearizes, hexplains.fresh, hexplains.invoked,
    hexplains.effects, hexplains.responses, ?_⟩
  intro other answer hanswer
  obtain ⟨call, _, _, _, hcall, _⟩ := hwired.handler hcopied
  simp only [hconnected, hcall] at hanswer
  cases response with
  | none => exact hexplains.inbox other answer hanswer
  | some response =>
      cases hsend : sending.send with
      | none =>
          simp only [finishHandler, hsend] at hanswer
          exact hexplains.inbox other answer hanswer
      | some count =>
          have hwhole := horderly response (by rw [hexecuted]; rfl) count
            hsend
          simp only [finishHandler, hsend,
            List.take_of_length_le hwhole] at hanswer
          rcases update_cases hanswer with ⟨rfl, hlast⟩ | ⟨_, hold⟩
          · cases hlast
            exact ⟨handler, hcall, hexecuted⟩
          · exact hexplains.inbox other answer hold

theorem Service.Explains.setState
    (hexplains : service.Explains os start order) {call : ℕ}
    {made : RemoteCall} (hmade : service.calls[call]? = some made)
    (state : CallState)
    {history : List (Act (LibCall × List UInt8) Outcome)}
    (hlinearizes : Linearizes (callsOn os) start service.os history order)
    (hinvokes : ∀ other operation, .invoke other operation ∈ history ↔
      .invoke other operation ∈ service.history) :
    ({ service with
      calls := service.calls.set call { made with state := state }
      history := history } : Service σ).Explains os start order := by
  have hoperations := service.operation_set hmade state history
  refine ⟨hlinearizes, ?_, ?_, hexplains.effects, ?_, hexplains.inbox⟩
  · intro other operation hmem
    rw [List.length_set]
    exact hexplains.fresh other operation ((hinvokes _ _).mp hmem)
  · intro other operation hoperation
    rw [hoperations] at hoperation
    exact (hinvokes _ _).mpr (hexplains.invoked other operation hoperation)
  · rw [hoperations]
    exact hexplains.responses

/-- A client that gets the whole response returns the outcome of its call. -/
theorem Service.Explains.receive
    (hexplains : service.Explains os start order) {call : ℕ}
    {contents : ℕ → UInt8} {cut : ℕ} (hwired : service.Wired serverSocket)
    (horderly : service.Orderly (.receive call contents cut))
    (hreceive : service.receive call contents cut = some next) :
    next.Explains os start order := by
  obtain ⟨made, answer, outcome, hmade, hanswer, houtcome, rfl⟩ :=
    Service.receive_cases hreceive
  obtain ⟨i, hi, hexecuted⟩ := hexplains.inbox call answer hanswer
  obtain ⟨effect, heffect, hid, hoperation, hlength, hdecode⟩ :=
    hexplains.responses i answer hexecuted
  rw [hi, Option.some.injEq] at hid
  subst hid
  simp only [Service.operation, hmade, Option.map_some,
    Option.some.injEq] at hoperation
  rw [← hoperation] at hlength hdecode
  have hsend := (hwired.sent made (List.mem_of_getElem? hmade)).1
  have hresult : outcome = effect.result := by
    have hne : answer ≠ [] := by
      apply List.ne_nil_of_length_pos
      rw [hlength]
      exact hsend.responseSize_pos
    have hrecv := @recv_whole .closed answer [] cut
      (hlength ▸ horderly made hmade) hne
    rw [List.append_nil, hlength] at hrecv
    rw [stubOutcome, hrecv] at houtcome
    simp only [fillFront_whole ((freshBlock_length _ _).trans
      hlength.symm), hdecode, Option.some.injEq,
      Except.ok.injEq] at houtcome
    exact houtcome.symm
  rw [hresult]
  apply hexplains.setState hmade
  · exact hexplains.linearizes.respond heffect
  · intro other operation
    simp

theorem Service.Explains.step (hwired : service.Wired serverSocket)
    (hexplains : service.Explains os start order) {event : ServiceEvent}
    (horderly : service.Orderly event)
    (hstep : service.step os serverSocket event = some next) :
    ∃ longer, next.Explains os start longer := by
  cases event with
  | invoke client call memory contents =>
      exact ⟨order, hexplains.invoke horderly.1 hstep⟩
  | accept call socket sizeCut payloadCut malloc =>
      exact ⟨order, hexplains.accept hstep⟩
  | process event => exact ⟨order, hexplains.process hstep⟩
  | execute handler bufMalloc malloc stray =>
      exact hexplains.execute hwired hstep
  | finish handler sending =>
      exact ⟨order, hexplains.finish hwired horderly hstep⟩
  | receive call contents cut =>
      exact ⟨order, hexplains.receive hwired horderly hstep⟩
  | abandon call =>
      obtain ⟨made, hmade, rfl⟩ := Service.abandon_cases hstep
      exact ⟨order, hexplains.setState hmade _ hexplains.linearizes
        fun _ _ => Iff.rfl⟩

end Explains

/-! ## Whole runs -/

theorem Service.initial_wired (inherited : ℕ → Bool) (serverSocket : ℕ)
    (start : σ) {uninitialised : List UInt8}
    (hsized : uninitialised.length = 8) :
    (Service.initial inherited serverSocket start uninitialised).Wired
      serverSocket where
  dispatched := Server.initial_dispatched uninitialised
  own := Server.initial_ownArguments uninitialised
  sizeBuf := hsized
  aligned := rfl
  threads := rfl
  once := List.nodup_nil
  sent := by simp [Service.initial]
  requests := by
    intro i argument hi
    cases hi
  executed := by
    intro i response hresponse
    cases hresponse
  sound := Clients.initial_sound inherited serverSocket
  attached := Clients.initial_attached inherited serverSocket

theorem Service.initial_explains (os : Os σ) (inherited : ℕ → Bool)
    (serverSocket : ℕ) (start : σ) (uninitialised : List UInt8) :
    (Service.initial inherited serverSocket start uninitialised).Explains os
      start [] where
  linearizes := Linearizes.initial _ start
  fresh := by simp [Service.initial]
  invoked := by
    intro call operation hoperation
    cases hoperation
  effects := by simp
  responses := by
    intro i response hi
    cases hi
  inbox := by
    intro call answer hanswer
    cases hanswer

/-- The remote file system is linearizable. -/
theorem Service.run_linearizable (os : Os σ) {inherited : ℕ → Bool}
    {serverSocket : ℕ} {start : σ} {uninitialised : List UInt8}
    (hsized : uninitialised.length = 8) {events : List ServiceEvent}
    {service : Service σ}
    (hrun : Run (Service.step os serverSocket) Service.Orderly
      (Service.initial inherited serverSocket start uninitialised) events
      service) :
    ∃ order, Linearizes (callsOn os) start service.os service.history
      order := by
  have hinv : service.Wired serverSocket ∧
      ∃ order, service.Explains os start order := by
    apply hrun.invariant _
      ⟨Service.initial_wired inherited serverSocket start hsized, [],
        Service.initial_explains os inherited serverSocket start
          uninitialised⟩
    rintro state event next ⟨hwired, order, hexplains⟩ horderly hstep
    exact ⟨hwired.step horderly hstep,
      hexplains.step hwired horderly hstep⟩
  obtain ⟨_, order, hexplains⟩ := hinv
  exact ⟨order, hexplains.linearizes⟩

end Service

/-- An operating system with one file, which `open` opens as descriptor 6. -/
def fileSixOs : Os Bool where
  exec := fun opened call =>
    match call with
    | .openCall _ _ _ =>
        if opened then ((-1 : CInt), true) else ((6 : CInt), true)
    | .close fildes =>
        if opened = true ∧ fildes = 6 then ((0 : CInt), false)
        else ((-1 : CInt), opened)
    | .unlink _ => ((0 : CInt), opened)
    | call => ((failingOs.exec () call).1, opened)

def wholeSending : Sending := ⟨some 4096, true⟩

/-- `main` takes the connection of a call and gives it to a new handler. -/
def takenByMain (call socket handler : ℕ) : List ServiceEvent :=
  [.process .enterAccept, .accept call socket 4096 4096 amplestMalloc,
    .process (.main .assign), .process (.main .create),
    .process (.copy handler)]

/-- One client creates a file, and closes its descriptor on a connection that
gets the number of its first one, while another client waits for an
`unlink`. -/
def crossedCalls : List ServiceEvent :=
  [.invoke 0 (.openCall remoteA O_CREAT (some 0o644)) [] fun _ => 0,
    .invoke 1 (.unlink remoteA) [] fun _ => 0] ++
  takenByMain 1 4 0 ++ takenByMain 0 5 1 ++
  [.execute 1 amplestMalloc amplestMalloc failingOs, .finish 1 wholeSending,
    .receive 0 (fun _ => 0) 4096, .invoke 0 (.close 0x7ffffff9) [] fun _ => 0]
  ++ takenByMain 2 5 2 ++
  [.execute 2 amplestMalloc amplestMalloc failingOs,
    .execute 0 amplestMalloc amplestMalloc failingOs, .finish 2 wholeSending,
    .finish 0 wholeSending, .receive 2 (fun _ => 0) 4096,
    .receive 1 (fun _ => 0) 4096]

theorem run_linearizable_crossedCalls :
    ∃ service, Run (Service.step fileSixOs 3) Service.Orderly
        (Service.initial (fun fildes => decide (fildes < 3)) 3 false
          (List.replicate 8 0)) crossedCalls service ∧
      (service.os, service.history.drop 2) =
        (false, [.respond 0 ⟨2147483641, []⟩,
          .invoke 2 (.close 0x7ffffff9, []), .respond 2 ⟨0, []⟩,
          .respond 1 ⟨0, []⟩]) ∧
      ∃ order, Linearizes (callsOn fileSixOs) false service.os
        service.history order := by
  have hexec : (execute (Service.step fileSixOs 3) Service.Orderly
      (Service.initial (fun fildes => decide (fildes < 3)) 3 false
        (List.replicate 8 0)) crossedCalls).map
        (fun service => (service.os, service.history.drop 2)) =
      some (false, [.respond 0 ⟨2147483641, []⟩,
        .invoke 2 (.close 0x7ffffff9, []), .respond 2 ⟨0, []⟩,
        .respond 1 ⟨0, []⟩]) := by
    decide +kernel
  obtain ⟨service, hservice, hreached⟩ := Option.map_eq_some_iff.mp hexec
  have hrun := run_of_execute hservice
  exact ⟨service, hrun, hreached,
    Service.run_linearizable fileSixOs rfl hrun⟩

end TestRpc
