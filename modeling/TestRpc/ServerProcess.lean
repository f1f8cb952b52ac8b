import TestRpc.DescriptorTable
import TestRpc.RequestDispatch

/-!
# The server process as a whole

`main` with its handler threads, and the one descriptor table that they share.
`main` takes connections from the listening socket for as long as the table
has it under the number in `server_socket`, and a handler's system call acts on
whatever the table has under the number that it is given: a file, a connection
or the listening socket.  A handler works with the arguments that it has
copied, whosever they are.
-/

namespace TestRpc

open TransitionRuns LittleEndian BlockCopies StreamReceive

/-! ## States and steps -/

/-- The threads in `files` are the handlers with their own arguments, and
before the copy with those of the request that they are created for.
`entered` says that `main` has called `accept` and waits in it. -/
structure ServerProcess where
  server : Server
  files : FileServer
  entered : Bool

def ServerProcess.initial (inherited : ℕ → Bool) (serverSocket : ℕ)
    (uninitialised : List UInt8) : ServerProcess where
  server := Server.initial uninitialised
  files := FileServer.initial inherited serverSocket
  entered := false

/-- `main` calls `accept`, and gets a connection with its request or one
whose peer is silent; or takes a step `main` that has nothing to do with the
table; or a handler copies its arguments, makes its system call or returns. -/
inductive ProcessEvent
  | enterAccept
  | accept (connection : Connection)
  | acceptSilent (socket : ℕ)
  | main (event : Event)
  | copy (handler : ℕ)
  | execute (handler : ℕ) (malloc : Malloc) (granted : Option ℕ)
  | finish (handler : ℕ) (closes : Bool)

def FileServer.setArguments (files : FileServer) (handler : ℕ)
    (arguments : ThreadArg) : FileServer :=
  { files with
    threads := files.threads.modify handler fun thread =>
      { thread with
        payload := arguments.payload, socket := arguments.clientSocket } }

section Steps

variable (process : ServerProcess)

/-- `accept` fails at once when `server_socket` is not the listening socket
any more. -/
def ServerProcess.enterAccept (serverSocket : ℕ) : Option ServerProcess :=
  if process.server.pc = .accepting ∧ process.entered = false then
    if process.files.table serverSocket = some .listening then
      some { process with entered := true }
    else
      some { process with server := process.server.leave .acceptFailed }
  else
    none

/-- An `accept` that has been called returns a connection even if the
listening socket has been closed meanwhile.  When the loop is left here, the
process ends and its table with it. -/
def ServerProcess.accept (connection : Connection) : Option ServerProcess :=
  if process.entered && process.files.free connection.clientSocket then
    match process.server.step (.acceptConnection connection) with
    | none => none
    | some server =>
        match server.pc with
        | .received argument =>
            (process.files.accept argument.clientSocket argument.payload).map
              fun files => ⟨server, files, false⟩
        | _ => some ⟨server, process.files, false⟩
  else
    none

def ServerProcess.acceptSilent (socket : ℕ) : Option ServerProcess :=
  if process.entered && process.files.free socket then
    (process.server.step .acceptSilent).map fun server =>
      ⟨server, process.files.touch socket
        (some (.connection process.files.threads.length)), false⟩
  else
    none

def ServerProcess.main (event : Event) : Option ServerProcess :=
  match event with
  | .acceptConnection _ | .acceptSilent | .copy _ | .finish _ => none
  | event =>
      (process.server.step event).map fun server =>
        { process with server := server }

def ServerProcess.copy (handler : ℕ) : Option ServerProcess :=
  match process.server.step (.copy handler), process.server.argument with
  | some server, some arguments =>
      some { process with
        server := server
        files := process.files.setArguments handler arguments }
  | _, _ => none

def ServerProcess.execute (handler : ℕ) (malloc : Malloc)
    (granted : Option ℕ) : Option ServerProcess :=
  match process.server.running, process.server.handlers[handler]? with
  | true, some (.copied _) =>
      if handler ∈ process.server.blocked then none
      else
        (process.files.execute handler malloc granted).map fun files =>
          { process with files := files }
  | _, _ => none

def ServerProcess.finish (handler : ℕ) (closes : Bool) :
    Option ServerProcess :=
  match process.server.step (.finish handler) with
  | none => none
  | some server =>
      (process.files.leave handler closes).map fun files =>
        { process with server := server, files := files }

end Steps

def ServerProcess.step (serverSocket : ℕ) (process : ServerProcess) :
    ProcessEvent → Option ServerProcess
  | .enterAccept => process.enterAccept serverSocket
  | .accept connection => process.accept connection
  | .acceptSilent socket => process.acceptSilent socket
  | .main event => process.main event
  | .copy handler => process.copy handler
  | .execute handler malloc granted => process.execute handler malloc granted
  | .finish handler closes => process.finish handler closes

/-! ## What a step can do -/

/-- The step of `main` or of a handler that an event is, but for a system call
of a handler. -/
def ProcessEvent.ofServer : ProcessEvent → Option Event
  | .enterAccept => none
  | .accept connection => some (.acceptConnection connection)
  | .acceptSilent _ => some .acceptSilent
  | .main event => some event
  | .copy handler => some (.copy handler)
  | .execute _ _ _ => none
  | .finish handler _ => some (.finish handler)

/-- The events that the process takes as steps of `main`. -/
def Event.ofMain : Event → Bool
  | .acceptConnection _ | .acceptSilent | .copy _ | .finish _ => false
  | _ => true

inductive ServerProcess.Steps (serverSocket : ℕ) (process : ServerProcess) :
    ProcessEvent → ServerProcess → Prop
  | entered :
      process.server.pc = .accepting →
      process.files.table serverSocket = some .listening →
      process.Steps serverSocket .enterAccept { process with entered := true }
  | refused :
      process.server.pc = .accepting →
      process.files.table serverSocket ≠ some .listening →
      process.Steps serverSocket .enterAccept
        { process with server := process.server.leave .acceptFailed }
  | received {connection : Connection} {argument : ThreadArg}
      {payloadSizeBuf : List UInt8} :
      process.server.pc = .accepting →
      process.files.free connection.clientSocket = true →
      receiveRequest process.server.payloadSizeBuf connection =
        (.handed argument, payloadSizeBuf) →
      argument.clientSocket = connection.clientSocket →
      process.Steps serverSocket (.accept connection)
        ⟨{ process.server with
            pc := .received argument
            payloadSizeBuf := payloadSizeBuf
            requests := process.server.requests ++ [argument] },
          { process.files.touch argument.clientSocket
              (some (.connection process.files.threads.length)) with
            threads := process.files.threads ++
              [⟨argument.payload, argument.clientSocket, .serving⟩] },
          false⟩
  | receiveFailed {connection : Connection} {received : Received}
      {payloadSizeBuf : List UInt8} {exit : Exit} :
      process.server.pc = .accepting →
      receiveRequest process.server.payloadSizeBuf connection =
        (received, payloadSizeBuf) →
      (received = .recvFailed ∧ exit = .recvFailed ∨
        received = .mallocFailed ∧ exit = .mallocFailed) →
      process.Steps serverSocket (.accept connection)
        ⟨{ process.server with
            pc := .left exit, payloadSizeBuf := payloadSizeBuf },
          process.files, false⟩
  | silent {socket : ℕ} :
      process.server.pc = .accepting →
      process.files.free socket = true →
      process.Steps serverSocket (.acceptSilent socket)
        ⟨{ process.server with pc := .receiving },
          process.files.touch socket
            (some (.connection process.files.threads.length)), false⟩
  | main {event : Event} {server : Server} :
      event.ofMain = true →
      process.server.step event = some server →
      process.Steps serverSocket (.main event)
        { process with server := server }
  | copied {handler : ℕ} {arguments : ThreadArg} :
      process.server.step (.copy handler) = some { process.server with
        handlers :=
          process.server.handlers.set handler (.copied arguments) } →
      process.server.handlers[handler]? = some .created →
      process.server.argument = some arguments →
      process.Steps serverSocket (.copy handler)
        { process with
          server := { process.server with
            handlers :=
              process.server.handlers.set handler (.copied arguments) }
          files := process.files.setArguments handler arguments }
  | executed {handler : ℕ} {malloc : Malloc} {granted : Option ℕ}
      {arguments : ThreadArg} {files : FileServer} :
      process.server.running = true →
      process.server.handlers[handler]? = some (.copied arguments) →
      process.files.step (.execute handler malloc granted) = some files →
      process.Steps serverSocket (.execute handler malloc granted)
        { process with files := files }
  | finished {handler : ℕ} {closes : Bool} {server : Server}
      {files : FileServer} :
      process.server.step (.finish handler) = some server →
      process.files.step (.leave handler closes) = some files →
      process.Steps serverSocket (.finish handler closes)
        { process with server := server, files := files }

section Inversion

variable {serverSocket : ℕ} {process next : ServerProcess}

theorem ServerProcess.accept_steps {connection : Connection}
    (haccept : process.accept connection = some next) :
    process.Steps serverSocket (.accept connection) next := by
  unfold ServerProcess.accept at haccept
  split at haccept
  · next hguard =>
    rw [Bool.and_eq_true] at hguard
    split at haccept
    · cases haccept
    · next server hserver =>
      cases Server.steps_of_step hserver with
      | @received _ argument payloadSizeBuf hpc hreceive =>
          have hsocket : argument.clientSocket = connection.clientSocket :=
            receiveRequest_handed_socket (by rw [hreceive])
          simp only [FileServer.accept, hsocket, hguard.2, if_true,
            Option.map_some, Option.some.injEq] at haccept
          subst haccept
          rw [← hsocket]
          exact .received hpc hguard.2 hreceive hsocket
      | receiveFailed hpc hreceive hexit =>
          simp only [Option.some.injEq] at haccept
          subst haccept
          exact .receiveFailed hpc hreceive hexit
  · cases haccept

theorem ServerProcess.main_steps {event : Event}
    (hmain : process.main event = some next) :
    process.Steps serverSocket (.main event) next := by
  have hevent : event.ofMain = true := by
    cases event <;> first | rfl | cases hmain
  have hserver : (process.server.step event).map
      (fun server => { process with server := server }) = some next := by
    cases event <;> first | exact hmain | cases hevent
  obtain ⟨server, hstep, rfl⟩ := Option.map_eq_some_iff.mp hserver
  exact .main hevent hstep

theorem ServerProcess.copy_steps {handler : ℕ}
    (hcopy : process.copy handler = some next) :
    process.Steps serverSocket (.copy handler) next := by
  unfold ServerProcess.copy at hcopy
  split at hcopy
  · next server arguments hserver hargument =>
    cases hcopy
    have hstep := hserver
    cases Server.steps_of_step hserver with
    | copied hrunning hcreated hargument' =>
        rw [hargument, Option.some.injEq] at hargument'
        subst hargument'
        exact .copied hstep hcreated hargument
  · cases hcopy

theorem ServerProcess.execute_steps {handler : ℕ} {malloc : Malloc}
    {granted : Option ℕ}
    (hexecute : process.execute handler malloc granted = some next) :
    process.Steps serverSocket (.execute handler malloc granted) next := by
  unfold ServerProcess.execute at hexecute
  split at hexecute
  · next arguments hrunning hcopied =>
    split at hexecute
    · cases hexecute
    · obtain ⟨files, hfiles, rfl⟩ := Option.map_eq_some_iff.mp hexecute
      exact .executed hrunning hcopied hfiles
  · cases hexecute

theorem ServerProcess.steps_of_step {event : ProcessEvent}
    (hstep : process.step serverSocket event = some next) :
    process.Steps serverSocket event next := by
  cases event with
  | enterAccept =>
      simp only [ServerProcess.step, ServerProcess.enterAccept] at hstep
      split at hstep
      · next hguard =>
        split at hstep
        · next hlistening =>
          cases hstep
          exact .entered hguard.1 hlistening
        · next hclosed =>
          cases hstep
          exact .refused hguard.1 hclosed
      · cases hstep
  | accept connection => exact ServerProcess.accept_steps hstep
  | acceptSilent socket =>
      simp only [ServerProcess.step, ServerProcess.acceptSilent] at hstep
      split at hstep
      · next hguard =>
        rw [Bool.and_eq_true] at hguard
        obtain ⟨server, hserver, rfl⟩ := Option.map_eq_some_iff.mp hstep
        cases Server.steps_of_step hserver with
        | silent hpc => exact .silent hpc hguard.2
      · cases hstep
  | main event => exact ServerProcess.main_steps hstep
  | copy handler => exact ServerProcess.copy_steps hstep
  | execute handler malloc granted =>
      exact ServerProcess.execute_steps hstep
  | finish handler closes =>
      simp only [ServerProcess.step, ServerProcess.finish] at hstep
      split at hstep
      · cases hstep
      · next server hserver =>
        obtain ⟨files, hfiles, rfl⟩ := Option.map_eq_some_iff.mp hstep
        exact .finished hserver hfiles

theorem ServerProcess.server_step {event : ProcessEvent} {taken : Event}
    (hstep : process.step serverSocket event = some next)
    (htaken : event.ofServer = some taken) :
    process.server.step taken = some next.server := by
  cases ServerProcess.steps_of_step hstep with
  | entered hpc hlistening => cases htaken
  | refused hpc hclosed => cases htaken
  | executed hrunning hcopied hfiles => cases htaken
  | received hpc hfree hreceive hsocket =>
      cases htaken
      rw [Server.step, if_pos hpc, Server.accept, hreceive]
  | receiveFailed hpc hreceive hexit =>
      cases htaken
      rw [Server.step, if_pos hpc, Server.accept, hreceive]
      rcases hexit with ⟨rfl, rfl⟩ | ⟨rfl, rfl⟩
      · rfl
      · rfl
  | silent hpc hfree =>
      cases htaken
      rw [Server.step, if_pos hpc]
  | main hevent hserver =>
      cases htaken
      exact hserver
  | copied hserver hcreated hargument =>
      cases htaken
      exact hserver
  | finished hserver hfiles =>
      cases htaken
      exact hserver

/-- Every step is one of `main` and its handlers, a failing `accept` among
them, or leaves them as they are. -/
theorem ServerProcess.step_server {event : ProcessEvent}
    (hstep : process.step serverSocket event = some next) :
    next.server = process.server ∨
      ∃ taken, process.server.step taken = some next.server ∧
        (event.ofServer = some taken ∨ taken = .acceptFails) := by
  cases htaken : event.ofServer with
  | some taken =>
      exact .inr ⟨taken, ServerProcess.server_step hstep htaken, .inl rfl⟩
  | none =>
      cases ServerProcess.steps_of_step hstep with
      | entered hpc hlistening => exact .inl rfl
      | executed hrunning hcopied hfiles => exact .inl rfl
      | refused hpc hclosed =>
          right
          refine ⟨.acceptFails, ?_, .inr rfl⟩
          rw [Server.step, if_pos hpc]
      | received hpc hfree hreceive hsocket => cases htaken
      | receiveFailed hpc hreceive hexit => cases htaken
      | silent hpc hfree => cases htaken
      | main hevent hserver => cases htaken
      | copied hserver hcreated hargument => cases htaken
      | finished hserver hfiles => cases htaken

/-- What every step of `main` and the handlers keeps, every step of the
process keeps. -/
theorem ServerProcess.server_invariant {Inv : Server → Prop}
    (hkeeps : ∀ server event next, Inv server →
      Server.step server event = some next → Inv next)
    {event : ProcessEvent} (hinv : Inv process.server)
    (hstep : process.step serverSocket event = some next) :
    Inv next.server := by
  rcases ServerProcess.step_server hstep with hsame | ⟨event, hserver, _⟩
  · rw [hsame]
    exact hinv
  · exact hkeeps _ event _ hinv hserver

end Inversion

theorem FileServer.getElem?_setArguments (files : FileServer) (handler : ℕ)
    (arguments : ThreadArg) (other : ℕ) :
    (files.setArguments handler arguments).threads[other]? =
      (files.threads[other]?).map fun thread =>
        if handler = other then
          { thread with
            payload := arguments.payload, socket := arguments.clientSocket }
        else thread := by
  simp only [FileServer.setArguments, List.getElem?_modify]
  by_cases heq : handler = other
  · simp [heq]
  · simp [heq]

end TestRpc
