import TestRpc.TransitionRuns
import TestRpc.RequestFraming

/-!
# The accept loop and its handler threads

The server process as a transition system.  `main` accepts a connection and
receives its request, assigns `argument`, and creates a handler thread with
`&argument`; after every fiftieth thread it joins the last fifty.  A handler's
first step copies `*arg`.  The steps of `main` and of all handlers interleave
in any order.  A peer that sends nothing keeps `main` waiting in `recv`, and
the system call or the `send` of a handler may not return for any time.
-/

namespace TestRpc

open TransitionRuns LittleEndian BlockCopies StreamReceive

/-! ## States and steps -/

/-- Why `main` left its loop, or the process ended under it.  `undefined`
stands for an access outside `thread_id` and for joining a thread that is not
there to be joined. -/
inductive Exit
  | acceptFailed
  | recvFailed
  | mallocFailed
  | createFailed
  | joinFailed
  | handlerCrashed
  | undefined
  deriving DecidableEq

/-- In `receiving`, `main` waits in one of its two `recv`s for a peer that
neither sends nor closes. -/
inductive MainPc
  | accepting
  | receiving
  | received (argument : ThreadArg)
  | assigned
  | joining
  | left (exit : Exit)
  deriving DecidableEq

/-- A handler thread: before and after it copied its arguments, and after it
returned. -/
inductive Handler
  | created
  | copied (arguments : ThreadArg)
  | finished (arguments : ThreadArg)
  deriving DecidableEq

def Handler.arguments? : Handler → Option ThreadArg
  | .created => none
  | .copied arguments => some arguments
  | .finished arguments => some arguments

/-- The server process.  Handlers are numbered in the order of their creation;
`blocked` are those in a system call or a `send` that does not return.
`requests` and `joined` are history: the requests received so far, each of
which `main` creates one handler for, and the handlers joined so far. -/
structure Server where
  pc : MainPc
  payloadSizeBuf : List UInt8
  argument : Option ThreadArg
  threadIndex : ℕ
  threadId : List (Option ℕ)
  handlers : List Handler
  blocked : List ℕ
  requests : List ThreadArg
  joined : List ℕ
  deriving DecidableEq

/-- `main` at the head of its loop, with what `payload_size_buf` holds
uninitialised. -/
def Server.initial (uninitialised : List UInt8) : Server where
  pc := .accepting
  payloadSizeBuf := uninitialised
  argument := none
  threadIndex := 0
  threadId := List.replicate 60 none
  handlers := []
  blocked := []
  requests := []
  joined := []

/-- A step of `main` or of a handler.  `accept` fails for a reason of the
kernel's or because the listening socket is closed.  A handler crashes when it
takes the whole process down: by a `send` that raises `SIGPIPE`, or by a
fault. -/
inductive Event
  | acceptConnection (connection : Connection)
  | acceptSilent
  | acceptFails
  | assign
  | create
  | createFails
  | join
  | joinFails
  | copy (handler : ℕ)
  | block (handler : ℕ)
  | unblock (handler : ℕ)
  | finish (handler : ℕ)
  | crash (handler : ℕ)

/-- The thread in a slot of `thread_id` is blocked. -/
def Server.BlockedIn (server : Server) (slot : ℕ) : Prop :=
  ∃ handler ∈ server.blocked, server.threadId[slot]? = some (some handler)

def Server.leave (server : Server) (exit : Exit) : Server :=
  { server with pc := .left exit }

/-- `accept`, the two `recv`s and `malloc`. -/
def Server.accept (server : Server) (connection : Connection) : Server :=
  match receiveRequest server.payloadSizeBuf connection with
  | (.handed argument, payloadSizeBuf) =>
      { server with
        pc := .received argument
        payloadSizeBuf := payloadSizeBuf
        requests := server.requests ++ [argument] }
  | (.recvFailed, payloadSizeBuf) =>
      { server with payloadSizeBuf := payloadSizeBuf }.leave .recvFailed
  | (.mallocFailed, payloadSizeBuf) =>
      { server with payloadSizeBuf := payloadSizeBuf }.leave .mallocFailed

/-- `pthread_create(&thread_id[thread_index++], …)` and the test for a full
batch. -/
def Server.create (server : Server) : Server :=
  if server.threadIndex < server.threadId.length then
    let created := { server with
      threadId := server.threadId.set server.threadIndex
        (some server.handlers.length)
      threadIndex := server.threadIndex + 1
      handlers := server.handlers ++ [Handler.created] }
    if 50 ≤ created.threadIndex then
      { created with pc := .joining, threadIndex := 0 }
    else
      { created with pc := .accepting }
  else
    server.leave .undefined

/-- `pthread_join(thread_id[thread_index++], NULL)` and the end of the inner
loop; `none` while the thread has not returned. -/
def Server.join (server : Server) : Option Server :=
  match server.threadId[server.threadIndex]? with
  | some (some handler) =>
      if handler ∈ server.joined then
        some (server.leave .undefined)
      else
        match server.handlers[handler]? with
        | some (.finished _) =>
            let joined := { server with
              threadIndex := server.threadIndex + 1
              joined := server.joined ++ [handler] }
            if joined.threadIndex < 50 then
              some joined
            else
              some { joined with pc := .accepting, threadIndex := 0 }
        | _ => none
  | _ => some (server.leave .undefined)

def Server.copy (server : Server) (handler : ℕ) : Option Server :=
  match server.handlers[handler]?, server.argument with
  | some .created, some arguments =>
      some { server with
        handlers := server.handlers.set handler (.copied arguments) }
  | _, _ => none

def Server.block (server : Server) (handler : ℕ) : Option Server :=
  match server.handlers[handler]? with
  | some (.copied _) =>
      if handler ∈ server.blocked then none
      else some { server with blocked := handler :: server.blocked }
  | _ => none

def Server.unblock (server : Server) (handler : ℕ) : Option Server :=
  if handler ∈ server.blocked then
    some { server with blocked := server.blocked.filter (· ≠ handler) }
  else
    none

def Server.finish (server : Server) (handler : ℕ) : Option Server :=
  match server.handlers[handler]? with
  | some (.copied arguments) =>
      if handler ∈ server.blocked then none
      else some { server with
        handlers := server.handlers.set handler (.finished arguments) }
  | _ => none

def Server.crash (server : Server) (handler : ℕ) : Option Server :=
  match server.handlers[handler]? with
  | some (.copied _) => some (server.leave .handlerCrashed)
  | _ => none

def Server.running (server : Server) : Bool :=
  match server.pc with
  | .left _ => false
  | _ => true

def Server.step (server : Server) : Event → Option Server
  | .acceptConnection connection =>
      if server.pc = .accepting then some (server.accept connection) else none
  | .acceptSilent =>
      if server.pc = .accepting then some { server with pc := .receiving }
      else none
  | .acceptFails =>
      if server.pc = .accepting then some (server.leave .acceptFailed)
      else none
  | .assign =>
      match server.pc with
      | .received argument =>
          some { server with pc := .assigned, argument := some argument }
      | _ => none
  | .create => if server.pc = .assigned then some server.create else none
  | .createFails =>
      if server.pc = .assigned then some (server.leave .createFailed) else none
  | .join => if server.pc = .joining then server.join else none
  | .joinFails =>
      if server.pc = .joining then some (server.leave .joinFailed) else none
  | .copy handler => if server.running then server.copy handler else none
  | .block handler => if server.running then server.block handler else none
  | .unblock handler =>
      if server.running then server.unblock handler else none
  | .finish handler => if server.running then server.finish handler else none
  | .crash handler => if server.running then server.crash handler else none

/-! ## What a step can do -/

/-- The steps by case: what each of them needs of the state and what it
changes. -/
inductive Server.Steps (server : Server) : Event → Server → Prop
  | received {connection : Connection} {argument : ThreadArg}
      {payloadSizeBuf : List UInt8} :
      server.pc = .accepting →
      receiveRequest server.payloadSizeBuf connection =
        (.handed argument, payloadSizeBuf) →
      server.Steps (.acceptConnection connection)
        { server with
          pc := .received argument
          payloadSizeBuf := payloadSizeBuf
          requests := server.requests ++ [argument] }
  | receiveFailed {connection : Connection} {received : Received}
      {payloadSizeBuf : List UInt8} {exit : Exit} :
      server.pc = .accepting →
      receiveRequest server.payloadSizeBuf connection =
        (received, payloadSizeBuf) →
      (received = .recvFailed ∧ exit = .recvFailed ∨
        received = .mallocFailed ∧ exit = .mallocFailed) →
      server.Steps (.acceptConnection connection)
        { server with pc := .left exit, payloadSizeBuf := payloadSizeBuf }
  | silent :
      server.pc = .accepting →
      server.Steps .acceptSilent { server with pc := .receiving }
  | acceptFailed :
      server.pc = .accepting →
      server.Steps .acceptFails (server.leave .acceptFailed)
  | assigned {argument : ThreadArg} :
      server.pc = .received argument →
      server.Steps .assign
        { server with pc := .assigned, argument := some argument }
  | created :
      server.pc = .assigned → server.Steps .create server.create
  | createFailed :
      server.pc = .assigned →
      server.Steps .createFails (server.leave .createFailed)
  | joined {next : Server} :
      server.pc = .joining → server.join = some next →
      server.Steps .join next
  | joinFailed :
      server.pc = .joining →
      server.Steps .joinFails (server.leave .joinFailed)
  | copied {handler : ℕ} {arguments : ThreadArg} :
      server.running = true →
      server.handlers[handler]? = some .created →
      server.argument = some arguments →
      server.Steps (.copy handler)
        { server with
          handlers := server.handlers.set handler (.copied arguments) }
  | blocks {handler : ℕ} {arguments : ThreadArg} :
      server.running = true →
      server.handlers[handler]? = some (.copied arguments) →
      server.Steps (.block handler)
        { server with blocked := handler :: server.blocked }
  | unblocks {handler : ℕ} :
      server.running = true →
      server.Steps (.unblock handler)
        { server with blocked := server.blocked.filter (· ≠ handler) }
  | finished {handler : ℕ} {arguments : ThreadArg} :
      server.running = true →
      server.handlers[handler]? = some (.copied arguments) →
      handler ∉ server.blocked →
      server.Steps (.finish handler)
        { server with
          handlers := server.handlers.set handler (.finished arguments) }
  | crashed {handler : ℕ} {arguments : ThreadArg} :
      server.running = true →
      server.handlers[handler]? = some (.copied arguments) →
      server.Steps (.crash handler) (server.leave .handlerCrashed)

theorem Server.accept_steps {server : Server} (hpc : server.pc = .accepting)
    (connection : Connection) :
    server.Steps (.acceptConnection connection)
      (server.accept connection) := by
  obtain ⟨received, payloadSizeBuf, hreceive⟩ :
      ∃ received payloadSizeBuf,
        receiveRequest server.payloadSizeBuf connection =
          (received, payloadSizeBuf) := ⟨_, _, rfl⟩
  rw [Server.accept, hreceive]
  cases received with
  | handed argument => exact .received hpc hreceive
  | recvFailed => exact .receiveFailed hpc hreceive (.inl ⟨rfl, rfl⟩)
  | mallocFailed => exact .receiveFailed hpc hreceive (.inr ⟨rfl, rfl⟩)

theorem Server.steps_of_step {server next : Server} {event : Event}
    (hstep : server.step event = some next) :
    server.Steps event next := by
  cases event with
  | acceptConnection connection =>
      obtain ⟨hpc, rfl⟩ : server.pc = .accepting ∧
          server.accept connection = next := by
        simpa [Server.step] using hstep
      exact Server.accept_steps hpc connection
  | acceptSilent =>
      obtain ⟨hpc, rfl⟩ : server.pc = .accepting ∧
          { server with pc := .receiving } = next := by
        simpa [Server.step] using hstep
      exact .silent hpc
  | acceptFails =>
      obtain ⟨hpc, rfl⟩ : server.pc = .accepting ∧
          server.leave .acceptFailed = next := by
        simpa [Server.step] using hstep
      exact .acceptFailed hpc
  | assign =>
      simp only [Server.step] at hstep
      split at hstep
      · next argument hpc =>
        cases hstep
        exact .assigned hpc
      · cases hstep
  | create =>
      obtain ⟨hpc, rfl⟩ : server.pc = .assigned ∧ server.create = next := by
        simpa [Server.step] using hstep
      exact .created hpc
  | createFails =>
      obtain ⟨hpc, rfl⟩ : server.pc = .assigned ∧
          server.leave .createFailed = next := by
        simpa [Server.step] using hstep
      exact .createFailed hpc
  | join =>
      obtain ⟨hpc, hjoin⟩ : server.pc = .joining ∧
          server.join = some next := by
        simpa [Server.step] using hstep
      exact .joined hpc hjoin
  | joinFails =>
      obtain ⟨hpc, rfl⟩ : server.pc = .joining ∧
          server.leave .joinFailed = next := by
        simpa [Server.step] using hstep
      exact .joinFailed hpc
  | copy handler =>
      obtain ⟨hrunning, hcopy⟩ : server.running = true ∧
          server.copy handler = some next := by
        simpa [Server.step] using hstep
      unfold Server.copy at hcopy
      split at hcopy
      · next arguments hcreated hargument =>
        cases hcopy
        exact .copied hrunning hcreated hargument
      · cases hcopy
  | block handler =>
      obtain ⟨hrunning, hblock⟩ : server.running = true ∧
          server.block handler = some next := by
        simpa [Server.step] using hstep
      unfold Server.block at hblock
      split at hblock
      · next arguments hcopied =>
        split at hblock
        · cases hblock
        · cases hblock
          exact .blocks hrunning hcopied
      · cases hblock
  | unblock handler =>
      obtain ⟨hrunning, hunblock⟩ : server.running = true ∧
          server.unblock handler = some next := by
        simpa [Server.step] using hstep
      unfold Server.unblock at hunblock
      split at hunblock
      · cases hunblock
        exact .unblocks hrunning
      · cases hunblock
  | finish handler =>
      obtain ⟨hrunning, hfinish⟩ : server.running = true ∧
          server.finish handler = some next := by
        simpa [Server.step] using hstep
      unfold Server.finish at hfinish
      split at hfinish
      · next arguments hcopied =>
        split at hfinish
        · cases hfinish
        · next hfree =>
          cases hfinish
          exact .finished hrunning hcopied hfree
      · cases hfinish
  | crash handler =>
      obtain ⟨hrunning, hcrash⟩ : server.running = true ∧
          server.crash handler = some next := by
        simpa [Server.step] using hstep
      unfold Server.crash at hcrash
      split at hcrash
      · next arguments hcopied =>
        cases hcrash
        exact .crashed hrunning hcopied
      · cases hcrash

theorem Server.create_eq {server : Server}
    (hindex : server.threadIndex < server.threadId.length) :
    server.create = { server with
      pc := if server.threadIndex + 1 < 50 then .accepting else .joining
      threadId := server.threadId.set server.threadIndex
        (some server.handlers.length)
      threadIndex :=
        if server.threadIndex + 1 < 50 then server.threadIndex + 1 else 0
      handlers := server.handlers ++ [.created] } := by
  rw [Server.create, if_pos hindex]
  by_cases hfull : server.threadIndex + 1 < 50
  · rw [if_neg (Nat.not_le.mpr hfull), if_pos hfull, if_pos hfull]
  · rw [if_pos (Nat.not_lt.mp hfull), if_neg hfull, if_neg hfull]

theorem Server.join_cases {server next : Server}
    (hjoin : server.join = some next) :
    (next = server.leave .undefined ∧ ∀ handler,
      server.threadId[server.threadIndex]? = some (some handler) →
        handler ∈ server.joined) ∨
    ∃ handler, server.threadId[server.threadIndex]? = some (some handler) ∧
      next = { server with
        pc := if server.threadIndex + 1 < 50 then server.pc else .accepting
        threadIndex :=
          if server.threadIndex + 1 < 50 then server.threadIndex + 1 else 0
        joined := server.joined ++ [handler] } := by
  unfold Server.join at hjoin
  split at hjoin
  · next handler hslot =>
    split at hjoin
    · next hmem =>
      cases hjoin
      refine .inl ⟨rfl, fun other hother => ?_⟩
      rw [hslot, Option.some.injEq, Option.some.injEq] at hother
      exact hother ▸ hmem
    · refine .inr ⟨handler, hslot, ?_⟩
      split at hjoin
      · dsimp only at hjoin
        split at hjoin
        · next hmore =>
          cases hjoin
          rw [if_pos hmore, if_pos hmore]
        · next hdone =>
          cases hjoin
          rw [if_neg hdone, if_neg hdone]
      · cases hjoin
  · next hslot =>
    cases hjoin
    exact .inl ⟨rfl, fun handler hhandler =>
      absurd hhandler (hslot handler)⟩

/-- A handler that has returned stays as it is. -/
theorem Server.finished_of_step {server next : Server} {event : Event}
    (hstep : server.step event = some next) {handler : ℕ}
    {arguments : ThreadArg}
    (hfinished : server.handlers[handler]? = some (.finished arguments)) :
    next.handlers[handler]? = some (.finished arguments) := by
  have hset : ∀ (index : ℕ) (before after : Handler),
      server.handlers[index]? = some before →
      before ≠ .finished arguments →
      (server.handlers.set index after)[handler]? =
        some (.finished arguments) := by
    intro index before after hbefore hne
    rw [List.getElem?_set_ne]
    · exact hfinished
    · rintro rfl
      rw [hbefore, Option.some.injEq] at hfinished
      exact hne hfinished
  cases Server.steps_of_step hstep with
  | created hpc =>
      by_cases hindex : server.threadIndex < server.threadId.length
      · rw [Server.create_eq hindex]
        exact getElem?_append_left_of_some hfinished
      · rw [Server.create, if_neg hindex]
        exact hfinished
  | joined hpc hjoin =>
      rcases Server.join_cases hjoin with ⟨rfl, _⟩ | ⟨_, _, rfl⟩
      · exact hfinished
      · exact hfinished
  | copied hrunning hcreated hargument =>
      exact hset _ _ _ hcreated (by simp)
  | finished hrunning hcopied hfree => exact hset _ _ _ hcopied (by simp)
  | received hpc hreceive => exact hfinished
  | receiveFailed hpc hreceive hexit => exact hfinished
  | unblocks hrunning => exact hfinished
  | silent hpc | acceptFailed hpc | assigned hpc | createFailed hpc
  | joinFailed hpc | blocks hrunning hcopied | crashed hrunning hcopied =>
      exact hfinished

/-! ## Every request gets a handler -/

/-- Each received request has its handler, but for the one that `main` is
about to create a handler for. -/
def Server.Dispatched (server : Server) : Prop :=
  match server.pc with
  | .accepting => server.requests.length = server.handlers.length
  | .receiving => server.requests.length = server.handlers.length
  | .joining => server.requests.length = server.handlers.length
  | .received argument =>
      server.requests.length = server.handlers.length + 1 ∧
        server.requests[server.handlers.length]? = some argument
  | .assigned =>
      server.requests.length = server.handlers.length + 1 ∧
        server.requests[server.handlers.length]? = server.argument
  | .left .createFailed =>
      server.requests.length = server.handlers.length + 1
  | .left .handlerCrashed => True
  | .left .undefined => True
  | .left _ => server.requests.length = server.handlers.length

theorem Server.Dispatched.setHandler {server : Server}
    (hinv : server.Dispatched) (handler : ℕ) (state : Handler) :
    Server.Dispatched
      { server with handlers := server.handlers.set handler state } := by
  unfold Server.Dispatched at *
  simpa using hinv

theorem Server.Dispatched.step {server next : Server} {event : Event}
    (hinv : server.Dispatched) (hstep : server.step event = some next) :
    next.Dispatched := by
  cases Server.steps_of_step hstep with
  | received hpc hreceive =>
      simp only [Server.Dispatched, hpc] at hinv
      simp [Server.Dispatched, hinv]
  | receiveFailed hpc hreceive hexit =>
      simp only [Server.Dispatched, hpc] at hinv
      rcases hexit with ⟨_, rfl⟩ | ⟨_, rfl⟩
      · simpa [Server.Dispatched] using hinv
      · simpa [Server.Dispatched] using hinv
  | silent hpc =>
      simp only [Server.Dispatched, hpc] at hinv
      exact hinv
  | acceptFailed hpc =>
      simp only [Server.Dispatched, hpc] at hinv
      simpa [Server.Dispatched, Server.leave] using hinv
  | assigned hpc =>
      simp only [Server.Dispatched, hpc] at hinv
      simpa [Server.Dispatched] using hinv
  | created hpc =>
      simp only [Server.Dispatched, hpc] at hinv
      by_cases hindex : server.threadIndex < server.threadId.length
      · rw [Server.create_eq hindex]
        by_cases hfull : server.threadIndex + 1 < 50 <;>
          simp [Server.Dispatched, hfull, hinv.1]
      · simp [Server.create, hindex, Server.leave, Server.Dispatched]
  | createFailed hpc =>
      simp only [Server.Dispatched, hpc] at hinv
      simpa [Server.Dispatched, Server.leave] using hinv.1
  | joined hpc hjoin =>
      simp only [Server.Dispatched, hpc] at hinv
      rcases Server.join_cases hjoin with ⟨rfl, _⟩ | ⟨handler, _, rfl⟩
      · simp [Server.Dispatched, Server.leave]
      · by_cases hmore : server.threadIndex + 1 < 50 <;>
          simpa [Server.Dispatched, hmore, hpc] using hinv
  | joinFailed hpc =>
      simp only [Server.Dispatched, hpc] at hinv
      simpa [Server.Dispatched, Server.leave] using hinv
  | copied hrunning hcreated hargument => exact hinv.setHandler _ _
  | finished hrunning hcopied hfree => exact hinv.setHandler _ _
  | blocks hrunning hcopied => exact hinv
  | unblocks hrunning => exact hinv
  | crashed hrunning hcopied => simp [Server.Dispatched, Server.leave]

/-! ## Batches of threads -/

/-- The slots in front of `filled` hold the threads created since the last
full batch, in the order of their creation; of these the first `done` have
been joined, and so have all earlier ones. -/
structure Batch (threadId : List (Option ℕ)) (created : ℕ)
    (joined : List ℕ) (base filled done : ℕ) : Prop where
  slots_length : threadId.length = 60
  created_eq : created = base + filled
  slots : ∀ k < filled, threadId[k]? = some (some (base + k))
  joined_eq : joined = List.range (base + done)

/-- `thread_index` counts the threads of the current batch while `main`
creates them, and those it has joined while it joins them. -/
def Server.Batched (server : Server) : Prop :=
  match server.pc with
  | .joining =>
      server.threadIndex < 50 ∧
        ∃ base, Batch server.threadId server.handlers.length server.joined
          base 50 server.threadIndex
  | .left exit => exit ≠ .undefined
  | _ =>
      server.threadIndex < 50 ∧
        ∃ base, Batch server.threadId server.handlers.length server.joined
          base server.threadIndex 0

theorem Server.Batched.joining {server : Server} (hinv : server.Batched)
    (hpc : server.pc = .joining) :
    server.threadIndex < 50 ∧
      ∃ base, Batch server.threadId server.handlers.length server.joined base
        50 server.threadIndex := by
  rw [Server.Batched, hpc] at hinv
  exact hinv

theorem Server.Batched.creating {server : Server} (hinv : server.Batched)
    (hrunning : server.running = true) (hpc : server.pc ≠ .joining) :
    server.threadIndex < 50 ∧
      ∃ base, Batch server.threadId server.handlers.length server.joined base
        server.threadIndex 0 := by
  cases hplace : server.pc with
  | joining => exact absurd hplace hpc
  | left exit => simp [Server.running, hplace] at hrunning
  | accepting | receiving | received argument | assigned =>
      rw [Server.Batched, hplace] at hinv
      exact hinv

/-- In a batch, the thread that is joined next has not been joined. -/
theorem Server.Batched.join_cases {server next : Server}
    (hinv : server.Batched) (hpc : server.pc = .joining)
    (hjoin : server.join = some next) :
    server.threadIndex < 50 ∧
      ∃ base, Batch server.threadId server.handlers.length server.joined base
          50 server.threadIndex ∧
        next = { server with
          pc := if server.threadIndex + 1 < 50 then .joining else .accepting
          threadIndex :=
            if server.threadIndex + 1 < 50 then server.threadIndex + 1 else 0
          joined := server.joined ++ [base + server.threadIndex] } := by
  obtain ⟨hindex, base, hbatch⟩ := hinv.joining hpc
  have hslot := hbatch.slots server.threadIndex hindex
  rcases Server.join_cases hjoin with ⟨_, hjoined⟩ | ⟨handler, hheld, rfl⟩
  · have hmem := hjoined _ hslot
    rw [hbatch.joined_eq, List.mem_range] at hmem
    omega
  · rw [hslot, Option.some.injEq, Option.some.injEq] at hheld
    subst hheld
    rw [hpc]
    exact ⟨hindex, base, hbatch, rfl⟩

theorem Server.Batched.setHandler {server : Server} (hinv : server.Batched)
    (handler : ℕ) (state : Handler) :
    Server.Batched
      { server with handlers := server.handlers.set handler state } := by
  unfold Server.Batched at *
  simpa using hinv

theorem Batch.create {threadId : List (Option ℕ)} {created : ℕ}
    {joined : List ℕ} {base filled : ℕ}
    (hbatch : Batch threadId created joined base filled 0)
    (hfilled : filled < 60) :
    Batch (threadId.set filled (some created)) (created + 1) joined base
      (filled + 1) 0 := by
  have hlength := hbatch.slots_length
  refine ⟨by simpa using hlength, ?_, fun k hk => ?_, hbatch.joined_eq⟩
  · rw [hbatch.created_eq, Nat.add_assoc]
  · rw [List.getElem?_set, hbatch.created_eq]
    by_cases heq : filled = k
    · subst heq
      rw [if_pos rfl, if_pos (by omega)]
    · rw [if_neg heq]
      exact hbatch.slots k (by omega)

theorem Batch.join {threadId : List (Option ℕ)} {created : ℕ}
    {joined : List ℕ} {base filled done : ℕ}
    (hbatch : Batch threadId created joined base filled done) :
    Batch threadId created (joined ++ [base + done]) base filled
      (done + 1) := by
  refine ⟨hbatch.slots_length, hbatch.created_eq, hbatch.slots, ?_⟩
  rw [hbatch.joined_eq, ← Nat.add_assoc, List.range_succ]

theorem Batch.next {threadId : List (Option ℕ)} {created : ℕ}
    {joined : List ℕ} {base filled : ℕ}
    (hbatch : Batch threadId created joined base filled filled) :
    Batch threadId created joined (base + filled) 0 0 :=
  ⟨hbatch.slots_length, hbatch.created_eq,
    fun k hk => absurd hk (Nat.not_lt_zero k), hbatch.joined_eq⟩

theorem Server.Batched.step {server next : Server} {event : Event}
    (hinv : server.Batched) (hstep : server.step event = some next) :
    next.Batched := by
  cases Server.steps_of_step hstep with
  | received hpc hreceive =>
      simp only [Server.Batched, hpc] at hinv
      exact hinv
  | receiveFailed hpc hreceive hexit =>
      rcases hexit with ⟨_, rfl⟩ | ⟨_, rfl⟩ <;> simp [Server.Batched]
  | silent hpc | assigned hpc =>
      simp only [Server.Batched, hpc] at hinv
      exact hinv
  | created hpc =>
      obtain ⟨hindex, base, hbatch⟩ :=
        hinv.creating (by simp [Server.running, hpc]) (by simp [hpc])
      have hcreated := hbatch.create (by omega)
      rw [Server.create_eq (by rw [hbatch.slots_length]; omega)]
      by_cases hmore : server.threadIndex + 1 < 50
      · simp only [Server.Batched, hmore, if_true, List.length_append]
        exact ⟨trivial, base, hcreated⟩
      · have hfull : server.threadIndex + 1 = 50 := by omega
        rw [hfull] at hcreated
        simp only [Server.Batched, hmore, if_false, List.length_append]
        exact ⟨by decide, base, hcreated⟩
  | joined hpc hjoin =>
      obtain ⟨hindex, base, hbatch, rfl⟩ := hinv.join_cases hpc hjoin
      have hdone := hbatch.join
      by_cases hmore : server.threadIndex + 1 < 50
      · simp only [Server.Batched, hmore, if_true]
        exact ⟨trivial, base, hdone⟩
      · have hfull : server.threadIndex + 1 = 50 := by omega
        rw [hfull] at hdone
        simp only [Server.Batched, hmore, if_false]
        exact ⟨by decide, base + 50, hdone.next⟩
  | copied hrunning hcreated hargument => exact hinv.setHandler _ _
  | finished hrunning hcopied hfree => exact hinv.setHandler _ _
  | blocks hrunning hcopied => exact hinv
  | unblocks hrunning => exact hinv
  | acceptFailed hpc | createFailed hpc | joinFailed hpc
  | crashed hrunning hcopied =>
      simp [Server.Batched, Server.leave]

/-! ## The state in which the loop begins -/

theorem Server.initial_dispatched (uninitialised : List UInt8) :
    (Server.initial uninitialised).Dispatched := rfl

theorem Server.initial_batched (uninitialised : List UInt8) :
    (Server.initial uninitialised).Batched := by
  refine ⟨Nat.zero_lt_succ 49, 0, rfl, rfl, fun k hk => ?_, rfl⟩
  exact absurd hk (Nat.not_lt_zero k)

end TestRpc
