import TestRpc.HeapBlocks
import TestRpc.HandlerSafety
import TestRpc.StubCalls
import TestRpc.RequestDispatch
import TestRpc.LoopProgress

/-!
# The heap of the server

Every request costs the server up to three blocks: `main` allocates the
payload and hands it over through `argument`, and the handler allocates `buf`
or `statbuf` and `response_payload`, and frees all of them behind its
`cleanup` label.  The module follows the pointers through all interleavings.
When `main` assigns `argument` only after the handlers have copied it, and no
request is malformed, every live block has exactly one holder at any time and
a server without unfinished handlers has freed everything.
-/

namespace TestRpc

open TransitionRuns HeapBlocks

/-! ## Pointers and steps -/

/-- The pointers in the local variables of a handler.  Behind `cleanup` these
are the arguments of the `free`s that are still to come. -/
inductive HandlerMemory
  | created
  | copied (payload : Option ℕ)
  | called (call : LibCall) (payload buf statbuf : Option ℕ)
  | answered (response payload buf statbuf : Option ℕ)
  | cleaning (pointers : List (Option ℕ))
  | returned

/-- The server process with its heap: `payload` is the local variable of
`main`, `argument` the payload pointer in its `argument`. -/
structure HeapServer where
  server : Server
  payload : Option ℕ
  argument : Option ℕ
  memory : List HandlerMemory
  heap : Heap

def HeapServer.initial (uninitialised : List UInt8) : HeapServer where
  server := Server.initial uninitialised
  payload := none
  argument := none
  memory := []
  heap := Heap.empty

/-- A step of the process.  Those that allocate come with the address that
`malloc` returns. -/
inductive HeapEvent
  | acceptConnection (connection : Connection) (address : ℕ)
  | process (event : Event)
  | copy (handler : ℕ)
  | call (handler : ℕ) (bufMalloc : Malloc) (address : ℕ)
  | respond (handler : ℕ) (malloc : Malloc) (address : ℕ)
  | send (handler : ℕ)
  | free (handler : ℕ)
  | finish (handler : ℕ)

/-- The pointers that the handler frees, in this order. -/
def cleanup (response payload buf statbuf : Option ℕ) : List (Option ℕ) :=
  [response, buf, statbuf, payload]

def LibCall.bufPointer (address : ℕ) : LibCall → Option ℕ
  | .read _ _ => some address
  | .write _ _ => some address
  | _ => none

def LibCall.statbufPointer (address : ℕ) : LibCall → Option ℕ
  | .stat _ => some address
  | .fstat _ => some address
  | _ => none

def HeapServer.setMemory (state : HeapServer) (handler : ℕ)
    (memory : HandlerMemory) (heap : Heap) : HeapServer :=
  { state with memory := state.memory.set handler memory, heap := heap }

/-- `accept` and the `recv`s.  When the loop is left here, the process ends
and its heap with it. -/
def HeapServer.accept (state : HeapServer) (connection : Connection)
    (address : ℕ) : Option HeapServer :=
  match state.server.step (.acceptConnection connection) with
  | none => none
  | some next =>
      match next.pc with
      | .received _ =>
          match state.heap.malloc address with
          | none => none
          | some heap => some { state with
              server := next, payload := some address, heap := heap }
      | _ => some { state with server := next }

/-- The other steps of `main`, and the end of the process by a handler.  While
`main` waits in `recv` or a handler is blocked, it takes no step here. -/
def HeapServer.process (state : HeapServer) (event : Event) :
    Option HeapServer :=
  match event, state.server.step event with
  | .assign, some next =>
      some { state with server := next, argument := state.payload }
  | .create, some next =>
      some { state with server := next, memory := state.memory ++ [.created] }
  | .acceptFails, some next | .createFails, some next | .join, some next
  | .joinFails, some next | .crash _, some next =>
      some { state with server := next }
  | _, _ => none

def HeapServer.copy (state : HeapServer) (handler : ℕ) :
    Option HeapServer :=
  match state.memory[handler]?, state.server.step (.copy handler) with
  | some .created, some next =>
      some ({ state with server := next }.setMemory handler
        (.copied state.argument) state.heap)
  | _, _ => none

/-- The handler reads its payload and, for some calls, allocates `buf` or
`statbuf`.  A payload that it reads past the end of damages the heap. -/
def HeapServer.call (state : HeapServer) (handler : ℕ) (bufMalloc : Malloc)
    (address : ℕ) : Option HeapServer :=
  match state.memory[handler]?, state.server.handlers[handler]? with
  | some (.copied payload), some (.copied arguments) =>
      let touched := state.heap.touch payload
      match decode bufMalloc arguments.payload with
      | .error _ =>
          some (state.setMemory handler (.copied payload)
            { touched with damaged := true })
      | .ok none =>
          some (state.setMemory handler
            (.cleaning (cleanup none payload none none)) touched)
      | .ok (some call) =>
          let allocated := match call.handlerBuf with
            | none => some touched
            | some _ => touched.malloc address
          allocated.map fun heap =>
            state.setMemory handler (.called call payload
              (call.bufPointer address) (call.statbufPointer address)) heap
  | _, _ => none

/-- The file system call, whose paths point into the payload, and the
allocation of `response_payload`. -/
def HeapServer.respond (state : HeapServer) (handler : ℕ) (malloc : Malloc)
    (address : ℕ) : Option HeapServer :=
  match state.memory[handler]? with
  | some (.called call payload buf statbuf) =>
      let touched := ((state.heap.touch payload).touch buf).touch statbuf
      if malloc.serves call.responseSize.toNat then
        (touched.malloc address).map fun heap =>
          state.setMemory handler
            (.answered (some address) payload buf statbuf) heap
      else
        some (state.setMemory handler
          (.cleaning (cleanup none payload buf statbuf)) touched)
  | _ => none

def HeapServer.send (state : HeapServer) (handler : ℕ) : Option HeapServer :=
  match state.memory[handler]? with
  | some (.answered response payload buf statbuf) =>
      some (state.setMemory handler
        (.cleaning (cleanup response payload buf statbuf))
        (state.heap.touch response))
  | _ => none

def HeapServer.free (state : HeapServer) (handler : ℕ) : Option HeapServer :=
  match state.memory[handler]? with
  | some (.cleaning (pointer :: rest)) =>
      some (state.setMemory handler (.cleaning rest)
        (state.heap.free pointer))
  | _ => none

def HeapServer.finish (state : HeapServer) (handler : ℕ) :
    Option HeapServer :=
  match state.memory[handler]?, state.server.step (.finish handler) with
  | some (.cleaning []), some next =>
      some ({ state with server := next }.setMemory handler .returned
        state.heap)
  | _, _ => none

def HeapServer.step (state : HeapServer) : HeapEvent → Option HeapServer
  | .acceptConnection connection address => state.accept connection address
  | .process event => state.process event
  | .copy handler => state.copy handler
  | .call handler bufMalloc address =>
      if state.server.running then state.call handler bufMalloc address
      else none
  | .respond handler malloc address =>
      if state.server.running then state.respond handler malloc address
      else none
  | .send handler =>
      if state.server.running then state.send handler else none
  | .free handler =>
      if state.server.running then state.free handler else none
  | .finish handler => state.finish handler

def Handler.Decodes (bufMalloc : Malloc) : Handler → Prop
  | .copied arguments => Succeeds (decode bufMalloc arguments.payload)
  | _ => True

/-- `main` waits for the copies before it assigns `argument`, and no handler
reads past the end of its payload. -/
def HeapServer.Careful (state : HeapServer) : HeapEvent → Prop
  | .process event => AssignsAfterCopies state.server event
  | .call handler bufMalloc _ =>
      ∀ thread ∈ state.server.handlers[handler]?, thread.Decodes bufMalloc
  | _ => True

instance {α : Type} : ∀ computation : Except Fault α,
    Decidable (Succeeds computation)
  | .ok value => isTrue ⟨value, rfl⟩
  | .error _ => isFalse fun ⟨_, hvalue⟩ => nomatch hvalue

instance (bufMalloc : Malloc) : ∀ thread : Handler,
    Decidable (thread.Decodes bufMalloc)
  | .created => isTrue trivial
  | .copied _ => inferInstanceAs (Decidable (Succeeds _))
  | .finished _ => isTrue trivial

instance (state : HeapServer) : ∀ event, Decidable (state.Careful event)
  | .process event =>
      inferInstanceAs (Decidable (AssignsAfterCopies state.server event))
  | .call handler bufMalloc _ =>
      inferInstanceAs (Decidable (∀ thread ∈
        state.server.handlers[handler]?, thread.Decodes bufMalloc))
  | .acceptConnection _ _ | .copy _ | .respond _ _ _ | .send _ | .free _
  | .finish _ => isTrue trivial

/-! ## Holders -/

def HandlerMemory.blocks (argument : Option ℕ) : HandlerMemory → Multiset ℕ
  | .created => pointee argument
  | .copied payload => pointee payload
  | .called _ payload buf statbuf => pointees [payload, buf, statbuf]
  | .answered response payload buf statbuf =>
      pointees (cleanup response payload buf statbuf)
  | .cleaning pointers => pointees pointers
  | .returned => 0

/-- The payload that no handler has been created for yet. -/
def HeapServer.mainBlocks (state : HeapServer) : Multiset ℕ :=
  match state.server.pc with
  | .received _ => pointee state.payload
  | .assigned => pointee state.argument
  | _ => 0

def HeapServer.handlerBlocks (state : HeapServer) : Multiset ℕ :=
  (state.memory.map (HandlerMemory.blocks state.argument)).sum

def HeapServer.blocks (state : HeapServer) : Multiset ℕ :=
  state.mainBlocks + state.handlerBlocks

/-- The heap is as it should be: the live blocks are those that `main` and
the handlers hold, each of them in one place, there are at most 150 of them,
and there are none when `main` is at `accept` and all handlers have
returned. -/
structure HeapServer.Tidy (state : HeapServer) : Prop where
  undamaged : state.heap.damaged = false
  held : state.heap.live.val = state.blocks
  bounded : state.heap.live.card ≤ 150
  drained : state.server.pc = .accepting →
    (∀ handler ∈ state.server.handlers, ∃ arguments,
      handler = .finished arguments) →
    state.heap.live = ∅

/-! ## The invariant -/

/-- Whether a thread has still to copy its arguments, is at work, or has
returned. -/
inductive ThreadPhase
  | waiting
  | busy
  | returned
  deriving DecidableEq

def Handler.phase : Handler → ThreadPhase
  | .created => .waiting
  | .copied _ => .busy
  | .finished _ => .returned

def HandlerMemory.phase : HandlerMemory → ThreadPhase
  | .created => .waiting
  | .returned => .returned
  | _ => .busy

/-- No branch of the handler allocates both `buf` and `statbuf`. -/
def HandlerMemory.Fits : HandlerMemory → Prop
  | .called _ _ buf statbuf => buf = none ∨ statbuf = none
  | .answered _ _ buf statbuf => buf = none ∨ statbuf = none
  | .cleaning pointers => (pointees pointers).card ≤ 3
  | _ => True

structure HeapServer.Tended (state : HeapServer) : Prop where
  ready : state.server.Ready
  phases : state.memory.map HandlerMemory.phase =
    state.server.handlers.map Handler.phase
  fits : ∀ memory ∈ state.memory, memory.Fits
  held : state.server.running = true → state.heap.HeldBy state.blocks

theorem card_cleanup_le (response payload : Option ℕ) {buf statbuf : Option ℕ}
    (hone : buf = none ∨ statbuf = none) :
    (pointees (cleanup response payload buf statbuf)).card ≤ 3 := by
  have hresponse := card_pointee_le response
  have hpayload := card_pointee_le payload
  have hbuf := card_pointee_le buf
  have hstatbuf := card_pointee_le statbuf
  simp only [cleanup, pointees, List.map_cons, List.map_nil, List.sum_cons,
    List.sum_nil, Multiset.card_add, Multiset.card_zero]
  rcases hone with rfl | rfl
  · simp only [pointee, Multiset.card_zero] at *
    omega
  · simp only [pointee, Multiset.card_zero] at *
    omega

theorem HandlerMemory.Fits.card_le {memory : HandlerMemory}
    (hfits : memory.Fits) (argument : Option ℕ) :
    (memory.blocks argument).card ≤ 3 := by
  cases memory with
  | created => exact (card_pointee_le argument).trans (by decide)
  | copied payload => exact (card_pointee_le payload).trans (by decide)
  | called call payload buf statbuf =>
      have hpointers := card_cleanup_le none payload hfits
      rw [cleanup, pointees_cons, pointee, zero_add] at hpointers
      simp only [HandlerMemory.blocks, pointees, List.map_cons, List.map_nil,
        List.sum_cons, List.sum_nil, Multiset.card_add] at hpointers ⊢
      omega
  | answered response payload buf statbuf =>
      exact card_cleanup_le response payload hfits
  | cleaning pointers => exact hfits
  | returned => exact Nat.zero_le 3

theorem HeapServer.Tended.handler_phase {state : HeapServer}
    (htended : state.Tended) {handler : ℕ} {memory : HandlerMemory}
    (hmemory : state.memory[handler]? = some memory) :
    ∃ thread, state.server.handlers[handler]? = some thread ∧
      thread.phase = memory.phase := by
  have hphase : (state.server.handlers.map Handler.phase)[handler]? =
      some memory.phase := by
    rw [← htended.phases, List.getElem?_map, hmemory, Option.map_some]
  rwa [List.getElem?_map, Option.map_eq_some_iff] at hphase

/-! ## Steps of a handler -/

theorem HeapServer.handlerBlocks_set (state : HeapServer) {handler : ℕ}
    {before : HandlerMemory}
    (hbefore : state.memory[handler]? = some before) :
    ∃ rest, state.blocks = before.blocks state.argument + rest ∧
      ∀ after, state.mainBlocks + ((state.memory.set handler after).map
          (HandlerMemory.blocks state.argument)).sum =
        after.blocks state.argument + rest := by
  have hset := sum_map_set (HandlerMemory.blocks state.argument) hbefore
  -- The blocks of the other threads are those that are left when this
  -- thread holds none.
  refine ⟨state.mainBlocks + ((state.memory.set handler .returned).map
    (HandlerMemory.blocks state.argument)).sum, ?_, fun after => ?_⟩
  · have hreturned := hset .returned
    rw [HandlerMemory.blocks, add_zero] at hreturned
    rw [HeapServer.blocks, HeapServer.handlerBlocks, ← hreturned]
    abel
  · have hreturned := hset .returned
    have hafter := hset after
    rw [HandlerMemory.blocks, add_zero] at hreturned
    rw [← hreturned, add_right_comm] at hafter
    rw [add_right_cancel hafter]
    abel

/-- A handler that works with its own pointers leaves the rest of the heap
alone. -/
theorem HeapServer.Tended.setMemory {state : HeapServer}
    (htended : state.Tended) {handler : ℕ} {before after : HandlerMemory}
    {heap : Heap} (hbefore : state.memory[handler]? = some before)
    (hphase : after.phase = before.phase) (hfits : after.Fits)
    (hlocal : ∀ rest,
      state.heap.HeldBy (before.blocks state.argument + rest) →
      heap.HeldBy (after.blocks state.argument + rest)) :
    (state.setMemory handler after heap).Tended := by
  constructor
  case ready => exact htended.ready
  case phases =>
    rw [HeapServer.setMemory, List.map_set, hphase,
      set_eq_self_of_getElem?]
    · exact htended.phases
    · rw [List.getElem?_map, hbefore, Option.map_some]
  case fits =>
    intro memory hmem
    rcases List.mem_or_eq_of_mem_set hmem with hold | rfl
    · exact htended.fits memory hold
    · exact hfits
  case held =>
    intro hrunning
    obtain ⟨rest, hblocks, hset⟩ := state.handlerBlocks_set hbefore
    have hheld := htended.held hrunning
    rw [hblocks] at hheld
    have hnext := hlocal rest hheld
    rw [← hset] at hnext
    exact hnext

theorem LibCall.bufPointer_or_statbufPointer (call : LibCall)
    (address : ℕ) :
    call.bufPointer address = none ∨ call.statbufPointer address = none := by
  cases call with
  | stat path | fstat fildes => exact .inl rfl
  | _ => exact .inr rfl

theorem LibCall.pointee_buffers (call : LibCall) (address : ℕ) :
    pointee (call.bufPointer address) +
        pointee (call.statbufPointer address) =
      match call.handlerBuf with
      | none => 0
      | some _ => {address} := by
  cases call <;> rfl

theorem HeapServer.Tended.call {state next : HeapServer} {handler : ℕ}
    {bufMalloc : Malloc} {address : ℕ} (htended : state.Tended)
    (hcareful : state.Careful (.call handler bufMalloc address))
    (hstep : state.call handler bufMalloc address = some next) :
    next.Tended := by
  unfold HeapServer.call at hstep
  split at hstep
  case h_2 => cases hstep
  case h_1 payload arguments hmemory hhandler =>
    have htouch : ∀ rest, state.heap.HeldBy (pointee payload + rest) →
        state.heap.touch payload = state.heap := fun rest hheld =>
      hheld.touch (Multiset.le_add_right _ _)
    dsimp only at hstep
    split at hstep
    case h_1 fault hdecode =>
      obtain ⟨value, hvalue⟩ := hcareful _ hhandler
      rw [hdecode] at hvalue
      cases hvalue
    case h_2 hdecode =>
      cases hstep
      refine htended.setMemory hmemory rfl
        (card_cleanup_le none payload (.inl rfl)) fun rest hheld => ?_
      rw [htouch rest hheld]
      simpa [HandlerMemory.blocks, cleanup, pointees, pointee] using hheld
    case h_3 call hdecode =>
      obtain ⟨heap, hallocated, rfl⟩ := Option.map_eq_some_iff.mp hstep
      refine htended.setMemory hmemory rfl
        (call.bufPointer_or_statbufPointer address) fun rest hheld => ?_
      have hbuffers := call.pointee_buffers address
      simp only [HandlerMemory.blocks, pointees, List.map_cons,
        List.map_nil, List.sum_cons, List.sum_nil, add_zero, hbuffers]
      rw [htouch rest hheld] at hallocated
      split at hallocated
      · cases hallocated
        rw [add_zero]
        exact hheld
      · rw [add_comm (pointee payload), add_assoc]
        exact hheld.malloc hallocated

theorem HeapServer.Tended.respond {state next : HeapServer} {handler : ℕ}
    {malloc : Malloc} {address : ℕ} (htended : state.Tended)
    (hstep : state.respond handler malloc address = some next) :
    next.Tended := by
  unfold HeapServer.respond at hstep
  split at hstep
  case h_2 => cases hstep
  case h_1 call payload buf statbuf hmemory =>
    have hone : buf = none ∨ statbuf = none :=
      htended.fits _ (List.mem_of_getElem? hmemory)
    have htouch : ∀ rest,
        state.heap.HeldBy (pointees [payload, buf, statbuf] + rest) →
        ((state.heap.touch payload).touch buf).touch statbuf =
          state.heap := by
      intro rest hheld
      simp only [pointees_cons] at hheld
      rw [hheld.touch, hheld.touch, hheld.touch]
      all_goals
        apply Multiset.le_iff_exists_add.mpr
      · exact ⟨pointee payload + pointee buf + pointees [] + rest, by abel⟩
      · exact ⟨pointee payload + pointee statbuf + pointees [] + rest,
          by abel⟩
      · exact ⟨pointee buf + pointee statbuf + pointees [] + rest, by abel⟩
    dsimp only at hstep
    split at hstep
    · obtain ⟨heap, hmalloc, rfl⟩ := Option.map_eq_some_iff.mp hstep
      refine htended.setMemory hmemory rfl hone fun rest hheld => ?_
      rw [htouch rest hheld] at hmalloc
      have hnext := hheld.malloc hmalloc
      simp only [HandlerMemory.blocks, cleanup, pointees_cons] at hnext ⊢
      convert hnext using 1
      rw [pointee]
      abel
    · cases hstep
      refine htended.setMemory hmemory rfl
        (card_cleanup_le none payload hone) fun rest hheld => ?_
      rw [htouch rest hheld]
      simp only [HandlerMemory.blocks, cleanup, pointees_cons] at hheld ⊢
      convert hheld using 1
      rw [pointee]
      abel

theorem HeapServer.Tended.send {state next : HeapServer} {handler : ℕ}
    (htended : state.Tended) (hstep : state.send handler = some next) :
    next.Tended := by
  unfold HeapServer.send at hstep
  split at hstep
  case h_2 => cases hstep
  case h_1 response payload buf statbuf hmemory =>
    cases hstep
    have hone : buf = none ∨ statbuf = none :=
      htended.fits _ (List.mem_of_getElem? hmemory)
    refine htended.setMemory hmemory rfl
      (card_cleanup_le response payload hone) fun rest hheld => ?_
    rw [hheld.touch]
    · exact hheld
    · rw [HandlerMemory.blocks, cleanup, pointees_cons, add_assoc]
      exact Multiset.le_add_right _ _

theorem HeapServer.Tended.free {state next : HeapServer} {handler : ℕ}
    (htended : state.Tended) (hstep : state.free handler = some next) :
    next.Tended := by
  unfold HeapServer.free at hstep
  split at hstep
  case h_2 => cases hstep
  case h_1 pointer pointers hmemory =>
    cases hstep
    have hfits : (pointees (pointer :: pointers)).card ≤ 3 :=
      htended.fits _ (List.mem_of_getElem? hmemory)
    rw [pointees_cons, Multiset.card_add] at hfits
    refine htended.setMemory hmemory rfl
      (show (pointees pointers).card ≤ 3 by omega) fun rest hheld => ?_
    rw [HandlerMemory.blocks, pointees_cons, add_assoc] at hheld
    exact hheld.free

/-- A handler that copies its arguments or returns holds what it held. -/
theorem HeapServer.Tended.setHandler {state : HeapServer}
    (htended : state.Tended) {handler : ℕ} {thread : Handler}
    {before after : HandlerMemory}
    (hready : Server.Ready { state.server with
      handlers := state.server.handlers.set handler thread })
    (hbefore : state.memory[handler]? = some before)
    (hphase : after.phase = thread.phase) (hfits : after.Fits)
    (hsame : after.blocks state.argument = before.blocks state.argument) :
    HeapServer.Tended { state with
      server := { state.server with
        handlers := state.server.handlers.set handler thread }
      memory := state.memory.set handler after } := by
  constructor
  case ready => exact hready
  case phases =>
    simp only [List.map_set, htended.phases, hphase]
  case fits =>
    intro memory hmem
    rcases List.mem_or_eq_of_mem_set hmem with hold | rfl
    · exact htended.fits memory hold
    · exact hfits
  case held =>
    intro hrunning
    obtain ⟨rest, hblocks, hset⟩ := state.handlerBlocks_set hbefore
    have hheld := htended.held hrunning
    rw [hblocks, ← hsame, ← hset] at hheld
    exact hheld

theorem HeapServer.Tended.copy {state next : HeapServer} {handler : ℕ}
    (htended : state.Tended) (hstep : state.copy handler = some next) :
    next.Tended := by
  unfold HeapServer.copy at hstep
  split at hstep
  case h_2 => cases hstep
  case h_1 server hmemory hserver =>
    cases hstep
    have hready := htended.ready.step hserver
    cases Server.steps_of_step hserver with
    | copied hrunning hcreated hargument =>
        exact htended.setHandler hready hmemory rfl trivial rfl

theorem HeapServer.Tended.finish {state next : HeapServer} {handler : ℕ}
    (htended : state.Tended) (hstep : state.finish handler = some next) :
    next.Tended := by
  unfold HeapServer.finish at hstep
  split at hstep
  case h_2 => cases hstep
  case h_1 server hmemory hserver =>
    cases hstep
    have hready := htended.ready.step hserver
    cases Server.steps_of_step hserver with
    | finished hrunning hcopied hfree =>
        exact htended.setHandler hready hmemory rfl trivial rfl

/-! ## Steps of `main` -/

theorem HeapServer.Tended.accept {state next : HeapServer}
    {connection : Connection} {address : ℕ} (htended : state.Tended)
    (hstep : state.accept connection address = some next) :
    next.Tended := by
  unfold HeapServer.accept at hstep
  split at hstep
  case h_1 => cases hstep
  case h_2 server hserver =>
    have hready := htended.ready.step hserver
    cases Server.steps_of_step hserver with
    | received hpc hreceive =>
        dsimp only at hstep
        split at hstep
        case h_1 => cases hstep
        case h_2 heap hmalloc =>
          cases hstep
          refine ⟨hready, htended.phases, htended.fits, fun _ => ?_⟩
          have hheld := htended.held (by simp [Server.running, hpc])
          have hnext := hheld.malloc hmalloc
          rw [HeapServer.blocks, HeapServer.mainBlocks, hpc,
            zero_add] at hnext
          exact hnext
    | receiveFailed hpc hreceive hexit =>
        cases hstep
        refine ⟨hready, htended.phases, htended.fits, fun hrunning => ?_⟩
        cases hrunning

theorem HeapServer.handlerBlocks_of_copied {state : HeapServer}
    (hcopied : ∀ memory ∈ state.memory, memory.phase ≠ .waiting)
    (argument : Option ℕ) :
    (state.memory.map (HandlerMemory.blocks argument)).sum =
      state.handlerBlocks := by
  rw [HeapServer.handlerBlocks]
  congr 1
  apply List.map_congr_left
  intro memory hmem
  cases memory with
  | created => exact absurd rfl (hcopied _ hmem)
  | _ => rfl

/-- All handlers have copied their arguments, so that none of them depends on
the pointer that is overwritten. -/
theorem HeapServer.Tended.assign {state : HeapServer} {argument : ThreadArg}
    (htended : state.Tended) (hpc : state.server.pc = .received argument)
    (hcopied : ∀ handler ∈ state.server.handlers, handler ≠ .created)
    (hready : Server.Ready { state.server with
      pc := .assigned, argument := some argument }) :
    HeapServer.Tended { state with
      server := { state.server with
        pc := .assigned, argument := some argument }
      argument := state.payload } := by
  refine ⟨hready, htended.phases, htended.fits, fun _ => ?_⟩
  have hheld := htended.held (by simp [Server.running, hpc])
  rw [HeapServer.blocks, HeapServer.mainBlocks, hpc] at hheld
  have hphases : ∀ memory ∈ state.memory, memory.phase ≠ .waiting := by
    intro memory hmem hwaiting
    obtain ⟨index, hindex⟩ := List.getElem?_of_mem hmem
    obtain ⟨thread, hthread, hphase⟩ := htended.handler_phase hindex
    rw [hwaiting] at hphase
    cases thread with
    | created => exact hcopied _ (List.mem_of_getElem? hthread) rfl
    | copied arguments | finished arguments => cases hphase
  rw [← HeapServer.handlerBlocks_of_copied hphases state.payload] at hheld
  exact hheld

theorem HeapServer.Tended.create {state : HeapServer}
    (htended : state.Tended) (hpc : state.server.pc = .assigned)
    (hready : state.server.create.Ready) :
    HeapServer.Tended { state with
      server := state.server.create
      memory := state.memory ++ [.created] } := by
  have hrunning : state.server.running = true := by
    simp [Server.running, hpc]
  obtain ⟨hindex, base, hbatch⟩ :=
    htended.ready.batched.creating hrunning (by simp [hpc])
  have hlength := hbatch.slots_length
  have hcreate : state.server.create = _ := Server.create_eq (by omega)
  constructor
  case ready => exact hready
  case phases =>
    rw [hcreate, List.map_append, List.map_append, htended.phases]
    rfl
  case fits =>
    intro memory hmem
    rcases List.mem_append.mp hmem with hold | hlast
    · exact htended.fits memory hold
    · rw [List.mem_singleton.mp hlast]
      trivial
  case held =>
    intro _
    have hheld := htended.held hrunning
    rw [HeapServer.blocks, HeapServer.mainBlocks, hpc, add_comm] at hheld
    have hmain : HeapServer.mainBlocks { state with
        server := state.server.create
        memory := state.memory ++ [.created] } = 0 := by
      rw [HeapServer.mainBlocks, hcreate]
      by_cases hmore : state.server.threadIndex + 1 < 50 <;> simp [hmore]
    rw [HeapServer.blocks, hmain, zero_add, HeapServer.handlerBlocks,
      List.map_append, List.sum_append, List.map_singleton,
      List.sum_singleton]
    exact hheld

theorem HeapServer.Tended.join {state : HeapServer} {server : Server}
    (htended : state.Tended) (hpc : state.server.pc = .joining)
    (hjoin : state.server.join = some server) (hready : server.Ready) :
    HeapServer.Tended { state with server := server } := by
  obtain ⟨_, base, _, rfl⟩ := htended.ready.batched.join_cases hpc hjoin
  refine ⟨hready, htended.phases, htended.fits, fun _ => ?_⟩
  have hheld := htended.held (by simp [Server.running, hpc])
  rw [HeapServer.blocks, HeapServer.mainBlocks, hpc] at hheld
  rw [HeapServer.blocks, HeapServer.mainBlocks]
  by_cases hmore : state.server.threadIndex + 1 < 50
  · simp only [hmore, if_true]
    exact hheld
  · simp only [hmore, if_false]
    exact hheld

theorem HeapServer.Tended.leave {state : HeapServer} {exit : Exit}
    (htended : state.Tended) (hready : (state.server.leave exit).Ready) :
    HeapServer.Tended { state with server := state.server.leave exit } := by
  refine ⟨hready, htended.phases, htended.fits, fun hrunning => ?_⟩
  cases hrunning

theorem HeapServer.Tended.process {state next : HeapServer} {event : Event}
    (htended : state.Tended)
    (hcareful : AssignsAfterCopies state.server event)
    (hstep : state.process event = some next) : next.Tended := by
  cases hserver : state.server.step event with
  | none => cases event <;> simp [HeapServer.process, hserver] at hstep
  | some server =>
      have hready := htended.ready.step hserver
      cases Server.steps_of_step hserver with
      | assigned hpc =>
          simp only [HeapServer.process, hserver,
            Option.some.injEq] at hstep
          subst hstep
          exact htended.assign hpc hcareful hready
      | created hpc =>
          simp only [HeapServer.process, hserver,
            Option.some.injEq] at hstep
          subst hstep
          exact htended.create hpc hready
      | joined hpc hjoin =>
          simp only [HeapServer.process, hserver,
            Option.some.injEq] at hstep
          subst hstep
          exact htended.join hpc hjoin hready
      | acceptFailed hpc | createFailed hpc | joinFailed hpc
      | crashed hrunning hcopied =>
          simp only [HeapServer.process, hserver,
            Option.some.injEq] at hstep
          subst hstep
          exact htended.leave hready
      | received hpc hreceive => simp [HeapServer.process] at hstep
      | receiveFailed hpc hreceive hexit =>
          simp [HeapServer.process] at hstep
      | copied hrunning hcreated hargument =>
          simp [HeapServer.process] at hstep
      | finished hrunning hcopied hfree =>
          simp [HeapServer.process] at hstep
      | unblocks hrunning => simp [HeapServer.process] at hstep
      | silent hpc | blocks hrunning hcopied =>
          simp [HeapServer.process] at hstep

theorem HeapServer.Tended.step {state next : HeapServer} {event : HeapEvent}
    (htended : state.Tended) (hcareful : state.Careful event)
    (hstep : state.step event = some next) : next.Tended := by
  cases event with
  | acceptConnection connection address => exact htended.accept hstep
  | process event => exact htended.process hcareful hstep
  | copy handler => exact htended.copy hstep
  | call handler bufMalloc address =>
      exact htended.call hcareful (Option.ite_none_right_eq_some.mp hstep).2
  | respond handler malloc address =>
      exact htended.respond (Option.ite_none_right_eq_some.mp hstep).2
  | send handler =>
      exact htended.send (Option.ite_none_right_eq_some.mp hstep).2
  | free handler =>
      exact htended.free (Option.ite_none_right_eq_some.mp hstep).2
  | finish handler => exact htended.finish hstep

/-! ## Whole runs -/

theorem HeapServer.initial_tended (uninitialised : List UInt8) :
    (HeapServer.initial uninitialised).Tended where
  ready := Server.initial_ready uninitialised
  phases := rfl
  fits := by simp [HeapServer.initial]
  held := fun _ => Heap.empty_heldBy

theorem HeapServer.Tended.returned {state : HeapServer}
    (htended : state.Tended) {handler : ℕ} {arguments : ThreadArg}
    (hfinished : state.server.handlers[handler]? =
      some (.finished arguments)) {memory : HandlerMemory}
    (hmemory : state.memory[handler]? = some memory) :
    memory.blocks state.argument = 0 := by
  obtain ⟨thread, hthread, hphase⟩ := htended.handler_phase hmemory
  rw [hfinished, Option.some.injEq] at hthread
  subst hthread
  cases memory with
  | returned => rfl
  | created | copied payload | called call payload buf statbuf
  | answered response payload buf statbuf | cleaning pointers => cases hphase

theorem card_sum_map {α : Type} (f : α → Multiset ℕ) (list : List α) :
    (list.map f).sum.card = (list.map fun entry => (f entry).card).sum := by
  induction list with
  | nil => rfl
  | cons entry rest ih =>
      rw [List.map_cons, List.sum_cons, Multiset.card_add, ih, List.map_cons,
        List.sum_cons]

/-- Handlers that have been joined hold nothing. -/
theorem HeapServer.Tended.card_handlerBlocks_le {state : HeapServer}
    (htended : state.Tended) {count : ℕ}
    (hjoined : state.server.joined = List.range count) :
    state.handlerBlocks.card ≤
      3 * (state.server.handlers.length - count) := by
  have hlength : state.memory.length = state.server.handlers.length := by
    have hphases := congrArg List.length htended.phases
    rwa [List.length_map, List.length_map] at hphases
  rw [HeapServer.handlerBlocks, card_sum_map, ← hlength]
  apply sum_map_le_of_settled
  · intro i hlt memory hmemory
    obtain ⟨arguments, hfinished⟩ := htended.ready.joined i
      (by rw [hjoined]; exact List.mem_range.mpr hlt)
    rw [htended.returned hfinished hmemory, Multiset.card_zero]
  · intro memory hmem
    exact (htended.fits memory hmem).card_le state.argument

theorem HeapServer.card_mainBlocks_le (state : HeapServer) :
    state.mainBlocks.card ≤ 1 := by
  unfold HeapServer.mainBlocks
  split
  · exact card_pointee_le _
  · exact card_pointee_le _
  · exact Nat.zero_le 1

theorem HeapServer.Tended.card_blocks_le {state : HeapServer}
    (htended : state.Tended) (hrunning : state.server.running = true) :
    state.blocks.card ≤ 150 := by
  have hmain := state.card_mainBlocks_le
  rw [HeapServer.blocks, Multiset.card_add]
  by_cases hpc : state.server.pc = .joining
  · obtain ⟨hindex, base, hbatch⟩ := htended.ready.batched.joining hpc
    have hhandlers := htended.card_handlerBlocks_le hbatch.joined_eq
    have hcreated := hbatch.created_eq
    have hnone : state.mainBlocks.card = 0 := by
      rw [HeapServer.mainBlocks, hpc]
      rfl
    omega
  · obtain ⟨hindex, base, hbatch⟩ :=
      htended.ready.batched.creating hrunning hpc
    have hhandlers := htended.card_handlerBlocks_le hbatch.joined_eq
    have hcreated := hbatch.created_eq
    omega

theorem HeapServer.Tended.blocks_drained {state : HeapServer}
    (htended : state.Tended) (hpc : state.server.pc = .accepting)
    (hall : ∀ handler ∈ state.server.handlers, ∃ arguments,
      handler = .finished arguments) : state.blocks = 0 := by
  rw [HeapServer.blocks, HeapServer.mainBlocks, hpc, zero_add,
    HeapServer.handlerBlocks]
  apply List.sum_eq_zero
  intro blocks hmem
  obtain ⟨memory, hmemory, rfl⟩ := List.mem_map.mp hmem
  obtain ⟨index, hindex⟩ := List.getElem?_of_mem hmemory
  obtain ⟨thread, hthread, _⟩ := htended.handler_phase hindex
  obtain ⟨arguments, rfl⟩ := hall thread (List.mem_of_getElem? hthread)
  exact htended.returned hthread hindex

theorem HeapServer.Tended.tidy {state : HeapServer}
    (htended : state.Tended) (hrunning : state.server.running = true) :
    state.Tidy := by
  have hheld := htended.held hrunning
  refine ⟨hheld.undamaged, hheld.live, ?_, fun hpc hall => ?_⟩
  · rw [← Finset.card_val, hheld.live]
    exact htended.card_blocks_le hrunning
  · rw [← Finset.val_eq_zero, hheld.live]
    exact htended.blocks_drained hpc hall

/-- In every run in which `main` assigns `argument` only after the copies and
no payload is malformed, the process never touches or frees a block that is
not live, no block has two holders and none has lost its holder; the heap is
bounded, and empty whenever the server is idle. -/
theorem HeapServer.run_tidy {uninitialised : List UInt8}
    {events : List HeapEvent} {final : HeapServer}
    (hrun : Run HeapServer.step HeapServer.Careful
      (HeapServer.initial uninitialised) events final)
    (hrunning : final.server.running = true) : final.Tidy := by
  have htended : final.Tended := hrun.invariant
    (fun _ _ _ hinv hcareful hstep => hinv.step hcareful hstep)
    (HeapServer.initial_tended uninitialised)
  exact htended.tidy hrunning

/-- A request to read sixteen bytes of descriptor three. -/
def readThree : List UInt8 :=
  [2, 0xfc, 0xff, 0xff, 0x7f, 16, 0, 0, 0, 0, 0, 0, 0]

def readThreeConnection : Connection where
  clientSocket := 5
  stream := ⟨requestBytes readThree, .closed⟩
  sizeCut := 8
  payloadCut := 13
  malloc := amplestMalloc

/-- The steps of a handler from its call to its end. -/
def answering (handler buf response : ℕ) : List HeapEvent :=
  [.call handler amplestMalloc buf, .respond handler amplestMalloc response,
    .send handler] ++ List.replicate 4 (.free handler) ++ [.finish handler]

/-- Two requests, the second received while the first is being handled; the
second handler gets addresses that the first one has freed. -/
def twoHandlers : List HeapEvent :=
  [.acceptConnection firstConnection 100, .process .assign,
    .process .create, .copy 0,
    .acceptConnection readThreeConnection 200, .process .assign,
    .process .create] ++
  answering 0 300 300 ++ [.copy 1, .call 1 amplestMalloc 100]

theorem run_tidy_twoHandlers :
    ∃ final, Run HeapServer.step HeapServer.Careful
        (HeapServer.initial (List.replicate 8 0)) twoHandlers final ∧
      (final.server.running, final.heap.live) = (true, {100, 200}) ∧
      final.Tidy := by
  have hexec : (execute HeapServer.step HeapServer.Careful
      (HeapServer.initial (List.replicate 8 0)) twoHandlers).map
        (fun final => (final.server.running, final.heap.live)) =
      some (true, {100, 200}) := by
    decide +kernel
  obtain ⟨final, hfinal, hreached⟩ := Option.map_eq_some_iff.mp hexec
  have hrun := run_of_execute hfinal
  exact ⟨final, hrun, hreached,
    HeapServer.run_tidy hrun (Prod.mk.inj hreached).1⟩

/-- When the first handler copies too late, both handlers free the payload of
the second request, and nobody frees that of the first. -/
example : (execute HeapServer.step anyEvent
    (HeapServer.initial (List.replicate 8 0))
    ([.acceptConnection firstConnection 100, .process .assign,
      .process .create, .acceptConnection secondConnection 200,
      .process .assign, .copy 0, .process .create, .copy 1] ++
      answering 0 300 300 ++ answering 1 300 300)).map
      (fun final => (final.heap.damaged, final.heap.live)) =
    some (true, {100}) := by
  decide +kernel

end TestRpc
