import TestRpc.StubCalls
import TestRpc.DescriptorTable

/-!
# How connections end

Every error exit of `client_handler` jumps to `cleanup`, which frees memory
and returns; only the path through `send` and `shutdown` reaches
`close(client_socket)`.  A handler that takes any other exit leaves its
connection open, and the client waits for a response or an end of stream.
The exits are told apart by the payload, the two allocations and the outcomes
of `send` and `shutdown`.
-/

namespace TestRpc

open TransitionRuns LittleEndian BlockCopies StreamReceive

/-! ## The end of a handler -/

/-- The outcomes of `send`, with the count it accepts, and of `shutdown`. -/
structure Sending where
  send : Option ℕ
  shutdown : Bool

structure HandlerEnd where
  sent : Option (List UInt8)
  closes : Bool
  deriving DecidableEq

/-- `client_handler` from the `send` of the response on.  `close` releases the
descriptor whatever it reports. -/
def finishHandler (response : Option (List UInt8)) (sending : Sending) :
    HandlerEnd :=
  match response with
  | none => ⟨none, false⟩
  | some response =>
      match sending.send with
      | none => ⟨none, false⟩
      | some count => ⟨some (response.take count), sending.shutdown⟩

/-! ## Which requests are answered -/

/-- The allocation of `buf` or `statbuf` for a request, by its function. -/
def FunctionCode.servesBuf (malloc : Malloc) (payload : List UInt8) :
    FunctionCode → Bool
  | .READ => malloc.serves (field 64 payload 5).toNat
  | .WRITE =>
      malloc.serves (BitVec.ofNat 64 payload.length - 1 - 4 - 8 : SizeT).toNat
  | .STAT => malloc.serves sizeofStat
  | .FSTAT => malloc.serves sizeofStat
  | _ => true

/-- `response_payload_size` -/
def FunctionCode.responseSize (payload : List UInt8) : FunctionCode → SizeT
  | .READ => 8 + field 64 payload 5
  | .WRITE => 8
  | .LSEEK => 8
  | .STAT => BitVec.ofNat 64 (4 + sizeofStat)
  | .FSTAT => BitVec.ofNat 64 (4 + sizeofStat)
  | _ => 4

theorem fillResponse_isSome {malloc : Malloc} {size : SizeT}
    {copies : List (Copy UInt8)} {response : Option (List UInt8)}
    (hfill : fillResponse malloc size copies = .ok response) :
    response.isSome = malloc.serves size.toNat := by
  unfold fillResponse at hfill
  split at hfill
  · next hserves =>
    split at hfill
    · cases hfill
    · cases hfill
      exact hserves.symm
  · next hserves =>
    cases hfill
    exact (Bool.not_eq_true _ ▸ hserves).symm

theorem respond_isSome {bufMalloc malloc : Malloc} {call : LibCall}
    {reply : call.Reply} {response : Option (List UInt8)}
    (hrespond : respond bufMalloc malloc call reply = .ok response) :
    response.isSome = malloc.serves call.responseSize.toNat := by
  cases call <;>
    simp only [respond, intResponse, longResponse, readResponse,
      statResponse] at hrespond <;>
    exact fillResponse_isSome hrespond

def FileServer.ConnectionClosed (server : FileServer) (index : ℕ) : Prop :=
  ∀ fildes, server.table fildes ≠ some (.connection index)

/-- Every open connection is the socket of its handler, and this handler is in
a phase of the given kind. -/
def FileServer.Held (live : Phase → Prop) (server : FileServer) : Prop :=
  ∀ fildes index, server.table fildes = some (.connection index) →
    ∃ thread, server.threads[index]? = some thread ∧
      thread.socket = fildes ∧ live thread.phase

/-- An end that leaves nothing open: the handler closes its connection, or
something has closed it before. -/
def FileServer.EndsClosed (server : FileServer) : TableEvent → Prop
  | .leave index closes => closes = true ∨ server.ConnectionClosed index
  | _ => True

theorem FileServer.Held.setPhase {live : Phase → Prop} {server : FileServer}
    (hinv : server.Held live) {index : ℕ} {phase : Phase}
    (hphase : live phase ∨ server.ConnectionClosed index) :
    (server.setPhase index phase).Held live := by
  intro fildes owner hopen
  obtain ⟨thread, hthread, hsocket, hlive⟩ := hinv fildes owner hopen
  obtain ⟨next, hnext, _, hsocket', hphase'⟩ :=
    FileServer.exists_after_setPhase hthread index phase
  refine ⟨next, hnext, hsocket'.trans hsocket, ?_⟩
  by_cases hsame : index = owner
  · rw [hphase', if_pos hsame]
    rcases hphase with hphase | hclosed
    · exact hphase
    · rw [hsame] at hclosed
      exact absurd hopen (hclosed fildes)
  · rw [hphase', if_neg hsame]
    exact hlive

theorem FileServer.Held.touch {live : Phase → Prop} {server : FileServer}
    (hinv : server.Held live) (touched : ℕ) {entry : Option Entry}
    (hentry : ∀ index, entry ≠ some (.connection index)) :
    (server.touch touched entry).Held live := by
  intro fildes owner hopen
  by_cases hsame : fildes = touched
  · subst hsame
    simp only [FileServer.touch, Function.update_self] at hopen
    exact absurd hopen (hentry owner)
  · simp only [FileServer.touch] at hopen
    rw [Function.update_of_ne hsame] at hopen
    exact hinv fildes owner hopen

theorem FileServer.Held.closed_of_touch {live : Phase → Prop}
    {server : FileServer} (hinv : server.Held live) {index : ℕ}
    {thread : Thread} (hthread : server.threads[index]? = some thread) :
    (server.touch thread.socket none).ConnectionClosed index := by
  intro fildes hopen
  have htouch : (server.touch thread.socket none).Held live :=
    hinv.touch _ (by simp)
  obtain ⟨owner, howner, hsocket, _⟩ := htouch fildes index hopen
  simp only [FileServer.touch] at howner
  rw [hthread, Option.some.injEq] at howner
  subst howner
  rw [← hsocket] at hopen
  simp [FileServer.touch] at hopen

theorem FileServer.Held.step {live : Phase → Prop}
    (hlive : ∀ phase, phase ≠ .ended → live phase)
    {server next : FileServer} {event : TableEvent}
    (hinv : server.Held live) (hstep : server.step event = some next)
    (hends : live .ended ∨ server.EndsClosed event) :
    next.Held live := by
  have hexecuted : ∀ acted, live (.executed acted) :=
    fun acted => hlive _ (by simp)
  cases FileServer.steps_of_step hstep with
  | @accepted socket payload hfree =>
      intro fildes owner hopen
      by_cases hsame : fildes = socket
      · subst hsame
        simp only [FileServer.touch, Function.update_self, Option.some.injEq,
          Entry.connection.injEq] at hopen
        subst hopen
        exact ⟨_, List.getElem?_concat_length .., rfl, hlive _ (by simp)⟩
      · simp only [FileServer.touch] at hopen
        rw [Function.update_of_ne hsame] at hopen
        obtain ⟨thread, hthread, howned⟩ := hinv fildes owner hopen
        exact ⟨thread, getElem?_append_left_of_some hthread, howned⟩
  | rejected hthread hdecode => exact hinv.setPhase (.inl (hexecuted _))
  | executed hthread hdecode hperform =>
      rcases FileServer.perform_cases hperform with
        ⟨fildes, _, _, _, rfl, _⟩ | ⟨fildes, entry, _, _, rfl, _⟩ |
        ⟨rfl, _⟩
      · exact (hinv.touch _ (by simp)).setPhase (.inl (hexecuted _))
      · exact (hinv.touch _ (by simp)).setPhase (.inl (hexecuted _))
      · exact hinv.setPhase (.inl (hexecuted _))
  | closed hthread =>
      exact (hinv.touch _ (by simp)).setPhase
        (.inr (hinv.closed_of_touch hthread))
  | leaked hthread =>
      apply hinv.setPhase
      rcases hends with hended | hcloses | hclosed
      · exact .inl hended
      · cases hcloses
      · exact .inr hclosed

/-- The handlers that have not returned. -/
def FileServer.active (server : FileServer) : Finset ℕ :=
  (Finset.range server.threads.length).filter fun index =>
    ∃ thread, server.threads[index]? = some thread ∧ thread.phase ≠ .ended

/-- The handler whose connection a descriptor is. -/
def FileServer.owner (server : FileServer) (fildes : ℕ) : ℕ :=
  match server.table fildes with
  | some (.connection index) => index
  | some .listening | some (.file _) | some .inherited | none => 0

/-- The server with the connections of its handlers: the allocation that each
handler made before its system call, and whether its `send` succeeded. -/
structure ConnectionServer where
  files : FileServer
  bufMallocs : ℕ → Option Malloc
  answered : ℕ → Bool

def ConnectionServer.initial (inherited : ℕ → Bool) (serverSocket : ℕ) :
    ConnectionServer where
  files := FileServer.initial inherited serverSocket
  bufMallocs := fun _ => none
  answered := fun _ => false

/-- A connection is accepted with its request; or a handler makes its system
call; or a handler returns, `os` giving the result of the call, `malloc` being
the allocation of the response. -/
inductive ConnectionEvent
  | accept (socket : ℕ) (payload : List UInt8)
  | execute (index : ℕ) (bufMalloc : Malloc) (granted : Option ℕ)
  | finish (index : ℕ) (os : Os Unit) (malloc : Malloc) (sending : Sending)

def ConnectionServer.finish (server : ConnectionServer) (index : ℕ)
    (os : Os Unit) (malloc : Malloc) (sending : Sending) :
    Option ConnectionServer :=
  match server.files.threads[index]?, server.bufMallocs index with
  | some thread, some bufMalloc =>
      match clientHandler os bufMalloc malloc thread.payload () with
      | .error _ => none
      | .ok run =>
          let ending := finishHandler run.response sending
          (server.files.leave index ending.closes).map fun files =>
            { server with
              files := files
              answered := Function.update server.answered index
                ending.sent.isSome }
  | _, _ => none

def ConnectionServer.step (server : ConnectionServer) :
    ConnectionEvent → Option ConnectionServer
  | .accept socket payload =>
      (server.files.accept socket payload).map fun files =>
        { server with files := files }
  | .execute index bufMalloc granted =>
      (server.files.execute index bufMalloc granted).map fun files =>
        { server with
          files := files
          bufMallocs := Function.update server.bufMallocs index
            (some bufMalloc) }
  | .finish index os malloc sending => server.finish index os malloc sending

theorem ConnectionServer.finish_cases {server next : ConnectionServer}
    {index : ℕ} {os : Os Unit} {malloc : Malloc} {sending : Sending}
    (hfinish : server.finish index os malloc sending = some next) :
    ∃ thread bufMalloc run, server.files.threads[index]? = some thread ∧
      server.bufMallocs index = some bufMalloc ∧
      clientHandler os bufMalloc malloc thread.payload () = .ok run ∧
      server.files.step (.leave index
        (finishHandler run.response sending).closes) = some next.files ∧
      next.bufMallocs = server.bufMallocs := by
  unfold ConnectionServer.finish at hfinish
  split at hfinish
  · next thread bufMalloc hthread hbuf =>
    split at hfinish
    · cases hfinish
    · next run hrun =>
      obtain ⟨files, hleave, rfl⟩ := Option.map_eq_some_iff.mp hfinish
      exact ⟨thread, bufMalloc, run, hthread, hbuf, hrun, hleave, rfl⟩
  · cases hfinish

/-- A handler between its system call and its end has decoded its payload with
the allocation it made. -/
def ConnectionServer.Allocated (server : ConnectionServer) : Prop :=
  ∀ index thread acted, server.files.threads[index]? = some thread →
    thread.phase = .executed acted →
    ∃ bufMalloc, server.bufMallocs index = some bufMalloc ∧
      Succeeds (decode bufMalloc thread.payload)

theorem ConnectionServer.Allocated.of_setPhase {server : ConnectionServer}
    (hinv : server.Allocated) {files : FileServer} {index : ℕ}
    {phase : Phase} {bufMallocs : ℕ → Option Malloc} {answered : ℕ → Bool}
    (hthreads : files.threads = server.files.threads)
    (hothers : ∀ other ≠ index, bufMallocs other = server.bufMallocs other)
    (hindex : ∀ thread acted, server.files.threads[index]? = some thread →
      phase = .executed acted → ∃ bufMalloc,
        bufMallocs index = some bufMalloc ∧
          Succeeds (decode bufMalloc thread.payload)) :
    ConnectionServer.Allocated
      ⟨files.setPhase index phase, bufMallocs, answered⟩ := by
  intro other thread acted hthread hphase
  obtain ⟨before, hbefore, hpayload, _, hphase'⟩ :=
    FileServer.exists_before_setPhase hthread
  rw [hthreads] at hbefore
  rw [hphase'] at hphase
  rw [hpayload]
  by_cases hsame : index = other
  · subst hsame
    rw [if_pos rfl] at hphase
    exact hindex before acted hbefore hphase
  · rw [if_neg hsame] at hphase
    simp only [hothers other (Ne.symm hsame)]
    exact hinv other before acted hbefore hphase

theorem FileServer.perform_threads {server next : FileServer} {index : ℕ}
    {call : LibCall} {granted : Option ℕ} {acted : Option (ℕ × Entry)}
    (hperform : server.perform index call granted = some (next, acted)) :
    next.threads = server.threads := by
  rcases FileServer.perform_cases hperform with
    ⟨fildes, _, _, _, rfl, _⟩ | ⟨fildes, entry, _, _, rfl, _⟩ | ⟨rfl, _⟩
  · rfl
  · rfl
  · rfl

theorem ConnectionServer.Allocated.step {server next : ConnectionServer}
    {event : ConnectionEvent} (hinv : server.Allocated)
    (hstep : server.step event = some next) :
    next.Allocated := by
  cases event with
  | accept socket payload =>
      obtain ⟨files, haccept, rfl⟩ := Option.map_eq_some_iff.mp hstep
      cases @FileServer.steps_of_step _ _ (.accept socket payload) haccept with
      | accepted hfree =>
          intro index thread acted hthread hphase
          rcases getElem?_append_singleton hthread with hold | ⟨_, rfl⟩
          · exact hinv index thread acted hold hphase
          · cases hphase
  | execute index bufMalloc granted =>
      obtain ⟨files, hexecute, rfl⟩ := Option.map_eq_some_iff.mp hstep
      have hothers : ∀ other ≠ index,
          Function.update server.bufMallocs index (some bufMalloc) other =
            server.bufMallocs other :=
        fun other hother => Function.update_of_ne hother _ _
      have hsame : Function.update server.bufMallocs index (some bufMalloc)
          index = some bufMalloc := Function.update_self ..
      cases @FileServer.steps_of_step _ _
          (.execute index bufMalloc granted) hexecute with
      | rejected hthread hdecode =>
          apply hinv.of_setPhase rfl hothers
          intro thread acted hthread' _
          rw [hthread, Option.some.injEq] at hthread'
          subst hthread'
          exact ⟨bufMalloc, hsame, _, hdecode⟩
      | executed hthread hdecode hperform =>
          apply hinv.of_setPhase (FileServer.perform_threads hperform) hothers
          intro thread acted hthread' _
          rw [hthread, Option.some.injEq] at hthread'
          subst hthread'
          exact ⟨bufMalloc, hsame, _, hdecode⟩
  | finish index os malloc sending =>
      obtain ⟨-, -, run, -, -, -, hleave, hbufMallocs⟩ :=
        ConnectionServer.finish_cases hstep
      obtain ⟨files, bufMallocs, answered⟩ := next
      simp only at hleave hbufMallocs
      subst hbufMallocs
      generalize hcloses : (finishHandler run.response sending).closes =
        closes at hleave
      cases FileServer.steps_of_step hleave with
      | closed hthread =>
          exact hinv.of_setPhase rfl (fun _ _ => rfl)
            fun _ _ _ hended => by cases hended
      | leaked hthread =>
          exact hinv.of_setPhase rfl (fun _ _ => rfl)
            fun _ _ _ hended => by cases hended

/-! ## Whole runs -/

end TestRpc
