import TestRpc.HandlerSafety
import TestRpc.RemoteTransparency

/-!
# What a response holds besides the result

`READ`, `STAT` and `FSTAT` send the whole of `buf` or `statbuf` back, and the
stubs copy all of it to the caller.  Where the system call stored less, the
rest is what the server's `malloc` returned: the caller's buffer changes
beyond what was read, and the response depends on the server's heap.  Both
happen for exactly the replies that do not fill the buffer.
-/

namespace TestRpc

open LittleEndian BlockCopies StreamReceive

/-! ## What a system call stores -/

/-- The bytes that a system call stores in `buf` or `statbuf`. -/
def LibCall.stored : (call : LibCall) → call.Reply → List UInt8
  | .read _ _, some data => data.bytes
  | .stat _, some statbuf => statbuf.bytes
  | .fstat _, some statbuf => statbuf.bytes
  | _, _ => []

/-- The buffer of a call is filled: a `read` returned all of its `nbyte`
bytes, and a `stat` or `fstat` did not fail. -/
def LibCall.FillsBuffer (call : LibCall) (reply : call.Reply) : Prop :=
  (call.stored reply).length = call.memorySize

theorem LibCall.stored_length_le (call : LibCall) (reply : call.Reply) :
    (call.stored reply).length ≤ call.memorySize := by
  cases call with
  | read fildes nbyte =>
      cases reply with
      | none => exact Nat.zero_le _
      | some data => exact data.fits
  | stat path | fstat fildes =>
      cases reply with
      | none => exact Nat.zero_le _
      | some statbuf => exact le_of_eq statbuf.size
  | _ => exact Nat.zero_le _

theorem LibCall.reported_memory (bufMalloc : Malloc) {call : LibCall}
    (reply : call.Reply) {memory : List UInt8}
    (hmemory : memory.length = call.memorySize) :
    (call.reported bufMalloc reply memory).memory =
      fillFront (freshBlock bufMalloc.contents call.memorySize)
        (call.stored reply) := by
  cases call with
  | read fildes nbyte =>
      cases reply with
      | none =>
          rw [fillFront_eq]
          rfl
      | some data => rfl
  | stat path | fstat fildes =>
      cases reply with
      | none =>
          rw [fillFront_eq]
          rfl
      | some statbuf =>
          apply Eq.symm
          apply fillFront_whole
          rw [freshBlock_length]
          exact statbuf.size.symm
  | _ => exact List.eq_nil_of_length_eq_zero hmemory

theorem drop_fillFront {destination got : List UInt8} :
    (fillFront destination got).drop got.length =
      destination.drop got.length := by
  rw [fillFront_eq, List.drop_left]

theorem freshBlock_const (byte : UInt8) (size : ℕ) :
    freshBlock (fun _ => byte) size = List.replicate size byte := by
  simp [freshBlock]

/-- Two buffers of different bytes have the same rest only where no rest is
left. -/
theorem le_of_drop_replicate_eq {size count : ℕ}
    (hsame : (List.replicate size (0 : UInt8)).drop count =
      (List.replicate size (1 : UInt8)).drop count) :
    size ≤ count := by
  rw [List.drop_replicate, List.drop_replicate] at hsame
  by_contra hlt
  obtain ⟨rest, hrest⟩ := Nat.exists_eq_succ_of_ne_zero
    (show size - count ≠ 0 by omega)
  rw [hrest, List.replicate_succ, List.replicate_succ] at hsame
  exact absurd (List.head_eq_of_cons_eq hsame) (by decide)

/-! ## The caller's buffers -/

/-- A call leaves the rest of the caller's memory alone: `read` from the
index that it returns, or all of it when it returns `-1`, and `stat` and
`fstat` when they fail. -/
def LibCall.LeavesRest (call : LibCall) (memory : List UInt8)
    (outcome : Outcome) : Prop :=
  match call with
  | .read _ _ =>
      outcome.memory.drop outcome.ret.toNat = memory.drop outcome.ret.toNat
  | .stat _ => outcome.ret = -1 → outcome.memory = memory
  | .fstat _ => outcome.ret = -1 → outcome.memory = memory
  | _ => outcome.memory = memory

theorem LibCall.leavesRest_gaveUp (call : LibCall) (memory : List UInt8) :
    call.LeavesRest memory (gaveUp memory) := by
  cases call with
  | read fildes nbyte => exact rfl
  | stat path | fstat fildes => exact fun _ => rfl
  | _ => exact rfl

theorem LibCall.leavesRest_onServer (call : LibCall) (memory : List UInt8)
    (outcome : Outcome) :
    call.transmitted.onServer.LeavesRest memory outcome ↔
      call.LeavesRest memory outcome := by
  cases call <;>
    simp only [LibCall.transmitted, LibCall.onServer, LibCall.LeavesRest]

/-- The caller's memory beyond what the server's call stored is the server's
fresh memory, so that it is left alone where the two are the same. -/
theorem LibCall.leavesRest_reported_iff (bufMalloc : Malloc) {call : LibCall}
    (reply : call.Reply) {memory : List UInt8}
    (hmemory : memory.length = call.memorySize) :
    call.LeavesRest memory (call.reported bufMalloc reply memory) ↔
      (freshBlock bufMalloc.contents call.memorySize).drop
          (call.stored reply).length =
        memory.drop (call.stored reply).length := by
  have hreported := LibCall.reported_memory bufMalloc reply hmemory
  cases call with
  | read fildes nbyte =>
      have hret : (LibCall.reported bufMalloc (.read fildes nbyte) reply
          memory).ret.toNat =
            (LibCall.stored (.read fildes nbyte) reply).length := by
        cases reply with
        | none => rfl
        | some data => rfl
      rw [LibCall.LeavesRest, hret, hreported, drop_fillFront]
  | stat path | fstat fildes =>
      cases reply with
      | none =>
          simp only [LibCall.LeavesRest, LibCall.reported, statReported,
            LibCall.stored, LibCall.memorySize, forall_const, List.length_nil,
            List.drop_zero]
      | some statbuf =>
          have hrest : ∀ bytes : List UInt8, bytes.length = sizeofStat →
              bytes.drop statbuf.bytes.length = [] := by
            intro bytes hbytes
            apply List.drop_eq_nil_of_le
            rw [hbytes, statbuf.size]
          refine iff_of_true (fun hfailed => ?_) ?_
          · exact absurd (show (0 : ℤ) = -1 from hfailed) (by decide)
          · exact (hrest _ (freshBlock_length _ _)).trans
              (hrest memory hmemory).symm
  | _ =>
      have hnil : memory = [] := List.eq_nil_of_length_eq_zero hmemory
      subst hnil
      exact iff_of_true rfl rfl

theorem LibCall.leavesRest_all_iff_fillsBuffer (bufMalloc : Malloc)
    {call : LibCall} (reply : call.Reply) :
    (∀ memory : List UInt8, memory.length = call.memorySize →
        call.LeavesRest memory (call.reported bufMalloc reply memory)) ↔
      call.FillsBuffer reply := by
  constructor
  · intro hleaves
    have hrest : ∀ byte : UInt8,
        (freshBlock bufMalloc.contents call.memorySize).drop
            (call.stored reply).length =
          (List.replicate call.memorySize byte).drop
            (call.stored reply).length := by
      intro byte
      have hlength := @List.length_replicate UInt8 call.memorySize byte
      exact (LibCall.leavesRest_reported_iff bufMalloc reply hlength).mp
        (hleaves _ hlength)
    have hle := le_of_drop_replicate_eq ((hrest 0).symm.trans (hrest 1))
    exact le_antisymm (LibCall.stored_length_le call reply) hle
  · intro hfills memory hmemory
    rw [LibCall.leavesRest_reported_iff bufMalloc reply hmemory]
    have hdrop : ∀ bytes : List UInt8, bytes.length = call.memorySize →
        bytes.drop (call.stored reply).length = [] := by
      intro bytes hbytes
      apply List.drop_eq_nil_of_le
      rw [hbytes, hfills]
    exact (hdrop _ (freshBlock_length _ _)).trans (hdrop memory hmemory).symm

/-- A remote call leaves the rest of the caller's buffer alone, whatever that
held before, exactly when the server's call filled its own (or the client
could not take the response). -/
theorem invoke_leavesRest_iff {κ σ : Type} (clientOs : Os κ) (serverOs : Os σ)
    {call : LibCall} (hsend : call.Sendable) {surroundings : Surroundings}
    (hwhole : surroundings.Whole call) {world : World κ σ}
    (hsized : world.payloadSizeBuf.length = 8) :
    (∀ memory : List UInt8, memory.length = call.memorySize →
        ∃ outcome next, invoke clientOs serverOs
            ⟨call, memory, surroundings⟩ world = .ok (some (outcome, next)) ∧
          call.LeavesRest memory outcome) ↔
      (surroundings.net.collects call = true →
        call.transmitted.onServer.FillsBuffer
          (serverOs.exec world.server call.transmitted.onServer).1) := by
  have hinvoke := fun (memory : List UInt8)
      (hmemory : memory.length = call.memorySize) =>
    @invoke_sendable κ σ clientOs serverOs ⟨call, memory, surroundings⟩ hsend
      hmemory hwhole world hsized
  rw [← LibCall.leavesRest_all_iff_fillsBuffer surroundings.bufMalloc,
    LibCall.memorySize_onServer]
  constructor
  · intro hleaves hcollects memory hmemory
    obtain ⟨outcome, next, hrun, hrest⟩ := hleaves memory hmemory
    obtain ⟨outcome', next', hrun', -, -, -, houtcome⟩ :=
      hinvoke memory hmemory
    rw [hrun, Except.ok.injEq, Option.some.injEq, Prod.mk.injEq] at hrun'
    rw [if_pos hcollects, ← hrun'.1] at houtcome
    rw [LibCall.leavesRest_onServer, ← houtcome]
    exact hrest
  · intro hleaves memory hmemory
    obtain ⟨outcome, next, hrun, -, -, -, houtcome⟩ := hinvoke memory hmemory
    refine ⟨outcome, next, hrun, ?_⟩
    cases hcollects : surroundings.net.collects call with
    | false =>
        rw [hcollects] at houtcome
        rw [houtcome]
        apply LibCall.leavesRest_gaveUp
    | true =>
        rw [hcollects] at houtcome
        rw [houtcome, if_pos rfl, ← LibCall.leavesRest_onServer]
        exact hleaves hcollects memory hmemory

/-- An operating system whose open files have two bytes left to read. -/
def twoBytesLeftOs : Os Unit where
  exec := fun state call =>
    match call with
    | .read _ nbyte =>
        if hfits : 2 ≤ nbyte.toNat then
          (some ⟨[0x61, 0x62], hfits, by decide⟩, state)
        else (none, state)
    | call => failingOs.exec state call

theorem amplestSurroundings_whole_read {nbyte : SizeT}
    (hcount : nbyte.toNat ≤ 4) :
    amplestSurroundings.Whole (.read 0x7ffffffc nbyte) := by
  have hsize : (LibCall.read 0x7ffffffc nbyte).responseSize.toNat =
      8 + nbyte.toNat := by
    apply LibCall.responseSize_read
    unfold SSIZE_MAX
    omega
  refine ⟨⟨fun hheap => absurd hheap (by simp [LibCall.requestOnHeap]),
    ⟨3, rfl⟩, rfl, rfl, 4096, rfl, ?_⟩, ?_, by decide, ?_, ?_, ?_, ?_⟩
  · simp [LibCall.transmitted, LibCall.payload]
  · simp only [hsize, amplestSurroundings, answeringNet]
    omega
  · simp [LibCall.transmitted, LibCall.payload, amplestSurroundings]
  · simp [LibCall.transmitted, LibCall.payload, amplestSurroundings,
      amplestMalloc]
  · simp only [Malloc.servesFor, LibCall.handlerBuf, amplestSurroundings,
      amplestMalloc, decide_eq_true_eq]
    omega
  · simp only [hsize, amplestSurroundings, amplestMalloc, decide_eq_true_eq]
    omega

theorem invoke_leavesRest_read_two :
    ∃ outcome next, invoke failingOs twoBytesLeftOs
        ⟨.read 0x7ffffffc 2, [1, 1], amplestSurroundings⟩
        ⟨(), ⟨[], -1⟩, (), List.replicate 8 0⟩ =
          .ok (some (outcome, next)) ∧
      (LibCall.read 0x7ffffffc 2).LeavesRest [1, 1] outcome := by
  have hsend : (LibCall.read 0x7ffffffc 2).Sendable :=
    ⟨by decide, by decide⟩
  have hwhole : amplestSurroundings.Whole (.read 0x7ffffffc 2) :=
    amplestSurroundings_whole_read (by decide)
  refine (invoke_leavesRest_iff failingOs twoBytesLeftOs hsend hwhole
    rfl).mpr ?_ [1, 1] rfl
  intro _
  rfl

/-- A `read` of four bytes where two are left: it returns 2, and the third
and the fourth byte of the caller's buffer are overwritten. -/
theorem not_leavesRest_read_four :
    (LibCall.read 0x7ffffffc 4).Sendable ∧
      amplestSurroundings.Whole (.read 0x7ffffffc 4) ∧
      ∃ next, invoke failingOs twoBytesLeftOs
          ⟨.read 0x7ffffffc 4, [1, 1, 1, 1], amplestSurroundings⟩
          ⟨(), ⟨[], -1⟩, (), List.replicate 8 0⟩ =
            .ok (some (⟨2, [0x61, 0x62, 0, 0]⟩, next)) ∧
        ¬ (LibCall.read 0x7ffffffc 4).LeavesRest [1, 1, 1, 1]
          ⟨2, [0x61, 0x62, 0, 0]⟩ := by
  refine ⟨⟨by decide, by decide⟩, amplestSurroundings_whole_read (by decide),
    ⟨(), ⟨[], 3⟩, (), _⟩, rfl, ?_⟩
  rw [LibCall.LeavesRest]
  decide

/-! ## The server's heap -/

def Malloc.withContents (malloc : Malloc) (contents : ℕ → UInt8) : Malloc :=
  { malloc with contents := contents }

/-- The arguments are objects of a process: strings of less than an address
space, and a `buf` of at most `SSIZE_MAX` bytes. -/
def LibCall.InMemory : LibCall → Prop
  | .openCall path _ _ => path.chars.length < addressSpace
  | .write _ buf => buf.length ≤ SSIZE_MAX
  | .truncate path _ => path.chars.length < addressSpace
  | .stat path => path.chars.length < addressSpace
  | .rename old new =>
      old.chars.length < addressSpace ∧ new.chars.length < addressSpace
  | .unlink path => path.chars.length < addressSpace
  | _ => True

/-- A stub sends a payload for a call: it runs the call remotely, and what it
passes to `send` is the size and this payload. -/
def LibCall.Sends (call : LibCall) (payload : List UInt8) : Prop :=
  call.isRemote = true ∧ ∃ request contents,
    stubRequest call = .ok request ∧
      request.sent contents =
        .ok (bytesOf request.requestPayloadSize ++ payload)

theorem Request.Encodes.sent_payload {request : Request}
    {payload sent : List UInt8} (hencodes : request.Encodes payload)
    {contents : ℕ → UInt8}
    (hsent : request.sent contents =
      .ok (bytesOf request.requestPayloadSize ++ sent)) :
    sent = payload := by
  rw [hencodes.sent_eq, Except.ok.injEq] at hsent
  exact (List.append_cancel_left hsent).symm

theorem LibCall.Sends.payload_eq {call : LibCall} {payload : List UInt8}
    (hsends : call.Sends payload) (hsend : call.Sendable) :
    payload = call.transmitted.payload := by
  obtain ⟨-, request, contents, hrequest, hsent⟩ := hsends
  obtain ⟨request', hrequest', hencodes⟩ := stubRequest_encodes hsend
  rw [hrequest, Except.ok.injEq] at hrequest'
  subst hrequest'
  exact hencodes.sent_payload hsent

/-- Besides the calls of the wire format, stubs send a `read` of more than
`SSIZE_MAX` bytes and a `rename` to a local path. -/
theorem LibCall.Sends.cases {call : LibCall} {payload : List UInt8}
    (hsends : call.Sends payload) (hmemory : call.InMemory) :
    call.Sendable ∨
      (∃ fildes nbyte, call = .read fildes nbyte ∧ SSIZE_MAX < nbyte.toNat ∧
        isRemoteFildes fildes = true ∧ payload = call.payload) ∨
      ∃ old new rest, call = .rename old new ∧
        payload = FunctionCode.RENAME.byte :: rest := by
  obtain ⟨hremote, request, contents, hrequest, hsent⟩ := hsends
  cases call with
  | openCall path oflag mode =>
      refine .inl ⟨hremote, hmemory, fun hcreat => ?_⟩
      cases mode with
      | some mode => rfl
      | none =>
          simp [stubRequest, vaMode, hcreat, bind, Except.bind] at hrequest
  | read fildes nbyte =>
      rcases Nat.lt_or_ge SSIZE_MAX nbyte.toNat with hover | hcount
      · rw [stubRequest, Except.ok.injEq] at hrequest
        subst hrequest
        exact .inr (.inl ⟨fildes, nbyte, rfl, hover, hremote,
          (fildesLongRequest_encodes .READ fildes nbyte).sent_payload hsent⟩)
      · exact .inl ⟨hremote, hcount⟩
  | rename old new =>
      rw [stubRequest, Except.ok.injEq] at hrequest
      subst hrequest
      by_cases hnew : new.chars = []
      · rw [(renameRequest_sent_empty old hnew contents).2] at hsent
        cases hsent
      · have hencodes := renameRequest_encodes_object hremote hmemory.1 hnew
          hmemory.2
        exact .inr (.inr ⟨old, new, _, rfl, hencodes.sent_payload hsent⟩)
  | write fildes buf => exact .inl ⟨hremote, hmemory⟩
  | truncate path _ | stat path | unlink path =>
      exact .inl ⟨hremote, hmemory⟩
  | close fildes | lseek fildes _ _ | ftruncate fildes _ | fstat fildes
  | fsync fildes => exact .inl hremote

/-- Two runs of a handler that differ in nothing but what the memory from
`malloc` held before send the same bytes. -/
def HeapIndependent {σ : Type} (os : Os σ) (bufMalloc malloc : Malloc)
    (payload : List UInt8) (state : σ) : Prop :=
  ∀ buf buf' response response' : ℕ → UInt8,
    (clientHandler os (bufMalloc.withContents buf)
        (malloc.withContents response) payload state).map
          HandlerRun.response =
      (clientHandler os (bufMalloc.withContents buf')
        (malloc.withContents response') payload state).map
          HandlerRun.response

theorem decode_withContents (malloc : Malloc) (contents : ℕ → UInt8)
    (payload : List UInt8) :
    decode (malloc.withContents contents) payload = decode malloc payload :=
  rfl

section Handler

variable {σ : Type} (os : Os σ) {bufMalloc : Malloc} (malloc : Malloc)
  {payload : List UInt8} (state : σ)

theorem heapIndependent_of_no_call
    (hdecode : ∀ call, decode bufMalloc payload ≠ .ok (some call)) :
    HeapIndependent os bufMalloc malloc payload state := by
  intro buf buf' response response'
  simp only [clientHandler, decode_withContents]
  cases hresult : decode bufMalloc payload with
  | error fault => rfl
  | ok result =>
      cases result with
      | none => rfl
      | some call => exact absurd hresult (hdecode call)

theorem heapIndependent_iff_respond {call : LibCall}
    (hdecode : decode bufMalloc payload = .ok (some call)) :
    HeapIndependent os bufMalloc malloc payload state ↔
      ∀ buf buf' response response' : ℕ → UInt8,
        respond (bufMalloc.withContents buf) (malloc.withContents response)
            call (os.exec state call).1 =
          respond (bufMalloc.withContents buf')
            (malloc.withContents response') call (os.exec state call).1 := by
  have hhandler : ∀ buf response : ℕ → UInt8,
      (clientHandler os (bufMalloc.withContents buf)
          (malloc.withContents response) payload state).map
            HandlerRun.response =
        respond (bufMalloc.withContents buf) (malloc.withContents response)
          call (os.exec state call).1 := by
    intro buf response
    simp only [clientHandler, decode_withContents, hdecode, bind,
      Except.bind, pure, Except.pure]
    cases respond (bufMalloc.withContents buf) (malloc.withContents response)
      call (os.exec state call).1 with
    | error fault => rfl
    | ok result => rfl
  simp only [HeapIndependent, hhandler]

end Handler

theorem respond_unserved (bufMalloc : Malloc) {malloc : Malloc}
    {call : LibCall} (reply : call.Reply)
    (hserves : malloc.serves call.responseSize.toNat = false) :
    respond bufMalloc malloc call reply = .ok none := by
  have hfill : ∀ copies : List (Copy UInt8),
      fillResponse malloc call.responseSize copies = .ok none := by
    intro copies
    rw [fillResponse, hserves]
    rfl
  cases call <;>
    simp only [LibCall.responseSize] at hfill <;>
    simp only [respond, intResponse, longResponse, readResponse,
      statResponse, hfill]

theorem LibCall.reported_independent_iff (bufMalloc : Malloc)
    {call : LibCall} (reply : call.Reply) {memory : List UInt8}
    (hmemory : memory.length = call.memorySize) :
    (∀ buf buf' : ℕ → UInt8,
        call.reported (bufMalloc.withContents buf) reply memory =
          call.reported (bufMalloc.withContents buf') reply memory) ↔
      call.FillsBuffer reply := by
  have hreported := fun buf => LibCall.reported_memory
    (bufMalloc.withContents buf) reply hmemory
  constructor
  · intro hsame
    have hrest : ∀ byte : UInt8,
        ((call.reported (bufMalloc.withContents fun _ => byte) reply
            memory).memory).drop (call.stored reply).length =
          (List.replicate call.memorySize byte).drop
            (call.stored reply).length := by
      intro byte
      rw [hreported, drop_fillFront, Malloc.withContents, freshBlock_const]
    have hle := le_of_drop_replicate_eq
      ((hrest 0).symm.trans (hsame (fun _ => 0) (fun _ => 1) ▸ hrest 1))
    exact le_antisymm (LibCall.stored_length_le call reply) hle
  · intro hfills buf buf'
    have hmem : ∀ contents : ℕ → UInt8,
        (call.reported (bufMalloc.withContents contents) reply
          memory).memory = call.stored reply := by
      intro contents
      rw [hreported]
      exact fillFront_whole ((freshBlock_length _ _).trans hfills.symm)
    have hret : (call.reported (bufMalloc.withContents buf) reply
        memory).ret =
          (call.reported (bufMalloc.withContents buf') reply memory).ret := by
      cases call with
      | read fildes nbyte | stat path | fstat fildes =>
          cases reply with
          | none => rfl
          | some data => rfl
      | _ => rfl
    have hmemories := (hmem buf).trans (hmem buf').symm
    generalize call.reported (bufMalloc.withContents buf) reply memory =
      left at hret hmemories
    generalize call.reported (bufMalloc.withContents buf') reply memory =
      right at hret hmemories
    cases left
    cases right
    rw [Outcome.mk.injEq]
    exact ⟨hret, hmemories⟩

/-- The response to a call of the wire format is independent of the heap
exactly when the call fills its buffer. -/
theorem respond_independent_iff {call : LibCall} (hsend : call.Sendable)
    (bufMalloc : Malloc) {malloc : Malloc}
    (hserves : malloc.serves call.responseSize.toNat = true)
    (reply : call.transmitted.onServer.Reply) :
    (∀ buf buf' response response' : ℕ → UInt8,
        respond (bufMalloc.withContents buf) (malloc.withContents response)
            call.transmitted.onServer reply =
          respond (bufMalloc.withContents buf')
            (malloc.withContents response') call.transmitted.onServer
            reply) ↔
      call.transmitted.onServer.FillsBuffer reply := by
  let memory := List.replicate call.memorySize (0 : UInt8)
  have hmemory : memory.length = call.memorySize := List.length_replicate
  have hmemory' : memory.length = call.transmitted.onServer.memorySize := by
    rw [LibCall.memorySize_onServer, hmemory]
  have hconveys := fun buf response =>
    @respond_conveys (bufMalloc.withContents buf)
      (malloc.withContents response) call.transmitted.onServer
      (fun _ _ hread => hsend.count_onServer hread)
      (by rw [LibCall.responseSize_onServer]; exact hserves) reply memory
      hmemory'
  rw [← LibCall.reported_independent_iff bufMalloc reply hmemory']
  constructor
  · intro hsame buf buf'
    obtain ⟨left, hleft, -, hdecodeLeft⟩ := hconveys buf fun _ => 0
    obtain ⟨right, hright, -, hdecodeRight⟩ := hconveys buf' fun _ => 0
    rw [hsame buf buf' _ fun _ => 0, hright, Except.ok.injEq,
      Option.some.injEq] at hleft
    rw [← hleft, hdecodeRight, Except.ok.injEq] at hdecodeLeft
    exact hdecodeLeft.symm
  · intro hsame buf buf' response response'
    obtain ⟨left, hleft, hlengthLeft, hdecodeLeft⟩ := hconveys buf response
    obtain ⟨right, hright, hlengthRight, hdecodeRight⟩ :=
      hconveys buf' response'
    rw [hsame buf buf', ← hdecodeRight] at hdecodeLeft
    rw [LibCall.responseSize_onServer] at hlengthLeft hlengthRight
    rw [decodeResponse_onServer] at hdecodeLeft
    rw [hleft, hright, decodeResponse_injective hsend hlengthLeft
      hlengthRight hmemory hdecodeLeft]

theorem intResponse_withContents (malloc : Malloc)
    (contents contents' : ℕ → UInt8) (result : CInt) :
    intResponse (malloc.withContents contents) result =
      intResponse (malloc.withContents contents') result := by
  have habut : Abutting 0 [memcpyWord 0 result] (4 : SizeT).toNat := by
    simp
  rw [intResponse, intResponse, fillResponse_eq _ habut,
    fillResponse_eq _ habut]
  rfl

theorem decode_rename_cases {bufMalloc : Malloc} {rest : List UInt8}
    {call : LibCall}
    (hdecode : decode bufMalloc (FunctionCode.RENAME.byte :: rest) =
      .ok (some call)) :
    ∃ old new, call = .rename old new := by
  rw [decode_eq_decodeFunction, decodeFunction, decodeRename] at hdecode
  obtain ⟨old, -, hdecode⟩ := bind_eq_ok.mp hdecode
  obtain ⟨new, -, hdecode⟩ := bind_eq_ok.mp hdecode
  simp only [pure, Except.pure, Except.ok.injEq, Option.some.injEq] at hdecode
  exact ⟨old, new, hdecode.symm⟩

/-- For every request that a stub sends, the response tells nothing of the
server's heap exactly when the call fills its buffer (or ends without a
response for want of memory). -/
theorem heapIndependent_iff_fillsBuffer {σ : Type} (os : Os σ)
    (bufMalloc malloc : Malloc) {call : LibCall} (hmemory : call.InMemory)
    {payload : List UInt8} (hsends : call.Sends payload) (state : σ) :
    HeapIndependent os bufMalloc malloc payload state ↔
      (bufMalloc.servesFor call = true →
        malloc.serves call.responseSize.toNat = true →
        call.transmitted.onServer.FillsBuffer
          (os.exec state call.transmitted.onServer).1) := by
  rcases hsends.cases hmemory with hsend | ⟨fildes, nbyte, rfl, hover,
    hremote, rfl⟩ | ⟨old, new, rest, rfl, rfl⟩
  · have hdecode := decode_payload hsend bufMalloc
    rw [← hsends.payload_eq hsend] at hdecode
    cases hbuf : bufMalloc.servesFor call with
    | false =>
        rw [hbuf] at hdecode
        refine iff_of_true ?_ (fun hserved => absurd hserved (by simp))
        apply heapIndependent_of_no_call
        simp [hdecode]
    | true =>
        rw [hbuf, if_pos rfl] at hdecode
        rw [heapIndependent_iff_respond os malloc state hdecode]
        cases hserves : malloc.serves call.responseSize.toNat with
        | false =>
            refine iff_of_true ?_ (fun _ hserved => absurd hserved (by simp))
            intro buf buf' response response'
            rw [respond_unserved, respond_unserved]
            · rwa [LibCall.responseSize_onServer]
            · rwa [LibCall.responseSize_onServer]
        | true =>
            rw [respond_independent_iff hsend bufMalloc hserves]
            simp
  · -- `malloc` serves no `nbyte` above `SSIZE_MAX`.
    have hbuf : bufMalloc.servesFor (.read fildes nbyte) = false := by
      rw [← Bool.not_eq_true]
      intro hserves
      have hlt := bufMalloc.serves_lt _ hserves
      unfold SSIZE_MAX at hover
      omega
    rw [hbuf]
    refine iff_of_true ?_ (fun hserved => absurd hserved (by simp))
    apply heapIndependent_of_no_call
    intro call hcall
    rw [LibCall.payload, decode_eq_decodeFunction, decodeFunction,
      ← LibCall.payload, decodeRead_payload bufMalloc nbyte hremote,
      show bufMalloc.serves nbyte.toNat = false from hbuf] at hcall
    cases hcall
  · refine iff_of_true ?_ (fun _ _ => rfl)
    by_cases hcall : ∃ call, decode bufMalloc
        (FunctionCode.RENAME.byte :: rest) = .ok (some call)
    · obtain ⟨call, hdecode⟩ := hcall
      obtain ⟨source, target, rfl⟩ := decode_rename_cases hdecode
      rw [heapIndependent_iff_respond os malloc state hdecode]
      intro buf buf' response response'
      apply intResponse_withContents
    · apply heapIndependent_of_no_call
      exact not_exists.mp hcall

theorem sends_read (nbyte : SizeT) :
    (LibCall.read 0x7ffffffc nbyte).Sends
      (LibCall.read 0x7ffffffc nbyte).payload :=
  ⟨by rw [LibCall.isRemote]; decide, readRequest 0x7ffffffc nbyte,
    fun _ => 0, rfl, (fildesLongRequest_encodes .READ _ nbyte).sent_eq _⟩

theorem heapIndependent_read_two :
    HeapIndependent twoBytesLeftOs amplestMalloc amplestMalloc
      (LibCall.read 0x7ffffffc 2).payload () := by
  have hmemory : (LibCall.read 0x7ffffffc 2).InMemory := trivial
  refine (heapIndependent_iff_fillsBuffer twoBytesLeftOs amplestMalloc
    amplestMalloc hmemory (sends_read 2) ()).mpr ?_
  intro _ _
  rfl

/-- A `read` of four bytes where two are left: the last two bytes of the
response are those that `malloc` returned. -/
theorem not_heapIndependent_read_four :
    (LibCall.read 0x7ffffffc 4).Sends (LibCall.read 0x7ffffffc 4).payload ∧
      ¬ HeapIndependent twoBytesLeftOs amplestMalloc amplestMalloc
        (LibCall.read 0x7ffffffc 4).payload () := by
  refine ⟨sends_read 4, fun hindependent => ?_⟩
  have hresponse : ∀ byte : UInt8, (clientHandler twoBytesLeftOs
      (amplestMalloc.withContents fun _ => byte)
      (amplestMalloc.withContents fun _ => 0)
      (LibCall.read 0x7ffffffc 4).payload ()).map HandlerRun.response =
        .ok (some [2, 0, 0, 0, 0, 0, 0, 0, 0x61, 0x62, byte, byte]) := by
    intro byte
    rfl
  have hsame := hindependent (fun _ => 0) (fun _ => 1) (fun _ => 0) fun _ => 0
  rw [hresponse, hresponse] at hsame
  simp at hsame

end TestRpc
