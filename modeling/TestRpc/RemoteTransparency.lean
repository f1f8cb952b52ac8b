import TestRpc.RequestFraming
import TestRpc.ResponseDelivery

/-!
# Remote transparency

The whole path of a call: stub, connection, `main`'s receive, handler thread
and back.  The abstract model beside it has no network at all: a local call is
executed by the client's operating system and a remote one by the server's,
with the `"//"` of its paths removed and its descriptor `h` replaced by
`INT_MAX - h`.  Over every finite sequence of calls on a transport that loses
nothing, the two agree unless a temporary file is opened: `open` needs a mode
for it, and both sides of the transport pass one on for `O_CREAT` alone.
-/

namespace TestRpc

open LittleEndian BlockCopies StreamReceive

/-! ## The path of a call -/

/-- What one call meets on its way: the client's surroundings (the peer in
them is the server modelled here), and on the server the accepted socket, how
much each `recv` returns, and the allocations of the payload, of `buf` or
`statbuf`, and of the response. -/
structure Surroundings where
  net : Net
  clientSocket : ℕ
  sizeCut : ℕ
  payloadCut : ℕ
  payloadMalloc : Malloc
  bufMalloc : Malloc
  responseMalloc : Malloc

def Surroundings.connection (surroundings : Surroundings)
    (bytes : List UInt8) : Connection where
  clientSocket := surroundings.clientSocket
  stream := ⟨bytes, .closed⟩
  sizeCut := surroundings.sizeCut
  payloadCut := surroundings.payloadCut
  malloc := surroundings.payloadMalloc

structure Served (σ : Type) where
  answer : Stream
  state : σ
  payloadSizeBuf : List UInt8

/-- The server's part of a call: `main` receives the request and a handler
thread makes the call, sends the response and closes the connection.  `none`
when the request gets no response. -/
def serve {σ : Type} (os : Os σ) (surroundings : Surroundings) (state : σ)
    (payloadSizeBuf bytes : List UInt8) : Except Fault (Option (Served σ)) :=
  match receiveRequest payloadSizeBuf (surroundings.connection bytes) with
  | (.handed argument, payloadSizeBuf) => do
      let run ← clientHandler os surroundings.bufMalloc
        surroundings.responseMalloc argument.payload state
      match run.response with
      | none => return none
      | some response =>
          return some ⟨⟨response, .closed⟩, run.state, payloadSizeBuf⟩
  | _ => .ok none

/-- The two machines: the client's operating system and the transport state
of its process, and the server's operating system and the `payload_size_buf`
of its `main`. -/
structure World (κ σ : Type) where
  client : κ
  process : ClientProcess
  server : σ
  payloadSizeBuf : List UInt8

structure Invocation where
  call : LibCall
  memory : List UInt8
  surroundings : Surroundings

def Surroundings.netTo {σ : Type} (surroundings : Surroundings) (os : Os σ)
    (state : σ) (payloadSizeBuf : List UInt8) : Net :=
  { surroundings.net with
    peer := fun bytes =>
      match serve os surroundings state payloadSizeBuf bytes with
      | .ok (some served) => served.answer
      | _ => ⟨[], .failed⟩ }

section Machines

variable {κ σ : Type} (clientOs : Os κ) (serverOs : Os σ)

/-- One call of a stub with all that follows from it on both machines; `none`
when the stub waits for a response that never comes. -/
def invoke (invocation : Invocation) (world : World κ σ) :
    Except Fault (Option (Outcome × World κ σ)) := do
  let surroundings := invocation.surroundings
  let run ← stub clientOs
    (surroundings.netTo serverOs world.server world.payloadSizeBuf)
    invocation.call invocation.memory world.client world.process
  match run.sent with
  | none =>
      return some (run.outcome,
        ⟨run.client, run.process, world.server, world.payloadSizeBuf⟩)
  | some bytes =>
      match ← serve serverOs surroundings world.server world.payloadSizeBuf
          bytes with
      | none => return none
      | some served =>
          return some (run.outcome,
            ⟨run.client, run.process, served.state, served.payloadSizeBuf⟩)

def invokeAll : List Invocation → World κ σ →
    Except Fault (Option (List Outcome × World κ σ))
  | [], world => .ok (some ([], world))
  | invocation :: rest, world => do
      match ← invoke clientOs serverOs invocation world with
      | none => return none
      | some (outcome, world) =>
          match ← invokeAll rest world with
          | none => return none
          | some (outcomes, world) => return some (outcome :: outcomes, world)

/-! ## The abstract model -/

/-- What the caller of a remote call sees of a reply on the server: the
call's own result with `open`'s descriptors turned into handles, the bytes
that `read` reports, and the `struct stat` of a successful `stat`. -/
def LibCall.Conveys : (call : LibCall) → call.Reply → List UInt8 → Outcome →
    Prop
  | .openCall _ _ _, fildes, memory, outcome =>
      outcome.memory = memory ∧
        outcome.ret = if 0 ≤ fildes.toInt then INT_MAX.toInt - fildes.toInt
          else fildes.toInt
  | .read _ _, none, _, outcome => outcome.ret = -1
  | .read _ _, some data, _, outcome =>
      outcome.ret = data.bytes.length ∧
        outcome.memory.take data.bytes.length = data.bytes
  | .stat _, none, _, outcome => outcome.ret = -1
  | .fstat _, none, _, outcome => outcome.ret = -1
  | call, reply, memory, outcome => outcome = call.outcome reply memory

/-- Runs without a network: each call, with the arguments of it that
`lookedAt` keeps, is executed on one of the two operating systems, and the
other one is left as it was. -/
inductive Executed (lookedAt : LibCall → LibCall) :
    κ → σ → List Invocation → List Outcome → κ → σ → Prop
  | done (client : κ) (server : σ) :
      Executed lookedAt client server [] [] client server
  | localCall {client client' : κ} {server server' : σ}
      {invocation : Invocation} {rest : List Invocation}
      {outcomes : List Outcome} :
      invocation.call.isRemote = false →
      Executed lookedAt (clientOs.exec client (lookedAt invocation.call)).2
        server rest outcomes client' server' →
      Executed lookedAt client server (invocation :: rest)
        ((lookedAt invocation.call).outcome
          (clientOs.exec client (lookedAt invocation.call)).1
          invocation.memory :: outcomes)
        client' server'
  | remoteCall {client client' : κ} {server server' : σ}
      {invocation : Invocation} {rest : List Invocation} {outcome : Outcome}
      {outcomes : List Outcome} :
      invocation.call.isRemote = true →
      (lookedAt invocation.call).onServer.Conveys
        (serverOs.exec server (lookedAt invocation.call).onServer).1
        invocation.memory outcome →
      Executed lookedAt client
        (serverOs.exec server (lookedAt invocation.call).onServer).2
        rest outcomes client' server' →
      Executed lookedAt client server (invocation :: rest)
        (outcome :: outcomes) client' server'

/-- The calls have the effects and results of the library functions. -/
def Transparent : κ → σ → List Invocation → List Outcome → κ → σ → Prop :=
  Executed clientOs serverOs LibCall.effective

end Machines

/-- Whatever the operating systems of the two machines are, a sequence of
calls has exactly the effects and results of executing the local ones on the
client and the remote ones on the server. -/
def RemotelyTransparent (invocations : List Invocation) : Prop :=
  ∀ (κ σ : Type) (clientOs : Os κ) (serverOs : Os σ) (world : World κ σ),
    world.payloadSizeBuf.length = 8 →
    ∃ outcomes final, invokeAll clientOs serverOs invocations world =
        .ok (some (outcomes, final)) ∧
      Transparent clientOs serverOs world.client world.server invocations
        outcomes final.client final.server

/-- An operating system that keeps a record of the calls made to it. -/
def recordingOs : Os (List LibCall) where
  exec := fun record call => ((failingOs.exec () call).1, record ++ [call])

/-! ## Responses convey replies -/

def readReported (bufMalloc : Malloc) (nbyte : SizeT) :
    Option (ReadData nbyte) → Outcome
  | none => ⟨-1, freshBlock bufMalloc.contents nbyte.toNat⟩
  | some data => ⟨data.bytes.length,
      fillFront (freshBlock bufMalloc.contents nbyte.toNat) data.bytes⟩

def statReported (statMalloc : Malloc) : Option StatBuf → Outcome
  | none => ⟨-1, freshBlock statMalloc.contents sizeofStat⟩
  | some statbuf => ⟨0, statbuf.bytes⟩

/-- What a stub makes of a reply on the server.  The whole of the server's
`buf` or `statbuf` comes back, with what its `malloc` left in it. -/
def LibCall.reported (bufMalloc : Malloc) :
    (call : LibCall) → call.Reply → List UInt8 → Outcome
  | .openCall _ _ _, fildes, memory => intOutcome (handedOut fildes) memory
  | .read _ nbyte, data, _ => readReported bufMalloc nbyte data
  | .stat _, data, _ => statReported bufMalloc data
  | .fstat _, data, _ => statReported bufMalloc data
  | call, reply, memory => call.outcome reply memory

theorem handedOut_toInt (fildes : CInt) :
    (handedOut fildes).toInt =
      if 0 ≤ fildes.toInt then INT_MAX.toInt - fildes.toInt
      else fildes.toInt := by
  rw [handedOut]
  split
  · next hnonneg =>
    have hmax : INT_MAX.toInt = 2147483647 := by decide
    have hupper : fildes.toInt < 2 ^ 31 := @BitVec.toInt_lt 32 fildes
    rw [BitVec.toInt_sub, hmax, Int.bmod_eq_of_le] <;> omega
  · rfl

theorem fillResponse_word {n : ℕ} {malloc : Malloc} {size : SizeT}
    (word : BitVec n) (hsize : size.toNat = n / 8)
    (hserves : malloc.serves size.toNat = true) :
    fillResponse malloc size [memcpyWord 0 word] =
      .ok (some (bytesOf word)) := by
  have habut : Abutting 0 [memcpyWord 0 word] size.toNat := by
    simp [hsize]
  rw [fillResponse_eq malloc habut, if_pos hserves]
  simp [pieces]

theorem fillResponse_word_block {n count : ℕ} {malloc : Malloc} {size : SizeT}
    (word : BitVec n) {block : List UInt8} (hcount : block.length = count)
    (hsize : size.toNat = n / 8 + count)
    (hserves : malloc.serves size.toNat = true) :
    fillResponse malloc size
        [memcpyWord 0 word, memcpy (n / 8) block count] =
      .ok (some (bytesOf word ++ block)) := by
  subst hcount
  have habut : Abutting 0
      [memcpyWord 0 word, memcpy (n / 8) block block.length] size.toNat := by
    simp [hsize]
  rw [fillResponse_eq malloc habut, if_pos hserves]
  simp [pieces]

theorem intResponse_conveys {malloc : Malloc}
    (hserves : malloc.serves 4 = true) (result : CInt)
    (memory : List UInt8) :
    ∃ response, intResponse malloc result = .ok (some response) ∧
      response.length = 4 ∧
      decodeInt response memory = .ok (intOutcome result memory) := by
  refine ⟨bytesOf result, fillResponse_word result rfl hserves,
    bytesOf_length result, ?_⟩
  rw [decodeInt_eq (bytesOf_length result), wordOf_bytesOf rfl]

theorem longResponse_conveys {malloc : Malloc}
    (hserves : malloc.serves 8 = true) (result : BitVec 64)
    (memory : List UInt8) :
    ∃ response, longResponse malloc result = .ok (some response) ∧
      response.length = 8 ∧
      decodeLong response memory = .ok (longOutcome result memory) := by
  refine ⟨bytesOf result, fillResponse_word result rfl hserves,
    bytesOf_length result, ?_⟩
  rw [decodeLong_eq (bytesOf_length result), wordOf_bytesOf rfl]

theorem statResponse_conveys {statMalloc malloc : Malloc}
    (hserves : malloc.serves (4 + sizeofStat) = true)
    (data : Option StatBuf) {memory : List UInt8}
    (hmemory : memory.length = sizeofStat) :
    ∃ response, statResponse statMalloc malloc data = .ok (some response) ∧
      response.length = 4 + sizeofStat ∧
      decodeStatResponse response memory =
        .ok (statReported statMalloc data) := by
  cases data with
  | none =>
      have hfresh : (freshBlock statMalloc.contents sizeofStat).length =
          sizeofStat := freshBlock_length _ _
      have hbytes : (bytesOf (-1 : CInt)).length = 4 := bytesOf_length _
      refine ⟨_, fillResponse_word_block (-1 : CInt) hfresh rfl hserves,
        by simp [hfresh], ?_⟩
      rw [decodeStatResponse_eq (by simp [hfresh]) hmemory, ← hbytes,
        List.take_left, List.drop_left, wordOf_bytesOf rfl]
      rfl
  | some statbuf =>
      have hbytes : (bytesOf (0 : CInt)).length = 4 := bytesOf_length _
      refine ⟨_, fillResponse_word_block (0 : CInt) statbuf.size rfl hserves,
        by simp [statbuf.size], ?_⟩
      rw [decodeStatResponse_eq (by simp [statbuf.size]) hmemory, ← hbytes,
        List.take_left, List.drop_left, wordOf_bytesOf rfl]
      rfl

theorem toInt_count {count : ℕ} (hcount : count ≤ SSIZE_MAX) :
    (BitVec.ofNat 64 count : SsizeT).toInt = count := by
  unfold SSIZE_MAX at hcount
  rw [BitVec.toInt_eq_toNat_of_lt]
  · rw [BitVec.toNat_ofNat, Nat.mod_eq_of_lt (by omega)]
  · rw [BitVec.toNat_ofNat, Nat.mod_eq_of_lt (by omega)]
    omega

theorem readResponse_conveys {bufMalloc malloc : Malloc} {nbyte : SizeT}
    (hcount : nbyte.toNat ≤ SSIZE_MAX)
    (hserves : malloc.serves (8 + nbyte : SizeT).toNat = true)
    (data : Option (ReadData nbyte)) {memory : List UInt8}
    (hmemory : memory.length = nbyte.toNat) :
    ∃ response, readResponse bufMalloc malloc nbyte data =
        .ok (some response) ∧
      response.length = (8 + nbyte : SizeT).toNat ∧
      decodeReadResponse nbyte response memory =
        .ok (readReported bufMalloc nbyte data) := by
  have hsize := LibCall.responseSize_read hcount
  have hbuf := readBuf_length bufMalloc.contents nbyte data
  cases data with
  | none =>
      have hbytes : (bytesOf (-1 : SsizeT)).length = 8 := bytesOf_length _
      have hresponse : (bytesOf (-1 : SsizeT) ++
          freshBlock bufMalloc.contents nbyte.toNat).length =
            8 + nbyte.toNat := by
        rw [List.length_append, hbytes, hbuf]
      refine ⟨_, fillResponse_word_block (-1 : SsizeT) hbuf hsize hserves,
        hresponse.trans hsize.symm, ?_⟩
      rw [decodeReadResponse_eq hresponse hmemory, ← hbytes, List.take_left,
        List.drop_left, wordOf_bytesOf rfl]
      rfl
  | some data =>
      let ioRetval : SsizeT := BitVec.ofNat 64 data.bytes.length
      have hbytes : (bytesOf ioRetval).length = 8 := bytesOf_length _
      have hresponse : (bytesOf ioRetval ++ fillFront
          (freshBlock bufMalloc.contents nbyte.toNat) data.bytes).length =
            8 + nbyte.toNat := by
        rw [List.length_append, hbytes, hbuf]
      refine ⟨_, fillResponse_word_block ioRetval hbuf hsize hserves,
        hresponse.trans hsize.symm, ?_⟩
      rw [decodeReadResponse_eq hresponse hmemory, ← hbytes, List.take_left,
        List.drop_left, wordOf_bytesOf rfl, longOutcome,
        toInt_count data.countable, readReported]

theorem respond_conveys {bufMalloc malloc : Malloc} {call : LibCall}
    (hcount : ∀ fildes nbyte, call = .read fildes nbyte →
      nbyte.toNat ≤ SSIZE_MAX)
    (hserves : malloc.serves call.responseSize.toNat = true)
    (reply : call.Reply) {memory : List UInt8}
    (hmemory : memory.length = call.memorySize) :
    ∃ response, respond bufMalloc malloc call reply = .ok (some response) ∧
      response.length = call.responseSize.toNat ∧
      decodeResponse call response memory =
        .ok (call.reported bufMalloc reply memory) := by
  cases call with
  | openCall path oflag mode =>
      exact intResponse_conveys hserves (handedOut reply) memory
  | read fildes nbyte =>
      exact readResponse_conveys (hcount _ _ rfl) hserves reply hmemory
  | stat path | fstat fildes =>
      exact statResponse_conveys hserves reply hmemory
  | write fildes buf | lseek fildes offset whence =>
      exact longResponse_conveys hserves reply memory
  | _ => exact intResponse_conveys hserves reply memory

theorem LibCall.conveys_reported (bufMalloc : Malloc) (call : LibCall)
    (reply : call.Reply) (memory : List UInt8) :
    call.Conveys reply memory (call.reported bufMalloc reply memory) := by
  cases call with
  | openCall path oflag mode => exact ⟨rfl, handedOut_toInt reply⟩
  | read fildes nbyte =>
      cases reply with
      | none => exact rfl
      | some data =>
          refine ⟨rfl, ?_⟩
          simp only [LibCall.reported, readReported, fillFront_eq]
          exact List.take_left
  | stat path | fstat fildes =>
      cases reply with
      | none => exact rfl
      | some statbuf => exact rfl
  | _ => exact rfl

/-! ## Calls on a transport that loses nothing -/

/-- The calls that programs make of the stubs: no `oflag` has `O_CREAT`
together with other bits, `open` gets a mode where its flags need one,
`rename` gets two paths of one machine, and counts and paths fit their C
types. -/
def LibCall.Supported : LibCall → Prop
  | .openCall path oflag mode =>
      path.chars.length < addressSpace ∧
        (oflag &&& O_CREAT ≠ 0 → oflag = O_CREAT) ∧
        (needsMode oflag = true → mode.isSome = true)
  | .read _ nbyte => nbyte.toNat ≤ SSIZE_MAX
  | .write _ buf => buf.length ≤ SSIZE_MAX
  | .truncate path _ => path.chars.length < addressSpace
  | .stat path => path.chars.length < addressSpace
  | .rename old new =>
      old.isRemote = new.isRemote ∧ old.chars.length < addressSpace ∧
        new.chars.length < addressSpace
  | .unlink path => path.chars.length < addressSpace
  | _ => True

/-- A remote call meets no failure of the transport on its way: its bytes
arrive whole on both sides, and every allocation for it succeeds. -/
structure Surroundings.Ideal (surroundings : Surroundings) (call : LibCall) :
    Prop where
  reaches : surroundings.net.Reaches call
  collects : surroundings.net.collects call = true
  responseWhole : call.responseSize.toNat ≤ max 1 surroundings.net.cut
  sizeWhole : 8 ≤ surroundings.sizeCut
  payloadWhole :
    call.transmitted.payload.length ≤ max 1 surroundings.payloadCut
  servesPayload : surroundings.payloadMalloc.serves
    call.transmitted.payload.length = true
  servesBuf : surroundings.bufMalloc.servesFor call = true
  servesResponse :
    surroundings.responseMalloc.serves call.responseSize.toNat = true

/-- The request and the response arrive whole and the server can allocate
what it needs.  Whether the client can take the response is left open. -/
structure Surroundings.Whole (surroundings : Surroundings) (call : LibCall) :
    Prop where
  reaches : surroundings.net.Reaches call
  responseWhole : call.responseSize.toNat ≤ max 1 surroundings.net.cut
  sizeWhole : 8 ≤ surroundings.sizeCut
  payloadWhole :
    call.transmitted.payload.length ≤ max 1 surroundings.payloadCut
  servesPayload : surroundings.payloadMalloc.serves
    call.transmitted.payload.length = true
  servesBuf : surroundings.bufMalloc.servesFor call = true
  servesResponse :
    surroundings.responseMalloc.serves call.responseSize.toNat = true

theorem Surroundings.Ideal.whole {surroundings : Surroundings}
    {call : LibCall} (hideal : surroundings.Ideal call) :
    surroundings.Whole call where
  reaches := hideal.reaches
  responseWhole := hideal.responseWhole
  sizeWhole := hideal.sizeWhole
  payloadWhole := hideal.payloadWhole
  servesPayload := hideal.servesPayload
  servesBuf := hideal.servesBuf
  servesResponse := hideal.servesResponse

structure Invocation.Proper (invocation : Invocation) : Prop where
  supported : invocation.call.Supported
  memory : invocation.memory.length = invocation.call.memorySize
  ideal : invocation.call.isRemote = true →
    invocation.surroundings.Ideal invocation.call

theorem LibCall.Supported.sendable {call : LibCall}
    (hsupported : call.Supported) (hremote : call.isRemote = true) :
    call.Sendable := by
  cases call with
  | openCall path oflag mode =>
      refine ⟨hremote, hsupported.1, fun hcreat => ?_⟩
      exact hsupported.2.2 (by rw [hcreat]; decide)
  | read fildes nbyte => exact ⟨hremote, hsupported⟩
  | write fildes buf => exact ⟨hremote, hsupported⟩
  | truncate path length => exact ⟨hremote, hsupported⟩
  | stat path => exact ⟨hremote, hsupported⟩
  | rename old new =>
      exact ⟨⟨hremote, hsupported.2.1⟩, hsupported.1 ▸ hremote,
        hsupported.2.2⟩
  | unlink path => exact ⟨hremote, hsupported⟩
  | close fildes | lseek fildes _ _ | ftruncate fildes _ | fstat fildes
  | fsync fildes => exact hremote

/-- Where `O_CREAT` stands alone, the mode that `open` needs for a temporary
file is the only argument that a stub does not look at. -/
theorem sentMode_eq_iff {oflag : CInt} {mode : Option ModeT}
    (halone : oflag &&& O_CREAT ≠ 0 → oflag = O_CREAT)
    (hgiven : needsMode oflag = true → mode.isSome = true) :
    (if oflag = O_CREAT then mode else none) =
        (if needsMode oflag then mode else none) ↔
      (oflag &&& O_TMPFILE == O_TMPFILE) = false := by
  by_cases hcreat : oflag = O_CREAT
  · subst hcreat
    have hneeds : needsMode O_CREAT = true := by decide
    have hplain : (O_CREAT &&& O_TMPFILE == O_TMPFILE) = false := by decide
    rw [if_pos rfl, if_pos hneeds]
    exact iff_of_true rfl hplain
  · have hunset : oflag &&& O_CREAT = 0 := not_not.mp (mt halone hcreat)
    have hneeds : needsMode oflag = (oflag &&& O_TMPFILE == O_TMPFILE) := by
      simp [needsMode, hunset]
    rw [if_neg hcreat]
    cases htmpfile : (oflag &&& O_TMPFILE == O_TMPFILE) with
    | false => simp [hneeds, htmpfile]
    | true =>
        obtain ⟨given, rfl⟩ := Option.isSome_iff_exists.mp
          (hgiven (hneeds.trans htmpfile))
        simp [hneeds, htmpfile]

theorem LibCall.Supported.transmitted_eq_iff {call : LibCall}
    (hsupported : call.Supported) :
    call.transmitted = call.effective ↔ call.makesTmpfile = false := by
  cases call with
  | openCall path oflag mode =>
      simp only [LibCall.transmitted, LibCall.effective, LibCall.makesTmpfile,
        LibCall.openCall.injEq, true_and]
      exact sentMode_eq_iff hsupported.2.1 hsupported.2.2
  | _ => exact iff_of_true rfl rfl

theorem LibCall.Supported.onServer_transmitted_eq_iff {call : LibCall}
    (hsupported : call.Supported) :
    call.transmitted.onServer = call.effective.onServer ↔
      call.makesTmpfile = false := by
  cases call with
  | openCall path oflag mode =>
      simp only [LibCall.transmitted, LibCall.effective, LibCall.onServer,
        LibCall.makesTmpfile, LibCall.openCall.injEq, true_and]
      exact sentMode_eq_iff hsupported.2.1 hsupported.2.2
  | _ => exact iff_of_true rfl rfl

theorem LibCall.Supported.realCall_eq {call : LibCall}
    (hsupported : call.Supported) :
    realCall call = .ok call.transmitted := by
  cases call with
  | openCall path oflag mode =>
      by_cases hcreat : oflag = O_CREAT
      · obtain ⟨mode, rfl⟩ := Option.isSome_iff_exists.mp
          (hsupported.2.2 (by rw [hcreat]; decide))
        simp [realCall, vaMode, LibCall.transmitted, hcreat, bind,
          Except.bind, pure, Except.pure]
      · simp [realCall, vaMode, LibCall.transmitted, hcreat, bind,
          Except.bind, pure, Except.pure]
  | _ => rfl

/-! ### What the server's call has in common with the client's -/

@[simp] theorem LibCall.responseSize_onServer (call : LibCall) :
    call.transmitted.onServer.responseSize = call.responseSize := by
  cases call <;>
    simp only [LibCall.transmitted, LibCall.onServer, LibCall.responseSize]

@[simp] theorem LibCall.memorySize_onServer (call : LibCall) :
    call.transmitted.onServer.memorySize = call.memorySize := by
  cases call <;>
    simp only [LibCall.transmitted, LibCall.onServer, LibCall.memorySize]

@[simp] theorem decodeResponse_onServer (call : LibCall) :
    decodeResponse call.transmitted.onServer = decodeResponse call := by
  funext response memory
  cases call <;>
    simp only [LibCall.transmitted, LibCall.onServer, decodeResponse]

theorem LibCall.Sendable.count_onServer {call : LibCall}
    (hsend : call.Sendable) {fildes : CInt} {nbyte : SizeT}
    (hread : call.transmitted.onServer = .read fildes nbyte) :
    nbyte.toNat ≤ SSIZE_MAX := by
  cases call with
  | read fildes' nbyte' =>
      simp only [LibCall.transmitted, LibCall.onServer,
        LibCall.read.injEq] at hread
      rw [← hread.2]
      exact hsend.2
  | _ => cases hread

theorem LibCall.Sendable.payload_length {call : LibCall}
    (hsend : call.Sendable) :
    call.transmitted.payload.length < 2 ^ 64 := by
  obtain ⟨request, _, hencodes⟩ := stubRequest_encodes hsend
  have hlt := request.requestPayloadSize.isLt
  rwa [hencodes.payloadSize] at hlt

/-! ### One call -/

/-- The server executes the request of a remote call, and its response holds
the reply. -/
theorem serve_request {σ : Type} (os : Os σ) {surroundings : Surroundings}
    {call : LibCall} (hsend : call.Sendable)
    (hwhole : surroundings.Whole call) {payloadSizeBuf : List UInt8}
    (hsized : payloadSizeBuf.length = 8) (state : σ) {memory : List UInt8}
    (hmemory : memory.length = call.memorySize) :
    ∃ response next,
      serve os surroundings state payloadSizeBuf
          (requestBytes call.transmitted.payload) =
        .ok (some ⟨⟨response, .closed⟩,
          (os.exec state call.transmitted.onServer).2, next⟩) ∧
      next.length = 8 ∧
      response.length = call.responseSize.toNat ∧
      decodeResponse call response memory =
        .ok (call.transmitted.onServer.reported surroundings.bufMalloc
          (os.exec state call.transmitted.onServer).1 memory) := by
  let connection :=
    surroundings.connection (requestBytes call.transmitted.payload)
  have hdelivered : DeliveredWhole call.transmitted.payload connection :=
    ⟨rfl, hwhole.sizeWhole, hwhole.payloadWhole⟩
  have hframed := framed_of_deliveredWhole hsend.payload_length rfl
    hwhole.servesPayload hsized hdelivered
  rw [Framed, if_pos hdelivered.1] at hframed
  obtain ⟨received, next, hreceive⟩ :
      ∃ received next, receiveRequest payloadSizeBuf connection =
        (received, next) := ⟨_, _, rfl⟩
  have hnext := receiveRequest_sizeBuf_length hsized connection
  rw [hreceive] at hframed hnext
  simp only at hframed hnext
  subst hframed
  have hdecode := decode_payload hsend surroundings.bufMalloc
  rw [if_pos hwhole.servesBuf] at hdecode
  obtain ⟨response, hrespond, hlength, houtcome⟩ :=
    @respond_conveys surroundings.bufMalloc surroundings.responseMalloc
      call.transmitted.onServer (fun _ _ hread => hsend.count_onServer hread)
      (by rw [LibCall.responseSize_onServer]; exact hwhole.servesResponse)
      (os.exec state call.transmitted.onServer).1 memory
      (by rw [LibCall.memorySize_onServer]; exact hmemory)
  rw [LibCall.responseSize_onServer] at hlength
  rw [decodeResponse_onServer] at houtcome
  refine ⟨response, next, ?_, hnext, hlength, houtcome⟩
  unfold serve
  simp only [connection] at hreceive
  simp only [hreceive, clientHandler, hdecode, hrespond, bind, Except.bind,
    pure, Except.pure]

section Machines

variable {κ σ : Type} (clientOs : Os κ) (serverOs : Os σ)

theorem invoke_realCall {invocation : Invocation} {real : LibCall}
    (hlocal : invocation.call.isRemote = false)
    (hreal : realCall invocation.call = .ok real) (world : World κ σ) :
    invoke clientOs serverOs invocation world =
      .ok (some (real.outcome (clientOs.exec world.client real).1
          invocation.memory,
        ⟨(clientOs.exec world.client real).2, world.process, world.server,
          world.payloadSizeBuf⟩)) := by
  simp [invoke, stub, hlocal, localStub, hreal, bind, Except.bind, pure,
    Except.pure]

theorem invoke_local {invocation : Invocation} (hproper : invocation.Proper)
    (hlocal : invocation.call.isRemote = false) (world : World κ σ) :
    invoke clientOs serverOs invocation world =
      .ok (some (invocation.call.transmitted.outcome
          (clientOs.exec world.client invocation.call.transmitted).1
          invocation.memory,
        ⟨(clientOs.exec world.client invocation.call.transmitted).2,
          world.process, world.server, world.payloadSizeBuf⟩)) :=
  invoke_realCall clientOs serverOs hlocal hproper.supported.realCall_eq world

/-- A remote call whose request and response arrive whole is executed on the
server, and returns what the response holds or, where the client cannot take
it, `-1`. -/
theorem invoke_sendable {invocation : Invocation}
    (hsend : invocation.call.Sendable)
    (hmemory : invocation.memory.length = invocation.call.memorySize)
    (hwhole : invocation.surroundings.Whole invocation.call)
    {world : World κ σ} (hsized : world.payloadSizeBuf.length = 8) :
    ∃ outcome next, invoke clientOs serverOs invocation world =
        .ok (some (outcome, next)) ∧
      next.client = world.client ∧
      next.server = (serverOs.exec world.server
        invocation.call.transmitted.onServer).2 ∧
      next.payloadSizeBuf.length = 8 ∧
      outcome =
        if invocation.surroundings.net.collects invocation.call then
          invocation.call.transmitted.onServer.reported
            invocation.surroundings.bufMalloc (serverOs.exec world.server
              invocation.call.transmitted.onServer).1 invocation.memory
        else gaveUp invocation.memory := by
  obtain ⟨response, next, hserve, hnext, hlength, hdecode⟩ :=
    serve_request serverOs hsend hwhole hsized world.server hmemory
  let net := invocation.surroundings.netTo serverOs world.server
    world.payloadSizeBuf
  have hreaches : net.Reaches invocation.call :=
    ⟨hwhole.reaches.allocates, hwhole.reaches.socket,
      hwhole.reaches.setsockopt, hwhole.reaches.connect, hwhole.reaches.send⟩
  cases hcollects : invocation.surroundings.net.collects invocation.call with
  | false =>
      obtain ⟨process, hstub⟩ := stub_eq_of_not_collects clientOs hsend
        hreaches hcollects invocation.memory world.client world.process
      refine ⟨_, ⟨world.client, process, _, next⟩, ?_, rfl, rfl, hnext, rfl⟩
      simp only [net] at hstub
      simp only [invoke, hstub, hserve, bind, Except.bind, pure, Except.pure,
        Bool.false_eq_true, if_false]
  | true =>
      obtain ⟨process, hstub⟩ := stub_eq_of_collects clientOs hsend hreaches
        hcollects invocation.memory world.client world.process
      have hanswer : net.answer invocation.call = ⟨response, .closed⟩ := by
        simp only [net, Net.answer, Surroundings.netTo, hserve]
      have hrecv : recv (net.answer invocation.call)
          invocation.call.responseSize.toNat net.cut =
            some (response, ⟨[], .closed⟩) := by
        have hne : response ≠ [] := by
          apply List.ne_nil_of_length_pos
          rw [hlength]
          exact hsend.responseSize_pos
        have hgot := @recv_whole .closed response [] net.cut
          (hlength ▸ hwhole.responseWhole) hne
        rwa [List.append_nil, hlength, ← hanswer] at hgot
      rw [hrecv] at hstub
      simp only [fillFront_whole ((freshBlock_length _ _).trans
        hlength.symm), hdecode, Except.map] at hstub
      refine ⟨_, ⟨world.client, process, _, next⟩, ?_, rfl, rfl, hnext, rfl⟩
      simp only [net] at hstub
      simp only [invoke, hstub, hserve, bind, Except.bind, pure, Except.pure,
        if_true]

theorem invoke_remote {invocation : Invocation} (hproper : invocation.Proper)
    (hremote : invocation.call.isRemote = true) {world : World κ σ}
    (hsized : world.payloadSizeBuf.length = 8) :
    ∃ outcome next, invoke clientOs serverOs invocation world =
        .ok (some (outcome, next)) ∧
      next.client = world.client ∧
      next.server =
        (serverOs.exec world.server invocation.call.transmitted.onServer).2 ∧
      next.payloadSizeBuf.length = 8 ∧
      invocation.call.transmitted.onServer.Conveys
        (serverOs.exec world.server invocation.call.transmitted.onServer).1
        invocation.memory outcome := by
  have hsend := hproper.supported.sendable hremote
  have hideal := hproper.ideal hremote
  obtain ⟨outcome, next, hinvoke, hclient, hserver, hnext, houtcome⟩ :=
    invoke_sendable clientOs serverOs hsend hproper.memory hideal.whole hsized
  refine ⟨outcome, next, hinvoke, hclient, hserver, hnext, ?_⟩
  rw [houtcome, if_pos hideal.collects]
  apply LibCall.conveys_reported

/-! ## Whole runs -/

/-- Every finite sequence of calls, local and remote in any order, executes
the calls as the stubs look at them. -/
theorem invokeAll_executes {invocations : List Invocation}
    (hproper : ∀ invocation ∈ invocations, invocation.Proper)
    {world : World κ σ} (hsized : world.payloadSizeBuf.length = 8) :
    ∃ outcomes final, invokeAll clientOs serverOs invocations world =
        .ok (some (outcomes, final)) ∧
      Executed clientOs serverOs LibCall.transmitted world.client
        world.server invocations outcomes final.client final.server := by
  induction invocations generalizing world with
  | nil => exact ⟨[], world, rfl, .done _ _⟩
  | cons invocation rest ih =>
      have hfirst := hproper invocation (List.mem_cons_self ..)
      have hrest : ∀ invocation ∈ rest, invocation.Proper :=
        fun invocation hmem => hproper invocation (List.mem_cons_of_mem _ hmem)
      cases hroute : invocation.call.isRemote with
      | false =>
          have hinvoke := invoke_local clientOs serverOs hfirst hroute world
          obtain ⟨outcomes, final, hrun, hexecuted⟩ := @ih hrest
            ⟨(clientOs.exec world.client invocation.call.transmitted).2,
              world.process, world.server, world.payloadSizeBuf⟩ hsized
          refine ⟨_, final, ?_, .localCall hroute hexecuted⟩
          simp only [invokeAll, hinvoke, hrun, bind, Except.bind, pure,
            Except.pure]
      | true =>
          obtain ⟨outcome, next, hinvoke, hclient, hserver, hnext,
            hconveys⟩ := invoke_remote clientOs serverOs hfirst hroute hsized
          obtain ⟨outcomes, final, hrun, hexecuted⟩ := ih hrest hnext
          rw [hclient, hserver] at hexecuted
          refine ⟨_, final, ?_, .remoteCall hroute hconveys hexecuted⟩
          simp only [invokeAll, hinvoke, hrun, bind, Except.bind, pure,
            Except.pure]

theorem Executed.congr {kept lookedAt : LibCall → LibCall}
    {client client' : κ} {server server' : σ} {invocations : List Invocation}
    {outcomes : List Outcome}
    (hexecuted : Executed clientOs serverOs kept client server invocations
      outcomes client' server')
    (hsame : ∀ invocation ∈ invocations,
      kept invocation.call = lookedAt invocation.call) :
    Executed clientOs serverOs lookedAt client server invocations outcomes
      client' server' := by
  induction hexecuted with
  | done client server => exact .done client server
  | localCall hlocal _ ih =>
      rw [List.forall_mem_cons] at hsame
      have hrest := ih hsame.2
      rw [hsame.1] at hrest ⊢
      exact .localCall hlocal hrest
  | remoteCall hremote hconveys _ ih =>
      rw [List.forall_mem_cons] at hsame
      have hrest := ih hsame.2
      rw [hsame.1] at hrest hconveys
      exact .remoteCall hremote hconveys hrest

end Machines

/-- Recording operating systems tell what a run has executed on each of the
two machines. -/
theorem Executed.records {lookedAt : LibCall → LibCall}
    {client client' server server' : List LibCall}
    {invocations : List Invocation} {outcomes : List Outcome}
    (hexecuted : Executed recordingOs recordingOs lookedAt client server
      invocations outcomes client' server') :
    client' = client ++ (invocations.filter fun invocation =>
        !invocation.call.isRemote).map (fun invocation =>
          lookedAt invocation.call) ∧
      server' = server ++ (invocations.filter fun invocation =>
        invocation.call.isRemote).map (fun invocation =>
          (lookedAt invocation.call).onServer) := by
  induction hexecuted with
  | done client server => simp
  | localCall hlocal _ ih => simpa [hlocal, recordingOs] using ih
  | remoteCall hremote _ _ ih => simpa [hremote, recordingOs] using ih

/-- Runs that leave the same records have executed the same calls. -/
theorem Executed.lookedAt_eq {kept lookedAt : LibCall → LibCall}
    {client client' server server' : List LibCall}
    {invocations : List Invocation} {outcomes outcomes' : List Outcome}
    (hkept : Executed recordingOs recordingOs kept client server invocations
      outcomes client' server')
    (hlookedAt : Executed recordingOs recordingOs lookedAt client server
      invocations outcomes' client' server') {invocation : Invocation}
    (hmem : invocation ∈ invocations) :
    if invocation.call.isRemote = true then
      (kept invocation.call).onServer = (lookedAt invocation.call).onServer
    else kept invocation.call = lookedAt invocation.call := by
  obtain ⟨hclient, hserver⟩ := hkept.records
  obtain ⟨hclient', hserver'⟩ := hlookedAt.records
  have hlocals := List.append_cancel_left (hclient.symm.trans hclient')
  have hremotes := List.append_cancel_left (hserver.symm.trans hserver')
  rw [List.map_inj_left] at hlocals hremotes
  split
  · next hremote =>
    exact hremotes invocation (List.mem_filter.mpr ⟨hmem, hremote⟩)
  · next hlocal =>
    exact hlocals invocation (List.mem_filter.mpr ⟨hmem, by simpa using hlocal⟩)

/-- Remote transparency: every finite sequence of calls, local and remote in
any order, has exactly the effects and results of executing the local ones on
the client and the remote ones on the server, if and only if none of them
opens a temporary file, whose mode the stubs do not look at. -/
theorem remotelyTransparent_iff {invocations : List Invocation}
    (hproper : ∀ invocation ∈ invocations, invocation.Proper) :
    RemotelyTransparent invocations ↔
      ∀ invocation ∈ invocations, invocation.call.makesTmpfile = false := by
  constructor
  · intro htransparent invocation hmem
    let start : World (List LibCall) (List LibCall) :=
      ⟨[], ⟨[], -1⟩, [], List.replicate 8 0⟩
    obtain ⟨outcomes, final, hrun, hexecuted⟩ := @invokeAll_executes _ _
      recordingOs recordingOs invocations hproper start rfl
    obtain ⟨outcomes', final', hrun', heffective⟩ :=
      htransparent _ _ recordingOs recordingOs start rfl
    rw [hrun, Except.ok.injEq, Option.some.injEq, Prod.mk.injEq] at hrun'
    rw [← hrun'.2] at heffective
    have hsupported := (hproper invocation hmem).supported
    have hsame := hexecuted.lookedAt_eq heffective hmem
    split at hsame
    · exact hsupported.onServer_transmitted_eq_iff.mp hsame
    · exact hsupported.transmitted_eq_iff.mp hsame
  · intro hplain κ σ clientOs serverOs world hsized
    obtain ⟨outcomes, final, hrun, hexecuted⟩ :=
      invokeAll_executes clientOs serverOs hproper hsized
    refine ⟨outcomes, final, hrun, hexecuted.congr clientOs serverOs ?_⟩
    intro invocation hmem
    exact (hproper invocation hmem).supported.transmitted_eq_iff.mpr
      (hplain invocation hmem)

/-- An operating system with room for one open file, at descriptor 3. -/
def oneFileOs : Os Bool where
  exec := fun opened call =>
    match call with
    | .openCall _ _ _ => if opened then ((-1 : CInt), true) else ((3 : CInt), true)
    | .close fildes =>
        if opened = true ∧ fildes = 3 then ((0 : CInt), false)
        else ((-1 : CInt), opened)
    | call => ((failingOs.exec () call).1, opened)

def amplestSurroundings : Surroundings where
  net := answeringNet ⟨[], .closed⟩ 4096
  clientSocket := 4
  sizeCut := 4096
  payloadCut := 4096
  payloadMalloc := amplestMalloc
  bufMalloc := amplestMalloc
  responseMalloc := amplestMalloc

/-- A program that creates a remote file, closes it, and closes a local
descriptor of the same number. -/
def createAndClose : List Invocation :=
  [⟨.openCall remoteA O_CREAT (some 0o644), [], amplestSurroundings⟩,
    ⟨.close 0x7ffffffc, [], amplestSurroundings⟩,
    ⟨.close 3, [], amplestSurroundings⟩]

theorem amplestSurroundings_ideal_small {call : LibCall}
    (hpayload : call.transmitted.payload.length ≤ 11)
    (hresponse : call.responseSize = 4) (hbuf : call.handlerBuf = none)
    (hheap : call.responseOnHeap = false) :
    amplestSurroundings.Ideal call := by
  have hsize : call.responseSize.toNat = 4 := by
    rw [hresponse]
    rfl
  refine ⟨⟨fun _ => ?_, ⟨3, rfl⟩, rfl, rfl, 4096, rfl, by omega⟩, ?_, ?_,
    by decide, ?_, ?_, ?_, ?_⟩
  · simp only [amplestSurroundings, answeringNet, amplestMalloc,
      decide_eq_true_eq]
    omega
  · simp [Net.collects, hheap, amplestSurroundings, answeringNet]
  · simp [hsize, amplestSurroundings, answeringNet]
  · simp only [amplestSurroundings]
    omega
  · simp only [amplestSurroundings, amplestMalloc, decide_eq_true_eq]
    omega
  · simp [Malloc.servesFor, hbuf]
  · rw [hsize]
    rfl

theorem createAndClose_proper :
    ∀ invocation ∈ createAndClose, invocation.Proper := by
  intro invocation hmem
  simp only [createAndClose, List.mem_cons, List.not_mem_nil,
    or_false] at hmem
  rcases hmem with rfl | rfl | rfl
  · exact ⟨⟨by decide, fun _ => rfl, fun _ => rfl⟩, rfl,
      fun _ => amplestSurroundings_ideal_small (by decide) rfl rfl rfl⟩
  · exact ⟨trivial, rfl,
      fun _ => amplestSurroundings_ideal_small (by decide) rfl rfl rfl⟩
  · exact ⟨trivial, rfl, fun hremote => absurd hremote (by decide)⟩

theorem createAndClose_transparent :
    RemotelyTransparent createAndClose ∧
      ∃ final, invokeAll oneFileOs oneFileOs createAndClose
          ⟨false, ⟨[], -1⟩, false, List.replicate 8 0⟩ =
        .ok (some ([⟨2147483644, []⟩, ⟨0, []⟩, ⟨-1, []⟩], final)) ∧
      Transparent oneFileOs oneFileOs false false createAndClose
        [⟨2147483644, []⟩, ⟨0, []⟩, ⟨-1, []⟩] final.client final.server := by
  have hremotely : RemotelyTransparent createAndClose :=
    (remotelyTransparent_iff createAndClose_proper).mpr (by decide)
  obtain ⟨outcomes, final, hrun, htransparent⟩ := hremotely Bool Bool
    oneFileOs oneFileOs ⟨false, ⟨[], -1⟩, false, List.replicate 8 0⟩ rfl
  have houtcomes : (invokeAll oneFileOs oneFileOs createAndClose
      ⟨false, ⟨[], -1⟩, false, List.replicate 8 0⟩).toOption.join.map
        Prod.fst = some [⟨2147483644, []⟩, ⟨0, []⟩, ⟨-1, []⟩] := by
    rfl
  rw [hrun] at houtcomes
  have heq : outcomes = [⟨2147483644, []⟩, ⟨0, []⟩, ⟨-1, []⟩] := by
    simpa [Except.toOption] using houtcomes
  subst heq
  exact ⟨hremotely, final, hrun, htransparent⟩

/-- A program that opens a temporary file of the mode `0600` in the server's
directory `"a"`, with `O_TMPFILE | O_RDWR`. -/
def openTmpfile : List Invocation :=
  [⟨.openCall remoteA 0x410002 (some 0o600), [], amplestSurroundings⟩]

/-- The server's `open` gets no mode. -/
theorem openTmpfile_not_transparent :
    (∀ invocation ∈ openTmpfile, invocation.Proper) ∧
      (∃ outcomes final, invokeAll recordingOs recordingOs openTmpfile
          ⟨[], ⟨[], -1⟩, [], List.replicate 8 0⟩ =
            .ok (some (outcomes, final)) ∧
        final.server = [.openCall remoteA.strip 0x410002 none]) ∧
      ¬ RemotelyTransparent openTmpfile := by
  have hproper : ∀ invocation ∈ openTmpfile, invocation.Proper := by
    intro invocation hmem
    rw [List.mem_singleton.mp hmem]
    exact ⟨⟨by decide, by decide, fun _ => rfl⟩, rfl,
      fun _ => amplestSurroundings_ideal_small (by decide) rfl rfl rfl⟩
  refine ⟨hproper, ⟨[⟨-1, []⟩], ⟨[], ⟨[], 3⟩, _, _⟩, rfl, rfl⟩, ?_⟩
  intro htransparent
  obtain ⟨outcomes, final, hrun, heffective⟩ := htransparent _ _ recordingOs
    recordingOs ⟨[], ⟨[], -1⟩, [], List.replicate 8 0⟩ rfl
  obtain ⟨outcomes', final', hrun', hexecuted⟩ := @invokeAll_executes _ _
    recordingOs recordingOs _ hproper
    ⟨[], ⟨[], -1⟩, [], List.replicate 8 0⟩ rfl
  rw [hrun, Except.ok.injEq, Option.some.injEq, Prod.mk.injEq] at hrun'
  rw [← hrun'.2] at hexecuted
  have hsame := hexecuted.lookedAt_eq heffective (List.mem_singleton_self _)
  exact absurd hsame (by decide)

end TestRpc
