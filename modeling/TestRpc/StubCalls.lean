import TestRpc.RequestRoundTrip

/-!
# The twelve stubs

A stub of `rpc_stubs.c` runs its call either with the real library function or
remotely: build the request, connect and send it, receive the response into
`response_payload` and decode that at fixed offsets.  The twelve stubs share
this shape; they differ in the request, in where the two buffers live, and in
what they decode.  The client process is its open descriptors and the static
`sock`.
-/

namespace TestRpc

open LittleEndian BlockCopies StreamReceive

structure ClientProcess where
  descriptors : List ℕ
  sock : ℤ
  deriving DecidableEq

/-- The surroundings of one remote call: the outcomes of the system calls and
allocations it makes, and the stream with which the peer answers what it was
sent.  `responseMalloc` also gives the contents of a `response_payload` on
the stack. -/
structure Net where
  requestMalloc : Malloc
  socket : Option ℕ
  setsockopt : Bool
  connect : Bool
  send : Option ℕ
  responseMalloc : Malloc
  peer : List UInt8 → Stream
  cut : ℕ
  close : Bool

/-! ## Transport -/

/-- `real_close(sock)`: the descriptor is gone, whatever `close` reports. -/
def realClose (process : ClientProcess) : ClientProcess :=
  { process with
    descriptors := process.descriptors.filter fun fildes =>
      (fildes : ℤ) ≠ process.sock }

def connectToServer (net : Net) (process : ClientProcess) :
    Bool × ClientProcess :=
  match net.socket with
  | none => (false, { process with sock := -1 })
  | some fildes =>
      let process : ClientProcess := ⟨fildes :: process.descriptors, fildes⟩
      if net.setsockopt = false then
        (false, realClose process)
      else if net.connect = false then
        (false, realClose process)
      else
        (true, process)

/-- `send_data`: the bytes that `send` accepted, or `none` on error. -/
def sendData (net : Net) (buf : List UInt8) (process : ClientProcess) :
    Option (List UInt8) × ClientProcess :=
  match connectToServer net process with
  | (false, process) => (none, process)
  | (true, process) =>
      match net.send with
      | none => (none, realClose process)
      | some count => (some (buf.take count), process)

/-- `recv_data` and `recv_data_buf`: the buffer after one `recv` into it, or
`none` on error. -/
def recvData (net : Net) (stream : Stream) (buf : List UInt8)
    (process : ClientProcess) : Option (List UInt8) × ClientProcess :=
  match recv stream buf.length net.cut with
  | none => (none, realClose process)
  | some (got, _) =>
      if net.close then
        (some (fillFront buf got), realClose process)
      else
        (none, realClose process)

/-! ## Stubs -/

def LibCall.requestOnHeap : LibCall → Bool
  | .openCall _ _ _ => true
  | .write _ _ => true
  | .truncate _ _ => true
  | .stat _ => true
  | .rename _ _ => true
  | .unlink _ => true
  | _ => false

def LibCall.responseOnHeap : LibCall → Bool
  | .read _ _ => true
  | _ => false

/-- `response_payload_size` -/
def LibCall.responseSize : LibCall → SizeT
  | .openCall _ _ _ => 4
  | .close _ => 4
  | .read _ nbyte => 8 + nbyte
  | .write _ _ => 8
  | .lseek _ _ _ => 8
  | .truncate _ _ => 4
  | .ftruncate _ _ => 4
  | .stat _ => BitVec.ofNat 64 (4 + sizeofStat)
  | .fstat _ => BitVec.ofNat 64 (4 + sizeofStat)
  | .fsync _ => 4
  | .rename _ _ => 4
  | .unlink _ => 4

def decodeInt (response memory : List UInt8) : Except Fault Outcome := do
  let result ← wordAt 32 response 0
  return intOutcome result memory

def decodeLong (response memory : List UInt8) : Except Fault Outcome := do
  let result ← wordAt 64 response 0
  return longOutcome result memory

def decodeReadResponse (nbyte : SizeT) (response memory : List UInt8) :
    Except Fault Outcome := do
  let ioRetval ← wordAt 64 response 0
  let buf ← readAt response 8 nbyte.toNat
  return longOutcome ioRetval (fillFront memory buf)

def decodeStatResponse (response memory : List UInt8) :
    Except Fault Outcome := do
  let errorCode ← wordAt 32 response 0
  let statbuf ← readAt response 4 sizeofStat
  return intOutcome errorCode (fillFront memory statbuf)

/-- What a stub extracts from its response payload, `memory` being what `buf`
or `statbuf` points to. -/
def decodeResponse : LibCall → List UInt8 → List UInt8 → Except Fault Outcome
  | .openCall _ _ _, response, memory => decodeInt response memory
  | .close _, response, memory => decodeInt response memory
  | .read _ nbyte, response, memory =>
      decodeReadResponse nbyte response memory
  | .write _ _, response, memory => decodeLong response memory
  | .lseek _ _ _, response, memory => decodeLong response memory
  | .truncate _ _, response, memory => decodeInt response memory
  | .ftruncate _ _, response, memory => decodeInt response memory
  | .stat _, response, memory => decodeStatResponse response memory
  | .fstat _, response, memory => decodeStatResponse response memory
  | .fsync _, response, memory => decodeInt response memory
  | .rename _ _, response, memory => decodeInt response memory
  | .unlink _, response, memory => decodeInt response memory

/-- What a stub did: its outcome for the caller, the bytes it sent if it sent
any, and the client's operating system and process afterwards. -/
structure StubRun (κ : Type) where
  outcome : Outcome
  sent : Option (List UInt8)
  client : κ
  process : ClientProcess

def gaveUp (memory : List UInt8) : Outcome :=
  ⟨-1, memory⟩

def remoteStub {κ : Type} (net : Net) (call : LibCall) (memory : List UInt8)
    (client : κ) (process : ClientProcess) : Except Fault (StubRun κ) := do
  let request ← stubRequest call
  if call.requestOnHeap && !net.requestMalloc.serves request.bufSize.toNat then
    return ⟨gaveUp memory, none, client, process⟩
  else
    let bytes ← request.sent net.requestMalloc.contents
    match sendData net bytes process with
    | (none, process) => return ⟨gaveUp memory, none, client, process⟩
    | (some sent, process) =>
        -- `read` allocates its response only now, and leaves with the
        -- connection open when it cannot.
        if call.responseOnHeap &&
            !net.responseMalloc.serves call.responseSize.toNat then
          return ⟨gaveUp memory, some sent, client, process⟩
        else
          match recvData net (net.peer sent)
              (freshBlock net.responseMalloc.contents
                call.responseSize.toNat) process with
          | (none, process) =>
              return ⟨gaveUp memory, some sent, client, process⟩
          | (some response, process) =>
              let outcome ← decodeResponse call response memory
              return ⟨outcome, some sent, client, process⟩

/-- The call of the real library function in a stub's local branch. -/
def realCall : LibCall → Except Fault LibCall
  | .openCall path oflag mode => do
      let mode ← vaMode oflag mode
      if oflag = O_CREAT then
        return .openCall path oflag (some mode)
      else
        return .openCall path oflag none
  | call => .ok call

def localStub {κ : Type} (os : Os κ) (call : LibCall) (memory : List UInt8)
    (client : κ) (process : ClientProcess) : Except Fault (StubRun κ) := do
  let call ← realCall call
  let answer := os.exec client call
  return ⟨call.outcome answer.1 memory, none, answer.2, process⟩

def stub {κ : Type} (os : Os κ) (net : Net) (call : LibCall)
    (memory : List UInt8) (client : κ) (process : ClientProcess) :
    Except Fault (StubRun κ) :=
  if call.isRemote then
    remoteStub net call memory client process
  else
    localStub os call memory client process

/-! ## Responses -/

theorem wordAt_front {n : ℕ} {response : List UInt8}
    (hlength : n / 8 ≤ response.length) :
    wordAt n response 0 = .ok (wordOf n (response.take (n / 8))) := by
  simp [wordAt, readAt, hlength]

theorem wordAt_whole {n : ℕ} {response : List UInt8}
    (hlength : response.length = n / 8) :
    wordAt n response 0 = .ok (wordOf n response) := by
  rw [wordAt_front (le_of_eq hlength.symm), ← hlength, List.take_length]

theorem readAt_rest {response : List UInt8} {offset count : ℕ}
    (hlength : response.length = offset + count) :
    readAt response offset count = .ok (response.drop offset) := by
  have hdrop : (response.drop offset).length = count := by
    rw [List.length_drop]
    omega
  rw [readAt, if_pos (by omega), ← hdrop, List.take_length]

theorem decodeInt_eq {response : List UInt8} (hlength : response.length = 4)
    (memory : List UInt8) :
    decodeInt response memory =
      .ok (intOutcome (wordOf 32 response) memory) := by
  rw [decodeInt, wordAt_whole hlength]
  rfl

theorem decodeLong_eq {response : List UInt8} (hlength : response.length = 8)
    (memory : List UInt8) :
    decodeLong response memory =
      .ok (longOutcome (wordOf 64 response) memory) := by
  rw [decodeLong, wordAt_whole hlength]
  rfl

theorem decodeReadResponse_eq {nbyte : SizeT} {response memory : List UInt8}
    (hlength : response.length = 8 + nbyte.toNat)
    (hmemory : memory.length = nbyte.toNat) :
    decodeReadResponse nbyte response memory =
      .ok (longOutcome (wordOf 64 (response.take 8)) (response.drop 8)) := by
  have hword := @wordAt_front 64 response (by omega)
  have hfill : fillFront memory (response.drop 8) = response.drop 8 :=
    fillFront_whole (by rw [List.length_drop]; omega)
  rw [decodeReadResponse, hword, readAt_rest hlength]
  simp only [bind, Except.bind, pure, Except.pure, hfill]

theorem decodeStatResponse_eq {response memory : List UInt8}
    (hlength : response.length = 4 + sizeofStat)
    (hmemory : memory.length = sizeofStat) :
    decodeStatResponse response memory =
      .ok (intOutcome (wordOf 32 (response.take 4)) (response.drop 4)) := by
  have hword := @wordAt_front 32 response (by omega)
  have hfill : fillFront memory (response.drop 4) = response.drop 4 :=
    fillFront_whole (by rw [List.length_drop]; omega)
  rw [decodeStatResponse, hword, readAt_rest hlength]
  simp only [bind, Except.bind, pure, Except.pure, hfill]

end TestRpc
