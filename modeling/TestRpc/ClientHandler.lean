import TestRpc.StubRequest

/-!
# The handler thread of the server

`client_handler` of `server.c`: decode the payload by function code, make the
file system call, and build the response.  Reads outside the payload, copies
past the end of an allocated block and overflow of `INT_MAX - fildes` are
faults; a failing `malloc` ends the handler without a response.
-/

namespace TestRpc

open LittleEndian BlockCopies StreamReceive

/-- One call of `malloc`: the sizes it can serve, none of them above
`PTRDIFF_MAX`, and what the memory it returns holds. -/
structure Malloc where
  serves : ℕ → Bool
  serves_lt : ∀ size, serves size = true → size < 2 ^ 63
  contents : ℕ → UInt8

/-! ## Reading the payload -/

def readAt (payload : List UInt8) (offset count : ℕ) :
    Except Fault (List UInt8) :=
  if offset + count ≤ payload.length then
    .ok ((payload.drop offset).take count)
  else
    .error .outOfBounds

/-- `memcpy(&word, payload + offset, sizeof(word))` -/
def wordAt (n : ℕ) (payload : List UInt8) (offset : ℕ) :
    Except Fault (BitVec n) :=
  match readAt payload offset (n / 8) with
  | .error fault => .error fault
  | .ok bytes => .ok (wordOf n bytes)

def scan : List UInt8 → Option CString
  | [] => none
  | byte :: rest =>
      if hnul : byte = 0 then
        some ⟨[], by simp⟩
      else
        match scan rest with
        | none => none
        | some string =>
            some ⟨byte :: string.chars, by
              simpa [Ne.symm hnul] using string.noNul⟩

/-- The string at `payload + offset`, whose NUL has to lie in the payload. -/
def stringAt (payload : List UInt8) (offset : ℕ) : Except Fault CString :=
  match scan (payload.drop offset) with
  | none => .error .outOfBounds
  | some string => .ok string

/-- `INT_MAX - fildes`, in `int` arithmetic. -/
def intMaxMinus (fildes : CInt) : Except Fault CInt :=
  let difference := INT_MAX.toInt - fildes.toInt
  if -2 ^ 31 ≤ difference ∧ difference < 2 ^ 31 then
    .ok (BitVec.ofInt 32 difference)
  else
    .error .signedOverflow

/-! ## The twelve branches: arguments -/

def FunctionCode.ofByte? (code : UInt8) : Option FunctionCode :=
  match code.toNat with
  | 0 => some .OPEN
  | 1 => some .CLOSE
  | 2 => some .READ
  | 3 => some .WRITE
  | 4 => some .LSEEK
  | 5 => some .TRUNCATE
  | 6 => some .FTRUNCATE
  | 7 => some .STAT
  | 8 => some .FSTAT
  | 9 => some .FSYNC
  | 10 => some .RENAME
  | 11 => some .UNLINK
  | _ => none

def decodeOpen (payload : List UInt8) : Except Fault (Option LibCall) := do
  let path ← stringAt payload 1
  let pathSize := path.chars.length + 1
  let oflag ← wordAt 32 payload (1 + pathSize)
  if oflag = O_CREAT then
    let mode ← wordAt 32 payload (1 + pathSize + 4)
    return some (.openCall path oflag (some mode))
  else
    return some (.openCall path oflag none)

def decodeClose (payload : List UInt8) : Except Fault (Option LibCall) := do
  let fildes ← wordAt 32 payload 1
  return some (.close (← intMaxMinus fildes))

def decodeRead (malloc : Malloc) (payload : List UInt8) :
    Except Fault (Option LibCall) := do
  let fildes ← wordAt 32 payload 1
  let nbyte ← wordAt 64 payload (1 + 4)
  if malloc.serves nbyte.toNat then
    return some (.read (← intMaxMinus fildes) nbyte)
  else
    return none

def decodeWrite (malloc : Malloc) (payload : List UInt8) :
    Except Fault (Option LibCall) := do
  let payloadSize : SizeT := BitVec.ofNat 64 payload.length
  let fildes ← wordAt 32 payload 1
  -- `payload + payload_size - sizeof(size_t)` lies before the payload when
  -- the payload is shorter than a `size_t`.
  if payload.length < 8 then
    throw .outOfBounds
  let nbyte ← wordAt 64 payload (payload.length - 8)
  let bufSize := payloadSize - 1 - 4 - 8
  if malloc.serves bufSize.toNat then
    let buf ← readAt payload (1 + 4) nbyte.toNat
    if bufSize.toNat < nbyte.toNat then
      throw .outOfBounds
    return some (.write (← intMaxMinus fildes) buf)
  else
    return none

def decodeLseek (payload : List UInt8) : Except Fault (Option LibCall) := do
  let fildes ← wordAt 32 payload 1
  let offset ← wordAt 64 payload (1 + 4)
  let whence ← wordAt 32 payload (1 + 4 + 8)
  return some (.lseek (← intMaxMinus fildes) offset whence)

def decodeTruncate (payload : List UInt8) :
    Except Fault (Option LibCall) := do
  let path ← stringAt payload 1
  let pathSize := path.chars.length + 1
  let length ← wordAt 64 payload (1 + pathSize)
  return some (.truncate path length)

def decodeFtruncate (payload : List UInt8) :
    Except Fault (Option LibCall) := do
  let fildes ← wordAt 32 payload 1
  let length ← wordAt 64 payload (1 + 4)
  return some (.ftruncate (← intMaxMinus fildes) length)

def decodeStat (malloc : Malloc) (payload : List UInt8) :
    Except Fault (Option LibCall) := do
  if malloc.serves sizeofStat then
    return some (.stat (← stringAt payload 1))
  else
    return none

def decodeFstat (malloc : Malloc) (payload : List UInt8) :
    Except Fault (Option LibCall) := do
  let fildes ← wordAt 32 payload 1
  if malloc.serves sizeofStat then
    return some (.fstat (← intMaxMinus fildes))
  else
    return none

def decodeFsync (payload : List UInt8) : Except Fault (Option LibCall) := do
  let fildes ← wordAt 32 payload 1
  return some (.fsync (← intMaxMinus fildes))

def decodeRename (payload : List UInt8) : Except Fault (Option LibCall) := do
  let old ← stringAt payload 1
  let new ← stringAt payload (1 + old.chars.length + 1)
  return some (.rename old new)

def decodeUnlink (payload : List UInt8) : Except Fault (Option LibCall) := do
  return some (.unlink (← stringAt payload 1))

def decodeFunction (malloc : Malloc) :
    FunctionCode → List UInt8 → Except Fault (Option LibCall)
  | .OPEN, payload => decodeOpen payload
  | .CLOSE, payload => decodeClose payload
  | .READ, payload => decodeRead malloc payload
  | .WRITE, payload => decodeWrite malloc payload
  | .LSEEK, payload => decodeLseek payload
  | .TRUNCATE, payload => decodeTruncate payload
  | .FTRUNCATE, payload => decodeFtruncate payload
  | .STAT, payload => decodeStat malloc payload
  | .FSTAT, payload => decodeFstat malloc payload
  | .FSYNC, payload => decodeFsync payload
  | .RENAME, payload => decodeRename payload
  | .UNLINK, payload => decodeUnlink payload

/-- The file system call that the handler makes for a payload, with `malloc`
the allocation of `buf` or `statbuf`; `none` when it leaves before any. -/
def decode (malloc : Malloc) (payload : List UInt8) :
    Except Fault (Option LibCall) :=
  match payload with
  | [] => .error .outOfBounds
  | code :: _ =>
      match FunctionCode.ofByte? code with
      | some function => decodeFunction malloc function payload
      | none => .ok none

/-! ## The twelve branches: responses -/

/-- `response_payload = malloc(size)` and the stores into it; `none` when
`malloc` fails. -/
def fillResponse (malloc : Malloc) (size : SizeT)
    (copies : List (Copy UInt8)) : Except Fault (Option (List UInt8)) :=
  if malloc.serves size.toNat then
    match applyAll copies (freshBlock malloc.contents size.toNat) with
    | none => .error .outOfBounds
    | some response => .ok (some response)
  else
    .ok none

def intResponse (malloc : Malloc) (result : CInt) :
    Except Fault (Option (List UInt8)) :=
  fillResponse malloc 4 [memcpyWord 0 result]

def longResponse (malloc : Malloc) (result : BitVec 64) :
    Except Fault (Option (List UInt8)) :=
  fillResponse malloc 8 [memcpyWord 0 result]

/-- The descriptor that `OPEN` hands out for the one that `open` returned. -/
def handedOut (fildes : CInt) : CInt :=
  if 0 ≤ fildes.toInt then INT_MAX - fildes else fildes

def readResponse (bufMalloc malloc : Malloc) (nbyte : SizeT)
    (data : Option (ReadData nbyte)) : Except Fault (Option (List UInt8)) :=
  let fresh := freshBlock bufMalloc.contents nbyte.toNat
  let ioRetval : SsizeT :=
    match data with
    | none => -1
    | some data => BitVec.ofNat 64 data.bytes.length
  let buf :=
    match data with
    | none => fresh
    | some data => fillFront fresh data.bytes
  fillResponse malloc (8 + nbyte)
    [memcpyWord 0 ioRetval, memcpy 8 buf nbyte.toNat]

def statResponse (statMalloc malloc : Malloc) (data : Option StatBuf) :
    Except Fault (Option (List UInt8)) :=
  let errorCode : CInt :=
    match data with
    | none => -1
    | some _ => 0
  let statbuf :=
    match data with
    | none => freshBlock statMalloc.contents sizeofStat
    | some data => data.bytes
  fillResponse malloc (BitVec.ofNat 64 (4 + sizeofStat))
    [memcpyWord 0 errorCode, memcpy 4 statbuf sizeofStat]

/-- The response to a call that was made, `bufMalloc` being the allocation of
`buf` or `statbuf` and `malloc` that of `response_payload`. -/
def respond (bufMalloc malloc : Malloc) :
    (call : LibCall) → call.Reply → Except Fault (Option (List UInt8))
  | .openCall _ _ _, fildes => intResponse malloc (handedOut fildes)
  | .close _, errorCode => intResponse malloc errorCode
  | .read _ nbyte, data => readResponse bufMalloc malloc nbyte data
  | .write _ _, ioRetval => longResponse malloc ioRetval
  | .lseek _ _ _, resultingOffset => longResponse malloc resultingOffset
  | .truncate _ _, errorCode => intResponse malloc errorCode
  | .ftruncate _ _, errorCode => intResponse malloc errorCode
  | .stat _, data => statResponse bufMalloc malloc data
  | .fstat _, data => statResponse bufMalloc malloc data
  | .fsync _, errorCode => intResponse malloc errorCode
  | .rename _ _, errorCode => intResponse malloc errorCode
  | .unlink _, errorCode => intResponse malloc errorCode

/-- What a handler did: the file system call it made, the state of the
operating system after it, and the response it passes to `send`. -/
structure HandlerRun (σ : Type) where
  call : Option LibCall
  state : σ
  response : Option (List UInt8)

/-- `client_handler` up to the `send` of the response. -/
def clientHandler {σ : Type} (os : Os σ) (bufMalloc malloc : Malloc)
    (payload : List UInt8) (state : σ) : Except Fault (HandlerRun σ) := do
  match ← decode bufMalloc payload with
  | none => return ⟨none, state, none⟩
  | some call =>
      let answer := os.exec state call
      let response ← respond bufMalloc malloc call answer.1
      return ⟨some call, answer.2, response⟩

/-! ## Response buffers -/

theorem fillResponse_eq (malloc : Malloc) {size : SizeT}
    {copies : List (Copy UInt8)}
    (habut : Abutting 0 copies size.toNat) :
    fillResponse malloc size copies =
      .ok (if malloc.serves size.toNat then some (pieces copies)
        else none) := by
  rw [← freshBlock_length malloc.contents size.toNat] at habut
  unfold fillResponse
  split
  · rw [habut.applyAll_fill]
  · rfl

theorem readBuf_length (contents : ℕ → UInt8) (nbyte : SizeT)
    (data : Option (ReadData nbyte)) :
    (match data with
      | none => freshBlock contents nbyte.toNat
      | some data =>
          fillFront (freshBlock contents nbyte.toNat) data.bytes).length =
      nbyte.toNat := by
  cases data with
  | none => simp
  | some data =>
      have hfits : data.bytes.length ≤
          (freshBlock contents nbyte.toNat).length := by
        simpa using data.fits
      simpa using fillFront_length hfits

end TestRpc
