import TestRpc.LibcCalls
import TestRpc.BlockCopies

/-!
# Requests of the twelve stubs

Each stub of `rpc_stubs.c` that runs its call remotely fills a request buffer
`[payload size (8 bytes) || function code (1 byte) || arguments]` with
`memcpy`s at offsets that are sums written out by hand.  The buffers are
embedded here as the source builds them: the size arithmetic is that of
`size_t` and wraps, and every copy carries its own offset and count.
-/

namespace TestRpc

open LittleEndian BlockCopies

inductive Fault
  | outOfBounds
  | signedOverflow
  | missingArgument
  deriving DecidableEq

/-- `enum function`, the same in both programs. -/
inductive FunctionCode
  | OPEN
  | CLOSE
  | READ
  | WRITE
  | LSEEK
  | TRUNCATE
  | FTRUNCATE
  | STAT
  | FSTAT
  | FSYNC
  | RENAME
  | UNLINK
  deriving DecidableEq

def FunctionCode.byte : FunctionCode → UInt8
  | .OPEN => 0
  | .CLOSE => 1
  | .READ => 2
  | .WRITE => 3
  | .LSEEK => 4
  | .TRUNCATE => 5
  | .FTRUNCATE => 6
  | .STAT => 7
  | .FSTAT => 8
  | .FSYNC => 9
  | .RENAME => 10
  | .UNLINK => 11

/-! ## Request buffers -/

/-- A request buffer: the value of `request_payload_size`, the size of
`request_buf`, and the stores that fill it. -/
structure Request where
  requestPayloadSize : SizeT
  bufSize : SizeT
  copies : List (Copy UInt8)

/-- `memcpy(request_buf + target, source, count)` -/
def memcpy (target : ℕ) (source : List UInt8) (count : ℕ) : Copy UInt8 :=
  ⟨target, source, count⟩

/-- `memcpy(request_buf + target, &word, sizeof(word))` -/
def memcpyWord {n : ℕ} (target : ℕ) (word : BitVec n) : Copy UInt8 :=
  memcpy target (bytesOf word) (n / 8)

/-- `request_buf[target] = code` -/
def storeCode (target : ℕ) (code : FunctionCode) : Copy UInt8 :=
  memcpy target [code.byte] 1

/-- `path_size`: minus first 2 forward slashes plus null terminator. -/
def pathSize (path : CString) : SizeT :=
  strlen path - 1

def openRequest (path : CString) (oflag : CInt) (mode : ModeT) : Request :=
  let pathSize := pathSize path
  let requestPayloadSize :=
    if oflag = O_CREAT then 1 + pathSize + 4 + 4 else 1 + pathSize + 4
  { requestPayloadSize := requestPayloadSize
    bufSize := 8 + requestPayloadSize
    copies :=
      [memcpyWord 0 requestPayloadSize,
        storeCode 8 .OPEN,
        memcpy (8 + 1) (path.object.drop 2) pathSize.toNat,
        memcpyWord (8 + 1 + pathSize.toNat) oflag] ++
      if oflag = O_CREAT then
        [memcpyWord (8 + 1 + pathSize.toNat + 4) mode]
      else
        [] }

/-- The request of a stub whose only argument is a descriptor. -/
def fildesRequest (code : FunctionCode) (fildes : CInt) : Request :=
  let bufSize : SizeT := 8 + 1 + 4
  let requestPayloadSize := bufSize - 8
  { requestPayloadSize := requestPayloadSize
    bufSize := bufSize
    copies :=
      [memcpyWord 0 requestPayloadSize,
        storeCode 8 code,
        memcpyWord (8 + 1) fildes] }

def closeRequest (fildes : CInt) : Request :=
  fildesRequest .CLOSE fildes

def fildesLongRequest (code : FunctionCode) (fildes : CInt)
    (argument : BitVec 64) : Request :=
  let bufSize : SizeT := 8 + 1 + 4 + 8
  let requestPayloadSize := bufSize - 8
  { requestPayloadSize := requestPayloadSize
    bufSize := bufSize
    copies :=
      [memcpyWord 0 requestPayloadSize,
        storeCode 8 code,
        memcpyWord (8 + 1) fildes,
        memcpyWord (8 + 1 + 4) argument] }

def readRequest (fildes : CInt) (nbyte : SizeT) : Request :=
  fildesLongRequest .READ fildes nbyte

def writeRequest (fildes : CInt) (buf : List UInt8) (nbyte : SizeT) :
    Request :=
  let requestPayloadSize := 1 + 4 + nbyte + 8
  { requestPayloadSize := requestPayloadSize
    bufSize := 8 + requestPayloadSize
    copies :=
      [memcpyWord 0 requestPayloadSize,
        storeCode 8 .WRITE,
        memcpyWord (8 + 1) fildes,
        memcpy (8 + 1 + 4) buf nbyte.toNat,
        memcpyWord (8 + 1 + 4 + nbyte.toNat) nbyte] }

def lseekRequest (fildes : CInt) (offset : OffT) (whence : CInt) : Request :=
  let bufSize : SizeT := 8 + 1 + 4 + 8 + 4
  let requestPayloadSize := bufSize - 8
  { requestPayloadSize := requestPayloadSize
    bufSize := bufSize
    copies :=
      [memcpyWord 0 requestPayloadSize,
        storeCode 8 .LSEEK,
        memcpyWord (8 + 1) fildes,
        memcpyWord (8 + 1 + 4) offset,
        memcpyWord (8 + 1 + 4 + 8) whence] }

def truncateRequest (path : CString) (length : OffT) : Request :=
  let pathSize := pathSize path
  let requestPayloadSize := 1 + pathSize + 8
  { requestPayloadSize := requestPayloadSize
    bufSize := 8 + requestPayloadSize
    copies :=
      [memcpyWord 0 requestPayloadSize,
        storeCode 8 .TRUNCATE,
        memcpy (8 + 1) (path.object.drop 2) pathSize.toNat,
        memcpyWord (8 + 1 + pathSize.toNat) length] }

def ftruncateRequest (fildes : CInt) (length : OffT) : Request :=
  fildesLongRequest .FTRUNCATE fildes length

def pathRequest (code : FunctionCode) (path : CString) : Request :=
  let pathSize := pathSize path
  let requestPayloadSize := 1 + pathSize
  { requestPayloadSize := requestPayloadSize
    bufSize := 8 + requestPayloadSize
    copies :=
      [memcpyWord 0 requestPayloadSize,
        storeCode 8 code,
        memcpy (8 + 1) (path.object.drop 2) pathSize.toNat] }

def statRequest (path : CString) : Request :=
  pathRequest .STAT path

def fstatRequest (fildes : CInt) : Request :=
  fildesRequest .FSTAT fildes

def fsyncRequest (fildes : CInt) : Request :=
  fildesRequest .FSYNC fildes

def renameRequest (old new : CString) : Request :=
  let oldSize := pathSize old
  let newSize := pathSize new
  let requestPayloadSize := 1 + oldSize + newSize
  { requestPayloadSize := requestPayloadSize
    bufSize := 8 + requestPayloadSize
    copies :=
      [memcpyWord 0 requestPayloadSize,
        storeCode 8 .RENAME,
        memcpy (8 + 1) (old.object.drop 2) oldSize.toNat,
        memcpy (8 + 1 + oldSize.toNat) (new.object.drop 2) newSize.toNat] }

def unlinkRequest (path : CString) : Request :=
  pathRequest .UNLINK path

/-- `open`'s local variable `mode`: fetched by `va_arg` when
`oflag == O_CREAT`, and otherwise never looked at. -/
def vaMode (oflag : CInt) (mode : Option ModeT) : Except Fault ModeT :=
  if oflag = O_CREAT then
    match mode with
    | some mode => .ok mode
    | none => .error .missingArgument
  else
    .ok 0

def stubRequest : LibCall → Except Fault Request
  | .openCall path oflag mode => do
      let mode ← vaMode oflag mode
      return openRequest path oflag mode
  | .close fildes => .ok (closeRequest fildes)
  | .read fildes nbyte => .ok (readRequest fildes nbyte)
  | .write fildes buf =>
      .ok (writeRequest fildes buf (BitVec.ofNat 64 buf.length))
  | .lseek fildes offset whence => .ok (lseekRequest fildes offset whence)
  | .truncate path length => .ok (truncateRequest path length)
  | .ftruncate fildes length => .ok (ftruncateRequest fildes length)
  | .stat path => .ok (statRequest path)
  | .fstat fildes => .ok (fstatRequest fildes)
  | .fsync fildes => .ok (fsyncRequest fildes)
  | .rename old new => .ok (renameRequest old new)
  | .unlink path => .ok (unlinkRequest path)

def freshBlock (contents : ℕ → UInt8) (size : ℕ) : List UInt8 :=
  (List.range size).map contents

@[simp] theorem freshBlock_length (contents : ℕ → UInt8) (size : ℕ) :
    (freshBlock contents size).length = size := by
  simp [freshBlock]

/-- The bytes passed to `send`: the filled buffer, `sizeof(size_t) +
request_payload_size` bytes of it. -/
def Request.sent (request : Request) (contents : ℕ → UInt8) :
    Except Fault (List UInt8) :=
  match applyAll request.copies (freshBlock contents request.bufSize.toNat) with
  | none => .error .outOfBounds
  | some buffer =>
      if (8 + request.requestPayloadSize).toNat ≤ buffer.length then
        .ok (buffer.take (8 + request.requestPayloadSize).toNat)
      else
        .error .outOfBounds

/-! ## The wire format -/

def modeBytes : Option ModeT → List UInt8
  | none => []
  | some mode => bytesOf mode

/-- The payload of a request: `[function code (1 byte) || arguments]`. -/
def LibCall.payload : LibCall → List UInt8
  | .openCall path oflag mode =>
      FunctionCode.OPEN.byte ::
        (path.strip.object ++ bytesOf oflag ++ modeBytes mode)
  | .close fildes => FunctionCode.CLOSE.byte :: bytesOf fildes
  | .read fildes nbyte =>
      FunctionCode.READ.byte :: (bytesOf fildes ++ bytesOf nbyte)
  | .write fildes buf =>
      FunctionCode.WRITE.byte ::
        (bytesOf fildes ++ buf ++ bytesOf (BitVec.ofNat 64 buf.length))
  | .lseek fildes offset whence =>
      FunctionCode.LSEEK.byte ::
        (bytesOf fildes ++ bytesOf offset ++ bytesOf whence)
  | .truncate path length =>
      FunctionCode.TRUNCATE.byte :: (path.strip.object ++ bytesOf length)
  | .ftruncate fildes length =>
      FunctionCode.FTRUNCATE.byte :: (bytesOf fildes ++ bytesOf length)
  | .stat path => FunctionCode.STAT.byte :: path.strip.object
  | .fstat fildes => FunctionCode.FSTAT.byte :: bytesOf fildes
  | .fsync fildes => FunctionCode.FSYNC.byte :: bytesOf fildes
  | .rename old new =>
      FunctionCode.RENAME.byte :: (old.strip.object ++ new.strip.object)
  | .unlink path => FunctionCode.UNLINK.byte :: path.strip.object

/-- A request on the wire: `[payload size (8 bytes) || payload]`. -/
def requestBytes (payload : List UInt8) : List UInt8 :=
  bytesOf (BitVec.ofNat 64 payload.length : SizeT) ++ payload

/-- Every object of a process lies in its address space, which on x86-64 has
at most this many bytes. -/
def addressSpace : ℕ := 2 ^ 56

/-- The arguments with which a stub can be called for a remote run: remote
paths in the address space, a remote descriptor, a mode wherever
`oflag == O_CREAT`, and counts of at most `SSIZE_MAX`. -/
def LibCall.Sendable : LibCall → Prop
  | .openCall path oflag mode =>
      path.isRemote = true ∧ path.chars.length < addressSpace ∧
        (oflag = O_CREAT → mode.isSome = true)
  | .close fildes => isRemoteFildes fildes = true
  | .read fildes nbyte =>
      isRemoteFildes fildes = true ∧ nbyte.toNat ≤ SSIZE_MAX
  | .write fildes buf =>
      isRemoteFildes fildes = true ∧ buf.length ≤ SSIZE_MAX
  | .lseek fildes _ _ => isRemoteFildes fildes = true
  | .truncate path _ =>
      path.isRemote = true ∧ path.chars.length < addressSpace
  | .ftruncate fildes _ => isRemoteFildes fildes = true
  | .stat path => path.isRemote = true ∧ path.chars.length < addressSpace
  | .fstat fildes => isRemoteFildes fildes = true
  | .fsync fildes => isRemoteFildes fildes = true
  | .rename old new =>
      (old.isRemote = true ∧ old.chars.length < addressSpace) ∧
        new.isRemote = true ∧ new.chars.length < addressSpace
  | .unlink path => path.isRemote = true ∧ path.chars.length < addressSpace

/-- What a stub has to get right about its buffer: the stores fill it end to
end, its size is the payload size plus eight without any wrap, and it holds
the size followed by the payload. -/
structure Request.Encodes (request : Request) (payload : List UInt8) :
    Prop where
  abutting : Abutting 0 request.copies request.bufSize.toNat
  payloadSize : request.requestPayloadSize.toNat = payload.length
  bufSize : request.bufSize.toNat = 8 + payload.length
  pieces : BlockCopies.pieces request.copies =
    bytesOf request.requestPayloadSize ++ payload

/-! ## The stubs' buffers hold the wire format -/

theorem CString.object_drop_two {path : CString}
    (hremote : path.isRemote = true) :
    path.object.drop 2 = path.strip.object := by
  have hlength := CString.strip_length_of_remote hremote
  unfold CString.object CString.strip
  rw [List.drop_append_of_le_length (by omega)]

theorem CString.object_length (string : CString) :
    string.object.length = string.chars.length + 1 := by
  simp [CString.object]

theorem CString.strip_object_length {path : CString}
    (hremote : path.isRemote = true) :
    path.strip.object.length + 1 = path.chars.length := by
  have hlength := CString.strip_length_of_remote hremote
  rw [CString.object_length]
  omega

/-- `strlen(path) - 1` counts the stripped path with its NUL. -/
theorem pathSize_toNat {path : CString}
    (hremote : path.isRemote = true)
    (hfits : path.chars.length < addressSpace) :
    (pathSize path).toNat = path.strip.object.length := by
  have hlength := CString.strip_object_length hremote
  unfold addressSpace at hfits
  simp only [pathSize, strlen, BitVec.ofNat_eq_ofNat, BitVec.toNat_sub,
    BitVec.toNat_ofNat]
  omega

@[simp] theorem memcpyWord_piece {n : ℕ} (target : ℕ) (word : BitVec n) :
    (memcpyWord target word).piece = bytesOf word := by
  simp [memcpyWord, memcpy, Copy.piece]

@[simp] theorem storeCode_piece (target : ℕ) (code : FunctionCode) :
    (storeCode target code).piece = [code.byte] := rfl

@[simp] theorem memcpy_whole_piece (target : ℕ) (source : List UInt8) :
    (memcpy target source source.length).piece = source := by
  simp [memcpy, Copy.piece]

@[simp] theorem abutting_memcpyWord {n start stop target : ℕ}
    {word : BitVec n} {rest : List (Copy UInt8)} :
    Abutting start (memcpyWord target word :: rest) stop ↔
      target = start ∧ Abutting (start + n / 8) rest stop := by
  simp [Abutting, memcpyWord, memcpy]

@[simp] theorem abutting_storeCode {start stop target : ℕ}
    {code : FunctionCode} {rest : List (Copy UInt8)} :
    Abutting start (storeCode target code :: rest) stop ↔
      target = start ∧ Abutting (start + 1) rest stop := by
  simp [Abutting, storeCode, memcpy]

@[simp] theorem abutting_memcpy_whole {start stop target : ℕ}
    {source : List UInt8} {rest : List (Copy UInt8)} :
    Abutting start (memcpy target source source.length :: rest) stop ↔
      target = start ∧ Abutting (start + source.length) rest stop := by
  simp [Abutting, memcpy]

@[simp] theorem abutting_nil {start stop : ℕ} :
    Abutting start ([] : List (Copy UInt8)) stop ↔ start = stop := Iff.rfl

theorem toNat_add_of_lt {left right : SizeT}
    (hlt : left.toNat + right.toNat < 2 ^ 64) :
    (left + right).toNat = left.toNat + right.toNat := by
  rw [BitVec.toNat_add, Nat.mod_eq_of_lt hlt]

theorem fildesRequest_encodes (code : FunctionCode) (fildes : CInt) :
    (fildesRequest code fildes).Encodes (code.byte :: bytesOf fildes) := by
  constructor <;> simp [fildesRequest, BlockCopies.pieces]

theorem fildesLongRequest_encodes (code : FunctionCode) (fildes : CInt)
    (argument : BitVec 64) :
    (fildesLongRequest code fildes argument).Encodes
      (code.byte :: (bytesOf fildes ++ bytesOf argument)) := by
  constructor <;> simp [fildesLongRequest, BlockCopies.pieces]

theorem lseekRequest_encodes (fildes : CInt) (offset : OffT) (whence : CInt) :
    (lseekRequest fildes offset whence).Encodes
      (LibCall.lseek fildes offset whence).payload := by
  constructor <;>
    simp [lseekRequest, BlockCopies.pieces, LibCall.payload]

/-- A request on the heap, whose buffer is allocated with `sizeof(size_t) +
request_payload_size` bytes. -/
theorem encodes_of_malloc {request : Request} {payload : List UInt8}
    (hbuf : request.bufSize = 8 + request.requestPayloadSize)
    (hsize : request.requestPayloadSize.toNat = payload.length)
    (hfits : 8 + payload.length < 2 ^ 64)
    (habut : Abutting 0 request.copies (8 + payload.length))
    (hpieces : BlockCopies.pieces request.copies =
      bytesOf request.requestPayloadSize ++ payload) :
    request.Encodes payload := by
  have hbufSize : request.bufSize.toNat = 8 + payload.length := by
    rw [hbuf, toNat_add_of_lt, hsize]
    · rfl
    · rw [hsize]
      exact hfits
  exact ⟨by rw [hbufSize]; exact habut, hsize, hbufSize, hpieces⟩

theorem pathRequest_encodes (code : FunctionCode) {path : CString}
    (hremote : path.isRemote = true)
    (hfits : path.chars.length < addressSpace) :
    (pathRequest code path).Encodes (code.byte :: path.strip.object) := by
  have hsize := pathSize_toNat hremote hfits
  have hlength := CString.strip_object_length hremote
  have hobject := CString.object_drop_two hremote
  unfold addressSpace at hfits
  apply encodes_of_malloc rfl
  · simp only [pathRequest, BitVec.toNat_add, hsize, BitVec.ofNat_eq_ofNat,
      BitVec.toNat_ofNat, List.length_cons]
    omega
  · rw [List.length_cons]
    omega
  · simp only [pathRequest, hsize, hobject, abutting_memcpyWord,
      abutting_storeCode, abutting_memcpy_whole, abutting_nil, true_and,
      List.length_cons]
    omega
  · simp only [pathRequest, BlockCopies.pieces, hsize, hobject]
    simp

theorem truncateRequest_encodes {path : CString} (length : OffT)
    (hremote : path.isRemote = true)
    (hfits : path.chars.length < addressSpace) :
    (truncateRequest path length).Encodes
      (LibCall.truncate path length).payload := by
  have hsize := pathSize_toNat hremote hfits
  have hlength := CString.strip_object_length hremote
  have hobject := CString.object_drop_two hremote
  unfold addressSpace at hfits
  have hpayload : (LibCall.truncate path length).payload.length =
      path.strip.object.length + 9 := by
    simp [LibCall.payload]
  apply encodes_of_malloc rfl
  · simp only [truncateRequest, BitVec.toNat_add, hsize,
      BitVec.ofNat_eq_ofNat, BitVec.toNat_ofNat, hpayload]
    omega
  · omega
  · simp only [truncateRequest, hsize, hobject, abutting_memcpyWord,
      abutting_storeCode, abutting_memcpy_whole, abutting_nil, true_and,
      hpayload]
    omega
  · simp only [truncateRequest, BlockCopies.pieces, hsize, hobject]
    simp [LibCall.payload]

theorem writeRequest_encodes (fildes : CInt) {buf : List UInt8}
    (hcount : buf.length ≤ SSIZE_MAX) :
    (writeRequest fildes buf (BitVec.ofNat 64 buf.length)).Encodes
      (LibCall.write fildes buf).payload := by
  unfold SSIZE_MAX at hcount
  have hsize : (BitVec.ofNat 64 buf.length).toNat = buf.length := by
    rw [BitVec.toNat_ofNat]
    omega
  have hpayload : (LibCall.write fildes buf).payload.length =
      buf.length + 13 := by
    simp [LibCall.payload]
    omega
  apply encodes_of_malloc rfl
  · simp only [writeRequest, BitVec.toNat_add, hsize,
      BitVec.ofNat_eq_ofNat, BitVec.toNat_ofNat, hpayload]
    omega
  · omega
  · simp only [writeRequest, hsize, abutting_memcpyWord,
      abutting_storeCode, abutting_memcpy_whole, abutting_nil, true_and,
      hpayload]
    omega
  · simp only [writeRequest, BlockCopies.pieces, hsize]
    simp [LibCall.payload]

/-- `rename` sends of `new` what follows its first two characters, whatever
they are. -/
theorem renameRequest_encodes_object {old new : CString}
    (hold : old.isRemote = true) (holdFits : old.chars.length < addressSpace)
    (hnew : new.chars ≠ []) (hnewFits : new.chars.length < addressSpace) :
    (renameRequest old new).Encodes
      (FunctionCode.RENAME.byte ::
        (old.strip.object ++ new.object.drop 2)) := by
  have holdSize := pathSize_toNat hold holdFits
  have holdLength := CString.strip_object_length hold
  have holdObject := CString.object_drop_two hold
  have hnewPos := List.length_pos_of_ne_nil hnew
  unfold addressSpace at holdFits hnewFits
  have hnewLength : (new.object.drop 2).length + 1 = new.chars.length := by
    rw [List.length_drop, CString.object_length]
    omega
  have hnewSize : (pathSize new).toNat = (new.object.drop 2).length := by
    simp only [pathSize, strlen, BitVec.ofNat_eq_ofNat, BitVec.toNat_sub,
      BitVec.toNat_ofNat]
    omega
  have hpayload : (FunctionCode.RENAME.byte ::
      (old.strip.object ++ new.object.drop 2)).length =
        old.strip.object.length + (new.object.drop 2).length + 1 := by
    rw [List.length_cons, List.length_append]
  apply encodes_of_malloc rfl
  · simp only [renameRequest, BitVec.toNat_add, holdSize, hnewSize,
      BitVec.ofNat_eq_ofNat, BitVec.toNat_ofNat, hpayload]
    omega
  · omega
  · simp only [renameRequest, holdSize, hnewSize, holdObject,
      abutting_memcpyWord, abutting_storeCode, abutting_memcpy_whole,
      abutting_nil, true_and, hpayload]
    omega
  · simp only [renameRequest, BlockCopies.pieces, holdSize, hnewSize,
      holdObject, List.flatMap_cons, List.flatMap_nil, memcpyWord_piece,
      storeCode_piece, memcpy_whole_piece]
    simp

/-- The size of an empty `new` wraps around, and the copy of `new` then runs
out of its string. -/
theorem renameRequest_sent_empty (old : CString) {new : CString}
    (hnew : new.chars = []) (contents : ℕ → UInt8) :
    (pathSize new).toNat = 2 ^ 64 - 1 ∧
      (renameRequest old new).sent contents = .error .outOfBounds := by
  have hsize : (pathSize new).toNat = 2 ^ 64 - 1 := by
    rw [pathSize, strlen, hnew]
    rfl
  refine ⟨hsize, ?_⟩
  have hmem : memcpy (8 + 1 + (pathSize old).toNat) (new.object.drop 2)
      (pathSize new).toNat ∈ (renameRequest old new).copies := by
    simp [renameRequest]
  have hshort : (new.object.drop 2).length < (pathSize new).toNat := by
    rw [hsize, CString.object, hnew]
    decide
  rw [Request.sent, applyAll_eq_none hmem hshort]

theorem CString.chars_ne_nil_of_remote {path : CString}
    (hremote : path.isRemote = true) :
    path.chars ≠ [] := by
  obtain ⟨rest, hrest⟩ := path.isRemote_iff.mp hremote
  simp [hrest]

theorem renameRequest_encodes {old new : CString}
    (hold : old.isRemote = true) (holdFits : old.chars.length < addressSpace)
    (hnew : new.isRemote = true) (hnewFits : new.chars.length < addressSpace) :
    (renameRequest old new).Encodes (LibCall.rename old new).payload := by
  have hencodes := renameRequest_encodes_object hold holdFits
    (CString.chars_ne_nil_of_remote hnew) hnewFits
  rwa [CString.object_drop_two hnew] at hencodes

theorem openRequest_encodes {path : CString} (oflag : CInt) (mode : ModeT)
    (hremote : path.isRemote = true)
    (hfits : path.chars.length < addressSpace) :
    (openRequest path oflag mode).Encodes
      (LibCall.openCall path oflag
        (if oflag = O_CREAT then some mode else none)).payload := by
  have hsize := pathSize_toNat hremote hfits
  have hlength := CString.strip_object_length hremote
  have hobject := CString.object_drop_two hremote
  unfold addressSpace at hfits
  by_cases hcreat : oflag = O_CREAT
  · have hpayload : (LibCall.openCall path oflag (some mode)).payload.length =
        path.strip.object.length + 9 := by
      simp [LibCall.payload, modeBytes]
    simp only [hcreat, if_true] at hpayload ⊢
    apply encodes_of_malloc rfl
    · simp only [openRequest, if_true, BitVec.toNat_add, hsize,
        BitVec.ofNat_eq_ofNat, BitVec.toNat_ofNat, hpayload]
      omega
    · omega
    · simp only [openRequest, if_true, hsize, hobject, List.cons_append,
        List.nil_append, abutting_memcpyWord, abutting_storeCode,
        abutting_memcpy_whole, abutting_nil, true_and, hpayload]
      omega
    · simp only [openRequest, if_true, BlockCopies.pieces, hsize, hobject]
      simp [LibCall.payload, modeBytes]
  · have hpayload : (LibCall.openCall path oflag none).payload.length =
        path.strip.object.length + 5 := by
      simp [LibCall.payload, modeBytes]
    simp only [hcreat, if_false]
    apply encodes_of_malloc rfl
    · simp only [openRequest, hcreat, if_false, BitVec.toNat_add, hsize,
        BitVec.ofNat_eq_ofNat, BitVec.toNat_ofNat, hpayload]
      omega
    · omega
    · simp only [openRequest, hcreat, if_false, hsize, hobject,
        List.append_nil, abutting_memcpyWord, abutting_storeCode,
        abutting_memcpy_whole, abutting_nil, true_and, hpayload]
      omega
    · simp only [openRequest, hcreat, if_false, BlockCopies.pieces, hsize,
        hobject]
      simp [LibCall.payload, modeBytes]

theorem stubRequest_encodes {call : LibCall} (hsend : call.Sendable) :
    ∃ request, stubRequest call = .ok request ∧
      request.Encodes call.transmitted.payload := by
  cases call with
  | openCall path oflag mode =>
      obtain ⟨hremote, hfits, hmode⟩ := hsend
      by_cases hcreat : oflag = O_CREAT
      · obtain ⟨given, rfl⟩ := Option.isSome_iff_exists.mp (hmode hcreat)
        refine ⟨openRequest path oflag given, ?_, ?_⟩
        · simp [stubRequest, vaMode, hcreat, pure, Except.pure, bind,
            Except.bind]
        · have hencodes := openRequest_encodes oflag given hremote hfits
          simpa [LibCall.transmitted, hcreat] using hencodes
      · refine ⟨openRequest path oflag 0, ?_, ?_⟩
        · simp [stubRequest, vaMode, hcreat, pure, Except.pure, bind,
            Except.bind]
        · have hencodes := openRequest_encodes oflag 0 hremote hfits
          simpa [LibCall.transmitted, hcreat] using hencodes
  | close fildes => exact ⟨_, rfl, fildesRequest_encodes .CLOSE fildes⟩
  | read fildes nbyte =>
      exact ⟨_, rfl, fildesLongRequest_encodes .READ fildes nbyte⟩
  | write fildes buf =>
      exact ⟨_, rfl, writeRequest_encodes fildes hsend.2⟩
  | lseek fildes offset whence =>
      exact ⟨_, rfl, lseekRequest_encodes fildes offset whence⟩
  | truncate path length =>
      exact ⟨_, rfl, truncateRequest_encodes length hsend.1 hsend.2⟩
  | ftruncate fildes length =>
      exact ⟨_, rfl, fildesLongRequest_encodes .FTRUNCATE fildes length⟩
  | stat path =>
      exact ⟨_, rfl, pathRequest_encodes .STAT hsend.1 hsend.2⟩
  | fstat fildes => exact ⟨_, rfl, fildesRequest_encodes .FSTAT fildes⟩
  | fsync fildes => exact ⟨_, rfl, fildesRequest_encodes .FSYNC fildes⟩
  | rename old new =>
      obtain ⟨⟨hold, holdFits⟩, hnew, hnewFits⟩ := hsend
      exact ⟨_, rfl, renameRequest_encodes hold holdFits hnew hnewFits⟩
  | unlink path =>
      exact ⟨_, rfl, pathRequest_encodes .UNLINK hsend.1 hsend.2⟩

theorem Request.Encodes.sent_eq {request : Request} {payload : List UInt8}
    (hencodes : request.Encodes payload) (contents : ℕ → UInt8) :
    request.sent contents =
      .ok (bytesOf request.requestPayloadSize ++ payload) := by
  have hfill := hencodes.abutting
  rw [← freshBlock_length contents request.bufSize.toNat] at hfill
  have hsend : (8 + request.requestPayloadSize).toNat = 8 + payload.length := by
    have hlt := request.bufSize.isLt
    rw [hencodes.bufSize] at hlt
    rw [toNat_add_of_lt, hencodes.payloadSize]
    · rfl
    · rw [hencodes.payloadSize]
      exact hlt
  have hlength : (bytesOf request.requestPayloadSize ++ payload).length =
      8 + payload.length := by
    simp
  unfold Request.sent
  rw [hfill.applyAll_fill, hencodes.pieces]
  simp only [hsend, hlength, le_refl, if_true]
  rw [← hlength, List.take_length]

theorem Request.Encodes.sent_requestBytes
    {request : Request} {payload : List UInt8}
    (hencodes : request.Encodes payload) (contents : ℕ → UInt8) :
    request.sent contents = .ok (requestBytes payload) := by
  have hsize : request.requestPayloadSize = BitVec.ofNat 64 payload.length := by
    rw [← hencodes.payloadSize, BitVec.ofNat_toNat, BitVec.setWidth_eq]
  rw [hencodes.sent_eq, requestBytes, hsize]

end TestRpc
