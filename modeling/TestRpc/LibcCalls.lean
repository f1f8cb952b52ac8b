import TestRpc.LittleEndian
import TestRpc.StreamReceive

/-!
# The twelve file calls

The data that `rpc_stubs.c` and `server.c` handle: C integers at their sizes
on 64-bit Linux, NUL-terminated strings, the twelve library calls with their
arguments, and what each of them returns and stores.  An operating system is
an arbitrary state machine for the twelve calls.
-/

namespace TestRpc

open StreamReceive

/-! ## C data -/

abbrev CInt := BitVec 32
abbrev ModeT := BitVec 32
abbrev SizeT := BitVec 64
abbrev SsizeT := BitVec 64
abbrev OffT := BitVec 64

def INT_MAX : CInt := 0x7fffffff

def O_CREAT : CInt := 0x40

/-- `O_TMPFILE`, with the bit of `O_DIRECTORY` in it. -/
def O_TMPFILE : CInt := 0x410000

/-- Whether `open` has a third argument with these flags, by the test that
`<fcntl.h>` makes on Linux. -/
def needsMode (oflag : CInt) : Bool :=
  oflag &&& O_CREAT != 0 || oflag &&& O_TMPFILE == O_TMPFILE

def SSIZE_MAX : ℕ := 2 ^ 63 - 1

/-- `sizeof(struct stat)` on x86-64 Linux. -/
def sizeofStat : ℕ := 144

def slash : UInt8 := 0x2f

/-- A NUL-terminated string, without its NUL. -/
structure CString where
  chars : List UInt8
  noNul : 0 ∉ chars
  deriving DecidableEq

/-- The bytes of a string in memory, up to and including its NUL. -/
def CString.object (string : CString) : List UInt8 :=
  string.chars ++ [0]

def strlen (string : CString) : SizeT :=
  BitVec.ofNat 64 string.chars.length

/-- `path[0] == '/' && path[1] == '/'` -/
def CString.isRemote (path : CString) : Bool :=
  path.object.getD 0 0 == slash && path.object.getD 1 0 == slash

/-- `path + 2` -/
def CString.strip (path : CString) : CString where
  chars := path.chars.drop 2
  noNul := fun hmem => path.noNul (List.mem_of_mem_drop hmem)

/-- `fildes > INT_MAX / 2` -/
def isRemoteFildes (fildes : CInt) : Bool :=
  decide (INT_MAX.toInt / 2 < fildes.toInt)

structure StatBuf where
  bytes : List UInt8
  size : bytes.length = sizeofStat
  deriving DecidableEq

/-- The bytes that a successful `read` of at most `nbyte` bytes stores. -/
structure ReadData (nbyte : SizeT) where
  bytes : List UInt8
  fits : bytes.length ≤ nbyte.toNat
  countable : bytes.length ≤ SSIZE_MAX

/-! ## Calls and their results -/

/-- A call of one of the twelve functions.  `mode` is `open`'s third argument
where one is given; `write`'s `nbyte` is the length of `buf`. -/
inductive LibCall
  | openCall (path : CString) (oflag : CInt) (mode : Option ModeT)
  | close (fildes : CInt)
  | read (fildes : CInt) (nbyte : SizeT)
  | write (fildes : CInt) (buf : List UInt8)
  | lseek (fildes : CInt) (offset : OffT) (whence : CInt)
  | truncate (path : CString) (length : OffT)
  | ftruncate (fildes : CInt) (length : OffT)
  | stat (path : CString)
  | fstat (fildes : CInt)
  | fsync (fildes : CInt)
  | rename (old new : CString)
  | unlink (path : CString)
  deriving DecidableEq

/-- What the operating system answers: the data of `read`, `stat` and `fstat`
with `none` for their result `-1`, and the plain result of the others. -/
def LibCall.Reply : LibCall → Type
  | .openCall _ _ _ => CInt
  | .close _ => CInt
  | .read _ nbyte => Option (ReadData nbyte)
  | .write _ _ => SsizeT
  | .lseek _ _ _ => OffT
  | .truncate _ _ => CInt
  | .ftruncate _ _ => CInt
  | .stat _ => Option StatBuf
  | .fstat _ => Option StatBuf
  | .fsync _ => CInt
  | .rename _ _ => CInt
  | .unlink _ => CInt

/-- An operating system: an arbitrary state machine for the twelve calls. -/
structure Os (σ : Type) where
  exec : σ → (call : LibCall) → call.Reply × σ

def failingOs : Os Unit where
  exec := fun state call =>
    (match call with
      | .openCall _ _ _ | .close _ | .truncate _ _ | .ftruncate _ _
      | .fsync _ | .rename _ _ | .unlink _ => (-1 : BitVec 32)
      | .write _ _ | .lseek _ _ _ => (-1 : BitVec 64)
      | .read _ _ | .stat _ | .fstat _ => none, state)

/-- What a caller sees of a call: the value returned and, for `read`, `stat`
and `fstat`, the contents of `buf` or `statbuf` afterwards. -/
structure Outcome where
  ret : ℤ
  memory : List UInt8
  deriving DecidableEq

def LibCall.memorySize : LibCall → ℕ
  | .read _ nbyte => nbyte.toNat
  | .stat _ => sizeofStat
  | .fstat _ => sizeofStat
  | _ => 0

def intOutcome (result : CInt) (memory : List UInt8) : Outcome :=
  ⟨result.toInt, memory⟩

def longOutcome (result : BitVec 64) (memory : List UInt8) : Outcome :=
  ⟨result.toInt, memory⟩

/-- The real library function's return value and stores for a reply. -/
def LibCall.outcome : (call : LibCall) → call.Reply → List UInt8 → Outcome
  | .openCall _ _ _, fildes, memory => intOutcome fildes memory
  | .close _, result, memory => intOutcome result memory
  | .read _ _, none, memory => ⟨-1, memory⟩
  | .read _ _, some data, memory =>
      ⟨data.bytes.length, fillFront memory data.bytes⟩
  | .write _ _, result, memory => longOutcome result memory
  | .lseek _ _ _, result, memory => longOutcome result memory
  | .truncate _ _, result, memory => intOutcome result memory
  | .ftruncate _ _, result, memory => intOutcome result memory
  | .stat _, none, memory => ⟨-1, memory⟩
  | .stat _, some statbuf, _ => ⟨0, statbuf.bytes⟩
  | .fstat _, none, memory => ⟨-1, memory⟩
  | .fstat _, some statbuf, _ => ⟨0, statbuf.bytes⟩
  | .fsync _, result, memory => intOutcome result memory
  | .rename _ _, result, memory => intOutcome result memory
  | .unlink _, result, memory => intOutcome result memory

/-! ## Routing -/

/-- The test by which each stub decides to run the call remotely. -/
def LibCall.isRemote : LibCall → Bool
  | .openCall path _ _ => path.isRemote
  | .close fildes => isRemoteFildes fildes
  | .read fildes _ => isRemoteFildes fildes
  | .write fildes _ => isRemoteFildes fildes
  | .lseek fildes _ _ => isRemoteFildes fildes
  | .truncate path _ => path.isRemote
  | .ftruncate fildes _ => isRemoteFildes fildes
  | .stat path => path.isRemote
  | .fstat fildes => isRemoteFildes fildes
  | .fsync fildes => isRemoteFildes fildes
  | .rename old _ => old.isRemote
  | .unlink path => path.isRemote

def LibCall.fildes? : LibCall → Option CInt
  | .close fildes => some fildes
  | .read fildes _ => some fildes
  | .write fildes _ => some fildes
  | .lseek fildes _ _ => some fildes
  | .ftruncate fildes _ => some fildes
  | .fstat fildes => some fildes
  | .fsync fildes => some fildes
  | _ => none

/-- The same call on the server: each path without its leading `"//"` and each
descriptor `h` replaced by `INT_MAX - h`. -/
def LibCall.onServer : LibCall → LibCall
  | .openCall path oflag mode => .openCall path.strip oflag mode
  | .close fildes => .close (INT_MAX - fildes)
  | .read fildes nbyte => .read (INT_MAX - fildes) nbyte
  | .write fildes buf => .write (INT_MAX - fildes) buf
  | .lseek fildes offset whence => .lseek (INT_MAX - fildes) offset whence
  | .truncate path length => .truncate path.strip length
  | .ftruncate fildes length => .ftruncate (INT_MAX - fildes) length
  | .stat path => .stat path.strip
  | .fstat fildes => .fstat (INT_MAX - fildes)
  | .fsync fildes => .fsync (INT_MAX - fildes)
  | .rename old new => .rename old.strip new.strip
  | .unlink path => .unlink path.strip

/-- The call with the arguments that a stub looks at: `open`'s mode is looked
at exactly when `oflag == O_CREAT`. -/
def LibCall.transmitted : LibCall → LibCall
  | .openCall path oflag mode =>
      .openCall path oflag (if oflag = O_CREAT then mode else none)
  | call => call

/-- The call with the arguments that the library function itself looks at:
`open` looks at its mode where the flags need one. -/
def LibCall.effective : LibCall → LibCall
  | .openCall path oflag mode =>
      .openCall path oflag (if needsMode oflag then mode else none)
  | call => call

/-- An `open` of an unnamed temporary file. -/
def LibCall.makesTmpfile : LibCall → Bool
  | .openCall _ oflag _ => oflag &&& O_TMPFILE == O_TMPFILE
  | _ => false

/-! ## Descriptors and strings -/

theorem isRemoteFildes_iff (fildes : CInt) :
    isRemoteFildes fildes = true ↔
      1073741823 < fildes.toNat ∧ fildes.toNat < 2 ^ 31 := by
  have hmax : INT_MAX.toInt / 2 = 1073741823 := by decide
  have hlt := fildes.isLt
  rw [isRemoteFildes, hmax, decide_eq_true_eq, BitVec.toInt_eq_toNat_cond]
  split <;> omega

theorem CString.isRemote_iff (path : CString) :
    path.isRemote = true ↔
      ∃ rest, path.chars = slash :: slash :: rest := by
  obtain ⟨chars, hnul⟩ := path
  rcases chars with _ | ⟨a, _ | ⟨b, rest⟩⟩
  · simp [CString.isRemote, CString.object, slash]
  · simp [CString.isRemote, CString.object, slash]
  · simp [CString.isRemote, CString.object]

theorem CString.strip_length_of_remote {path : CString}
    (hremote : path.isRemote = true) :
    path.strip.chars.length + 2 = path.chars.length := by
  obtain ⟨rest, hrest⟩ := path.isRemote_iff.mp hremote
  simp [CString.strip, hrest]

end TestRpc
