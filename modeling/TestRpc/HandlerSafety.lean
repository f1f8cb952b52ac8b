import TestRpc.RequestRoundTrip

/-!
# Safety of the handler on arbitrary payloads

Nothing obliges a peer to send what a stub would send.  This module finds the
payloads on which `client_handler` is safe: those whose every field lies
inside the payload, whose descriptor is not negative and, for `WRITE`, whose
count does not exceed the bytes that came with it.  The handler checks none of
this, so on every other payload it faults.
-/

namespace TestRpc

open LittleEndian BlockCopies StreamReceive

/-! ## Computations without a fault -/

def Succeeds {α : Type} (computation : Except Fault α) : Prop :=
  ∃ value, computation = .ok value

@[simp] theorem succeeds_ok {α : Type} (value : α) :
    Succeeds (.ok value : Except Fault α) :=
  ⟨value, rfl⟩

@[simp] theorem not_succeeds_error {α : Type} (fault : Fault) :
    ¬Succeeds (.error fault : Except Fault α) := by
  rintro ⟨value, hvalue⟩
  cases hvalue

@[simp] theorem succeeds_pure {α : Type} (value : α) :
    Succeeds (pure value : Except Fault α) :=
  ⟨value, rfl⟩

@[simp] theorem not_succeeds_throw {α : Type} (fault : Fault) :
    ¬Succeeds (throw fault : Except Fault α) :=
  not_succeeds_error fault

theorem bind_eq_ok {α β : Type} {computation : Except Fault α}
    {next : α → Except Fault β} {result : β} :
    (computation >>= next) = .ok result ↔
      ∃ value, computation = .ok value ∧ next value = .ok result := by
  cases computation with
  | error fault =>
      constructor
      · intro hbind
        cases hbind
      · rintro ⟨value, hvalue, _⟩
        cases hvalue
  | ok value =>
      constructor
      · intro hbind
        exact ⟨value, rfl, hbind⟩
      · rintro ⟨_, hvalue, hnext⟩
        cases hvalue
        exact hnext

@[simp] theorem succeeds_bind {α β : Type} {computation : Except Fault α}
    {next : α → Except Fault β} :
    Succeeds (computation >>= next) ↔
      ∃ value, computation = .ok value ∧ Succeeds (next value) := by
  unfold Succeeds
  simp only [bind_eq_ok]
  constructor
  · rintro ⟨result, value, hvalue, hnext⟩
    exact ⟨value, hvalue, result, hnext⟩
  · rintro ⟨value, hvalue, result, hnext⟩
    exact ⟨result, value, hvalue, hnext⟩

/-! ## Fields of a payload -/

def field (n : ℕ) (payload : List UInt8) (offset : ℕ) : BitVec n :=
  wordOf n ((payload.drop offset).take (n / 8))

theorem readAt_eq_ok {payload bytes : List UInt8} {offset count : ℕ} :
    readAt payload offset count = .ok bytes ↔
      offset + count ≤ payload.length ∧
        (payload.drop offset).take count = bytes := by
  unfold readAt
  by_cases hbound : offset + count ≤ payload.length <;> simp [hbound]

theorem wordAt_eq_ok {n offset : ℕ} {payload : List UInt8} {word : BitVec n} :
    wordAt n payload offset = .ok word ↔
      offset + n / 8 ≤ payload.length ∧ field n payload offset = word := by
  unfold wordAt readAt
  by_cases hbound : offset + n / 8 ≤ payload.length <;> simp [hbound, field]

theorem stringAt_eq_ok {payload : List UInt8} {offset : ℕ}
    {string : CString} :
    stringAt payload offset = .ok string ↔
      scan (payload.drop offset) = some string := by
  unfold stringAt
  cases scan (payload.drop offset) <;> simp

theorem intMaxMinus_eq_ok_iff {fildes difference : CInt} :
    intMaxMinus fildes = .ok difference ↔
      0 ≤ fildes.toInt ∧ INT_MAX - fildes = difference := by
  have hsign : 0 ≤ fildes.toInt ↔ fildes.toNat < 2 ^ 31 := by
    have hlt := fildes.isLt
    rw [BitVec.toInt_eq_toNat_cond]
    split <;> omega
  by_cases hnonneg : fildes.toNat < 2 ^ 31
  · simp [intMaxMinus_eq_ok hnonneg, hsign.mpr hnonneg]
  · have hnegative : ¬0 ≤ fildes.toInt := fun hint => hnonneg (hsign.mp hint)
    simp [intMaxMinus_eq_error (Nat.le_of_not_lt hnonneg), hnegative]

/-! ## Well-formed payloads -/

/-- A descriptor behind the function code, with `count` bytes of further
arguments behind it. -/
def WellFormedFildes (payload : List UInt8) (count : ℕ) : Prop :=
  1 + 4 + count ≤ payload.length ∧ 0 ≤ (field 32 payload 1).toInt

/-- `WRITE`: the count at the end of the payload does not exceed the bytes
between the descriptor and the count. -/
def WellFormedWrite (payload : List UInt8) : Prop :=
  (field 64 payload (payload.length - 8)).toNat + 13 ≤ payload.length ∧
    0 ≤ (field 32 payload 1).toInt

/-- The payloads that a branch of the handler takes apart without leaving
them, given what `malloc` can serve for `buf` or `statbuf`.  Where that
allocation fails, the handler leaves before it looks at the rest of the
arguments. -/
def WellFormedFor (malloc : Malloc) (payload : List UInt8) :
    FunctionCode → Prop
  | .OPEN =>
      ∃ path, scan (payload.drop 1) = some path ∧
        1 + (path.chars.length + 1) + 4 ≤ payload.length ∧
        (field 32 payload (1 + (path.chars.length + 1)) = O_CREAT →
          1 + (path.chars.length + 1) + 4 + 4 ≤ payload.length)
  | .CLOSE => WellFormedFildes payload 0
  | .READ =>
      13 ≤ payload.length ∧
        (malloc.serves (field 64 payload 5).toNat = true →
          WellFormedFildes payload 8)
  | .WRITE =>
      8 ≤ payload.length ∧
        (malloc.serves (payload.length - 13) = true → 13 ≤ payload.length →
          WellFormedWrite payload)
  | .LSEEK => WellFormedFildes payload 12
  | .TRUNCATE =>
      ∃ path, scan (payload.drop 1) = some path ∧
        1 + (path.chars.length + 1) + 8 ≤ payload.length
  | .FTRUNCATE => WellFormedFildes payload 8
  | .STAT =>
      malloc.serves sizeofStat = true →
        ∃ path, scan (payload.drop 1) = some path
  | .FSTAT =>
      5 ≤ payload.length ∧
        (malloc.serves sizeofStat = true → WellFormedFildes payload 0)
  | .FSYNC => WellFormedFildes payload 0
  | .RENAME =>
      ∃ old, scan (payload.drop 1) = some old ∧
        ∃ new, scan (payload.drop (1 + old.chars.length + 1)) = some new
  | .UNLINK => ∃ path, scan (payload.drop 1) = some path

def WellFormed (malloc : Malloc) (payload : List UInt8) : Prop :=
  match payload with
  | [] => False
  | code :: _ =>
      match FunctionCode.ofByte? code with
      | none => True
      | some function => WellFormedFor malloc payload function

theorem succeeds_decodeOpen_iff (malloc : Malloc) (payload : List UInt8) :
    Succeeds (decodeOpen payload) ↔
      WellFormedFor malloc payload .OPEN := by
  simp only [decodeOpen, WellFormedFor, succeeds_bind, stringAt_eq_ok,
    wordAt_eq_ok]
  constructor
  · rintro ⟨path, hpath, oflag, ⟨hbound, rfl⟩, hrest⟩
    refine ⟨path, hpath, by simpa using hbound, ?_⟩
    intro hcreat
    simp only [hcreat, if_true, succeeds_bind, wordAt_eq_ok] at hrest
    obtain ⟨mode, ⟨hmode, _⟩, _⟩ := hrest
    simpa using hmode
  · rintro ⟨path, hpath, hbound, hmode⟩
    refine ⟨path, hpath, _, ⟨by simpa using hbound, rfl⟩, ?_⟩
    split
    · rename_i hcreat
      simp only [succeeds_bind, wordAt_eq_ok]
      exact ⟨_, ⟨by simpa using hmode hcreat, rfl⟩, succeeds_pure _⟩
    · exact succeeds_pure _

theorem succeeds_fildes_iff {payload : List UInt8}
    {next : CInt → CInt → Except Fault (Option LibCall)}
    (hnext : ∀ fildes difference, Succeeds (next fildes difference)) :
    Succeeds (do
        let fildes ← wordAt 32 payload 1
        let difference ← intMaxMinus fildes
        next fildes difference) ↔
      WellFormedFildes payload 0 := by
  simp only [succeeds_bind, wordAt_eq_ok, intMaxMinus_eq_ok_iff]
  constructor
  · rintro ⟨fildes, ⟨hbound, rfl⟩, _, ⟨hsign, _⟩, _⟩
    exact ⟨by simpa using hbound, hsign⟩
  · rintro ⟨hbound, hsign⟩
    exact ⟨_, ⟨by simpa using hbound, rfl⟩, _, ⟨hsign, rfl⟩, hnext _ _⟩

theorem succeeds_decodeClose_iff (payload : List UInt8) :
    Succeeds (decodeClose payload) ↔ WellFormedFildes payload 0 :=
  succeeds_fildes_iff fun _ _ => succeeds_pure _

theorem succeeds_decodeFsync_iff (payload : List UInt8) :
    Succeeds (decodeFsync payload) ↔ WellFormedFildes payload 0 :=
  succeeds_fildes_iff fun _ _ => succeeds_pure _

theorem succeeds_decodeRead_iff (malloc : Malloc) (payload : List UInt8) :
    Succeeds (decodeRead malloc payload) ↔
      WellFormedFor malloc payload .READ := by
  simp only [decodeRead, WellFormedFor, succeeds_bind, wordAt_eq_ok]
  constructor
  · rintro ⟨fildes, ⟨_, rfl⟩, nbyte, ⟨hbound, rfl⟩, hrest⟩
    refine ⟨by omega, ?_⟩
    intro hserves
    simp only [hserves, if_true, succeeds_bind, intMaxMinus_eq_ok_iff]
      at hrest
    obtain ⟨_, ⟨hsign, _⟩, _⟩ := hrest
    exact ⟨by omega, hsign⟩
  · rintro ⟨hbound, hserved⟩
    refine ⟨_, ⟨by omega, rfl⟩, _, ⟨by omega, rfl⟩, ?_⟩
    split
    · rename_i hserves
      simp only [succeeds_bind, intMaxMinus_eq_ok_iff]
      exact ⟨_, ⟨(hserved hserves).2, rfl⟩, succeeds_pure _⟩
    · exact succeeds_pure _

theorem succeeds_decodeLseek_iff (payload : List UInt8) :
    Succeeds (decodeLseek payload) ↔ WellFormedFildes payload 12 := by
  simp only [decodeLseek, succeeds_bind, wordAt_eq_ok, intMaxMinus_eq_ok_iff]
  constructor
  · rintro ⟨_, ⟨_, rfl⟩, _, _, _, ⟨hbound, _⟩, _, ⟨hsign, _⟩, _⟩
    exact ⟨by omega, hsign⟩
  · rintro ⟨hbound, hsign⟩
    exact ⟨_, ⟨by omega, rfl⟩, _, ⟨by omega, rfl⟩, _, ⟨by omega, rfl⟩, _,
      ⟨hsign, rfl⟩, succeeds_pure _⟩

theorem succeeds_decodeFtruncate_iff (payload : List UInt8) :
    Succeeds (decodeFtruncate payload) ↔ WellFormedFildes payload 8 := by
  simp only [decodeFtruncate, succeeds_bind, wordAt_eq_ok,
    intMaxMinus_eq_ok_iff]
  constructor
  · rintro ⟨_, ⟨_, rfl⟩, _, ⟨hbound, _⟩, _, ⟨hsign, _⟩, _⟩
    exact ⟨by omega, hsign⟩
  · rintro ⟨hbound, hsign⟩
    exact ⟨_, ⟨by omega, rfl⟩, _, ⟨by omega, rfl⟩, _, ⟨hsign, rfl⟩,
      succeeds_pure _⟩

theorem succeeds_decodeTruncate_iff (malloc : Malloc)
    (payload : List UInt8) :
    Succeeds (decodeTruncate payload) ↔
      WellFormedFor malloc payload .TRUNCATE := by
  simp only [decodeTruncate, WellFormedFor, succeeds_bind, stringAt_eq_ok,
    wordAt_eq_ok]
  constructor
  · rintro ⟨path, hpath, _, ⟨hbound, _⟩, _⟩
    exact ⟨path, hpath, hbound⟩
  · rintro ⟨path, hpath, hbound⟩
    exact ⟨path, hpath, _, ⟨hbound, rfl⟩, succeeds_pure _⟩

theorem succeeds_decodeStat_iff (malloc : Malloc) (payload : List UInt8) :
    Succeeds (decodeStat malloc payload) ↔
      WellFormedFor malloc payload .STAT := by
  unfold decodeStat WellFormedFor
  cases malloc.serves sizeofStat with
  | false => simp
  | true =>
      simp only [if_true, succeeds_bind, stringAt_eq_ok, succeeds_pure,
        and_true, true_implies]

theorem succeeds_decodeFstat_iff (malloc : Malloc) (payload : List UInt8) :
    Succeeds (decodeFstat malloc payload) ↔
      WellFormedFor malloc payload .FSTAT := by
  simp only [decodeFstat, WellFormedFor, succeeds_bind, wordAt_eq_ok]
  constructor
  · rintro ⟨fildes, ⟨hbound, rfl⟩, hrest⟩
    refine ⟨by omega, ?_⟩
    intro hserves
    simp only [hserves, if_true, succeeds_bind, intMaxMinus_eq_ok_iff]
      at hrest
    obtain ⟨_, ⟨hsign, _⟩, _⟩ := hrest
    exact ⟨by omega, hsign⟩
  · rintro ⟨hbound, hserved⟩
    refine ⟨_, ⟨by omega, rfl⟩, ?_⟩
    split
    · rename_i hserves
      simp only [succeeds_bind, intMaxMinus_eq_ok_iff]
      exact ⟨_, ⟨(hserved hserves).2, rfl⟩, succeeds_pure _⟩
    · exact succeeds_pure _

theorem succeeds_decodeRename_iff (malloc : Malloc) (payload : List UInt8) :
    Succeeds (decodeRename payload) ↔
      WellFormedFor malloc payload .RENAME := by
  simp only [decodeRename, WellFormedFor, succeeds_bind, stringAt_eq_ok,
    succeeds_pure, and_true]

theorem succeeds_decodeUnlink_iff (malloc : Malloc) (payload : List UInt8) :
    Succeeds (decodeUnlink payload) ↔
      WellFormedFor malloc payload .UNLINK := by
  simp only [decodeUnlink, WellFormedFor, succeeds_bind, stringAt_eq_ok,
    succeeds_pure, and_true]

/-- The size of `WRITE`'s `buf` wraps for a payload shorter than 13 bytes, and
then no `malloc` serves it. -/
theorem writeBufSize_toNat {payload : List UInt8}
    (hsize : payload.length < 2 ^ 64) :
    (BitVec.ofNat 64 payload.length - 1 - 4 - 8 : SizeT).toNat =
      if 13 ≤ payload.length then payload.length - 13
      else 2 ^ 64 + payload.length - 13 := by
  simp only [BitVec.toNat_sub, BitVec.toNat_ofNat, BitVec.ofNat_eq_ofNat]
  split <;> omega

theorem succeeds_decodeWrite_iff (malloc : Malloc) {payload : List UInt8}
    (hsize : payload.length < 2 ^ 64) :
    Succeeds (decodeWrite malloc payload) ↔
      WellFormedFor malloc payload .WRITE := by
  have hbuf := writeBufSize_toNat hsize
  by_cases hshort : payload.length < 8
  · have hnot : ¬8 ≤ payload.length := by omega
    simp [decodeWrite, WellFormedFor, hshort, hnot]
  · have hlength : 8 ≤ payload.length := by omega
    have hfildes : 1 + 32 / 8 ≤ payload.length := by omega
    have hnbyte : payload.length - 8 + 64 / 8 ≤ payload.length := by omega
    simp only [decodeWrite, WellFormedFor, succeeds_bind, wordAt_eq_ok, hshort,
      if_false, hbuf, hfildes, hnbyte, hlength, true_and, exists_eq_left']
    by_cases hlong : 13 ≤ payload.length
    · simp only [hlong, if_true, true_implies]
      cases hserves : malloc.serves (payload.length - 13) with
      | false => simp
      | true =>
          simp only [if_true, true_implies, WellFormedWrite, succeeds_bind,
            readAt_eq_ok]
          constructor
          · rintro ⟨buf, ⟨hcount, _⟩, hrest⟩
            by_cases hover : payload.length - 13 <
                (field 64 payload (payload.length - 8)).toNat
            · simp [hover] at hrest
            · simp only [hover, if_false, succeeds_bind,
                intMaxMinus_eq_ok_iff] at hrest
              obtain ⟨_, ⟨hsign, _⟩, _⟩ := hrest
              exact ⟨by omega, hsign⟩
          · rintro ⟨hcount, hsign⟩
            have hover : ¬payload.length - 13 <
                (field 64 payload (payload.length - 8)).toNat := by omega
            refine ⟨_, ⟨by omega, rfl⟩, ?_⟩
            simp only [hover, if_false, succeeds_bind, intMaxMinus_eq_ok_iff]
            exact ⟨_, ⟨hsign, rfl⟩, succeeds_pure _⟩
    · have hserves :
          malloc.serves (2 ^ 64 + payload.length - 13) = false := by
        by_contra hserved
        have hlt := malloc.serves_lt _ (by simpa using hserved)
        omega
      simp only [hlong, if_false, hserves, false_implies, implies_true,
        iff_true]
      exact succeeds_pure _

theorem succeeds_decode_iff (malloc : Malloc) {payload : List UInt8}
    (hsize : payload.length < 2 ^ 64) :
    Succeeds (decode malloc payload) ↔ WellFormed malloc payload := by
  cases payload with
  | nil => simp [decode, WellFormed]
  | cons code rest =>
      simp only [decode, WellFormed]
      cases FunctionCode.ofByte? code with
      | none => simp
      | some function =>
          cases function with
          | OPEN => exact succeeds_decodeOpen_iff malloc _
          | CLOSE => exact succeeds_decodeClose_iff _
          | READ => exact succeeds_decodeRead_iff malloc _
          | WRITE => exact succeeds_decodeWrite_iff malloc hsize
          | LSEEK => exact succeeds_decodeLseek_iff _
          | TRUNCATE => exact succeeds_decodeTruncate_iff malloc _
          | FTRUNCATE => exact succeeds_decodeFtruncate_iff _
          | STAT => exact succeeds_decodeStat_iff malloc _
          | FSTAT => exact succeeds_decodeFstat_iff malloc _
          | FSYNC => exact succeeds_decodeFsync_iff _
          | RENAME => exact succeeds_decodeRename_iff malloc _
          | UNLINK => exact succeeds_decodeUnlink_iff malloc _

/-! ## The whole handler -/

def Ends {α : Type} (P : α → Prop) (computation : Except Fault α) : Prop :=
  ∀ value, computation = .ok value → P value

theorem ends_pure {α : Type} {P : α → Prop} {value : α} (hvalue : P value) :
    Ends P (pure value) := by
  rintro _ ⟨⟩
  exact hvalue

theorem ends_bind {α β : Type} {P : β → Prop} {computation : Except Fault α}
    {next : α → Except Fault β}
    (hnext : ∀ value, computation = .ok value → Ends P (next value)) :
    Ends P (computation >>= next) := by
  intro result hresult
  obtain ⟨value, hvalue, hrest⟩ := bind_eq_ok.mp hresult
  exact hnext value hvalue result hrest

theorem ends_ite {α : Type} {P : α → Prop} {condition : Prop}
    [Decidable condition] {yes no : Except Fault α}
    (hyes : condition → Ends P yes) (hno : ¬condition → Ends P no) :
    Ends P (if condition then yes else no) := by
  by_cases hcondition : condition
  · simpa [hcondition] using hyes hcondition
  · simpa [hcondition] using hno hcondition

/-- What the handler's own sizes owe to a call: the response of `READ` does
not wrap, and `WRITE` writes no more than the `payload_size - 13` bytes of its
`buf`. -/
def CallFits (payload : List UInt8) : Option LibCall → Prop
  | some (.read _ nbyte) => 8 + nbyte.toNat < 2 ^ 64
  | some (.write _ buf) => buf.length + 13 ≤ payload.length
  | _ => True

theorem callFits_decodeRead (malloc : Malloc) (payload : List UInt8) :
    Ends (CallFits payload) (decodeRead malloc payload) := by
  refine ends_bind fun fildes _ => ends_bind fun nbyte _ => ?_
  refine ends_ite (fun hserves => ends_bind fun difference _ => ?_)
    fun _ => ends_pure trivial
  have hlt := malloc.serves_lt _ hserves
  refine ends_pure ?_
  unfold CallFits
  omega

theorem callFits_decodeWrite (malloc : Malloc) {payload : List UInt8}
    (hsize : payload.length < 2 ^ 64) :
    Ends (CallFits payload) (decodeWrite malloc payload) := by
  have hbuf := writeBufSize_toNat hsize
  refine ends_bind fun fildes _ => ends_ite
    (fun _ => ends_bind fun _ hthrow => by cases hthrow) fun _ => ?_
  refine ends_bind fun nbyte _ => ends_ite (fun hserves => ?_)
    fun _ => ends_pure trivial
  have hlt := malloc.serves_lt _ hserves
  refine ends_bind fun buf hread => ends_ite
    (fun _ => ends_bind fun _ hthrow => by cases hthrow) fun hover => ?_
  refine ends_bind fun difference _ => ends_pure ?_
  obtain ⟨hbound, rfl⟩ := readAt_eq_ok.mp hread
  have hlong : 13 ≤ payload.length := by
    by_contra hshort
    rw [hbuf, if_neg hshort] at hlt
    omega
  rw [hbuf, if_pos hlong] at hover
  simp only [CallFits, List.length_take, List.length_drop]
  omega

theorem callFits_decode (malloc : Malloc) {payload : List UInt8}
    (hsize : payload.length < 2 ^ 64) :
    Ends (CallFits payload) (decode malloc payload) := by
  cases payload with
  | nil =>
      rintro _ ⟨⟩
  | cons code rest =>
      simp only [decode]
      cases FunctionCode.ofByte? code with
      | none => exact ends_pure trivial
      | some function =>
          cases function with
          | READ => exact callFits_decodeRead malloc _
          | WRITE => exact callFits_decodeWrite malloc hsize
          | OPEN =>
              refine ends_bind fun _ _ => ends_bind fun _ _ => ends_ite
                (fun _ => ends_bind fun _ _ => ends_pure trivial)
                fun _ => ends_pure trivial
          | CLOSE | FSYNC | TRUNCATE | RENAME =>
              exact ends_bind fun _ _ => ends_bind fun _ _ =>
                ends_pure trivial
          | LSEEK =>
              exact ends_bind fun _ _ => ends_bind fun _ _ =>
                ends_bind fun _ _ => ends_bind fun _ _ => ends_pure trivial
          | FTRUNCATE =>
              exact ends_bind fun _ _ => ends_bind fun _ _ =>
                ends_bind fun _ _ => ends_pure trivial
          | STAT =>
              exact ends_ite (fun _ => ends_bind fun _ _ => ends_pure trivial)
                fun _ => ends_pure trivial
          | FSTAT =>
              exact ends_bind fun _ _ => ends_ite
                (fun _ => ends_bind fun _ _ => ends_pure trivial)
                fun _ => ends_pure trivial
          | UNLINK => exact ends_bind fun _ _ => ends_pure trivial

theorem succeeds_fillResponse (malloc : Malloc) {size : SizeT}
    {copies : List (Copy UInt8)}
    (habut : Abutting 0 copies size.toNat) :
    Succeeds (fillResponse malloc size copies) := by
  rw [fillResponse_eq malloc habut]
  exact succeeds_ok _

theorem succeeds_intResponse (malloc : Malloc) (result : CInt) :
    Succeeds (intResponse malloc result) :=
  succeeds_fillResponse malloc (by simp)

theorem succeeds_longResponse (malloc : Malloc) (result : BitVec 64) :
    Succeeds (longResponse malloc result) :=
  succeeds_fillResponse malloc (by simp)

theorem succeeds_statResponse (statMalloc malloc : Malloc)
    (data : Option StatBuf) :
    Succeeds (statResponse statMalloc malloc data) := by
  apply succeeds_fillResponse
  rw [abutting_memcpyWord]
  refine ⟨rfl, rfl, ?_, rfl⟩
  cases data with
  | none => simp [memcpy]
  | some data => exact le_of_eq data.size.symm

theorem succeeds_readResponse (bufMalloc malloc : Malloc) {nbyte : SizeT}
    (hfits : 8 + nbyte.toNat < 2 ^ 64) (data : Option (ReadData nbyte)) :
    Succeeds (readResponse bufMalloc malloc nbyte data) := by
  have hbuf := readBuf_length bufMalloc.contents nbyte data
  have hsize : (8 + nbyte).toNat = 8 + nbyte.toNat := toNat_add_of_lt hfits
  apply succeeds_fillResponse
  rw [abutting_memcpyWord, hsize]
  refine ⟨rfl, rfl, ?_, rfl⟩
  exact le_of_eq hbuf.symm

theorem succeeds_respond (bufMalloc malloc : Malloc) {payload : List UInt8}
    {call : LibCall} (hfits : CallFits payload (some call))
    (reply : call.Reply) :
    Succeeds (respond bufMalloc malloc call reply) := by
  cases call with
  | read fildes nbyte =>
      exact succeeds_readResponse bufMalloc malloc hfits reply
  | stat path => exact succeeds_statResponse bufMalloc malloc reply
  | fstat fildes => exact succeeds_statResponse bufMalloc malloc reply
  | write fildes buf => exact succeeds_longResponse malloc reply
  | lseek fildes offset whence => exact succeeds_longResponse malloc reply
  | _ => exact succeeds_intResponse malloc _

/-- `client_handler` is safe on a payload: it ends without a fault, and what
it called keeps its own sizes. -/
def SafeOn {σ : Type} (os : Os σ) (bufMalloc malloc : Malloc)
    (payload : List UInt8) (state : σ) : Prop :=
  ∃ run, clientHandler os bufMalloc malloc payload state = .ok run ∧
    CallFits payload run.call

/-- The handler is safe on exactly the well-formed payloads, whatever the
operating system and the memory are. -/
theorem clientHandler_safe_iff {σ : Type} (os : Os σ)
    (bufMalloc malloc : Malloc) {payload : List UInt8} (state : σ)
    (hsize : payload.length < 2 ^ 64) :
    SafeOn os bufMalloc malloc payload state ↔
      WellFormed bufMalloc payload := by
  rw [← succeeds_decode_iff bufMalloc hsize]
  constructor
  · rintro ⟨run, hrun, _⟩
    obtain ⟨result, hresult, _⟩ := bind_eq_ok.mp hrun
    exact ⟨result, hresult⟩
  · rintro ⟨result, hresult⟩
    have hfits := callFits_decode bufMalloc hsize result hresult
    cases result with
    | none =>
        refine ⟨⟨none, state, none⟩, ?_, trivial⟩
        rw [clientHandler, hresult]
        rfl
    | some call =>
        obtain ⟨response, hresponse⟩ :=
          succeeds_respond bufMalloc malloc hfits (os.exec state call).1
        refine ⟨⟨some call, (os.exec state call).2, response⟩, ?_, hfits⟩
        simp only [clientHandler, hresult, hresponse, bind, Except.bind,
          pure, Except.pure]

theorem clientHandler_safe_close :
    ([1, 0xfc, 0xff, 0xff, 0x7f] : List UInt8).length < 2 ^ 64 ∧
      SafeOn failingOs amplestMalloc amplestMalloc
        [1, 0xfc, 0xff, 0xff, 0x7f] () := by
  refine ⟨by decide, (clientHandler_safe_iff failingOs amplestMalloc
    amplestMalloc () (by decide)).mpr ?_⟩
  exact ⟨by decide, by decide⟩

/-- A `CLOSE` request that ends behind the function code: the handler reads
the descriptor from behind the payload. -/
theorem clientHandler_faults_on_bare_close :
    ([1] : List UInt8).length < 2 ^ 64 ∧
      ¬SafeOn failingOs amplestMalloc amplestMalloc [1] () := by
  refine ⟨by decide, ?_⟩
  rintro ⟨run, hrun, _⟩
  cases hrun

end TestRpc
