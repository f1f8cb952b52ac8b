import TestRpc.ClientHandler

/-!
# The request format round trip

Whatever a stub sends for a remote call, `client_handler` reads back: the same
function, the same arguments, no byte outside the payload.  The layout is
written out by hand on both sides, with the variable-length fields first
(paths), last (`write`'s count) or absent (`open`'s mode); the reading lemmas
below move past one field at a time.
-/

namespace TestRpc

open LittleEndian BlockCopies

/-! ## Reading fields -/

theorem readAt_field {payload field : List UInt8} {offset : ℕ}
    (front rest : List UInt8) (hpayload : payload = front ++ (field ++ rest))
    (hoffset : offset = front.length) :
    readAt payload offset field.length = .ok field := by
  have hbound : front.length + field.length ≤
      (front ++ (field ++ rest)).length := by
    simp
  rw [hpayload, hoffset, readAt, if_pos hbound, List.drop_left,
    List.take_left]

/-- A word is read at the offset that the fields before it add up to. -/
theorem wordAt_field {n offset : ℕ} {payload : List UInt8} {word : BitVec n}
    (front rest : List UInt8)
    (hpayload : payload = front ++ (bytesOf word ++ rest))
    (hoffset : offset = front.length) (hbytes : 8 * (n / 8) = n) :
    wordAt n payload offset = .ok word := by
  have hread := readAt_field front rest hpayload hoffset
  rw [bytesOf_length] at hread
  simp [wordAt, hread, hbytes]

theorem scan_object (string : CString) (rest : List UInt8) :
    scan (string.object ++ rest) = some string := by
  obtain ⟨chars, hnul⟩ := string
  induction chars with
  | nil => simp [CString.object, scan]
  | cons byte chars ih =>
      have hbyte : byte ≠ 0 := by
        intro hzero
        apply hnul
        simp [hzero]
      have hrest : 0 ∉ chars := fun hmem => hnul (List.mem_cons_of_mem _ hmem)
      have htail := ih hrest
      simp only [CString.object] at htail ⊢
      rw [List.cons_append, List.cons_append, scan]
      simp only [hbyte, dif_neg, not_false_eq_true, htail]

theorem stringAt_field {payload : List UInt8} {offset : ℕ} {string : CString}
    (front rest : List UInt8)
    (hpayload : payload = front ++ (string.object ++ rest))
    (hoffset : offset = front.length) :
    stringAt payload offset = .ok string := by
  rw [hpayload, hoffset, stringAt, List.drop_left, scan_object]

theorem intMaxMinus_eq_ok {fildes : CInt} (hnonneg : fildes.toNat < 2 ^ 31) :
    intMaxMinus fildes = .ok (INT_MAX - fildes) := by
  have hint : fildes.toInt = fildes.toNat := by
    rw [BitVec.toInt_eq_toNat_cond]
    split <;> omega
  have hmax : INT_MAX.toInt = 2147483647 := by decide
  have hmaxNat : INT_MAX.toNat = 2147483647 := by decide
  have hvalue : BitVec.ofInt 32 (INT_MAX.toInt - fildes.toInt) =
      INT_MAX - fildes := by
    rw [hint, hmax]
    apply BitVec.eq_of_toNat_eq
    rw [BitVec.toNat_ofInt, BitVec.toNat_sub, hmaxNat]
    omega
  rw [intMaxMinus]
  simp only [hvalue]
  rw [if_pos]
  rw [hint, hmax]
  omega

theorem intMaxMinus_eq_error {fildes : CInt}
    (hnegative : 2 ^ 31 ≤ fildes.toNat) :
    intMaxMinus fildes = .error .signedOverflow := by
  have hlt := fildes.isLt
  have hint : fildes.toInt = fildes.toNat - 2 ^ 32 := by
    rw [BitVec.toInt_eq_toNat_cond]
    split <;> omega
  have hmax : INT_MAX.toInt = 2147483647 := by decide
  rw [intMaxMinus, if_neg]
  rw [hint, hmax]
  omega

theorem intMaxMinus_of_remote {fildes : CInt}
    (hremote : isRemoteFildes fildes = true) :
    intMaxMinus fildes = .ok (INT_MAX - fildes) :=
  intMaxMinus_eq_ok ((isRemoteFildes_iff fildes).mp hremote).2

@[simp] theorem FunctionCode.ofByte?_byte (code : FunctionCode) :
    FunctionCode.ofByte? code.byte = some code := by
  cases code <;> rfl

/-! ## The handler reads back what the stub sent -/

/-- The size of the `buf` or `statbuf` that the handler allocates before it
makes a call. -/
def LibCall.handlerBuf : LibCall → Option ℕ
  | .read _ nbyte => some nbyte.toNat
  | .write _ buf => some buf.length
  | .stat _ => some sizeofStat
  | .fstat _ => some sizeofStat
  | _ => none

def Malloc.servesFor (malloc : Malloc) (call : LibCall) : Bool :=
  match call.handlerBuf with
  | none => true
  | some size => malloc.serves size

theorem decode_eq_decodeFunction (malloc : Malloc) (code : FunctionCode)
    (rest : List UInt8) :
    decode malloc (code.byte :: rest) =
      decodeFunction malloc code (code.byte :: rest) := by
  simp [decode]

theorem decodeOpen_payload (path : CString) (oflag : CInt)
    {mode : Option ModeT} (hmode : mode.isSome = true ↔ oflag = O_CREAT) :
    decodeOpen (LibCall.openCall path oflag mode).payload =
      .ok (some (.openCall path.strip oflag mode)) := by
  have hlength := path.strip.object_length
  have hpath : stringAt (LibCall.openCall path oflag mode).payload 1 =
      .ok path.strip :=
    stringAt_field [FunctionCode.OPEN.byte] (bytesOf oflag ++ modeBytes mode)
      (by simp [LibCall.payload]) rfl
  have hoflag : wordAt 32 (LibCall.openCall path oflag mode).payload
      (1 + (path.strip.chars.length + 1)) = .ok oflag :=
    wordAt_field (FunctionCode.OPEN.byte :: path.strip.object)
      (modeBytes mode) (by simp [LibCall.payload])
      (by simp [hlength]; omega) rfl
  cases mode with
  | none =>
      have hcreat : oflag ≠ O_CREAT := by
        intro heq
        simpa using hmode.mpr heq
      simp [decodeOpen, hpath, hoflag, hcreat, bind, Except.bind, pure,
        Except.pure]
  | some given =>
      obtain rfl : oflag = O_CREAT := hmode.mp rfl
      have hgiven : wordAt 32
          (LibCall.openCall path O_CREAT (some given)).payload
          (1 + (path.strip.chars.length + 1) + 4) = .ok given :=
        wordAt_field (FunctionCode.OPEN.byte :: path.strip.object ++
            bytesOf O_CREAT) []
          (by simp [LibCall.payload, modeBytes])
          (by simp [hlength]; omega) rfl
      simp [decodeOpen, hpath, hoflag, hgiven, bind, Except.bind, pure,
        Except.pure]

theorem wordAt_fildes (code : FunctionCode) (fildes : CInt)
    (rest : List UInt8) :
    wordAt 32 (code.byte :: (bytesOf fildes ++ rest)) 1 = .ok fildes :=
  wordAt_field [code.byte] rest rfl rfl rfl

theorem wordAt_argument (code : FunctionCode) (fildes : CInt)
    (argument : BitVec 64) (rest : List UInt8) :
    wordAt 64 (code.byte :: (bytesOf fildes ++ (bytesOf argument ++ rest)))
      (1 + 4) = .ok argument :=
  wordAt_field (code.byte :: bytesOf fildes) rest rfl (by simp) rfl

theorem stringAt_path (code : FunctionCode) (path : CString)
    (rest : List UInt8) :
    stringAt (code.byte :: (path.object ++ rest)) 1 = .ok path :=
  stringAt_field [code.byte] rest rfl rfl

theorem decodeClose_payload {fildes : CInt}
    (hremote : isRemoteFildes fildes = true) :
    decodeClose (LibCall.close fildes).payload =
      .ok (some (.close (INT_MAX - fildes))) := by
  have hfildes := wordAt_fildes .CLOSE fildes []
  rw [List.append_nil] at hfildes
  simp [decodeClose, LibCall.payload, hfildes, intMaxMinus_of_remote hremote,
    bind, Except.bind, pure, Except.pure]

theorem decodeRead_payload (malloc : Malloc) {fildes : CInt} (nbyte : SizeT)
    (hremote : isRemoteFildes fildes = true) :
    decodeRead malloc (LibCall.read fildes nbyte).payload =
      .ok (if malloc.serves nbyte.toNat then
        some (.read (INT_MAX - fildes) nbyte) else none) := by
  have hfildes := wordAt_fildes .READ fildes (bytesOf nbyte)
  have hnbyte := wordAt_argument .READ fildes nbyte []
  rw [List.append_nil] at hnbyte
  cases hserves : malloc.serves nbyte.toNat <;>
    simp [decodeRead, LibCall.payload, hfildes, hnbyte, hserves,
      intMaxMinus_of_remote hremote, bind, Except.bind, pure, Except.pure]

theorem decodeWrite_payload (malloc : Malloc) {fildes : CInt}
    {buf : List UInt8} (hremote : isRemoteFildes fildes = true)
    (hcount : buf.length ≤ SSIZE_MAX) :
    decodeWrite malloc (LibCall.write fildes buf).payload =
      .ok (if malloc.serves buf.length then
        some (.write (INT_MAX - fildes) buf) else none) := by
  unfold SSIZE_MAX at hcount
  have hlength : (LibCall.write fildes buf).payload.length =
      buf.length + 13 := by
    simp [LibCall.payload]
    omega
  have hnbyteNat : (BitVec.ofNat 64 buf.length).toNat = buf.length := by
    rw [BitVec.toNat_ofNat]
    omega
  have hbufSize : (BitVec.ofNat 64 (buf.length + 13) - 1 - 4 - 8).toNat =
      buf.length := by
    simp only [BitVec.toNat_sub, BitVec.toNat_ofNat, BitVec.ofNat_eq_ofNat]
    omega
  have hfildes : wordAt 32 (LibCall.write fildes buf).payload 1 =
      .ok fildes :=
    wordAt_field [FunctionCode.WRITE.byte] _
      (by simp [LibCall.payload]; rfl) rfl rfl
  have hnbyte : wordAt 64 (LibCall.write fildes buf).payload
      (buf.length + 13 - 8) = .ok (BitVec.ofNat 64 buf.length) :=
    wordAt_field (FunctionCode.WRITE.byte :: (bytesOf fildes ++ buf)) []
      (by simp [LibCall.payload]) (by simp; omega) rfl
  have hbuf : readAt (LibCall.write fildes buf).payload (1 + 4) buf.length =
      .ok buf :=
    readAt_field (FunctionCode.WRITE.byte :: bytesOf fildes) _
      (by simp [LibCall.payload]; rfl) (by simp)
  have hlong : ¬buf.length + 13 < 8 := by omega
  simp only [decodeWrite, hlength, hfildes, hlong, hnbyte, hbufSize,
    hnbyteNat, hbuf, intMaxMinus_of_remote hremote, bind, Except.bind, pure,
    Except.pure, if_false, lt_irrefl]
  cases malloc.serves buf.length <;> rfl

theorem decodeLseek_payload {fildes : CInt} (offset : OffT) (whence : CInt)
    (hremote : isRemoteFildes fildes = true) :
    decodeLseek (LibCall.lseek fildes offset whence).payload =
      .ok (some (.lseek (INT_MAX - fildes) offset whence)) := by
  have hfildes := wordAt_fildes .LSEEK fildes
    (bytesOf offset ++ bytesOf whence)
  have hoffset := wordAt_argument .LSEEK fildes offset (bytesOf whence)
  have hwhence : wordAt 32 (FunctionCode.LSEEK.byte ::
      (bytesOf fildes ++ (bytesOf offset ++ bytesOf whence))) (1 + 4 + 8) =
      .ok whence :=
    wordAt_field (FunctionCode.LSEEK.byte ::
      (bytesOf fildes ++ bytesOf offset)) [] (by simp) (by simp) rfl
  simp [decodeLseek, LibCall.payload, hfildes, hoffset, hwhence,
    intMaxMinus_of_remote hremote, bind, Except.bind, pure, Except.pure]

theorem decodeTruncate_payload (path : CString) (length : OffT) :
    decodeTruncate (LibCall.truncate path length).payload =
      .ok (some (.truncate path.strip length)) := by
  have hpath := stringAt_path .TRUNCATE path.strip (bytesOf length)
  have hlength : wordAt 64 (FunctionCode.TRUNCATE.byte ::
      (path.strip.object ++ bytesOf length))
      (1 + (path.strip.chars.length + 1)) = .ok length :=
    wordAt_field (FunctionCode.TRUNCATE.byte :: path.strip.object) []
      (by simp) (by simp [CString.object_length]; omega) rfl
  simp [decodeTruncate, LibCall.payload, hpath, hlength, bind, Except.bind,
    pure, Except.pure]

theorem decodeFtruncate_payload {fildes : CInt} (length : OffT)
    (hremote : isRemoteFildes fildes = true) :
    decodeFtruncate (LibCall.ftruncate fildes length).payload =
      .ok (some (.ftruncate (INT_MAX - fildes) length)) := by
  have hfildes := wordAt_fildes .FTRUNCATE fildes (bytesOf length)
  have hlength := wordAt_argument .FTRUNCATE fildes length []
  rw [List.append_nil] at hlength
  simp [decodeFtruncate, LibCall.payload, hfildes, hlength,
    intMaxMinus_of_remote hremote, bind, Except.bind, pure, Except.pure]

theorem decodeStat_payload (malloc : Malloc) (path : CString) :
    decodeStat malloc (LibCall.stat path).payload =
      .ok (if malloc.serves sizeofStat then some (.stat path.strip)
        else none) := by
  have hpath := stringAt_path .STAT path.strip []
  rw [List.append_nil] at hpath
  cases hserves : malloc.serves sizeofStat <;>
    simp [decodeStat, LibCall.payload, hpath, hserves, bind, Except.bind,
      pure, Except.pure]

theorem decodeFstat_payload (malloc : Malloc) {fildes : CInt}
    (hremote : isRemoteFildes fildes = true) :
    decodeFstat malloc (LibCall.fstat fildes).payload =
      .ok (if malloc.serves sizeofStat then some (.fstat (INT_MAX - fildes))
        else none) := by
  have hfildes := wordAt_fildes .FSTAT fildes []
  rw [List.append_nil] at hfildes
  cases hserves : malloc.serves sizeofStat <;>
    simp [decodeFstat, LibCall.payload, hfildes, hserves,
      intMaxMinus_of_remote hremote, bind, Except.bind, pure, Except.pure]

theorem decodeFsync_payload {fildes : CInt}
    (hremote : isRemoteFildes fildes = true) :
    decodeFsync (LibCall.fsync fildes).payload =
      .ok (some (.fsync (INT_MAX - fildes))) := by
  have hfildes := wordAt_fildes .FSYNC fildes []
  rw [List.append_nil] at hfildes
  simp [decodeFsync, LibCall.payload, hfildes, intMaxMinus_of_remote hremote,
    bind, Except.bind, pure, Except.pure]

theorem decodeRename_payload (old new : CString) :
    decodeRename (LibCall.rename old new).payload =
      .ok (some (.rename old.strip new.strip)) := by
  have hold := stringAt_path .RENAME old.strip new.strip.object
  have hnew : stringAt (FunctionCode.RENAME.byte ::
      (old.strip.object ++ new.strip.object))
      (1 + old.strip.chars.length + 1) = .ok new.strip :=
    stringAt_field (FunctionCode.RENAME.byte :: old.strip.object) []
      (by simp) (by simp [CString.object_length]; omega)
  simp [decodeRename, LibCall.payload, hold, hnew, bind, Except.bind, pure,
    Except.pure]

theorem decodeUnlink_payload (path : CString) :
    decodeUnlink (LibCall.unlink path).payload =
      .ok (some (.unlink path.strip)) := by
  have hpath := stringAt_path .UNLINK path.strip []
  rw [List.append_nil] at hpath
  simp [decodeUnlink, LibCall.payload, hpath, bind, Except.bind, pure,
    Except.pure]

/-- The handler reads back exactly the transmitted call, unless it cannot
allocate the call's `buf` or `statbuf` and leaves. -/
theorem decode_payload {call : LibCall} (hsend : call.Sendable)
    (malloc : Malloc) :
    decode malloc call.transmitted.payload =
      .ok (if malloc.servesFor call then some call.transmitted.onServer
        else none) := by
  cases call with
  | openCall path oflag mode =>
      have hmode : (if oflag = O_CREAT then mode else none).isSome = true ↔
          oflag = O_CREAT := by
        by_cases hcreat : oflag = O_CREAT
        · simpa [hcreat] using hsend.2.2 hcreat
        · simp [hcreat]
      have hdecode := decodeOpen_payload path oflag hmode
      simpa [LibCall.transmitted, LibCall.payload, decode_eq_decodeFunction,
        decodeFunction, Malloc.servesFor, LibCall.handlerBuf,
        LibCall.onServer] using hdecode
  | close fildes => exact decodeClose_payload hsend
  | read fildes nbyte => exact decodeRead_payload malloc nbyte hsend.1
  | write fildes buf => exact decodeWrite_payload malloc hsend.1 hsend.2
  | lseek fildes offset whence =>
      exact decodeLseek_payload offset whence hsend
  | truncate path length => exact decodeTruncate_payload path length
  | ftruncate fildes length => exact decodeFtruncate_payload length hsend
  | stat path => exact decodeStat_payload malloc path
  | fstat fildes => exact decodeFstat_payload malloc hsend
  | fsync fildes => exact decodeFsync_payload hsend
  | rename old new => exact decodeRename_payload old new
  | unlink path => exact decodeUnlink_payload path

/-! ## Different calls, different requests -/

def CString.addSlashes (path : CString) : CString where
  chars := slash :: slash :: path.chars
  noNul := by
    have hslash : (0 : UInt8) ≠ slash := by decide
    simpa [hslash] using path.noNul

theorem CString.addSlashes_strip {path : CString}
    (hremote : path.isRemote = true) :
    path.strip.addSlashes = path := by
  obtain ⟨rest, hrest⟩ := path.isRemote_iff.mp hremote
  obtain ⟨chars, hnul⟩ := path
  simp only at hrest
  subst hrest
  rfl

def LibCall.fromServer : LibCall → LibCall
  | .openCall path oflag mode => .openCall path.addSlashes oflag mode
  | .close fildes => .close (INT_MAX - fildes)
  | .read fildes nbyte => .read (INT_MAX - fildes) nbyte
  | .write fildes buf => .write (INT_MAX - fildes) buf
  | .lseek fildes offset whence => .lseek (INT_MAX - fildes) offset whence
  | .truncate path length => .truncate path.addSlashes length
  | .ftruncate fildes length => .ftruncate (INT_MAX - fildes) length
  | .stat path => .stat path.addSlashes
  | .fstat fildes => .fstat (INT_MAX - fildes)
  | .fsync fildes => .fsync (INT_MAX - fildes)
  | .rename old new => .rename old.addSlashes new.addSlashes
  | .unlink path => .unlink path.addSlashes

theorem fromServer_onServer {call : LibCall} (hsend : call.Sendable) :
    call.transmitted.onServer.fromServer = call.transmitted := by
  have hfildes (fildes : CInt) : INT_MAX - (INT_MAX - fildes) = fildes := by
    bv_omega
  cases call with
  | openCall path oflag mode =>
      simp [LibCall.transmitted, LibCall.onServer, LibCall.fromServer,
        CString.addSlashes_strip hsend.1]
  | truncate path _ | stat path | unlink path =>
      simp [LibCall.transmitted, LibCall.onServer, LibCall.fromServer,
        CString.addSlashes_strip hsend.1]
  | rename old new =>
      simp [LibCall.transmitted, LibCall.onServer, LibCall.fromServer,
        CString.addSlashes_strip hsend.1.1, CString.addSlashes_strip hsend.2.1]
  | close fildes | read fildes _ | write fildes _ | lseek fildes _ _
  | ftruncate fildes _ | fstat fildes | fsync fildes =>
      simp [LibCall.transmitted, LibCall.onServer, LibCall.fromServer, hfildes]

def amplestMalloc : Malloc where
  serves := fun size => decide (size < 2 ^ 63)
  serves_lt := by simp
  contents := fun _ => 0

theorem amplestMalloc_servesFor {call : LibCall} (hsend : call.Sendable) :
    amplestMalloc.servesFor call = true := by
  cases call with
  | read fildes nbyte | write fildes buf =>
      have hcount := hsend.2
      unfold SSIZE_MAX at hcount
      simp only [Malloc.servesFor, LibCall.handlerBuf, amplestMalloc,
        decide_eq_true_eq]
      omega
  | _ => rfl

theorem transmitted_eq_of_payload_eq {left right : LibCall}
    (hleft : left.Sendable) (hright : right.Sendable)
    (hpayload : left.transmitted.payload = right.transmitted.payload) :
    left.transmitted = right.transmitted := by
  have hdecodeLeft := decode_payload hleft amplestMalloc
  have hdecodeRight := decode_payload hright amplestMalloc
  rw [amplestMalloc_servesFor hleft, if_pos rfl] at hdecodeLeft
  rw [amplestMalloc_servesFor hright, if_pos rfl] at hdecodeRight
  rw [hpayload, hdecodeRight] at hdecodeLeft
  have hserver : right.transmitted.onServer = left.transmitted.onServer := by
    simpa using hdecodeLeft
  rw [← fromServer_onServer hleft, ← fromServer_onServer hright, hserver]

/-- The request format round trip.  The stores of a stub called for a remote
run fill its buffer of `8 + request_payload_size` bytes exactly once each and
nothing else, without any wrap in the sizes; the handler, given the bytes
behind the size, makes the transmitted call and reads nothing else; and
requests of calls that differ in a transmitted argument differ. -/
theorem request_roundTrip {call : LibCall} (hsend : call.Sendable) :
    ∃ request, stubRequest call = .ok request ∧
      request.requestPayloadSize.toNat = call.transmitted.payload.length ∧
      request.bufSize.toNat = 8 + request.requestPayloadSize.toNat ∧
      (∀ copy ∈ request.copies, copy.InBounds request.bufSize.toNat) ∧
      (∀ offset, request.copies.countP (Copy.covers offset) =
        if offset < 8 + request.requestPayloadSize.toNat then 1 else 0) ∧
      (∀ contents, ∃ payload,
        request.sent contents =
            .ok (bytesOf request.requestPayloadSize ++ payload) ∧
          payload.length = request.requestPayloadSize.toNat ∧
          ∀ malloc, decode malloc payload =
            .ok (if malloc.servesFor call then some call.transmitted.onServer
              else none)) ∧
      ∀ (other : LibCall) (otherRequest : Request)
        (contents otherContents : ℕ → UInt8), other.Sendable →
        stubRequest other = .ok otherRequest →
        request.sent contents = otherRequest.sent otherContents →
        call.transmitted = other.transmitted := by
  obtain ⟨request, hrequest, hencodes⟩ := stubRequest_encodes hsend
  have hbufSize : request.bufSize.toNat =
      8 + request.requestPayloadSize.toNat := by
    rw [hencodes.bufSize, hencodes.payloadSize]
  refine ⟨request, hrequest, hencodes.payloadSize, hbufSize,
    hencodes.abutting.inBounds, ?_, ?_, ?_⟩
  · intro offset
    rw [hencodes.abutting.countP_covers, ← hbufSize]
    simp
  · intro contents
    exact ⟨_, hencodes.sent_eq contents, hencodes.payloadSize.symm,
      decode_payload hsend⟩
  · intro other otherRequest contents otherContents hother hotherRequest hsent
    obtain ⟨_, hotherOk, hotherEncodes⟩ := stubRequest_encodes hother
    rw [hotherRequest, Except.ok.injEq] at hotherOk
    subst hotherOk
    rw [hencodes.sent_eq, hotherEncodes.sent_eq, Except.ok.injEq] at hsent
    have hpayload := List.append_inj_right hsent (by simp)
    exact transmitted_eq_of_payload_eq hsend hother hpayload

def remoteA : CString := ⟨[slash, slash, 0x61], by decide⟩

theorem request_roundTrip_open_creat :
    (LibCall.openCall remoteA O_CREAT (some 0o644)).Sendable ∧
      ∃ request,
        stubRequest (.openCall remoteA O_CREAT (some 0o644)) = .ok request ∧
        request.requestPayloadSize.toNat = 11 := by
  have hsend : (LibCall.openCall remoteA O_CREAT (some 0o644)).Sendable :=
    ⟨by decide, by decide, fun _ => rfl⟩
  obtain ⟨request, hrequest, hsize, _⟩ := request_roundTrip hsend
  exact ⟨hsend, request, hrequest, hsize.trans (by decide)⟩

end TestRpc
