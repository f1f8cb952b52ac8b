import TestRpc.RemoteTransparency

/-!
# The mode of a created file

Whether an `open` has a mode is decided in several places: in the stub at
`va_arg`, for the size, in the encoder and in the local branch, in the
handler's decoder, and again in the Go and in the Python server.  All of them
test `oflag == O_CREAT`, where the mode belongs to every `oflag` with the bit
`O_CREAT`; so the mode that the caller gives arrives with this one `oflag`
only, unless it is what a server puts in its place.
-/

namespace TestRpc

/-! ## The C stub and its server -/

/-- An `open` with a mode is executed with this mode, on the machine that the
path belongs to. -/
def OpensWithMode (path : CString) (oflag : CInt) (mode : ModeT)
    (surroundings : Surroundings)
    (world : World (List LibCall) (List LibCall)) : Prop :=
  ∃ outcome next, invoke recordingOs recordingOs
      ⟨.openCall path oflag (some mode), [], surroundings⟩ world =
        .ok (some (outcome, next)) ∧
    if path.isRemote = true then
      next.client = world.client ∧ next.server =
        world.server ++ [.openCall path.strip oflag (some mode)]
    else
      next.client = world.client ++ [.openCall path oflag (some mode)] ∧
        next.server = world.server

theorem realCall_openCall (path : CString) (oflag : CInt) (mode : ModeT) :
    realCall (.openCall path oflag (some mode)) =
      .ok (LibCall.openCall path oflag (some mode)).transmitted := by
  by_cases hcreat : oflag = O_CREAT <;>
    simp [realCall, vaMode, LibCall.transmitted, hcreat, bind, Except.bind,
      pure, Except.pure]

/-- What is executed is the call that the stub transmits, locally and
remotely. -/
theorem invoke_openCall {path : CString} {oflag : CInt} {mode : ModeT}
    (hfits : path.chars.length < addressSpace) {surroundings : Surroundings}
    (hideal : path.isRemote = true →
      surroundings.Ideal (.openCall path oflag (some mode)))
    {world : World (List LibCall) (List LibCall)}
    (hsized : world.payloadSizeBuf.length = 8) :
    ∃ outcome next, invoke recordingOs recordingOs
        ⟨.openCall path oflag (some mode), [], surroundings⟩ world =
          .ok (some (outcome, next)) ∧
      if path.isRemote = true then
        next.client = world.client ∧ next.server = world.server ++
          [(LibCall.openCall path oflag (some mode)).transmitted.onServer]
      else
        next.client = world.client ++
            [(LibCall.openCall path oflag (some mode)).transmitted] ∧
          next.server = world.server := by
  cases hremote : path.isRemote with
  | true =>
      have hsend : (LibCall.openCall path oflag (some mode)).Sendable :=
        ⟨hremote, hfits, fun _ => rfl⟩
      obtain ⟨outcome, next, hinvoke, hclient, hserver, -, -⟩ :=
        @invoke_sendable _ _ recordingOs recordingOs
          ⟨.openCall path oflag (some mode), [], surroundings⟩ hsend rfl
          (hideal hremote).whole world hsized
      exact ⟨outcome, next, hinvoke, by rw [if_pos rfl]; exact
        ⟨hclient, hserver⟩⟩
  | false =>
      have hinvoke := @invoke_realCall _ _ recordingOs recordingOs
        ⟨.openCall path oflag (some mode), [], surroundings⟩ _ hremote
        (realCall_openCall path oflag mode) world
      refine ⟨_, _, hinvoke, ?_⟩
      simp [recordingOs]

theorem opensWithMode_iff {path : CString} {oflag : CInt} {mode : ModeT}
    (hfits : path.chars.length < addressSpace) {surroundings : Surroundings}
    (hideal : path.isRemote = true →
      surroundings.Ideal (.openCall path oflag (some mode)))
    {world : World (List LibCall) (List LibCall)}
    (hsized : world.payloadSizeBuf.length = 8) :
    OpensWithMode path oflag mode surroundings world ↔ oflag = O_CREAT := by
  obtain ⟨outcome, next, hinvoke, hmade⟩ := invoke_openCall hfits hideal hsized
  have hmode : (if oflag = O_CREAT then some mode else none) = some mode ↔
      oflag = O_CREAT := by
    simp
  constructor
  · rintro ⟨outcome', next', hinvoke', hhonoured⟩
    rw [hinvoke, Except.ok.injEq, Option.some.injEq, Prod.mk.injEq] at hinvoke'
    rw [← hinvoke'.2] at hhonoured
    apply hmode.mp
    cases hremote : path.isRemote with
    | true =>
        rw [if_pos hremote] at hmade hhonoured
        simpa [hmade.2, LibCall.transmitted, LibCall.onServer] using
          hhonoured.2
    | false =>
        rw [if_neg (by simp [hremote])] at hmade hhonoured
        simpa [hmade.1, LibCall.transmitted] using hhonoured.1
  · intro hcreat
    refine ⟨outcome, next, hinvoke, ?_⟩
    simpa only [LibCall.transmitted, LibCall.onServer, hmode.mpr hcreat] using
      hmade

/-! ## The Go and the Python server -/

namespace Go

/-- `os.O_CREATE` on Linux. -/
def O_CREATE : BitVec 64 := 0x40

structure OpenArgs where
  path : List UInt8
  oflag : BitVec 64
  mode : BitVec 32
  deriving DecidableEq

/-- The arguments that `Receiver.Open` passes to `os.OpenFile`. -/
def Receiver.openFile (args : OpenArgs) : OpenArgs :=
  let path := args.path
  let oflag := args.oflag
  let mode := if oflag = O_CREATE then args.mode else 0o644
  ⟨path, oflag, mode⟩

end Go

namespace Python

/-- `os.O_CREAT` on Linux. -/
def O_CREAT : ℤ := 0x40

/-- A call of `os.open`, whose `mode` is `0o777` where none is given. -/
structure OsOpen where
  path : List Char
  flags : ℤ
  mode : ℤ := 0o777
  deriving DecidableEq

/-- The call that `exposed_open` makes; `none` when `args[0]` raises an
`IndexError`. -/
def exposedOpen (path : List Char) (oflag : ℤ) (args : List ℤ) :
    Option OsOpen :=
  if oflag = O_CREAT then
    match args[0]? with
    | some mode => some { path := path, flags := oflag, mode := mode }
    | none => none
  else
    some { path := path, flags := oflag }

end Python

/-- The executed `open` receives the caller's mode for the `oflag` `O_CREAT`
alone; the Go server passes `0644` and the Python server `0o777` for every
other one. -/
theorem creationMode_received_iff {path : CString} (oflag : CInt)
    (mode : ModeT) {surroundings : Surroundings}
    {world : World (List LibCall) (List LibCall)}
    (hfits : path.chars.length < addressSpace)
    (hideal : path.isRemote = true →
      surroundings.Ideal (.openCall path oflag (some mode)))
    (hsized : world.payloadSizeBuf.length = 8) (args : Go.OpenArgs)
    (name : List Char) (flags permission : ℤ) (rest : List ℤ) :
    (OpensWithMode path oflag mode surroundings world ↔ oflag = O_CREAT) ∧
      ((Go.Receiver.openFile args).mode = args.mode ↔
        args.oflag = Go.O_CREATE ∨ args.mode = 0o644) ∧
      ((∃ call, Python.exposedOpen name flags (permission :: rest) =
          some call ∧ call.mode = permission) ↔
        flags = Python.O_CREAT ∨ permission = 0o777) := by
  refine ⟨opensWithMode_iff hfits hideal hsized, ?_, ?_⟩
  · by_cases hcreat : args.oflag = Go.O_CREATE
    · simp [Go.Receiver.openFile, hcreat]
    · simp [Go.Receiver.openFile, hcreat, eq_comm]
  · by_cases hcreat : flags = Python.O_CREAT
    · simp [Python.exposedOpen, hcreat]
    · simp [Python.exposedOpen, hcreat, eq_comm]

/-- `"a"` -/
def localA : CString := remoteA.strip

theorem creationMode_received_creat :
    OpensWithMode localA O_CREAT 0o600 amplestSurroundings
        ⟨[], ⟨[], -1⟩, [], List.replicate 8 0⟩ ∧
      OpensWithMode remoteA O_CREAT 0o600 amplestSurroundings
        ⟨[], ⟨[], -1⟩, [], List.replicate 8 0⟩ ∧
      (Go.Receiver.openFile ⟨[0x61], 0x40, 0o600⟩).mode = 0o600 ∧
      ∃ call, Python.exposedOpen ['a'] 0x40 [0o600] = some call ∧
        call.mode = 0o600 := by
  obtain ⟨hlocal, hreceiver, hexposed⟩ :=
    @creationMode_received_iff localA O_CREAT 0o600 amplestSurroundings
      ⟨[], ⟨[], -1⟩, [], List.replicate 8 0⟩ (by decide)
      (fun hremote => absurd hremote (by decide)) rfl
      ⟨[0x61], 0x40, 0o600⟩ ['a'] 0x40 0o600 []
  obtain ⟨hremote, -, -⟩ :=
    @creationMode_received_iff remoteA O_CREAT 0o600 amplestSurroundings
      ⟨[], ⟨[], -1⟩, [], List.replicate 8 0⟩ (by decide)
      (fun _ => amplestSurroundings_ideal_small (by decide) rfl rfl rfl) rfl
      ⟨[0x61], 0x40, 0o600⟩ ['a'] 0x40 0o600 []
  exact ⟨hlocal.mpr rfl, hremote.mpr rfl, hreceiver.mpr (.inl rfl),
    hexposed.mpr (.inl rfl)⟩

/-- With `O_CREAT | O_RDWR` and the mode `0600` no executed `open` receives
the mode: the two of the C programs get none, the Go server opens with `0644`
and the Python server with `0o777`. -/
theorem creationMode_lost_creat_rdwr :
    (0x42 : CInt) &&& O_CREAT ≠ 0 ∧
      ¬ OpensWithMode localA 0x42 0o600 amplestSurroundings
        ⟨[], ⟨[], -1⟩, [], List.replicate 8 0⟩ ∧
      (∃ outcome next, invoke recordingOs recordingOs
          ⟨.openCall localA 0x42 (some 0o600), [], amplestSurroundings⟩
          ⟨[], ⟨[], -1⟩, [], List.replicate 8 0⟩ =
            .ok (some (outcome, next)) ∧
        next.client = [.openCall localA 0x42 none]) ∧
      (∃ outcome next, invoke recordingOs recordingOs
          ⟨.openCall remoteA 0x42 (some 0o600), [], amplestSurroundings⟩
          ⟨[], ⟨[], -1⟩, [], List.replicate 8 0⟩ =
            .ok (some (outcome, next)) ∧
        next.server = [.openCall localA 0x42 none]) ∧
      (Go.Receiver.openFile ⟨[0x61], 0x42, 0o600⟩).mode = 0o644 ∧
      Python.exposedOpen ['a'] 0x42 [0o600] = some ⟨['a'], 0x42, 0o777⟩ := by
  refine ⟨by decide, ?_, ⟨⟨-1, []⟩, ⟨_, ⟨[], -1⟩, [], _⟩, rfl, rfl⟩,
    ⟨⟨-1, []⟩, ⟨[], ⟨[], 3⟩, _, _⟩, rfl, rfl⟩, by decide, by decide⟩
  rw [opensWithMode_iff (by decide) (fun hremote => ?_) rfl]
  · decide
  · exact absurd hremote (by decide)

end TestRpc
