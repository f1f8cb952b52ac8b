import TestRpc.HandlerSafety
import TestRpc.RemoteTransparency

/-!
# The two paths of `rename`

`rename` is the one stub with two paths, and only `old` decides where it runs.
When it runs remotely, `strlen(new) - 1` and `new + 2` take `new` for a remote
path too.  Both paths are routed and stripped rightly exactly when they are
paths of one machine; otherwise the stub renames on one of the two machines,
or leaves the strings.
-/

namespace TestRpc

open LittleEndian BlockCopies StreamReceive

/-! ## What `rename` should do -/

/-- The outcome and the two file systems after a `rename`: done on the server
for two remote paths, on the client for two local ones, and refused for a path
of each kind. -/
def RenameRouted {κ σ : Type} (clientOs : Os κ) (serverOs : Os σ)
    (old new : CString) (world : World κ σ) (outcome : Outcome)
    (next : World κ σ) : Prop :=
  match old.isRemote, new.isRemote with
  | true, true =>
      let call := LibCall.rename old.strip new.strip
      outcome = call.outcome (serverOs.exec world.server call).1 [] ∧
        next.client = world.client ∧
        next.server = (serverOs.exec world.server call).2
  | false, false =>
      let call := LibCall.rename old new
      outcome = call.outcome (clientOs.exec world.client call).1 [] ∧
        next.client = (clientOs.exec world.client call).2 ∧
        next.server = world.server
  | _, _ =>
      outcome.ret = -1 ∧ next.client = world.client ∧
        next.server = world.server

/-- Where a request is built, its sizes are those of the two paths without
any wrap, and neither the stub's copies nor the handler's reads leave the
strings. -/
def RenameInside (old new : CString) : Prop :=
  old.isRemote = true →
    (pathSize old).toNat + 1 = old.chars.length ∧
      (pathSize new).toNat + 1 = new.chars.length ∧
      (renameRequest old new).bufSize.toNat =
        8 + (1 + (pathSize old).toNat + (pathSize new).toNat) ∧
      ∀ contents malloc, ∃ payload,
        (renameRequest old new).sent contents =
            .ok (bytesOf (renameRequest old new).requestPayloadSize ++
              payload) ∧
          Succeeds (decode malloc payload)

/-- `rename` handles two paths rightly, on any two operating systems and, for
a remote call, on any transport that loses nothing. -/
def RenamesRight (old new : CString) : Prop :=
  RenameInside old new ∧
    ∀ (κ σ : Type) (clientOs : Os κ) (serverOs : Os σ)
      (surroundings : Surroundings) (world : World κ σ),
      world.payloadSizeBuf.length = 8 →
      (old.isRemote = true → surroundings.Ideal (.rename old new)) →
      ∃ outcome next, invoke clientOs serverOs
          ⟨.rename old new, [], surroundings⟩ world =
            .ok (some (outcome, next)) ∧
        RenameRouted clientOs serverOs old new world outcome next

/-! ## Paths of one machine -/

theorem renameInside_of_remote {old new : CString}
    (hold : old.isRemote = true) (hnew : new.isRemote = true)
    (holdFits : old.chars.length < addressSpace)
    (hnewFits : new.chars.length < addressSpace) :
    RenameInside old new := by
  intro _
  have hsend : (LibCall.rename old new).Sendable :=
    ⟨⟨hold, holdFits⟩, hnew, hnewFits⟩
  have hencodes := renameRequest_encodes hold holdFits hnew hnewFits
  have holdSize := pathSize_toNat hold holdFits
  have hnewSize := pathSize_toNat hnew hnewFits
  refine ⟨?_, ?_, ?_, fun contents malloc => ?_⟩
  · rw [holdSize, CString.strip_object_length hold]
  · rw [hnewSize, CString.strip_object_length hnew]
  · rw [hencodes.bufSize, holdSize, hnewSize]
    simp [LibCall.payload]
    omega
  · refine ⟨_, hencodes.sent_eq contents, ?_⟩
    have hdecode := decode_payload hsend malloc
    exact ⟨_, hdecode⟩

theorem renamesRight_of_remote {old new : CString}
    (hold : old.isRemote = true) (hnew : new.isRemote = true)
    (holdFits : old.chars.length < addressSpace)
    (hnewFits : new.chars.length < addressSpace) :
    RenamesRight old new := by
  refine ⟨renameInside_of_remote hold hnew holdFits hnewFits, ?_⟩
  intro κ σ clientOs serverOs surroundings world hsized hideal
  have hsend : (LibCall.rename old new).Sendable :=
    ⟨⟨hold, holdFits⟩, hnew, hnewFits⟩
  obtain ⟨outcome, next, hinvoke, hclient, hserver, -, houtcome⟩ :=
    @invoke_sendable κ σ clientOs serverOs
      ⟨.rename old new, [], surroundings⟩ hsend rfl (hideal hold).whole world
      hsized
  rw [if_pos (hideal hold).collects] at houtcome
  refine ⟨outcome, next, hinvoke, ?_⟩
  simp only [RenameRouted, hold, hnew]
  exact ⟨houtcome, hclient, hserver⟩

theorem renamesRight_of_local {old new : CString}
    (hold : old.isRemote = false) (hnew : new.isRemote = false) :
    RenamesRight old new := by
  refine ⟨fun hremote => absurd (hold.symm.trans hremote) (by decide), ?_⟩
  intro κ σ clientOs serverOs surroundings world _ _
  have hinvoke := @invoke_realCall κ σ clientOs serverOs
    ⟨.rename old new, [], surroundings⟩ (.rename old new) hold rfl world
  refine ⟨_, _, hinvoke, ?_⟩
  simp only [RenameRouted, hold, hnew, and_self]

/-! ## A path of each kind -/

/-- An operating system that counts the renames it makes. -/
def renamingOs : Os ℕ where
  exec := fun count call =>
    match call with
    | .rename _ _ => ((0 : CInt), count + 1)
    | call => ((failingOs.exec () call).1, count)

/-- Surroundings in which everything succeeds for messages of up to `size`
bytes. -/
def roomySurroundings (size : ℕ) : Surroundings where
  net := { answeringNet ⟨[], .closed⟩ size with send := some size }
  clientSocket := 4
  sizeCut := size
  payloadCut := size
  payloadMalloc := amplestMalloc
  bufMalloc := amplestMalloc
  responseMalloc := amplestMalloc

theorem roomySurroundings_ideal {old new : CString} {size : ℕ}
    (hsize : 8 + (LibCall.rename old new).payload.length ≤ size)
    (hfits : 8 + (LibCall.rename old new).payload.length < 2 ^ 63) :
    (roomySurroundings size).Ideal (.rename old new) := by
  have hresponse : (LibCall.rename old new).responseSize.toNat = 4 := rfl
  refine ⟨⟨fun _ => ?_, ⟨3, rfl⟩, rfl, rfl, size, rfl, hsize⟩, rfl, ?_, ?_,
    ?_, ?_, rfl, rfl⟩
  · simp only [roomySurroundings, answeringNet, amplestMalloc,
      decide_eq_true_eq]
    exact hfits
  · simp only [hresponse, roomySurroundings, answeringNet]
    omega
  · simp only [roomySurroundings]
    omega
  · simp only [roomySurroundings, LibCall.transmitted]
    omega
  · simp only [roomySurroundings, amplestMalloc, LibCall.transmitted,
      decide_eq_true_eq]
    omega

theorem not_renamesRight_of_local_old {old new : CString}
    (hold : old.isRemote = false) (hnew : new.isRemote = true) :
    ¬ RenamesRight old new := by
  intro hright
  let world : World ℕ ℕ := ⟨0, ⟨[], -1⟩, 0, List.replicate 8 0⟩
  have hinvoke := @invoke_realCall ℕ ℕ renamingOs renamingOs
    ⟨.rename old new, [], roomySurroundings 0⟩ (.rename old new) hold rfl
    world
  obtain ⟨outcome, next, hrun, hrouted⟩ := hright.2 ℕ ℕ renamingOs renamingOs
    (roomySurroundings 0) world rfl
    fun hremote => absurd (hold.symm.trans hremote) (by decide)
  rw [hinvoke, Except.ok.injEq, Option.some.injEq, Prod.mk.injEq] at hrun
  simp only [RenameRouted, hold, hnew] at hrouted
  rw [← hrun.1] at hrouted
  exact absurd (show (0 : ℤ) = -1 from hrouted.1) (by decide)

/-- The request is the same for two targets of one length that differ in
their first two characters only, and so is all that follows from it. -/
theorem invoke_rename_congr {κ σ : Type} (clientOs : Os κ) (serverOs : Os σ)
    {old new new' : CString} (hold : old.isRemote = true)
    (hlength : new.chars.length = new'.chars.length)
    (hrest : new.object.drop 2 = new'.object.drop 2)
    (surroundings : Surroundings) (world : World κ σ) :
    invoke clientOs serverOs ⟨.rename old new, [], surroundings⟩ world =
      invoke clientOs serverOs ⟨.rename old new', [], surroundings⟩ world := by
  have hrequest : renameRequest old new = renameRequest old new' := by
    simp only [renameRequest, pathSize, strlen, hlength, hrest]
  have hstub : ∀ net, stub clientOs net (.rename old new) [] world.client
      world.process = stub clientOs net (.rename old new') [] world.client
        world.process := by
    intro net
    simp only [stub, LibCall.isRemote, hold, if_true, remoteStub, stubRequest,
      hrequest, LibCall.requestOnHeap, LibCall.responseOnHeap,
      LibCall.responseSize, decodeResponse]
    rfl
  simp only [invoke, hstub]

/-- A local target of one character leaves nothing to send for `new`, and
the handler looks for it behind the payload. -/
theorem not_renameInside_of_one_char {old new : CString}
    (hold : old.isRemote = true) (holdFits : old.chars.length < addressSpace)
    (hnew : new.chars.length = 1) :
    ¬ RenameInside old new := by
  intro hinside
  have hne : new.chars ≠ [] := List.ne_nil_of_length_pos (by omega)
  have hencodes := renameRequest_encodes_object hold holdFits hne
    (by rw [hnew]; decide)
  have hdrop : new.object.drop 2 = [] := by
    apply List.drop_eq_nil_of_le
    rw [CString.object_length, hnew]
  rw [hdrop, List.append_nil] at hencodes
  obtain ⟨-, -, -, hsends⟩ := hinside hold
  obtain ⟨payload, hsent, hsucceeds⟩ := hsends (fun _ => 0) amplestMalloc
  rw [hencodes.sent_eq, Except.ok.injEq] at hsent
  rw [← List.append_cancel_left hsent, decode_eq_decodeFunction,
    decodeFunction, decodeRename] at hsucceeds
  have hfirst : stringAt (FunctionCode.RENAME.byte :: old.strip.object) 1 =
      .ok old.strip := by
    have hfield := stringAt_path .RENAME old.strip []
    rwa [List.append_nil] at hfield
  have hsecond : stringAt (FunctionCode.RENAME.byte :: old.strip.object)
      (1 + old.strip.chars.length + 1) = .error .outOfBounds := by
    have hnil : (FunctionCode.RENAME.byte :: old.strip.object).drop
        (1 + old.strip.chars.length + 1) = [] := by
      apply List.drop_eq_nil_of_le
      rw [List.length_cons, CString.object_length]
      omega
    rw [stringAt, hnil]
    rfl
  rw [hfirst] at hsucceeds
  simp [bind, Except.bind, hsecond] at hsucceeds

/-- To a longer local target the server renames too, as if its first two
characters were slashes. -/
theorem not_renamesRight_of_long_new {old new : CString}
    (hold : old.isRemote = true) (hnew : new.isRemote = false)
    (holdFits : old.chars.length < addressSpace)
    (hnewFits : new.chars.length < addressSpace)
    (hlong : 2 ≤ new.chars.length) :
    ¬ RenamesRight old new := by
  intro hright
  let new' := new.strip.addSlashes
  let size := 8 + (LibCall.rename old new).payload.length
  let world : World ℕ ℕ := ⟨0, ⟨[], -1⟩, 0, List.replicate 8 0⟩
  have hlength : new.chars.length = new'.chars.length := by
    simp only [new', CString.addSlashes, CString.strip, List.length_cons,
      List.length_drop]
    omega
  have hrest : new.object.drop 2 = new'.object.drop 2 := by
    simp only [new', CString.addSlashes, CString.strip, CString.object,
      List.cons_append, List.drop_succ_cons, List.drop_zero]
    rw [List.drop_append_of_le_length hlong]
  have hpayload : (LibCall.rename old new').payload =
      (LibCall.rename old new).payload := rfl
  have hfits : size < 2 ^ 63 := by
    have holdLength := CString.strip_object_length hold
    have hnewLength : new.strip.object.length + 1 = new.chars.length := by
      rw [CString.object_length, CString.strip, List.length_drop]
      omega
    unfold addressSpace at holdFits hnewFits
    simp only [size, LibCall.payload, List.length_cons, List.length_append]
    omega
  have hsend : (LibCall.rename old new').Sendable :=
    ⟨⟨hold, holdFits⟩, rfl, hlength ▸ hnewFits⟩
  have hideal : (roomySurroundings size).Ideal (.rename old new') :=
    roomySurroundings_ideal (by rw [hpayload]) (by rw [hpayload]; exact hfits)
  obtain ⟨outcome, next, hrun, hrouted⟩ := hright.2 ℕ ℕ renamingOs renamingOs
    (roomySurroundings size) world rfl
    fun _ => roomySurroundings_ideal (le_refl _) hfits
  obtain ⟨outcome', next', hinvoke, -, hserver, -, -⟩ :=
    @invoke_sendable ℕ ℕ renamingOs renamingOs
      ⟨.rename old new', [], roomySurroundings size⟩ hsend rfl hideal.whole
      world rfl
  rw [invoke_rename_congr renamingOs renamingOs hold hlength hrest, hinvoke,
    Except.ok.injEq, Option.some.injEq, Prod.mk.injEq] at hrun
  simp only [RenameRouted, hold, hnew] at hrouted
  rw [← hrun.2, hserver] at hrouted
  exact absurd (show 1 = 0 from hrouted.2.2) (by decide)

/-- `rename` routes and strips its paths rightly, without a wrap and without
leaving the strings, exactly when both paths are remote or neither is. -/
theorem renamesRight_iff {old new : CString}
    (holdFits : old.chars.length < addressSpace)
    (hnewFits : new.chars.length < addressSpace) :
    RenamesRight old new ↔ old.isRemote = new.isRemote := by
  cases hold : old.isRemote with
  | false =>
      cases hnew : new.isRemote with
      | false => exact iff_of_true (renamesRight_of_local hold hnew) rfl
      | true =>
          exact iff_of_false (not_renamesRight_of_local_old hold hnew)
            (by decide)
  | true =>
      cases hnew : new.isRemote with
      | true =>
          exact iff_of_true
            (renamesRight_of_remote hold hnew holdFits hnewFits) rfl
      | false =>
          refine iff_of_false (fun hright => ?_) (by decide)
          rcases Nat.lt_or_ge new.chars.length 2 with hshort | hlong
          · rcases Nat.eq_zero_or_pos new.chars.length with hempty | hpos
            · have hsize := (renameRequest_sent_empty old
                (List.eq_nil_of_length_eq_zero hempty) fun _ => 0).1
              have hinside := (hright.1 hold).2.1
              rw [hsize, hempty] at hinside
              exact absurd hinside (by decide)
            · exact not_renameInside_of_one_char hold holdFits (by omega)
                hright.1
          · exact not_renamesRight_of_long_new hold hnew holdFits hnewFits
              hlong hright

theorem renamesRight_remoteA : RenamesRight remoteA remoteA := by
  refine (renamesRight_iff ?_ ?_).mpr rfl
  · decide
  · decide

/-- `"tmp"` -/
def localTmp : CString := ⟨[0x74, 0x6d, 0x70], by decide⟩

/-- `rename("//a", "tmp")` renames `a` to `p` on the server and returns 0. -/
theorem not_renamesRight_remoteA_localTmp :
    (roomySurroundings 4096).Ideal (.rename remoteA localTmp) ∧
      (∃ next, invoke renamingOs renamingOs
          ⟨.rename remoteA localTmp, [], roomySurroundings 4096⟩
          ⟨0, ⟨[], -1⟩, 0, List.replicate 8 0⟩ =
            .ok (some (⟨0, []⟩, next)) ∧ next.server = 1) ∧
      ¬ RenamesRight remoteA localTmp := by
  have hideal : (roomySurroundings 4096).Ideal (.rename remoteA localTmp) :=
    roomySurroundings_ideal (by decide) (by decide)
  refine ⟨hideal, ⟨⟨0, ⟨[], 3⟩, 1, _⟩, rfl, rfl⟩, ?_⟩
  apply not_renamesRight_of_long_new <;> decide

end TestRpc
