import TestRpc.Programs
import TestRpc.ResponseContents

/-!
# Programs on the stubs

A program that is to work on the server's files has `"//"` put in front of its
paths and is linked with the stubs; nothing else in it changes.  Such a
program writes what the original writes when it runs on the server itself, as
long as it looks at a descriptor only to see whether `open` failed, and at a
buffer only as far as a call has filled it.
-/

namespace TestRpc

open BlockCopies StreamReceive Programs

/-! ## Programs and machines -/

/-- A call with what the buffer it is given holds before.  A program names its
descriptors by its own `open`s: the `fildes` of a call of a program is the
number of the `open` that returned the descriptor. -/
structure ProgramCall where
  call : LibCall
  memory : List UInt8

def LibCall.mapFildes (f : CInt → CInt) : LibCall → LibCall
  | .close fildes => .close (f fildes)
  | .read fildes nbyte => .read (f fildes) nbyte
  | .write fildes buf => .write (f fildes) buf
  | .lseek fildes offset whence => .lseek (f fildes) offset whence
  | .ftruncate fildes length => .ftruncate (f fildes) length
  | .fstat fildes => .fstat (f fildes)
  | .fsync fildes => .fsync (f fildes)
  | call => call

def LibCall.mapPaths (f : CString → CString) : LibCall → LibCall
  | .openCall path oflag mode => .openCall (f path) oflag mode
  | .truncate path length => .truncate (f path) length
  | .stat path => .stat (f path)
  | .rename old new => .rename (f old) (f new)
  | .unlink path => .unlink (f path)
  | call => call

def ProgramCall.relocated (request : ProgramCall) : ProgramCall :=
  { request with call := request.call.mapPaths CString.addSlashes }

/-- The descriptor that the program's `open` of this number returned. -/
def descriptor (opened : List CInt) (number : CInt) : CInt :=
  opened.getD number.toNat (-1)

/-- The call of the program that runs on the server itself. -/
def ProgramCall.native (request : ProgramCall) (opened : List CInt) :
    LibCall :=
  (request.call.mapFildes (descriptor opened)).effective

/-- The results of a program's `open`s after a call. -/
def LibCall.noteOpen (call : LibCall) (outcome : Outcome)
    (opened : List CInt) : List CInt :=
  match call with
  | .openCall _ _ _ => opened ++ [BitVec.ofInt 32 outcome.ret]
  | _ => opened

/-- The `open`s whose descriptors the program has closed. -/
def LibCall.noteClose (call : LibCall) (closed : List CInt) : List CInt :=
  match call with
  | .close number => closed ++ [number]
  | _ => closed

/-- A program's view of a call's outcome. -/
def View : Type := LibCall → Outcome → Outcome

structure Native (σ : Type) where
  os : σ
  opened : List CInt
  closed : List CInt
  calls : ℕ

/-- A machine on which programs call the operating system. -/
def nativeMachine {σ : Type} (os : Os σ) (view : View) (state : Native σ)
    (request : ProgramCall) : Option (Outcome × Native σ) :=
  let call := request.native state.opened
  let answer := os.exec state.os call
  let outcome := call.outcome answer.1 request.memory
  some (view request.call outcome,
    ⟨answer.2, request.call.noteOpen outcome state.opened,
      request.call.noteClose state.closed, state.calls + 1⟩)

structure Stubbed (κ σ : Type) where
  world : World κ σ
  opened : List CInt
  calls : ℕ

/-- A machine on which programs call the stubs; every call has its own
surroundings. -/
def stubMachine {κ σ : Type} (clientOs : Os κ) (serverOs : Os σ)
    (surroundings : ℕ → Surroundings) (view : View) (state : Stubbed κ σ)
    (request : ProgramCall) : Option (Outcome × Stubbed κ σ) :=
  let call := request.call.mapFildes (descriptor state.opened)
  match invoke clientOs serverOs
      ⟨call, request.memory, surroundings state.calls⟩ state.world with
  | .ok (some (outcome, world)) =>
      some (view request.call outcome,
        ⟨world, request.call.noteOpen outcome state.opened,
          state.calls + 1⟩)
  | _ => none

/-! ## What is asked of the machines -/

/-- A negative descriptor is not open: the call fails and changes nothing. -/
def Os.RejectsNegative {σ : Type} (os : Os σ) : Prop :=
  ∀ state call fildes, LibCall.fildes? call = some fildes →
    fildes.toInt < 0 → os.exec state call =
      ((failingOs.exec () call).1, state)

/-- `open` returns no descriptor that would be a local one as a handle. -/
def Os.KeepsDescriptorsSmall {σ : Type} (os : Os σ) : Prop :=
  ∀ state path oflag mode,
    @BitVec.toInt 32 (os.exec state (.openCall path oflag mode)).1 < 2 ^ 30

/-- The call of the program that runs on the stubs. -/
def ProgramCall.onStubs (request : ProgramCall) (opened : List CInt) :
    LibCall :=
  request.relocated.call.mapFildes (descriptor (opened.map handedOut))

/-- The call can be made of the stubs and has no mode that they do not look
at, the buffer has its size, and the transport loses nothing if the call is a
remote one. -/
structure Undisturbed {σ : Type} (surroundings : ℕ → Surroundings)
    (state : Native σ) (request : ProgramCall) : Prop where
  supported : request.relocated.call.Supported
  plain : request.relocated.call.makesTmpfile = false
  memory : request.memory.length = request.call.memorySize
  ideal : (request.onStubs state.opened).isRemote = true →
    (surroundings state.calls).Ideal (request.onStubs state.opened)

/-- The call has no descriptor that the program has closed.  The server may
have one of its connections under that number by now, which is nothing that
this operating system has open. -/
def Live {σ : Type} (state : Native σ) (request : ProgramCall) : Prop :=
  ∀ number ∈ request.call.fildes?, number ∉ state.closed

/-- A view does not tell the outcome of a call on the server from that of the
stub. -/
def Indistinct {σ : Type} (os : Os σ) (view : View) (state : Native σ)
    (request : ProgramCall) : Prop :=
  let call := request.native state.opened
  let reply := (os.exec state.os call).1
  (request.onStubs state.opened).isRemote = true →
    ∀ bufMalloc, view request.relocated.call
        (call.reported bufMalloc reply request.memory) =
      view request.call (call.outcome reply request.memory)

structure Relocated {κ σ : Type} (state : Native σ) (there : Stubbed κ σ) :
    Prop where
  os : there.world.server = state.os
  opened : there.opened = state.opened.map handedOut
  calls : there.calls = state.calls
  sizeBuf : there.world.payloadSizeBuf.length = 8
  small : ∀ fildes ∈ state.opened, fildes.toInt < 2 ^ 30

/-! ## Descriptors and paths -/

theorem handedOut_neg {fildes : CInt} (hneg : fildes.toInt < 0) :
    handedOut fildes = fildes := by
  rw [handedOut, if_neg (by omega)]

theorem descriptor_map_handedOut (opened : List CInt) (number : CInt) :
    descriptor (opened.map handedOut) number =
      handedOut (descriptor opened number) := by
  have hfailed : handedOut (-1) = -1 := by decide
  simp only [descriptor, List.getD_eq_getElem?_getD, List.getElem?_map]
  cases opened[number.toNat]? with
  | none => exact hfailed.symm
  | some fildes => rfl

theorem descriptor_small {opened : List CInt}
    (hsmall : ∀ fildes ∈ opened, fildes.toInt < 2 ^ 30) (number : CInt) :
    (descriptor opened number).toInt < 2 ^ 30 := by
  rw [descriptor, List.getD_eq_getElem?_getD]
  cases hfound : opened[number.toNat]? with
  | none => decide
  | some fildes => exact hsmall fildes (List.mem_of_getElem? hfound)

theorem isRemoteFildes_handedOut {fildes : CInt} (hnonneg : 0 ≤ fildes.toInt)
    (hsmall : fildes.toInt < 2 ^ 30) :
    isRemoteFildes (handedOut fildes) = true := by
  rw [isRemoteFildes, decide_eq_true_eq, handedOut_toInt, if_pos hnonneg]
  have hmax : INT_MAX.toInt = 2147483647 := by decide
  omega

theorem intMax_sub_handedOut {fildes : CInt} (hnonneg : 0 ≤ fildes.toInt) :
    INT_MAX - handedOut fildes = fildes := by
  rw [handedOut, if_pos hnonneg]
  bv_omega

theorem CString.isRemote_addSlashes (path : CString) :
    path.addSlashes.isRemote = true :=
  path.addSlashes.isRemote_iff.mpr ⟨path.chars, rfl⟩

theorem CString.strip_addSlashes (path : CString) :
    path.addSlashes.strip = path := by
  cases path
  rfl

/-- A descriptor of a program is one of the server's, which has a remote
handle, or comes from an `open` that failed. -/
theorem handedOut_descriptor_cases {opened : List CInt}
    (hsmall : ∀ fildes ∈ opened, fildes.toInt < 2 ^ 30) (number : CInt) :
    (isRemoteFildes (handedOut (descriptor opened number)) = true ∧
      INT_MAX - handedOut (descriptor opened number) =
        descriptor opened number) ∨
    ((descriptor opened number).toInt < 0 ∧
      handedOut (descriptor opened number) = descriptor opened number ∧
      isRemoteFildes (descriptor opened number) = false) := by
  by_cases hneg : (descriptor opened number).toInt < 0
  · refine .inr ⟨hneg, handedOut_neg hneg, ?_⟩
    have hmax : INT_MAX.toInt / 2 = 1073741823 := by decide
    rw [isRemoteFildes, hmax, decide_eq_false_iff_not]
    omega
  · exact .inl ⟨isRemoteFildes_handedOut (by omega)
        (descriptor_small hsmall number),
      intMax_sub_handedOut (by omega)⟩

/-- A call of a program either goes to the server as it would be made there,
or has a descriptor that an `open` has failed to return. -/
theorem ProgramCall.onStubs_cases (request : ProgramCall)
    {opened : List CInt}
    (hsmall : ∀ fildes ∈ opened, fildes.toInt < 2 ^ 30) :
    ((request.onStubs opened).isRemote = true ∧
      (request.onStubs opened).effective.onServer =
        request.native opened) ∨
    ∃ fildes, fildes.toInt < 0 ∧
      (request.native opened).fildes? = some fildes ∧
      (request.onStubs opened).effective = request.native opened ∧
      request.relocated = request ∧
      (request.onStubs opened).isRemote = false := by
  obtain ⟨call, memory⟩ := request
  simp only [ProgramCall.onStubs, ProgramCall.relocated,
    ProgramCall.native]
  cases call with
  | openCall path oflag mode =>
      refine .inl ⟨path.isRemote_addSlashes, ?_⟩
      simp only [LibCall.mapPaths, LibCall.mapFildes, LibCall.effective,
        LibCall.onServer, CString.strip_addSlashes]
  | truncate path length =>
      refine .inl ⟨path.isRemote_addSlashes, ?_⟩
      simp only [LibCall.mapPaths, LibCall.mapFildes, LibCall.effective,
        LibCall.onServer, CString.strip_addSlashes]
  | stat path | unlink path =>
      refine .inl ⟨path.isRemote_addSlashes, ?_⟩
      simp only [LibCall.mapPaths, LibCall.mapFildes, LibCall.effective,
        LibCall.onServer, CString.strip_addSlashes]
  | rename old new =>
      refine .inl ⟨old.isRemote_addSlashes, ?_⟩
      simp only [LibCall.mapPaths, LibCall.mapFildes, LibCall.effective,
        LibCall.onServer, CString.strip_addSlashes]
  | close fildes | read fildes nbyte | write fildes buf
  | lseek fildes offset whence | ftruncate fildes length | fstat fildes
  | fsync fildes =>
      simp only [LibCall.mapPaths, LibCall.mapFildes, LibCall.effective,
        LibCall.onServer, LibCall.isRemote, LibCall.fildes?,
        descriptor_map_handedOut]
      rcases handedOut_descriptor_cases hsmall fildes with
        ⟨hremote, hback⟩ | ⟨hneg, hsame, hlocal⟩
      · exact .inl ⟨hremote, by rw [hback]⟩
      · exact .inr ⟨_, hneg, rfl, by rw [hsame], trivial,
          by rw [hsame, hlocal]⟩

/-! ## Simulation -/

section Machines

variable {κ σ : Type} {clientOs : Os κ} {serverOs : Os σ}

theorem LibCall.memorySize_onStubs (request : ProgramCall)
    (opened : List CInt) :
    (request.onStubs opened).memorySize = request.call.memorySize := by
  obtain ⟨call, memory⟩ := request
  cases call <;> rfl

theorem LibCall.Supported.mapFildes {call : LibCall}
    (hsupported : call.Supported) (f : CInt → CInt) :
    (call.mapFildes f).Supported := by
  cases call <;> exact hsupported

@[simp] theorem LibCall.makesTmpfile_mapFildes (call : LibCall)
    (f : CInt → CInt) :
    (call.mapFildes f).makesTmpfile = call.makesTmpfile := by
  cases call <;> rfl

/-- The stub looks at the same arguments as the library function. -/
theorem Undisturbed.transmitted_eq {surroundings : ℕ → Surroundings}
    {state : Native σ} {request : ProgramCall}
    (hundisturbed : Undisturbed surroundings state request) :
    (request.onStubs state.opened).transmitted =
      (request.onStubs state.opened).effective := by
  refine (hundisturbed.supported.mapFildes _).transmitted_eq_iff.mpr ?_
  rw [LibCall.makesTmpfile_mapFildes]
  exact hundisturbed.plain

theorem noteOpen_reported (bufMalloc : Malloc) (request : ProgramCall)
    {opened : List CInt} (reply : (request.native opened).Reply) :
    request.call.noteOpen ((request.native opened).reported bufMalloc reply
        request.memory) (opened.map handedOut) =
      (request.call.noteOpen ((request.native opened).outcome reply
        request.memory) opened).map handedOut := by
  obtain ⟨call, memory⟩ := request
  cases call with
  | openCall path oflag mode =>
      simp only [LibCall.noteOpen, List.map_append, List.map_cons,
        List.map_nil]
      congr 2
      exact (BitVec.ofInt_toInt).trans
        (congrArg handedOut BitVec.ofInt_toInt.symm)
  | _ => rfl

theorem noteOpen_small (hsmall : serverOs.KeepsDescriptorsSmall)
    (request : ProgramCall) {state : Native σ}
    (hopened : ∀ fildes ∈ state.opened, fildes.toInt < 2 ^ 30) :
    ∀ fildes ∈ request.call.noteOpen ((request.native state.opened).outcome
        (serverOs.exec state.os (request.native state.opened)).1
        request.memory) state.opened, fildes.toInt < 2 ^ 30 := by
  obtain ⟨call, memory⟩ := request
  cases call with
  | openCall path oflag mode =>
      intro fildes hmem
      rcases List.mem_append.mp hmem with hold | hlast
      · exact hopened fildes hold
      · have hfildes := hsmall state.os path oflag
          (if needsMode oflag then mode else none)
        rw [List.mem_singleton.mp hlast]
        exact (congrArg BitVec.toInt BitVec.ofInt_toInt).trans_lt hfildes
  | _ => exact hopened

theorem Relocated.stubMachine_eq (view : View)
    {surroundings : ℕ → Surroundings} {state : Native σ}
    {there : Stubbed κ σ} (hrelocated : Relocated state there)
    {request : ProgramCall} {outcome : Outcome} {world : World κ σ}
    (hinvoke : invoke clientOs serverOs
      ⟨request.onStubs state.opened, request.memory,
        surroundings state.calls⟩ there.world =
      .ok (some (outcome, world))) :
    stubMachine clientOs serverOs surroundings view there
        request.relocated =
      some (view request.relocated.call outcome,
        ⟨world, request.call.noteOpen outcome
          (state.opened.map handedOut), state.calls + 1⟩) := by
  have hcall : request.relocated.call.mapFildes (descriptor there.opened) =
      request.onStubs state.opened := by
    rw [hrelocated.opened]
    rfl
  have hopen : request.relocated.call.noteOpen outcome there.opened =
      request.call.noteOpen outcome (state.opened.map handedOut) := by
    rw [hrelocated.opened]
    obtain ⟨call, memory⟩ := request
    cases call <;> rfl
  simp only [stubMachine, hcall, hrelocated.calls]
  rw [show request.relocated.memory = request.memory from rfl, hinvoke]
  simp only [hopen]

theorem Relocated.answer_remote (view : View)
    {surroundings : ℕ → Surroundings}
    (hsmall : serverOs.KeepsDescriptorsSmall)
    {state : Native σ} {there : Stubbed κ σ} {request : ProgramCall}
    (hrelocated : Relocated state there)
    (hundisturbed : Undisturbed surroundings state request)
    (hindistinct : Indistinct serverOs view state request)
    (hremote : (request.onStubs state.opened).isRemote = true)
    (hcall : (request.onStubs state.opened).effective.onServer =
      request.native state.opened) :
    ∃ answer after after',
      nativeMachine serverOs view state request = some (answer, after) ∧
      stubMachine clientOs serverOs surroundings view there
        request.relocated = some (answer, after') ∧
      Relocated after after' := by
  have hsupported : (request.onStubs state.opened).Supported :=
    hundisturbed.supported.mapFildes _
  have hideal := hundisturbed.ideal hremote
  obtain ⟨outcome, world, hinvoke, -, hserver, hsizeBuf, houtcome⟩ :=
    @invoke_sendable κ σ clientOs serverOs
      ⟨request.onStubs state.opened, request.memory,
        surroundings state.calls⟩
      (hsupported.sendable hremote)
      (by rw [LibCall.memorySize_onStubs]; exact hundisturbed.memory)
      hideal.whole there.world hrelocated.sizeBuf
  simp only [hideal.collects, if_true, hrelocated.os] at hserver houtcome
  rw [hundisturbed.transmitted_eq, hcall] at hserver houtcome
  subst houtcome
  have hstub := hrelocated.stubMachine_eq view hinvoke
  rw [hindistinct hremote] at hstub
  refine ⟨_, _, _, rfl, hstub, ?_⟩
  exact ⟨hserver, noteOpen_reported _ request _, rfl, hsizeBuf,
    noteOpen_small hsmall request hrelocated.small⟩

/-- A call whose descriptor is negative fails on the client and would fail on
the server. -/
theorem Relocated.answer_local (view : View)
    {surroundings : ℕ → Surroundings}
    (hclient : clientOs.RejectsNegative)
    (hserver : serverOs.RejectsNegative)
    {state : Native σ} {there : Stubbed κ σ} {request : ProgramCall}
    (hrelocated : Relocated state there)
    (hundisturbed : Undisturbed surroundings state request)
    {fildes : CInt} (hneg : fildes.toInt < 0)
    (hfildes : (request.native state.opened).fildes? = some fildes)
    (hcall : (request.onStubs state.opened).effective =
      request.native state.opened)
    (hsame : request.relocated = request)
    (hlocal : (request.onStubs state.opened).isRemote = false) :
    ∃ answer after after',
      nativeMachine serverOs view state request = some (answer, after) ∧
      stubMachine clientOs serverOs surroundings view there
        request.relocated = some (answer, after') ∧
      Relocated after after' := by
  have hsupported : (request.onStubs state.opened).Supported :=
    hundisturbed.supported.mapFildes _
  have hinvoke := @invoke_realCall κ σ clientOs serverOs
    ⟨request.onStubs state.opened, request.memory,
      surroundings state.calls⟩ _ hlocal hsupported.realCall_eq there.world
  rw [hundisturbed.transmitted_eq, hcall,
    hclient _ _ fildes hfildes hneg] at hinvoke
  have hstub := hrelocated.stubMachine_eq view hinvoke
  rw [hsame] at hstub ⊢
  have hopen : ∀ outcome opened,
      request.call.noteOpen outcome opened = opened := by
    intro outcome opened
    obtain ⟨call, memory⟩ := request
    cases call with
    | openCall path oflag mode => cases hfildes
    | _ => rfl
  refine ⟨_, ⟨state.os, state.opened, request.call.noteClose state.closed,
    state.calls + 1⟩, _, ?_, hstub, ?_⟩
  · simp only [nativeMachine, hserver _ _ fildes hfildes hneg, hopen]
  · refine ⟨hrelocated.os, ?_, rfl, hrelocated.sizeBuf, hrelocated.small⟩
    exact hopen _ _

theorem Relocated.answer (view : View) {surroundings : ℕ → Surroundings}
    (hclient : clientOs.RejectsNegative)
    (hserver : serverOs.RejectsNegative)
    (hsmall : serverOs.KeepsDescriptorsSmall)
    {state : Native σ} {there : Stubbed κ σ} {request : ProgramCall}
    (hrelocated : Relocated state there)
    (hallowed : Undisturbed surroundings state request ∧
      Indistinct serverOs view state request) :
    ∃ answer after after',
      nativeMachine serverOs view state request = some (answer, after) ∧
      stubMachine clientOs serverOs surroundings view there
        request.relocated = some (answer, after') ∧
      Relocated after after' := by
  rcases request.onStubs_cases hrelocated.small with
    ⟨hremote, hcall⟩ | ⟨fildes, hneg, hfildes, hcall, hsame, hlocal⟩
  · exact hrelocated.answer_remote view hsmall hallowed.1 hallowed.2 hremote
      hcall
  · exact hrelocated.answer_local view hclient hserver hallowed.1 hneg
      hfildes hcall hsame hlocal

theorem run_relocated_of_indistinct (view : View)
    {surroundings : ℕ → Surroundings}
    (hclient : clientOs.RejectsNegative)
    (hserver : serverOs.RejectsNegative)
    (hsmall : serverOs.KeepsDescriptorsSmall) {ω : Type}
    {program : Program ProgramCall Outcome ω} {world : World κ σ}
    (hsizeBuf : world.payloadSizeBuf.length = 8)
    (hmeets : program.Meets (nativeMachine serverOs view)
      (fun state request => Undisturbed surroundings state request ∧
        Indistinct serverOs view state request) ⟨world.server, [], [], 0⟩) :
    ∃ lines final final',
      program.run (nativeMachine serverOs view) ⟨world.server, [], [], 0⟩ =
        some (lines, final) ∧
      (program.translate ProgramCall.relocated).run
          (stubMachine clientOs serverOs surroundings view) ⟨world, [], 0⟩ =
        some (lines, final') ∧
      final'.world.server = final.os := by
  have hstart : Relocated (⟨world.server, [], [], 0⟩ : Native σ)
      (⟨world, [], 0⟩ : Stubbed κ σ) :=
    ⟨rfl, rfl, rfl, hsizeBuf, by simp⟩
  obtain ⟨lines, final, final', hrun, hrun', hfinal⟩ :=
    Program.run_translate
      (fun _ _ _ hrelocated hallowed =>
        hrelocated.answer view hclient hserver hsmall hallowed)
      hstart hmeets
  exact ⟨lines, final, final', hrun, hrun', hfinal.os⟩

/-! ## What programs look at -/

/-- The number of a descriptor means nothing to a program. -/
def hideNumber (outcome : Outcome) : Outcome :=
  { outcome with ret := if 0 ≤ outcome.ret then 0 else outcome.ret }

/-- A program looks at as much of a buffer as the call says it has
filled. -/
def seen : View
  | .openCall _ _ _, outcome => hideNumber outcome
  | .read _ _, outcome =>
      { outcome with memory := outcome.memory.take outcome.ret.toNat }
  | .stat _, outcome =>
      { outcome with memory := if outcome.ret = 0 then outcome.memory else [] }
  | .fstat _, outcome =>
      { outcome with memory := if outcome.ret = 0 then outcome.memory else [] }
  | _, outcome => outcome

theorem hideNumber_intOutcome (fildes : CInt) (memory : List UInt8) :
    hideNumber (intOutcome fildes memory) =
      ⟨if 0 ≤ fildes.toInt then 0 else fildes.toInt, memory⟩ := rfl

theorem hideNumber_handedOut (fildes : CInt) (memory : List UInt8) :
    hideNumber (intOutcome (handedOut fildes) memory) =
      hideNumber (intOutcome fildes memory) := by
  have hupper : fildes.toInt < 2 ^ 31 := @BitVec.toInt_lt 32 fildes
  have hmax : INT_MAX.toInt = 2147483647 := by decide
  rw [hideNumber_intOutcome, hideNumber_intOutcome, handedOut_toInt]
  by_cases hnonneg : 0 ≤ fildes.toInt
  · rw [if_pos hnonneg, if_pos hnonneg, if_pos (by omega)]
  · rw [if_neg hnonneg, if_neg hnonneg]

theorem take_fillFront (destination got : List UInt8) :
    (fillFront destination got).take got.length = got := by
  rw [fillFront_eq, List.take_left]

theorem indistinct_seen (os : Os σ) (state : Native σ)
    (request : ProgramCall) : Indistinct os seen state request := by
  intro hremote bufMalloc
  obtain ⟨call, memory⟩ := request
  generalize (os.exec state.os (ProgramCall.native ⟨call, memory⟩
    state.opened)).1 = reply
  cases call with
  | openCall path oflag mode => exact hideNumber_handedOut reply memory
  | read fildes nbyte =>
      cases reply with
      | none => rfl
      | some data =>
          exact congrArg (Outcome.mk data.bytes.length)
            ((take_fillFront _ data.bytes).trans
              (take_fillFront memory data.bytes).symm)
  | stat path | fstat fildes =>
      cases reply with
      | none => rfl
      | some statbuf => rfl
  | _ => rfl

/-- Every program, whatever its calls depend on, writes the same lines on the
stubs as on the server itself and has the same effect there, when its calls
can be made of the stubs, it uses no descriptor that it has closed, and it
looks at descriptors only to see whether `open` failed and at buffers only as
far as they are filled. -/
theorem Program.run_relocated {surroundings : ℕ → Surroundings}
    (hclient : clientOs.RejectsNegative)
    (hserver : serverOs.RejectsNegative)
    (hsmall : serverOs.KeepsDescriptorsSmall) {ω : Type}
    {program : Program ProgramCall Outcome ω} {world : World κ σ}
    (hsizeBuf : world.payloadSizeBuf.length = 8)
    (hmeets : program.Meets (nativeMachine serverOs seen)
      (fun state request => Undisturbed surroundings state request ∧
        Live state request) ⟨world.server, [], [], 0⟩) :
    ∃ lines final final',
      program.run (nativeMachine serverOs seen) ⟨world.server, [], [], 0⟩ =
        some (lines, final) ∧
      (program.translate ProgramCall.relocated).run
          (stubMachine clientOs serverOs surroundings seen) ⟨world, [], 0⟩ =
        some (lines, final') ∧
      final'.world.server = final.os := by
  apply run_relocated_of_indistinct seen hclient hserver hsmall hsizeBuf
  exact hmeets.mono fun state request hallowed =>
    ⟨hallowed.1, indistinct_seen serverOs state request⟩

end Machines

/-! ## An operating system to try programs on -/

theorem plainRead_length {nbyte : SizeT} (hcount : nbyte.toNat ≤ 128) :
    (List.replicate nbyte.toNat (5 : UInt8)).length ≤ nbyte.toNat ∧
      (List.replicate nbyte.toNat (5 : UInt8)).length ≤ SSIZE_MAX := by
  rw [List.length_replicate, SSIZE_MAX]
  exact ⟨le_rfl, by omega⟩

/-- The replies of a system in which every file holds one byte over and
over. -/
def plainReply : (call : LibCall) → call.Reply
  | .openCall _ _ _ => (3 : CInt)
  | .close _ => (0 : CInt)
  | .read _ nbyte =>
      if hcount : nbyte.toNat ≤ 128 then
        some ⟨List.replicate nbyte.toNat 5, (plainRead_length hcount).1,
          (plainRead_length hcount).2⟩
      else
        none
  | .write _ buf => BitVec.ofNat 64 buf.length
  | .lseek _ offset _ => offset
  | .truncate _ _ => (0 : CInt)
  | .ftruncate _ _ => (0 : CInt)
  | .stat _ => some ⟨List.replicate sizeofStat 0, List.length_replicate⟩
  | .fstat _ => some ⟨List.replicate sizeofStat 0, List.length_replicate⟩
  | .fsync _ => (0 : CInt)
  | .rename _ _ => (0 : CInt)
  | .unlink _ => (0 : CInt)

/-- It counts the calls that it has made. -/
def plainOs : Os ℕ where
  exec := fun made call =>
    match call.fildes? with
    | none => (plainReply call, made + 1)
    | some fildes =>
        if fildes.msb then ((failingOs.exec () call).1, made)
        else (plainReply call, made + 1)

theorem plainOs_rejectsNegative : plainOs.RejectsNegative := by
  intro made call fildes hfildes hneg
  have hmsb : fildes.msb = true := by
    rw [BitVec.msb_eq_toInt, decide_eq_true_eq]
    exact hneg
  simp only [plainOs, hfildes, hmsb, if_true]

theorem plainOs_keepsDescriptorsSmall : plainOs.KeepsDescriptorsSmall := by
  intro made path oflag mode
  have hthree : (3 : CInt).toInt = 3 := by decide
  change (3 : CInt).toInt < 2 ^ 30
  omega

instance : ∀ call : LibCall, Decidable call.Supported
  | .openCall _ _ _ => inferInstanceAs (Decidable (_ ∧ (_ → _) ∧ (_ → _)))
  | .close _ => isTrue trivial
  | .read _ _ => inferInstanceAs (Decidable (_ ≤ _))
  | .write _ _ => inferInstanceAs (Decidable (_ ≤ _))
  | .lseek _ _ _ => isTrue trivial
  | .truncate _ _ => inferInstanceAs (Decidable (_ < _))
  | .ftruncate _ _ => isTrue trivial
  | .stat _ => inferInstanceAs (Decidable (_ < _))
  | .fstat _ => isTrue trivial
  | .fsync _ => isTrue trivial
  | .rename _ _ => inferInstanceAs (Decidable (_ ∧ _ ∧ _))
  | .unlink _ => inferInstanceAs (Decidable (_ < _))

theorem amplestSurroundings_ideal {call : LibCall}
    (hpayload : call.transmitted.payload.length ≤ 4000)
    (hresponse : call.responseSize.toNat ≤ 4000)
    (hbuf : ∀ size ∈ call.handlerBuf, size ≤ 4000) :
    amplestSurroundings.Ideal call := by
  refine ⟨⟨fun _ => ?_, ⟨3, rfl⟩, rfl, rfl, 4096, rfl, by omega⟩, ?_, ?_,
    by decide, ?_, ?_, ?_, ?_⟩
  · simp only [amplestSurroundings, answeringNet, amplestMalloc,
      decide_eq_true_eq]
    omega
  · simp only [Net.collects, amplestSurroundings, answeringNet,
      amplestMalloc, Bool.and_true, Bool.or_eq_true, decide_eq_true_eq]
    right
    omega
  · simp only [amplestSurroundings, answeringNet]
    omega
  · simp only [amplestSurroundings]
    omega
  · simp only [amplestSurroundings, amplestMalloc, decide_eq_true_eq]
    omega
  · rw [Malloc.servesFor]
    cases hsize : call.handlerBuf with
    | none => rfl
    | some size =>
        have hle := hbuf size hsize
        simp only [amplestSurroundings, amplestMalloc, decide_eq_true_eq]
        omega
  · simp only [amplestSurroundings, amplestMalloc, decide_eq_true_eq]
    omega

/-- Opens a file and reads it to the end of a buffer that the first byte gives
the size of. -/
def readByFirst (path : CString) : Program ProgramCall Outcome ℤ :=
  .call ⟨.openCall path 0 none, []⟩ fun opened =>
    if opened.ret < 0 then .done
    else .call ⟨.read 0 1, [0]⟩ fun first =>
      let size := (first.memory.headD 0).toNat
      .call ⟨.read 0 (BitVec.ofNat 64 size), List.replicate size 0⟩
        fun rest => .write rest.ret .done

def pathA : CString := ⟨[0x61], by decide⟩

theorem run_relocated_readByFirst :
    ∃ final final',
      (readByFirst pathA).run (nativeMachine plainOs seen) ⟨0, [], [], 0⟩ =
        some ([5], final) ∧
      ((readByFirst pathA).translate ProgramCall.relocated).run
          (stubMachine plainOs plainOs (fun _ => amplestSurroundings) seen)
          ⟨⟨0, ⟨[], -1⟩, 0, List.replicate 8 0⟩, [], 0⟩ =
        some ([5], final') ∧
      final'.world.server = final.os := by
  have hopen : nativeMachine plainOs seen ⟨0, [], [], 0⟩
      ⟨.openCall pathA 0 none, []⟩ = some (⟨0, []⟩, ⟨1, [3], [], 1⟩) := rfl
  have hfirst : nativeMachine plainOs seen ⟨1, [3], [], 1⟩
      ⟨.read 0 1, [0]⟩ = some (⟨1, [5]⟩, ⟨2, [3], [], 2⟩) := rfl
  have hrest : nativeMachine plainOs seen ⟨2, [3], [], 2⟩
      ⟨.read 0 5, [0, 0, 0, 0, 0]⟩ =
        some (⟨5, [5, 5, 5, 5, 5]⟩, ⟨3, [3], [], 3⟩) := rfl
  have hmeets : (readByFirst pathA).Meets (nativeMachine plainOs seen)
      (fun state request =>
        Undisturbed (fun _ => amplestSurroundings) state request ∧
          Live state request) ⟨0, [], [], 0⟩ := by
    refine Program.meets_call _ _
      ⟨⟨by decide, rfl, rfl, fun _ => ?_⟩, by simp [Live]⟩ hopen ?_
    · exact amplestSurroundings_ideal (by decide) (by decide) (by decide)
    refine Program.meets_call _ _
      ⟨⟨by decide, rfl, rfl, fun _ => ?_⟩, by simp [Live]⟩ hfirst ?_
    · exact amplestSurroundings_ideal (by decide) (by decide) (by decide)
    refine Program.meets_call _ _
      ⟨⟨by decide, rfl, rfl, fun _ => ?_⟩, by simp [Live]⟩ hrest ?_
    · exact amplestSurroundings_ideal (by decide) (by decide) (by decide)
    trivial
  obtain ⟨lines, final, final', hrun, hrun', hserver⟩ :=
    @Program.run_relocated ℕ ℕ plainOs plainOs _ plainOs_rejectsNegative
      plainOs_rejectsNegative plainOs_keepsDescriptorsSmall _ _
      ⟨0, ⟨[], -1⟩, 0, List.replicate 8 0⟩ rfl hmeets
  have hlines : (readByFirst pathA).run (nativeMachine plainOs seen)
      ⟨0, [], [], 0⟩ = some ([5], ⟨3, [3], [], 3⟩) := rfl
  rw [hlines, Option.some.injEq, Prod.mk.injEq] at hrun
  obtain ⟨rfl, rfl⟩ := hrun
  exact ⟨_, final', hlines, hrun', hserver⟩

/-! ## `local.c` and `remote.c` -/

/-- What the two programs print: the size and the time of the file, and the
result of a `read` with the string in `buf`. -/
inductive Line
  | fileSize (stSize : BitVec 64)
  | lastModified (stMtime : BitVec 64)
  | status (status : ℤ) (buf : List UInt8)
  deriving DecidableEq

def O_RDWR : CInt := 2

def SEEK_SET : CInt := 0

def bytesOfString (text : String) : List UInt8 :=
  text.toList.map fun char => UInt8.ofNat char.toNat

/-- `%s` -/
def printed (buf : List UInt8) : List UInt8 :=
  buf.takeWhile (· ≠ 0)

/-- The body that `local.c` and `remote.c` share, with what `statbuf` holds
uninitialised; `st_size` and `st_mtime` are at the offsets 48 and 88 of a
`struct stat`.  `local.c` goes on to list the directory. -/
def mainBody (testFile renamedFile deletedFile : CString)
    (statbuf : List UInt8) : Program ProgramCall Outcome Line :=
  let buf := List.replicate 200 0
  .call ⟨.stat testFile, statbuf⟩ fun stat =>
  .write (.fileSize (field 64 stat.memory 48)) <|
  .write (.lastModified (field 64 stat.memory 88)) <|
  .call ⟨.openCall testFile O_RDWR none, []⟩ fun _ =>
  .call ⟨.read 0 5, buf.take 5⟩ fun first =>
  let buf := first.memory ++ buf.drop 5
  .write (.status first.ret (printed buf)) <|
  .call ⟨.lseek 0 0 SEEK_SET, []⟩ fun _ =>
  .call ⟨.read 0 6, (buf.drop 5).take 6⟩ fun second =>
  let buf := buf.take 5 ++ second.memory ++ buf.drop 11
  .write (.status second.ret (printed buf)) <|
  .call ⟨.write 0 (bytesOfString "word"), []⟩ fun _ =>
  .call ⟨.ftruncate 0 30, []⟩ fun _ =>
  .call ⟨.fsync 0, []⟩ fun _ =>
  .call ⟨.close 0, []⟩ fun _ =>
  .call ⟨.rename testFile renamedFile, []⟩ fun _ =>
  .call ⟨.unlink deletedFile, []⟩ fun _ =>
  .done

def localMain : List UInt8 → Program ProgramCall Outcome Line :=
  mainBody ⟨bytesOfString "test_file.txt", by decide⟩
    ⟨bytesOfString "renamed_file.txt", by decide⟩
    ⟨bytesOfString "deleted_file.txt", by decide⟩

def remoteMain : List UInt8 → Program ProgramCall Outcome Line :=
  mainBody ⟨bytesOfString "//test_file.txt", by decide⟩
    ⟨bytesOfString "//renamed_file.txt", by decide⟩
    ⟨bytesOfString "//deleted_file.txt", by decide⟩

theorem remoteMain_eq (statbuf : List UInt8) :
    remoteMain statbuf =
      (localMain statbuf).translate ProgramCall.relocated := rfl

/-- The two programs look at their buffers as a whole. -/
def whole : View
  | .openCall _ _ _, outcome => hideNumber outcome
  | _, outcome => outcome

/-- A call that goes to the server is not disturbed, and fills its buffer
there. -/
def Fulfilled {σ : Type} (surroundings : ℕ → Surroundings) (os : Os σ)
    (state : Native σ) (request : ProgramCall) : Prop :=
  (request.onStubs state.opened).isRemote = true →
    (surroundings state.calls).Ideal (request.onStubs state.opened) ∧
      (request.native state.opened).FillsBuffer
        (os.exec state.os (request.native state.opened)).1

/-- A call with arguments and buffer as they should be. -/
def ProgramCall.Sized (request : ProgramCall) : Prop :=
  request.relocated.call.Supported ∧
    request.relocated.call.makesTmpfile = false ∧
    request.memory.length = request.call.memorySize

/-- A buffer keeps its size. -/
def ProgramCall.KeepsSize (request : ProgramCall) (answer : Outcome) : Prop :=
  answer.memory.length = request.memory.length

/-- A stub makes of a reply that fills the buffer what the library function
makes of it. -/
theorem LibCall.reported_eq_outcome (bufMalloc : Malloc) {call : LibCall}
    {reply : call.Reply} {memory : List UInt8}
    (hopen : ∀ path oflag mode, call ≠ .openCall path oflag mode)
    (hmemory : memory.length = call.memorySize)
    (hfills : call.FillsBuffer reply) :
    call.reported bufMalloc reply memory = call.outcome reply memory := by
  cases call with
  | openCall path oflag mode => exact absurd rfl (hopen path oflag mode)
  | read fildes nbyte =>
      have hfresh := freshBlock_length bufMalloc.contents nbyte.toNat
      cases reply with
      | none =>
          have hzero : 0 = nbyte.toNat := hfills
          have hbuf : freshBlock bufMalloc.contents nbyte.toNat = memory := by
            rw [List.eq_nil_of_length_eq_zero (hmemory.trans hzero.symm)]
            exact List.eq_nil_of_length_eq_zero (hfresh.trans hzero.symm)
          exact congrArg (Outcome.mk (-1)) hbuf
      | some data =>
          have hdata : data.bytes.length = nbyte.toNat := hfills
          exact congrArg (Outcome.mk data.bytes.length)
            ((fillFront_whole (hfresh.trans hdata.symm)).trans
              (fillFront_whole (hmemory.trans hdata.symm)).symm)
  | stat path | fstat fildes =>
      cases reply with
      | none =>
          have hnone : 0 = sizeofStat := hfills
          exact absurd hnone (by decide)
      | some statbuf => rfl
  | _ => rfl

theorem indistinct_whole {σ : Type} {os : Os σ} {state : Native σ}
    {request : ProgramCall} (hsized : request.Sized)
    (hfills : (request.onStubs state.opened).isRemote = true →
      (request.native state.opened).FillsBuffer
        (os.exec state.os (request.native state.opened)).1) :
    Indistinct os whole state request := by
  intro hremote bufMalloc
  have hfilled := hfills hremote
  obtain ⟨call, memory⟩ := request
  cases call with
  | openCall path oflag mode => exact hideNumber_handedOut _ memory
  | _ =>
      exact LibCall.reported_eq_outcome bufMalloc
        (fun path oflag mode hcall => by cases hcall) (by exact hsized.2.2)
        hfilled

theorem LibCall.outcome_memory_length {call : LibCall} (reply : call.Reply)
    {memory : List UInt8} (hmemory : memory.length = call.memorySize) :
    (call.outcome reply memory).memory.length = memory.length := by
  cases call with
  | read fildes nbyte =>
      cases reply with
      | none => rfl
      | some data => exact fillFront_length (hmemory ▸ data.fits)
  | stat path | fstat fildes =>
      cases reply with
      | none => rfl
      | some statbuf => exact statbuf.size.trans hmemory.symm
  | _ => rfl

theorem nativeMachine_memory_length {σ : Type} (os : Os σ)
    {state after : Native σ} {request : ProgramCall} {answer : Outcome}
    (hsized : request.Sized)
    (hanswer : nativeMachine os whole state request =
      some (answer, after)) : request.KeepsSize answer := by
  obtain ⟨call, memory⟩ := request
  have hsize : (ProgramCall.native ⟨call, memory⟩ state.opened).memorySize =
      call.memorySize := by
    cases call <;> rfl
  have hlength := LibCall.outcome_memory_length
    (os.exec state.os (ProgramCall.native ⟨call, memory⟩ state.opened)).1
    (hsized.2.2.trans hsize.symm)
  rw [nativeMachine, Option.some.injEq, Prod.mk.injEq] at hanswer
  rw [ProgramCall.KeepsSize, ← hanswer.1]
  cases call <;> exact hlength

theorem localMain_makesOnly {statbuf : List UInt8}
    (hstatbuf : statbuf.length = sizeofStat) :
    (localMain statbuf).MakesOnly ProgramCall.Sized
      ProgramCall.KeepsSize := by
  refine ⟨⟨?_, rfl, hstatbuf⟩, fun stat _ => ?_⟩
  · change _ < addressSpace
    decide
  refine ⟨⟨by decide, rfl, rfl⟩, fun opened _ => ?_⟩
  refine ⟨⟨by decide, rfl, rfl⟩, fun first hfirst => ?_⟩
  have hbuf : (first.memory ++ (List.replicate 200 0).drop 5).length = 200 := by
    have hlength : first.memory.length = 5 := hfirst
    rw [List.length_append, hlength, List.length_drop, List.length_replicate]
  refine ⟨⟨by decide, rfl, rfl⟩, fun sought _ => ?_⟩
  refine ⟨⟨?_, rfl, ?_⟩, fun second _ => ?_⟩
  · change _ ≤ SSIZE_MAX
    decide
  · change (List.take 6 _).length = 6
    rw [List.length_take, List.length_drop, hbuf]
    rfl
  refine ⟨⟨by decide, rfl, rfl⟩, fun written _ => ?_⟩
  refine ⟨⟨by decide, rfl, rfl⟩, fun truncated _ => ?_⟩
  refine ⟨⟨by decide, rfl, rfl⟩, fun synced _ => ?_⟩
  refine ⟨⟨by decide, rfl, rfl⟩, fun closed _ => ?_⟩
  refine ⟨⟨by decide, rfl, rfl⟩, fun renamed _ => ?_⟩
  exact ⟨⟨by decide, rfl, rfl⟩, fun unlinked _ => trivial⟩

/-- `remote.c` prints what `local.c` prints on the server before it lists the
directory, and does there to the files what `local.c` does, as long as the
transport loses nothing and the calls that reach the server fill their
buffers. -/
theorem remoteMain_writes_localMain {κ σ : Type} {clientOs : Os κ}
    {serverOs : Os σ} {surroundings : ℕ → Surroundings}
    (hclient : clientOs.RejectsNegative)
    (hserver : serverOs.RejectsNegative)
    (hsmall : serverOs.KeepsDescriptorsSmall) {statbuf : List UInt8}
    (hstatbuf : statbuf.length = sizeofStat) {world : World κ σ}
    (hsizeBuf : world.payloadSizeBuf.length = 8)
    (hfulfilled : (localMain statbuf).Meets (nativeMachine serverOs whole)
      (Fulfilled surroundings serverOs) ⟨world.server, [], [], 0⟩) :
    ∃ lines final final',
      (localMain statbuf).run (nativeMachine serverOs whole)
          ⟨world.server, [], [], 0⟩ = some (lines, final) ∧
      (remoteMain statbuf).run
          (stubMachine clientOs serverOs surroundings whole)
          ⟨world, [], 0⟩ = some (lines, final') ∧
      final'.world.server = final.os := by
  have hkeeps : ∀ state (request : ProgramCall) answer after,
      request.Sized →
      nativeMachine serverOs whole state request = some (answer, after) →
      request.KeepsSize answer :=
    fun _ _ _ _ hgood hanswer =>
      nativeMachine_memory_length serverOs hgood hanswer
  have hsized := hfulfilled.and_makesOnly hkeeps
    (localMain_makesOnly hstatbuf)
  rw [remoteMain_eq]
  apply run_relocated_of_indistinct whole hclient hserver hsmall hsizeBuf
  refine hsized.mono fun state request hallowed => ⟨?_, ?_⟩
  · exact ⟨hallowed.2.1, hallowed.2.2.1, hallowed.2.2.2,
      fun hremote => (hallowed.1 hremote).1⟩
  · exact indistinct_whole hallowed.2 fun hremote => (hallowed.1 hremote).2

theorem plainOs_fulfilled {state : Native ℕ} {request : ProgramCall}
    (hpayload : (request.onStubs state.opened).transmitted.payload.length ≤
      4000)
    (hresponse : (request.onStubs state.opened).responseSize.toNat ≤ 4000)
    (hbuf : ∀ size ∈ (request.onStubs state.opened).handlerBuf, size ≤ 4000)
    (hfills : (request.native state.opened).FillsBuffer
      (plainOs.exec state.os (request.native state.opened)).1) :
    Fulfilled (fun _ => amplestSurroundings) plainOs state request :=
  fun _ => ⟨amplestSurroundings_ideal hpayload hresponse hbuf, hfills⟩

/-- On a server where every file reads as the byte five. -/
theorem remoteMain_writes_localMain_plainOs :
    ∃ final final',
      (localMain (List.replicate sizeofStat 7)).run
          (nativeMachine plainOs whole) ⟨0, [], [], 0⟩ =
        some ([.fileSize 0, .lastModified 0,
          .status 5 (List.replicate 5 5),
          .status 6 (List.replicate 11 5)], final) ∧
      (remoteMain (List.replicate sizeofStat 7)).run
          (stubMachine plainOs plainOs (fun _ => amplestSurroundings) whole)
          ⟨⟨0, ⟨[], -1⟩, 0, List.replicate 8 0⟩, [], 0⟩ =
        some ([.fileSize 0, .lastModified 0,
          .status 5 (List.replicate 5 5),
          .status 6 (List.replicate 11 5)], final') ∧
      final'.world.server = final.os := by
  have hmeets : (localMain (List.replicate sizeofStat 7)).Meets
      (nativeMachine plainOs whole)
      (Fulfilled (fun _ => amplestSurroundings) plainOs) ⟨0, [], [], 0⟩ := by
    refine Program.meets_call ⟨0, List.replicate sizeofStat 0⟩ ⟨1, [], [], 1⟩
      (plainOs_fulfilled (by decide) (by decide) (by decide) rfl) rfl ?_
    refine Program.meets_call ⟨0, []⟩ ⟨2, [3], [], 2⟩
      (plainOs_fulfilled (by decide) (by decide) (by decide) rfl) rfl ?_
    refine Program.meets_call ⟨5, List.replicate 5 5⟩ ⟨3, [3], [], 3⟩
      (plainOs_fulfilled (by decide) (by decide) (by decide) rfl) rfl ?_
    refine Program.meets_call ⟨0, []⟩ ⟨4, [3], [], 4⟩
      (plainOs_fulfilled (by decide) (by decide) (by decide) rfl) rfl ?_
    refine Program.meets_call ⟨6, List.replicate 6 5⟩ ⟨5, [3], [], 5⟩
      (plainOs_fulfilled (by decide) (by decide) (by decide) rfl) rfl ?_
    refine Program.meets_call ⟨4, []⟩ ⟨6, [3], [], 6⟩
      (plainOs_fulfilled (by decide) (by decide) (by decide) rfl) rfl ?_
    refine Program.meets_call ⟨0, []⟩ ⟨7, [3], [], 7⟩
      (plainOs_fulfilled (by decide) (by decide) (by decide) rfl) rfl ?_
    refine Program.meets_call ⟨0, []⟩ ⟨8, [3], [], 8⟩
      (plainOs_fulfilled (by decide) (by decide) (by decide) rfl) rfl ?_
    refine Program.meets_call ⟨0, []⟩ ⟨9, [3], [0], 9⟩
      (plainOs_fulfilled (by decide) (by decide) (by decide) rfl) rfl ?_
    refine Program.meets_call ⟨0, []⟩ ⟨10, [3], [0], 10⟩
      (plainOs_fulfilled (by decide) (by decide) (by decide) rfl) rfl ?_
    refine Program.meets_call ⟨0, []⟩ ⟨11, [3], [0], 11⟩
      (plainOs_fulfilled (by decide) (by decide) (by decide) rfl) rfl ?_
    trivial
  obtain ⟨lines, final, final', hrun, hrun', hserver⟩ :=
    @remoteMain_writes_localMain ℕ ℕ plainOs plainOs _
      plainOs_rejectsNegative plainOs_rejectsNegative
      plainOs_keepsDescriptorsSmall _ rfl
      ⟨0, ⟨[], -1⟩, 0, List.replicate 8 0⟩ rfl hmeets
  have hlines : (localMain (List.replicate sizeofStat 7)).run
      (nativeMachine plainOs whole) ⟨0, [], [], 0⟩ =
      some ([.fileSize 0, .lastModified 0, .status 5 (List.replicate 5 5),
        .status 6 (List.replicate 11 5)], ⟨11, [3], [0], 11⟩) := rfl
  rw [hlines, Option.some.injEq, Prod.mk.injEq] at hrun
  obtain ⟨rfl, rfl⟩ := hrun
  exact ⟨_, final', hlines, hrun', hserver⟩

end TestRpc
