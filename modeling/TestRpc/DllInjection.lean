import TestRpc.ImportHooks
import TestRpc.RequestRoundTrip
import TestRpc.TransitionRuns

/-!
# Injection of the shim

`dll_injector.c` starts `local.exe` with its main thread suspended, writes the
path of the shim into the child, has a thread of the child run `LoadLibraryA`
on it and then resumes the main thread.  The loader calls `DllMain`, which
calls `HookIAT`.  Three threads take steps in any order: the injector, the
thread that loads the shim and the main thread of the child.  The imports of
the child are bound before any of its threads runs code of its own.

The calls that make, write, resume, load, wait, close and free may fail.
Nobody looks at the results of `WriteProcessMemory`, `WaitForSingleObject`,
`CloseHandle`, `VirtualFreeEx`, `ResumeThread`, `VirtualProtect` and of the
loading; `LoadLibraryA` itself is always found.  Where no wait fails and
`HookIAT` can write to the slot that it hooks, nothing goes wrong; and where
besides nothing fails that closes or frees, nothing is left open.
-/

namespace TestRpc

open ByteMemory RepeatedSearch TransitionRuns

/-- A string cut off after some bytes. -/
def CString.cut (string : CString) (count : ℕ) : CString where
  chars := string.chars.take count
  noNul := fun hmem => string.noNul (List.mem_of_mem_take hmem)

namespace Windows

/-! ## The shim -/

/-- The arguments of `CreateFileA`. -/
structure CreateFileArgs where
  lpFileName : BitVec 64
  dwDesiredAccess : BitVec 32
  dwShareMode : BitVec 32
  lpSecurityAttributes : BitVec 64
  dwCreationDisposition : BitVec 32
  dwFlagsAndAttributes : BitVec 32
  hTemplateFile : BitVec 64
  deriving DecidableEq

/-- What a call of `CreateFileA` does: the line of the hook, and the call of
the function of `KERNEL32.dll`. -/
inductive Effect
  | puts
  | createFileA (arguments : CreateFileArgs)
  deriving DecidableEq

inductive Reason
  | processAttach
  | threadAttach
  | threadDetach
  | processDetach
  deriving DecidableEq

/-- The child as the shim finds it: what the loader answers, the handle of the
program, the address of `HookedCreateFileA` and the paths that `LoadLibraryA`
finds the shim under.  `fuel` bounds the loops of `HookIAT`, and `stack` the
depth of calls. -/
structure Child where
  loader : Loader
  hModule : ℕ
  hook : BitVec 64
  finds : CString → Bool
  fuel : ℕ
  stack : ℕ

def Child.target (child : Child) : BitVec 64 :=
  child.loader.target createFileA

def Child.dllMain (child : Child) (reason : Reason) (process : Process) :
    Option Process :=
  if reason = .processAttach then
    hookIAT child.loader child.hModule createFileA child.hook child.fuel
      process
  else
    some process

/-- A jump to a function that the caller takes for `CreateFileA`.
`HookedCreateFileA` passes its arguments on. -/
def Child.jump (child : Child) (process : Process) :
    ℕ → BitVec 64 → CreateFileArgs → Option (List Effect)
  | 0, _, _ => none
  | depth + 1, function, arguments =>
      if function = child.hook then
        match child.jump process depth process.hookedCreateFileA
            arguments with
        | none => none
        | some effects => some (.puts :: effects)
      else if function = child.target then
        some [.createFileA arguments]
      else
        none

/-! ## The injector -/

/-- `"winshim.dll"` -/
def dllPath : CString :=
  ⟨[0x77, 0x69, 0x6e, 0x73, 0x68, 0x69, 0x6d, 0x2e, 0x64, 0x6c, 0x6c],
    by decide⟩

/-- The statement that the injector is at. -/
inductive Stage
  | createProcess
  | virtualAllocEx
  | writeProcessMemory
  | createRemoteThread
  | waitForSingleObject
  | closeThread
  | virtualFreeEx
  | resumeThread
  | closeProcess
  | closeMainThread
  | returned (status : CInt)
  deriving DecidableEq

/-- The thread that runs `LoadLibraryA(remoteMemory)`.  It reads the path,
looks for the library and calls its `DllMain`. -/
inductive RemoteThread
  | absent
  | started
  | named (path : CString)
  | attaching
  | finished
  deriving DecidableEq

/-- The two processes.  `remoteMemory` is what `VirtualAllocEx` has reserved
in the child; `calls` are the calls of `CreateFileA` that the program has made
by its import table, with their slots. -/
structure Injection where
  stage : Stage
  processHandle : Bool
  mainThreadHandle : Bool
  threadHandle : Bool
  remoteMemory : Option (List UInt8)
  thread : RemoteThread
  process : Process
  attached : Bool
  resumed : Bool
  calls : List (ℕ × CreateFileArgs)
  effects : List Effect
  crashed : Bool

/-- In `attach`, `writable` says whether the page of the slot to be hooked can
be written, because `VirtualProtect` has succeeded or because it could be
before. -/
inductive InjectionEvent
  | createProcessA (succeeds : Bool)
  | virtualAllocEx (succeeds : Bool)
  | writeProcessMemory (count : ℕ)
  | createRemoteThread (succeeds : Bool)
  | waitForSingleObject (succeeds : Bool)
  | closeHandle (succeeds : Bool)
  | virtualFreeEx (succeeds : Bool)
  | resumeThread (succeeds : Bool)
  | readPath
  | loadLibrary (succeeds : Bool)
  | attach (writable : Bool)
  | notify (reason : Reason)
  | call (slot : ℕ) (arguments : CreateFileArgs)

def Injection.start (image : Memory) : Injection where
  stage := .createProcess
  processHandle := false
  mainThreadHandle := false
  threadHandle := false
  remoteMemory := none
  thread := .absent
  process := ⟨image, 0⟩
  attached := false
  resumed := false
  calls := []
  effects := []
  crashed := false

section Steps

variable (child : Child) (dllPath : CString) (injection : Injection)

/-- A step of the injector, in the order of `main` and `InjectDLL`. -/
def Injection.createProcessA (succeeds : Bool) : Option Injection :=
  if injection.stage = .createProcess then
    if succeeds then
      some { injection with
        stage := .virtualAllocEx
        processHandle := true
        mainThreadHandle := true }
    else
      some { injection with stage := .returned 1 }
  else
    none

/-- The pages are zero at first. -/
def Injection.virtualAllocEx (succeeds : Bool) : Option Injection :=
  if injection.stage = .virtualAllocEx then
    if succeeds then
      some { injection with
        stage := .writeProcessMemory
        remoteMemory := some (List.replicate dllPath.object.length 0) }
    else
      some { injection with stage := .resumeThread }
  else
    none

/-- Only the first `count` bytes may get written. -/
def Injection.writeProcessMemory (count : ℕ) : Option Injection :=
  if injection.stage = .writeProcessMemory then
    some { injection with
      stage := .createRemoteThread
      remoteMemory := injection.remoteMemory.map fun block =>
        dllPath.object.take count ++ block.drop count }
  else
    none

def Injection.createRemoteThread (succeeds : Bool) : Option Injection :=
  if injection.stage = .createRemoteThread then
    if succeeds then
      some { injection with
        stage := .waitForSingleObject
        threadHandle := true
        thread := .started }
    else
      some { injection with stage := .virtualFreeEx }
  else
    none

/-- A wait that fails returns at once. -/
def Injection.waitForSingleObject (succeeds : Bool) : Option Injection :=
  if injection.stage = .waitForSingleObject ∧
      (succeeds = true → injection.thread = .finished) then
    some { injection with stage := .closeThread }
  else
    none

/-- A handle that cannot be closed stays open. -/
def Injection.closeHandle (succeeds : Bool) : Option Injection :=
  match injection.stage with
  | .closeThread =>
      some { injection with
        stage := .virtualFreeEx
        threadHandle := injection.threadHandle && !succeeds }
  | .closeProcess =>
      some { injection with
        stage := .closeMainThread
        processHandle := injection.processHandle && !succeeds }
  | .closeMainThread =>
      some { injection with
        stage := .returned 0
        mainThreadHandle := injection.mainThreadHandle && !succeeds }
  | _ => none

def Injection.virtualFreeEx (succeeds : Bool) : Option Injection :=
  if injection.stage = .virtualFreeEx then
    some { injection with
      stage := .resumeThread
      remoteMemory := if succeeds then none else injection.remoteMemory }
  else
    none

def Injection.resumeThread (succeeds : Bool) : Option Injection :=
  if injection.stage = .resumeThread then
    some { injection with stage := .closeProcess, resumed := succeeds }
  else
    none

/-- `LoadLibraryA` reads its argument, which has to end within the block, as
long as this exists. -/
def Injection.readPath : Option Injection :=
  if injection.thread = .started then
    match injection.remoteMemory.bind scan with
    | none => some { injection with crashed := true }
    | some path => some { injection with thread := .named path }
  else
    none

def Injection.loadLibrary (succeeds : Bool) : Option Injection :=
  match injection.thread with
  | .named path =>
      if succeeds ∧ child.finds path = true then
        some { injection with thread := .attaching }
      else
        some { injection with thread := .finished }
  | _ => none

/-- `HookIAT` assigns `originalCreateFileA` between `VirtualProtect` and the
store into the slot, and does so only for a slot that it hooks. -/
def Injection.attach (writable : Bool) : Option Injection :=
  if injection.thread = .attaching then
    match child.dllMain .processAttach injection.process with
    | none => some { injection with crashed := true }
    | some process =>
        if writable = false ∧ process.originalCreateFileA ≠
            injection.process.originalCreateFileA then
          some { injection with crashed := true }
        else
          some { injection with
            process := process
            attached := true
            thread := .finished }
  else
    none

/-- A later call of `DllMain`; the loader attaches a library once. -/
def Injection.notify (reason : Reason) : Option Injection :=
  if injection.attached ∧ reason ≠ .processAttach then
    match child.dllMain reason injection.process with
    | none => some { injection with crashed := true }
    | some process => some { injection with process := process }
  else
    none

/-- The program calls `CreateFileA`: its code jumps to the address in a slot
of the import table. -/
def Injection.call (slot : ℕ) (arguments : CreateFileArgs) :
    Option Injection :=
  if injection.resumed then
    match child.jump injection.process child.stack
        (load 64 injection.process.memory slot) arguments with
    | none => some { injection with crashed := true }
    | some effects =>
        some { injection with
          calls := injection.calls ++ [(slot, arguments)]
          effects := injection.effects ++ effects }
  else
    none

def Injection.step : InjectionEvent → Option Injection
  | .createProcessA succeeds => injection.createProcessA succeeds
  | .virtualAllocEx succeeds => injection.virtualAllocEx dllPath succeeds
  | .writeProcessMemory count => injection.writeProcessMemory dllPath count
  | .createRemoteThread succeeds => injection.createRemoteThread succeeds
  | .waitForSingleObject succeeds => injection.waitForSingleObject succeeds
  | .closeHandle succeeds => injection.closeHandle succeeds
  | .virtualFreeEx succeeds => injection.virtualFreeEx succeeds
  | .resumeThread succeeds => injection.resumeThread succeeds
  | .readPath => injection.readPath
  | .loadLibrary succeeds => injection.loadLibrary child succeeds
  | .attach writable => injection.attach child writable
  | .notify reason => injection.notify child reason
  | .call slot arguments => injection.call child slot arguments

end Steps

/-! ## What the statements hold -/

/-- The block after the first `count` bytes have been written. -/
def written (dllPath : CString) (count : ℕ) : List UInt8 :=
  dllPath.object.take count ++
    (List.replicate dllPath.object.length 0).drop count

/-- Whatever was written ends in the block, since its last byte is zero
either way. -/
theorem scan_written (dllPath : CString) (count : ℕ) :
    scan (written dllPath count) = some (dllPath.cut count) := by
  have hobject : dllPath.object.length = dllPath.chars.length + 1 := by
    simp [CString.object]
  by_cases hall : dllPath.chars.length < count
  · have hcut : dllPath.cut count = dllPath := by
      simp only [CString.cut]
      congr
      exact List.take_of_length_le hall.le
    have hwritten : written dllPath count = dllPath.object ++ [] := by
      rw [written, List.take_of_length_le (by omega),
        List.drop_eq_nil_of_le (by rw [List.length_replicate]; omega)]
    rw [hwritten, scan_object, hcut]
  · have hzeros : (List.replicate dllPath.object.length (0 : UInt8)).drop
        count = [0] ++ List.replicate (dllPath.chars.length - count) 0 := by
      rw [List.drop_replicate, hobject,
        show dllPath.chars.length + 1 - count =
          dllPath.chars.length - count + 1 by omega]
      rfl
    have hchars : dllPath.object.take count = dllPath.chars.take count := by
      rw [CString.object, List.take_append_of_le_length (by omega)]
    rw [written, hzeros, hchars, ← List.append_assoc]
    exact scan_object (dllPath.cut count) _

def RemoteThread.Over (thread : RemoteThread) : Prop :=
  thread = .absent ∨ thread = .finished

/-- The thread exists, and has read a path that is cut off at most. -/
def RemoteThread.Runs (dllPath : CString) : RemoteThread → Prop
  | .absent => False
  | .named path => ∃ count, path = dllPath.cut count
  | _ => True

/-- What there is when the injector is at a statement: the block in the child
for as long as it is needed, the thread that loads the shim, and whether the
main thread runs. -/
def Stage.Fits (dllPath : CString) :
    Stage → Option (List UInt8) → RemoteThread → Bool → Prop
  | .createProcess, _, thread, resumed =>
      thread = .absent ∧ resumed = false
  | .virtualAllocEx, _, thread, resumed =>
      thread = .absent ∧ resumed = false
  | .writeProcessMemory, block, thread, resumed =>
      block = some (written dllPath 0) ∧ thread = .absent ∧ resumed = false
  | .createRemoteThread, block, thread, resumed =>
      (∃ count, block = some (written dllPath count)) ∧ thread = .absent ∧
        resumed = false
  | .waitForSingleObject, block, thread, resumed =>
      (∃ count, block = some (written dllPath count)) ∧
        thread.Runs dllPath ∧ resumed = false
  | .closeThread, _, thread, resumed => thread.Over ∧ resumed = false
  | .virtualFreeEx, _, thread, resumed => thread.Over ∧ resumed = false
  | .resumeThread, _, thread, resumed => thread.Over ∧ resumed = false
  | .closeProcess, _, thread, _ => thread.Over
  | .closeMainThread, _, thread, _ => thread.Over
  | .returned _, _, thread, _ => thread.Over

def Injection.Fits (dllPath : CString) (injection : Injection) : Prop :=
  injection.stage.Fits dllPath injection.remoteMemory injection.thread
    injection.resumed

/-- How many steps the thread that loads the shim has before it. -/
def RemoteThread.rank : RemoteThread → ℕ
  | .absent => 0
  | .started => 3
  | .named _ => 2
  | .attaching => 1
  | .finished => 0

def Stage.rank : Stage → ℕ
  | .createProcess => 13
  | .virtualAllocEx => 12
  | .writeProcessMemory => 11
  | .createRemoteThread => 10
  | .waitForSingleObject => 6
  | .closeThread => 5
  | .virtualFreeEx => 4
  | .resumeThread => 3
  | .closeProcess => 2
  | .closeMainThread => 1
  | .returned _ => 0

def Injection.rank (injection : Injection) : ℕ :=
  injection.stage.rank + injection.thread.rank

/-- A step of the injector.  It changes the child only by its threads and its
memory. -/
structure Injection.Moves (dllPath : CString)
    (injection next : Injection) : Prop where
  fits : next.Fits dllPath
  child : next.crashed = injection.crashed ∧
    next.process = injection.process ∧
    next.attached = injection.attached ∧ next.calls = injection.calls ∧
    next.effects = injection.effects
  finished : injection.thread = .finished → next.thread = .finished
  running : injection.resumed = true → next.resumed = true
  rank : next.rank < injection.rank

section Order

variable {child : Child} {dllPath : CString} {injection next : Injection}

theorem Injection.Fits.at_stage {stage : Stage}
    (hfits : injection.Fits dllPath) (hstage : injection.stage = stage) :
    stage.Fits dllPath injection.remoteMemory injection.thread
      injection.resumed := by
  rw [← hstage]
  exact hfits

theorem Injection.Fits.createProcessA {succeeds : Bool}
    (hfits : injection.Fits dllPath)
    (hstep : injection.createProcessA succeeds = some next) :
    injection.Moves dllPath next := by
  rw [Injection.createProcessA] at hstep
  split at hstep
  case isTrue hstage =>
    obtain ⟨hthread, hresumed⟩ := hfits.at_stage hstage
    split at hstep <;> cases hstep
    · exact ⟨⟨hthread, hresumed⟩, ⟨rfl, rfl, rfl, rfl, rfl⟩, id, id,
        by simp [Injection.rank, hstage, Stage.rank]⟩
    · exact ⟨.inl hthread, ⟨rfl, rfl, rfl, rfl, rfl⟩, id, id,
        by simp [Injection.rank, hstage, Stage.rank]⟩
  case isFalse => cases hstep

theorem Injection.Fits.virtualAllocEx {succeeds : Bool}
    (hfits : injection.Fits dllPath)
    (hstep : injection.virtualAllocEx dllPath succeeds = some next) :
    injection.Moves dllPath next := by
  rw [Injection.virtualAllocEx] at hstep
  split at hstep
  case isTrue hstage =>
    obtain ⟨hthread, hresumed⟩ := hfits.at_stage hstage
    split at hstep <;> cases hstep
    · exact ⟨⟨rfl, hthread, hresumed⟩, ⟨rfl, rfl, rfl, rfl, rfl⟩, id, id,
        by simp [Injection.rank, hstage, Stage.rank]⟩
    · exact ⟨⟨.inl hthread, hresumed⟩, ⟨rfl, rfl, rfl, rfl, rfl⟩, id, id,
        by simp [Injection.rank, hstage, Stage.rank]⟩
  case isFalse => cases hstep

theorem Injection.Fits.writeProcessMemory {count : ℕ}
    (hfits : injection.Fits dllPath)
    (hstep : injection.writeProcessMemory dllPath count = some next) :
    injection.Moves dllPath next := by
  rw [Injection.writeProcessMemory] at hstep
  split at hstep
  case isTrue hstage =>
    obtain ⟨hblock, hthread, hresumed⟩ := hfits.at_stage hstage
    cases hstep
    refine ⟨⟨⟨count, ?_⟩, hthread, hresumed⟩, ⟨rfl, rfl, rfl, rfl, rfl⟩,
      id, id, by simp [Injection.rank, hstage, Stage.rank]⟩
    simp [hblock, written]
  case isFalse => cases hstep

theorem Injection.Fits.createRemoteThread {succeeds : Bool}
    (hfits : injection.Fits dllPath)
    (hstep : injection.createRemoteThread succeeds = some next) :
    injection.Moves dllPath next := by
  rw [Injection.createRemoteThread] at hstep
  split at hstep
  case isTrue hstage =>
    obtain ⟨hblock, hthread, hresumed⟩ := hfits.at_stage hstage
    split at hstep <;> cases hstep
    · refine ⟨⟨hblock, trivial, hresumed⟩, ⟨rfl, rfl, rfl, rfl, rfl⟩,
        fun hfinished => ?_, id, ?_⟩
      · rw [hthread] at hfinished
        cases hfinished
      · simp [Injection.rank, hstage, hthread, Stage.rank,
          RemoteThread.rank]
    · exact ⟨⟨.inl hthread, hresumed⟩, ⟨rfl, rfl, rfl, rfl, rfl⟩, id, id,
        by simp [Injection.rank, hstage, Stage.rank]⟩
  case isFalse => cases hstep

theorem Injection.Fits.waitForSingleObject
    (hfits : injection.Fits dllPath)
    (hstep : injection.waitForSingleObject true = some next) :
    injection.Moves dllPath next := by
  rw [Injection.waitForSingleObject] at hstep
  split at hstep
  case isTrue hguard =>
    obtain ⟨-, -, hresumed⟩ := hfits.at_stage hguard.1
    cases hstep
    exact ⟨⟨.inr (hguard.2 rfl), hresumed⟩,
      ⟨rfl, rfl, rfl, rfl, rfl⟩, id, id,
      by simp [Injection.rank, hguard.1, Stage.rank]⟩
  case isFalse => cases hstep

theorem Injection.Fits.closeHandle {succeeds : Bool}
    (hfits : injection.Fits dllPath)
    (hstep : injection.closeHandle succeeds = some next) :
    injection.Moves dllPath next := by
  rw [Injection.closeHandle] at hstep
  split at hstep
  case h_1 hstage =>
    have hover := hfits.at_stage hstage
    cases hstep
    exact ⟨hover, ⟨rfl, rfl, rfl, rfl, rfl⟩, id, id,
      by simp [Injection.rank, hstage, Stage.rank]⟩
  case h_2 hstage =>
    have hover := hfits.at_stage hstage
    cases hstep
    exact ⟨hover, ⟨rfl, rfl, rfl, rfl, rfl⟩, id, id,
      by simp [Injection.rank, hstage, Stage.rank]⟩
  case h_3 hstage =>
    have hover := hfits.at_stage hstage
    cases hstep
    exact ⟨hover, ⟨rfl, rfl, rfl, rfl, rfl⟩, id, id,
      by simp [Injection.rank, hstage, Stage.rank]⟩
  case h_4 => cases hstep

theorem Injection.Fits.virtualFreeEx {succeeds : Bool}
    (hfits : injection.Fits dllPath)
    (hstep : injection.virtualFreeEx succeeds = some next) :
    injection.Moves dllPath next := by
  rw [Injection.virtualFreeEx] at hstep
  split at hstep
  case isTrue hstage =>
    have hover := hfits.at_stage hstage
    cases hstep
    exact ⟨hover, ⟨rfl, rfl, rfl, rfl, rfl⟩, id, id,
      by simp [Injection.rank, hstage, Stage.rank]⟩
  case isFalse => cases hstep

theorem Injection.Fits.resumeThread {succeeds : Bool}
    (hfits : injection.Fits dllPath)
    (hstep : injection.resumeThread succeeds = some next) :
    injection.Moves dllPath next := by
  rw [Injection.resumeThread] at hstep
  split at hstep
  case isTrue hstage =>
    obtain ⟨hover, hresumed⟩ := hfits.at_stage hstage
    cases hstep
    refine ⟨hover, ⟨rfl, rfl, rfl, rfl, rfl⟩, id, fun hrunning => ?_,
      by simp [Injection.rank, hstage, Stage.rank]⟩
    rw [hresumed] at hrunning
    cases hrunning
  case isFalse => cases hstep

theorem Injection.Fits.waiting (hfits : injection.Fits dllPath)
    (hruns : ¬ injection.thread.Over) :
    injection.stage = .waitForSingleObject := by
  have habsent : injection.thread ≠ .absent := fun h => hruns (.inl h)
  cases hstage : injection.stage with
  | waitForSingleObject => rfl
  | createProcess => exact absurd (hfits.at_stage hstage).1 habsent
  | virtualAllocEx => exact absurd (hfits.at_stage hstage).1 habsent
  | writeProcessMemory => exact absurd (hfits.at_stage hstage).2.1 habsent
  | createRemoteThread => exact absurd (hfits.at_stage hstage).2.1 habsent
  | closeThread => exact absurd (hfits.at_stage hstage).1 hruns
  | virtualFreeEx => exact absurd (hfits.at_stage hstage).1 hruns
  | resumeThread => exact absurd (hfits.at_stage hstage).1 hruns
  | closeProcess => exact absurd (hfits.at_stage hstage) hruns
  | closeMainThread => exact absurd (hfits.at_stage hstage) hruns
  | returned status => exact absurd (hfits.at_stage hstage) hruns

/-- Once the main thread runs, the thread that loads the shim is over. -/
theorem Injection.Fits.resumed (hfits : injection.Fits dllPath)
    (hresumed : injection.resumed = true) :
    (injection.stage = .closeProcess ∨ injection.stage = .closeMainThread ∨
      ∃ status, injection.stage = .returned status) ∧
      injection.thread.Over := by
  have hrunning : injection.resumed ≠ false := by simp [hresumed]
  cases hstage : injection.stage with
  | createProcess => exact absurd (hfits.at_stage hstage).2 hrunning
  | virtualAllocEx => exact absurd (hfits.at_stage hstage).2 hrunning
  | writeProcessMemory =>
      exact absurd (hfits.at_stage hstage).2.2 hrunning
  | createRemoteThread =>
      exact absurd (hfits.at_stage hstage).2.2 hrunning
  | waitForSingleObject =>
      exact absurd (hfits.at_stage hstage).2.2 hrunning
  | closeThread => exact absurd (hfits.at_stage hstage).2 hrunning
  | virtualFreeEx => exact absurd (hfits.at_stage hstage).2 hrunning
  | resumeThread => exact absurd (hfits.at_stage hstage).2 hrunning
  | closeProcess => exact ⟨.inl rfl, hfits.at_stage hstage⟩
  | closeMainThread => exact ⟨.inr (.inl rfl), hfits.at_stage hstage⟩
  | returned status =>
      exact ⟨.inr (.inr ⟨status, rfl⟩), hfits.at_stage hstage⟩

end Order

/-! ## Calls through the import table -/

/-- The shim and the import table of the child. -/
structure Child.Ready (child : Child) (table : ImportTable)
    (image : Memory) : Prop where
  inMemory : table.InMemory child.hModule image
  separate : table.Separate child.hModule
  hook : child.hook ≠ 0
  differs : child.hook ≠ child.target
  fuel : rounds table.descriptors ≤ child.fuel
  stack : 2 ≤ child.stack

/-- The slots by which the program calls `CreateFileA`. -/
def Child.imports (child : Child) (table : ImportTable) (image : Memory) :
    List ℕ :=
  table.targets image child.target

/-- The child before and after the shim is attached. -/
def Child.processWhen (child : Child) (table : ImportTable)
    (image : Memory) (attached : Bool) : Process :=
  if attached then
    Process.hookOnce child.target child.hook table ⟨image, 0⟩
  else
    ⟨image, 0⟩

/-- A call reaches `CreateFileA` once, with the arguments it was made with,
and the hook sees it if it is made by the first slot. -/
def Child.effectsOf (child : Child) (table : ImportTable) (image : Memory)
    (attached : Bool) (call : ℕ × CreateFileArgs) : List Effect :=
  if attached = true ∧ (child.imports table image).head? = some call.1 then
    [.puts, .createFileA call.2]
  else
    [.createFileA call.2]

section Calls

variable {child : Child} {table : ImportTable} {image : Memory}

theorem Child.load_of_mem_imports {slot : ℕ}
    (hslot : slot ∈ child.imports table image) :
    slot ∈ table.slots ∧ load 64 image slot = child.target := by
  have htarget := List.mem_filter.mp hslot
  exact ⟨(kernelSlots_sublist _).subset htarget.1, by simpa using htarget.2⟩

theorem Child.Ready.dllMain_attach (hready : child.Ready table image) :
    child.dllMain .processAttach (child.processWhen table image false) =
      some (child.processWhen table image true) := by
  rw [Child.dllMain, if_pos rfl]
  exact hookIAT_eq hready.inMemory hready.fuel

theorem Child.processWhen_of_nil (hnone : child.imports table image = []) :
    child.processWhen table image true =
      child.processWhen table image false := by
  have hfind : (kernelSlots table.descriptors).find? (fun slot =>
      isTarget child.target (load 64 image slot)) = none := by
    rw [← List.head?_filter, List.head?_eq_none_iff]
    exact hnone
  simp only [Child.processWhen, if_true, Process.hookOnce,
    Process.hookFirst, hfind]
  rfl

theorem mem_take_one_iff {slots : List ℕ} {slot : ℕ} :
    slot ∈ slots.take 1 ↔ slots.head? = some slot := by
  cases slots with
  | nil => simp
  | cons first rest => simp [eq_comm]

theorem Child.Ready.load_attached (hready : child.Ready table image)
    {slot : ℕ} (hslot : slot ∈ child.imports table image) :
    load 64 (child.processWhen table image true).memory slot =
        (if (child.imports table image).head? = some slot then child.hook
        else child.target) ∧
      (child.processWhen table image true).originalCreateFileA =
        child.target := by
  obtain ⟨hshows, horiginal⟩ := hready.separate.shows_iterate
    hready.inMemory hready.hook hready.differs 1
  obtain ⟨hmem, hvalue⟩ := Child.load_of_mem_imports hslot
  constructor
  · refine (hshows.slots slot hmem).trans ?_
    rw [replaceIn, hvalue]
    exact if_congr mem_take_one_iff rfl rfl
  · refine horiginal.trans (if_pos ?_)
    have hpos : 0 < (child.imports table image).length :=
      List.length_pos_of_mem hslot
    rw [Child.imports] at hpos
    omega

theorem Child.jump_target (hdiffers : child.hook ≠ child.target)
    (process : Process) (depth : ℕ) (arguments : CreateFileArgs) :
    child.jump process (depth + 1) child.target arguments =
      some [.createFileA arguments] := by
  rw [Child.jump, if_neg (Ne.symm hdiffers), if_pos rfl]

theorem Child.Ready.jump_eq (hready : child.Ready table image)
    (attached : Bool) {slot : ℕ} (hslot : slot ∈ child.imports table image)
    (arguments : CreateFileArgs) :
    child.jump (child.processWhen table image attached) child.stack
        (load 64 (child.processWhen table image attached).memory slot)
        arguments =
      some (child.effectsOf table image attached (slot, arguments)) := by
  obtain ⟨depth, hdepth⟩ : ∃ depth, child.stack = depth + 1 + 1 :=
    ⟨child.stack - 2, by have := hready.stack; omega⟩
  rw [hdepth, Child.effectsOf]
  cases attached with
  | false =>
      have hvalue : load 64 (child.processWhen table image false).memory
          slot = child.target := (Child.load_of_mem_imports hslot).2
      rw [hvalue, Child.jump_target hready.differs]
      rfl
  | true =>
      obtain ⟨hvalue, horiginal⟩ := hready.load_attached hslot
      rw [hvalue]
      by_cases hfirst : (child.imports table image).head? = some slot
      · rw [if_pos hfirst, if_pos ⟨rfl, hfirst⟩, Child.jump, if_pos rfl,
          Process.hookedCreateFileA, horiginal,
          Child.jump_target hready.differs]
      · rw [if_neg hfirst, if_neg fun h => hfirst h.2,
          Child.jump_target hready.differs]

end Calls

/-! ## Runs -/

/-- The program calls `CreateFileA` by slots that hold its address, the wait
for the loading does not fail, and a slot that `HookIAT` hooks can be
written. -/
def Child.Unhindered (child : Child) (table : ImportTable)
    (image : Memory) : Injection → InjectionEvent → Prop
  | _, .call slot _ => slot ∈ child.imports table image
  | _, .waitForSingleObject succeeds => succeeds = true
  | _, .attach writable => writable = true ∨ child.imports table image = []
  | _, _ => True

/-- Nothing fails that closes a handle or frees the block. -/
def InjectionEvent.releases : InjectionEvent → Bool
  | .closeHandle succeeds => succeeds
  | .virtualFreeEx succeeds => succeeds
  | _ => true

/-- The statements of `dll_injector.c`; the others are of the child. -/
def InjectionEvent.ofInjector : InjectionEvent → Bool
  | .readPath | .loadLibrary _ | .attach _ | .notify _ | .call _ _ => false
  | _ => true

/-- The handles that the injector has open, and whether the block in the child
exists. -/
structure Holdings where
  processHandle : Bool
  mainThreadHandle : Bool
  threadHandle : Bool
  remoteMemory : Bool
  deriving DecidableEq

def Injection.holdings (injection : Injection) : Holdings :=
  ⟨injection.processHandle, injection.mainThreadHandle,
    injection.threadHandle, injection.remoteMemory.isSome⟩

def Stage.holdings : Stage → Holdings
  | .createProcess => ⟨false, false, false, false⟩
  | .virtualAllocEx => ⟨true, true, false, false⟩
  | .writeProcessMemory => ⟨true, true, false, true⟩
  | .createRemoteThread => ⟨true, true, false, true⟩
  | .waitForSingleObject => ⟨true, true, true, true⟩
  | .closeThread => ⟨true, true, true, true⟩
  | .virtualFreeEx => ⟨true, true, false, true⟩
  | .resumeThread => ⟨true, true, false, false⟩
  | .closeProcess => ⟨true, true, false, false⟩
  | .closeMainThread => ⟨false, true, false, false⟩
  | .returned _ => ⟨false, false, false, false⟩

/-- The injector has open what it still needs. -/
def Injection.Tidy (injection : Injection) : Prop :=
  injection.holdings = injection.stage.holdings

structure Injection.Intact (child : Child) (dllPath : CString)
    (table : ImportTable) (image : Memory) (injection : Injection) :
    Prop where
  fits : injection.Fits dllPath
  crashed : injection.crashed = false
  process : injection.process =
    child.processWhen table image injection.attached
  unattached : injection.thread ≠ .finished → injection.attached = false
  suspended : injection.resumed = false → injection.calls = []
  effects : injection.effects = injection.calls.flatMap
    (child.effectsOf table image injection.attached)

section Runs

variable {child : Child} {dllPath : CString} {table : ImportTable}
  {image : Memory} {injection next : Injection}

theorem Injection.start_intact :
    (Injection.start image).Intact child dllPath table image :=
  ⟨⟨rfl, rfl⟩, rfl, rfl, fun _ => rfl, fun _ => rfl, rfl⟩

theorem Injection.Moves.intact (hmoves : injection.Moves dllPath next)
    (hintact : injection.Intact child dllPath table image) :
    next.Intact child dllPath table image ∧ next.rank + 1 ≤ injection.rank := by
  obtain ⟨hcrashed, hprocess, hattached, hcalls, heffects⟩ := hmoves.child
  refine ⟨?_, hmoves.rank⟩
  constructor
  case fits => exact hmoves.fits
  case crashed => exact hcrashed.trans hintact.crashed
  case process => rw [hprocess, hattached, hintact.process]
  case unattached =>
    intro hnext
    rw [hattached]
    exact hintact.unattached fun h => hnext (hmoves.finished h)
  case suspended =>
    intro hnext
    rw [hcalls]
    apply hintact.suspended
    cases hbefore : injection.resumed with
    | false => rfl
    | true =>
        rw [hmoves.running hbefore] at hnext
        cases hnext
  case effects => rw [heffects, hcalls, hattached, hintact.effects]

/-- The thread that loads the shim takes its steps while the injector waits
for it. -/
theorem Injection.Intact.waiting
    (hintact : injection.Intact child dllPath table image)
    (hruns : ¬ injection.thread.Over) :
    injection.stage = .waitForSingleObject ∧
      (∃ count, injection.remoteMemory = some (written dllPath count)) ∧
      injection.thread.Runs dllPath ∧ injection.attached = false ∧
      injection.calls = [] ∧ injection.resumed = false := by
  have hstage := hintact.fits.waiting hruns
  obtain ⟨hblock, hthread, hresumed⟩ := hintact.fits.at_stage hstage
  exact ⟨hstage, hblock, hthread,
    hintact.unattached fun h => hruns (.inr h), hintact.suspended hresumed,
    hresumed⟩

theorem Injection.Intact.to_thread
    (hintact : injection.Intact child dllPath table image)
    (hruns : ¬ injection.thread.Over) {thread : RemoteThread}
    (hthread : thread.Runs dllPath) :
    Injection.Intact child dllPath table image
      { injection with thread := thread } := by
  obtain ⟨hstage, hblock, -, hattached, hcalls, hresumed⟩ :=
    hintact.waiting hruns
  constructor
  case fits =>
    rw [Injection.Fits, hstage]
    exact ⟨hblock, hthread, hresumed⟩
  case crashed => exact hintact.crashed
  case process => exact hintact.process
  case unattached => exact fun _ => hattached
  case suspended => exact fun _ => hcalls
  case effects => exact hintact.effects

theorem Injection.Intact.readPath
    (hintact : injection.Intact child dllPath table image)
    (hstep : injection.readPath = some next) :
    ∃ count, injection.thread = .started ∧
      next = { injection with thread := .named (dllPath.cut count) } := by
  rw [Injection.readPath] at hstep
  split at hstep
  case isTrue hstarted =>
    obtain ⟨-, ⟨count, hblock⟩, -⟩ := hintact.waiting (by
      simp [RemoteThread.Over, hstarted])
    rw [hblock, Option.bind_some, scan_written] at hstep
    cases hstep
    exact ⟨count, hstarted, by rw [hblock]⟩
  case isFalse => cases hstep

theorem Injection.Intact.loadLibrary
    (hintact : injection.Intact child dllPath table image) {succeeds : Bool}
    (hstep : injection.loadLibrary child succeeds = some next) :
    next.Intact child dllPath table image ∧
      next.rank + 1 ≤ injection.rank := by
  rw [Injection.loadLibrary] at hstep
  split at hstep
  case h_1 path hnamed =>
    have hruns : ¬ injection.thread.Over := by
      simp [RemoteThread.Over, hnamed]
    split at hstep <;> cases hstep
    · refine ⟨hintact.to_thread hruns trivial, ?_⟩
      simp [Injection.rank, hnamed, RemoteThread.rank]
    · refine ⟨hintact.to_thread hruns trivial, ?_⟩
      simp [Injection.rank, hnamed, RemoteThread.rank]
  case h_2 => cases hstep

/-- The shim is attached before the program has called anything. -/
theorem Injection.Intact.attach (hready : child.Ready table image)
    (hintact : injection.Intact child dllPath table image) {writable : Bool}
    (hwritable : writable = true ∨ child.imports table image = [])
    (hstep : injection.attach child writable = some next) :
    next.Intact child dllPath table image ∧
      next.rank + 1 ≤ injection.rank := by
  rw [Injection.attach] at hstep
  split at hstep
  case isTrue hattaching =>
    obtain ⟨hstage, hblock, -, hattached, hcalls, hresumed⟩ :=
      hintact.waiting (by simp [RemoteThread.Over, hattaching])
    have hwrites : ¬(writable = false ∧
        (child.processWhen table image true).originalCreateFileA ≠
          (child.processWhen table image false).originalCreateFileA) := by
      rintro ⟨hprotected, hassigned⟩
      rcases hwritable with hwritable | hnone
      · rw [hprotected] at hwritable
        cases hwritable
      · exact hassigned (congrArg _ (Child.processWhen_of_nil hnone))
    simp only [hintact.process, hattached, hready.dllMain_attach,
      if_neg hwrites] at hstep
    cases hstep
    refine ⟨?_, by simp [Injection.rank, hattaching, RemoteThread.rank]⟩
    constructor
    case fits =>
      rw [Injection.Fits, hstage]
      exact ⟨hblock, trivial, hresumed⟩
    case crashed => exact hintact.crashed
    case process => rfl
    case unattached => exact fun hrunning => absurd rfl hrunning
    case suspended => exact fun _ => hcalls
    case effects =>
      have heffects := hintact.effects
      rw [hcalls] at heffects ⊢
      exact heffects
  case isFalse => cases hstep

theorem Injection.notify_eq {reason : Reason}
    (hstep : injection.notify child reason = some next) :
    next = injection := by
  rw [Injection.notify] at hstep
  split at hstep
  case isTrue hguard =>
    rw [Child.dllMain, if_neg hguard.2] at hstep
    cases hstep
    rfl
  case isFalse => cases hstep

theorem Injection.Intact.call (hready : child.Ready table image)
    (hintact : injection.Intact child dllPath table image) {slot : ℕ}
    (hslot : slot ∈ child.imports table image) {arguments : CreateFileArgs}
    (hstep : injection.call child slot arguments = some next) :
    injection.resumed = true ∧
      next = { injection with
        calls := injection.calls ++ [(slot, arguments)]
        effects := injection.effects ++
          child.effectsOf table image injection.attached
            (slot, arguments) } := by
  rw [Injection.call] at hstep
  split at hstep
  case isTrue hresumed =>
    rw [hintact.process, hready.jump_eq injection.attached hslot] at hstep
    cases hstep
    exact ⟨hresumed, by rw [hintact.process]⟩
  case isFalse => cases hstep

/-- The steps of the injector and of the thread that loads the shim. -/
def InjectionEvent.advances : InjectionEvent → Bool
  | .notify _ | .call _ _ => false
  | _ => true

theorem Injection.Intact.step (hready : child.Ready table image)
    (hintact : injection.Intact child dllPath table image)
    {event : InjectionEvent}
    (hallowed : child.Unhindered table image injection event)
    (hstep : injection.step child dllPath event = some next) :
    next.Intact child dllPath table image ∧
      next.rank + (if event.advances then 1 else 0) ≤ injection.rank := by
  cases event with
  | createProcessA succeeds =>
      exact (hintact.fits.createProcessA hstep).intact hintact
  | virtualAllocEx succeeds =>
      exact (hintact.fits.virtualAllocEx hstep).intact hintact
  | writeProcessMemory count =>
      exact (hintact.fits.writeProcessMemory hstep).intact hintact
  | createRemoteThread succeeds =>
      exact (hintact.fits.createRemoteThread hstep).intact hintact
  | waitForSingleObject succeeds =>
      cases (show succeeds = true from hallowed)
      exact (hintact.fits.waitForSingleObject hstep).intact hintact
  | closeHandle succeeds =>
      exact (hintact.fits.closeHandle hstep).intact hintact
  | virtualFreeEx succeeds =>
      exact (hintact.fits.virtualFreeEx hstep).intact hintact
  | resumeThread succeeds =>
      exact (hintact.fits.resumeThread hstep).intact hintact
  | readPath =>
      obtain ⟨count, hstarted, rfl⟩ := hintact.readPath hstep
      refine ⟨hintact.to_thread (by simp [RemoteThread.Over, hstarted])
        ⟨count, rfl⟩, ?_⟩
      simp [Injection.rank, hstarted, RemoteThread.rank,
        InjectionEvent.advances]
  | loadLibrary succeeds => exact hintact.loadLibrary hstep
  | attach writable => exact hintact.attach hready hallowed hstep
  | notify reason =>
      rw [Injection.notify_eq hstep]
      exact ⟨hintact, le_rfl⟩
  | call slot arguments =>
      obtain ⟨hresumed, rfl⟩ := hintact.call hready hallowed hstep
      refine ⟨?_, le_rfl⟩
      constructor
      case fits => exact hintact.fits
      case crashed => exact hintact.crashed
      case process => exact hintact.process
      case unattached => exact hintact.unattached
      case suspended =>
        intro hsuspended
        rw [hresumed] at hsuspended
        cases hsuspended
      case effects =>
        simp only [List.flatMap_append, List.flatMap_singleton,
          hintact.effects]

/-- A step of the injector that fails neither to close nor to free leaves
open what is needed next. -/
theorem Injection.Tidy.of_injector {event : InjectionEvent}
    (htidy : injection.Tidy) (hreleases : event.releases = true)
    (hstep : injection.step child dllPath event = some next)
    (hinjector : event.ofInjector = true) : next.Tidy := by
  rw [Injection.Tidy, Injection.holdings] at htidy ⊢
  cases event with
  | createProcessA succeeds | virtualAllocEx succeeds
  | createRemoteThread succeeds =>
      simp only [Injection.step, Injection.createProcessA,
        Injection.virtualAllocEx, Injection.createRemoteThread] at hstep
      split at hstep
      case isTrue hstage =>
        simp only [hstage, Stage.holdings, Holdings.mk.injEq] at htidy
        split at hstep <;> cases hstep <;> simp [Stage.holdings, htidy]
      case isFalse => cases hstep
  | writeProcessMemory count =>
      simp only [Injection.step, Injection.writeProcessMemory] at hstep
      split at hstep
      case isTrue hstage =>
        simp only [hstage, Stage.holdings, Holdings.mk.injEq] at htidy
        cases hstep
        simp [Stage.holdings, htidy]
      case isFalse => cases hstep
  | waitForSingleObject succeeds =>
      simp only [Injection.step, Injection.waitForSingleObject] at hstep
      split at hstep
      case isTrue hguard =>
        rw [hguard.1] at htidy
        cases hstep
        exact htidy
      case isFalse => cases hstep
  | closeHandle succeeds =>
      cases (show succeeds = true from hreleases)
      simp only [Injection.step, Injection.closeHandle] at hstep
      split at hstep
      case h_1 hstage | h_2 hstage | h_3 hstage =>
        simp only [hstage, Stage.holdings, Holdings.mk.injEq] at htidy
        cases hstep
        simp [Stage.holdings, htidy]
      case h_4 => cases hstep
  | virtualFreeEx succeeds =>
      cases (show succeeds = true from hreleases)
      simp only [Injection.step, Injection.virtualFreeEx] at hstep
      split at hstep
      case isTrue hstage =>
        simp only [hstage, Stage.holdings, Holdings.mk.injEq] at htidy
        cases hstep
        simp [Stage.holdings, htidy]
      case isFalse => cases hstep
  | resumeThread succeeds =>
      simp only [Injection.step, Injection.resumeThread] at hstep
      split at hstep
      case isTrue hstage =>
        rw [hstage] at htidy
        cases hstep
        exact htidy
      case isFalse => cases hstep
  | readPath | loadLibrary _ | attach _ | notify _ | call _ _ =>
      cases hinjector

theorem Injection.Tidy.of_child {event : InjectionEvent}
    (htidy : injection.Tidy)
    (hstep : injection.step child dllPath event = some next)
    (hchild : event.ofInjector = false) : next.Tidy := by
  cases event with
  | readPath =>
      simp only [Injection.step, Injection.readPath] at hstep
      split at hstep
      case isTrue => split at hstep <;> cases hstep <;> exact htidy
      case isFalse => cases hstep
  | loadLibrary succeeds =>
      simp only [Injection.step, Injection.loadLibrary] at hstep
      split at hstep
      case h_1 => split at hstep <;> cases hstep <;> exact htidy
      case h_2 => cases hstep
  | attach writable =>
      simp only [Injection.step, Injection.attach] at hstep
      split at hstep
      case isTrue =>
        split at hstep
        case h_1 =>
          cases hstep
          exact htidy
        case h_2 => split at hstep <;> cases hstep <;> exact htidy
      case isFalse => cases hstep
  | notify reason =>
      rw [Injection.notify_eq hstep]
      exact htidy
  | call slot arguments =>
      simp only [Injection.step, Injection.call] at hstep
      split at hstep
      case isTrue => split at hstep <;> cases hstep <;> exact htidy
      case isFalse => cases hstep
  | createProcessA _ | virtualAllocEx _ | writeProcessMemory _
  | createRemoteThread _ | waitForSingleObject _ | closeHandle _
  | virtualFreeEx _ | resumeThread _ => cases hchild

theorem Injection.Tidy.step {event : InjectionEvent}
    (htidy : injection.Tidy) (hreleases : event.releases = true)
    (hstep : injection.step child dllPath event = some next) :
    next.Tidy := by
  cases hkind : event.ofInjector with
  | true => exact htidy.of_injector hreleases hstep hkind
  | false => exact htidy.of_child hstep hkind

/-- The injector waits for nothing but the thread that loads the shim, and
this thread waits for nothing. -/
theorem Injection.Fits.advances (hfits : injection.Fits dllPath)
    (hstage : ∀ status, injection.stage ≠ .returned status) :
    ∃ event : InjectionEvent, event.advances = true ∧
      event.releases = true ∧
      child.Unhindered table image injection event ∧
      (injection.step child dllPath event).isSome = true := by
  cases hat : injection.stage with
  | createProcess =>
      exact ⟨.createProcessA true, rfl, rfl, trivial,
        by simp [Injection.step, Injection.createProcessA, hat]⟩
  | virtualAllocEx =>
      exact ⟨.virtualAllocEx true, rfl, rfl, trivial,
        by simp [Injection.step, Injection.virtualAllocEx, hat]⟩
  | writeProcessMemory =>
      exact ⟨.writeProcessMemory 0, rfl, rfl, trivial,
        by simp [Injection.step, Injection.writeProcessMemory, hat]⟩
  | createRemoteThread =>
      exact ⟨.createRemoteThread true, rfl, rfl, trivial,
        by simp [Injection.step, Injection.createRemoteThread, hat]⟩
  | waitForSingleObject =>
      have hruns := (hfits.at_stage hat).2.1
      cases hthread : injection.thread with
      | absent =>
          rw [hthread] at hruns
          exact hruns.elim
      | started =>
          refine ⟨.readPath, rfl, rfl, trivial, ?_⟩
          rw [Injection.step, Injection.readPath, if_pos hthread]
          split <;> rfl
      | named path =>
          refine ⟨.loadLibrary false, rfl, rfl, trivial, ?_⟩
          simp [Injection.step, Injection.loadLibrary, hthread]
      | attaching =>
          refine ⟨.attach true, rfl, rfl, .inl rfl, ?_⟩
          rw [Injection.step, Injection.attach, if_pos hthread]
          split
          · rfl
          · split <;> rfl
      | finished =>
          exact ⟨.waitForSingleObject true, rfl, rfl, rfl, by
            simp [Injection.step, Injection.waitForSingleObject, hat,
              hthread]⟩
  | closeThread =>
      exact ⟨.closeHandle true, rfl, rfl, trivial,
        by simp [Injection.step, Injection.closeHandle, hat]⟩
  | virtualFreeEx =>
      exact ⟨.virtualFreeEx true, rfl, rfl, trivial,
        by simp [Injection.step, Injection.virtualFreeEx, hat]⟩
  | resumeThread =>
      exact ⟨.resumeThread true, rfl, rfl, trivial,
        by simp [Injection.step, Injection.resumeThread, hat]⟩
  | closeProcess =>
      exact ⟨.closeHandle true, rfl, rfl, trivial,
        by simp [Injection.step, Injection.closeHandle, hat]⟩
  | closeMainThread =>
      exact ⟨.closeHandle true, rfl, rfl, trivial,
        by simp [Injection.step, Injection.closeHandle, hat]⟩
  | returned status => exact absurd hat (hstage status)

theorem Injection.Fits.named (hfits : injection.Fits dllPath)
    {path : CString} (hnamed : injection.thread = .named path) :
    ∃ count, path = dllPath.cut count := by
  have hruns := (hfits.at_stage (hfits.waiting
    (by simp [RemoteThread.Over, hnamed]))).2.1
  rw [hnamed] at hruns
  exact hruns

/-- With nothing that fails to close or free, the block is freed before the
main thread runs, and everything is released at the end. -/
theorem Injection.Tidy.released (htidy : injection.Tidy)
    (hfits : injection.Fits dllPath) :
    (injection.resumed = true → injection.remoteMemory = none) ∧
      ∀ status, injection.stage = .returned status →
        injection.holdings = ⟨false, false, false, false⟩ := by
  constructor
  · intro hresumed
    have hnone : injection.remoteMemory.isSome = false := by
      have hmemory := congrArg Holdings.remoteMemory htidy
      obtain ⟨hstage | hstage | ⟨status, hstage⟩, _⟩ := hfits.resumed hresumed
      · rw [hstage] at hmemory
        exact hmemory
      · rw [hstage] at hmemory
        exact hmemory
      · rw [hstage] at hmemory
        exact hmemory
    simpa using hnone
  · intro status hstage
    rw [Injection.Tidy, hstage] at htidy
    exact htidy

end Runs

/-- However the three threads take turns and whatever fails besides the wait
for the loading and the write to the hooked slot: nothing crashes, the thread
that loads finds in the block the path or a part of it that ends there, the
program runs only when the shim is attached or will never be, each of its
calls of `CreateFileA` reaches the function once, by the hook where this is
in, and the injector returns after at most 13 steps; and with nothing left
open, if nothing fails to close or free. -/
theorem Injection.run_hooksBeforeCalls {child : Child} {dllPath : CString}
    {table : ImportTable} {image : Memory} {events : List InjectionEvent}
    {injection : Injection} (hready : child.Ready table image)
    (hrun : Run (fun injection => injection.step child dllPath)
      (child.Unhindered table image) (Injection.start image) events
      injection) :
    injection.crashed = false ∧
      injection.effects = injection.calls.flatMap
        (child.effectsOf table image injection.attached) ∧
      (injection.resumed = true → injection.thread.Over) ∧
      (¬ injection.thread.Over →
        ∃ count, injection.remoteMemory = some (written dllPath count)) ∧
      (∀ path, injection.thread = .named path →
        ∃ count, path = dllPath.cut count) ∧
      ((∀ event ∈ events, event.releases = true) →
        (injection.resumed = true → injection.remoteMemory = none) ∧
        ∀ status, injection.stage = .returned status →
          injection.holdings = ⟨false, false, false, false⟩) ∧
      events.countP InjectionEvent.advances ≤ 13 ∧
      ((∀ status, injection.stage ≠ .returned status) →
        ∃ event : InjectionEvent, event.advances = true ∧
          event.releases = true ∧
          child.Unhindered table image injection event ∧
          (injection.step child dllPath event).isSome = true) := by
  obtain ⟨hintact, hcount⟩ := hrun.countP_add_measure_le
    (fun _ _ _ hintact hallowed hstep =>
      Injection.Intact.step hready hintact hallowed hstep)
    Injection.start_intact
  refine ⟨hintact.crashed, hintact.effects,
    fun hresumed => (hintact.fits.resumed hresumed).2,
    fun hruns => (hintact.waiting hruns).2.1,
    fun path hnamed => hintact.fits.named hnamed, fun hreleases => ?_, ?_,
    hintact.fits.advances⟩
  · have htidy : injection.Tidy := (hrun.of_events hreleases).invariant
      (fun _ _ _ htidy hreleased hstep =>
        Injection.Tidy.step htidy hreleased hstep) rfl
    exact htidy.released hintact.fits
  · have hrank : (Injection.start image).rank = 13 := rfl
    rw [hrank] at hcount
    exact le_trans (Nat.le_add_right _ _) hcount

instance (child : Child) (table : ImportTable) (image : Memory) :
    ∀ injection event,
      Decidable (child.Unhindered table image injection event)
  | _, .call slot _ =>
      inferInstanceAs (Decidable (slot ∈ child.imports table image))
  | _, .waitForSingleObject succeeds =>
      inferInstanceAs (Decidable (succeeds = true))
  | _, .attach writable =>
      inferInstanceAs (Decidable (writable = true ∨
        child.imports table image = []))
  | _, .createProcessA _ => isTrue trivial
  | _, .virtualAllocEx _ => isTrue trivial
  | _, .writeProcessMemory _ => isTrue trivial
  | _, .createRemoteThread _ => isTrue trivial
  | _, .closeHandle _ => isTrue trivial
  | _, .virtualFreeEx _ => isTrue trivial
  | _, .resumeThread _ => isTrue trivial
  | _, .readPath => isTrue trivial
  | _, .loadLibrary _ => isTrue trivial
  | _, .notify _ => isTrue trivial

def sampleChild : Child where
  loader := sampleLoader
  hModule := 0x1000
  hook := 0x99
  finds := fun path => path = dllPath
  fuel := 20
  stack := 2

theorem sampleChild_ready : sampleChild.Ready sampleTable sampleImage where
  inMemory := sampleTable_inMemory
  separate := sampleTable_separate
  hook := by decide
  differs := by decide
  fuel := by decide
  stack := le_rfl

/-- The call of `winlocal.c`, with `GENERIC_READ | GENERIC_WRITE`,
`OPEN_ALWAYS` and `FILE_ATTRIBUTE_NORMAL`. -/
def sampleArgs : CreateFileArgs :=
  ⟨0x2000, 0xc0000000, 0, 0, 4, 0x80, 0⟩

/-- The program makes its call by one slot and then by the other one. -/
def sampleEvents : List InjectionEvent :=
  [.createProcessA true, .virtualAllocEx true, .writeProcessMemory 12,
    .createRemoteThread true, .readPath, .loadLibrary true, .attach true,
    .waitForSingleObject true, .notify .threadDetach, .closeHandle true,
    .virtualFreeEx true, .resumeThread true, .call 0x1328 sampleArgs,
    .closeHandle true, .call 0x1330 sampleArgs, .closeHandle true]

theorem run_hooksBeforeCalls_bothSlots :
    ∃ injection,
      Run (fun injection => injection.step sampleChild dllPath)
        (sampleChild.Unhindered sampleTable sampleImage)
        (Injection.start sampleImage) sampleEvents injection ∧
      injection.stage = .returned 0 ∧
      injection.effects =
        [.puts, .createFileA sampleArgs, .createFileA sampleArgs] ∧
      injection.crashed = false ∧
      injection.holdings = ⟨false, false, false, false⟩ := by
  have hvalues : (execute (fun injection => injection.step sampleChild dllPath)
      (sampleChild.Unhindered sampleTable sampleImage)
      (Injection.start sampleImage) sampleEvents).map
      (fun injection => (injection.stage, injection.effects)) =
        some (.returned 0,
          [.puts, .createFileA sampleArgs, .createFileA sampleArgs]) := by
    decide +kernel
  obtain ⟨injection, hexec, hvalues⟩ := Option.map_eq_some_iff.mp hvalues
  obtain ⟨hstage, heffects⟩ := Prod.mk.inj hvalues
  have hrun := run_of_execute hexec
  obtain ⟨hcrashed, _, _, _, _, hreleased, _⟩ :=
    Injection.run_hooksBeforeCalls sampleChild_ready hrun
  have hreleases : ∀ event ∈ sampleEvents, event.releases = true := by
    decide
  exact ⟨injection, hrun, hstage, heffects, hcrashed,
    (hreleased hreleases).2 0 hstage⟩

/-- A wait that fails lets the block be freed under the thread that reads it,
and a slot that cannot be written stops the loading. -/
example : ((execute (fun injection => injection.step sampleChild dllPath)
      anyEvent (Injection.start sampleImage)
      [.createProcessA true, .virtualAllocEx true, .writeProcessMemory 12,
        .createRemoteThread true, .waitForSingleObject false,
        .closeHandle true, .virtualFreeEx true, .readPath]).map
      Injection.crashed,
    (execute (fun injection => injection.step sampleChild dllPath)
      anyEvent (Injection.start sampleImage)
      [.createProcessA true, .virtualAllocEx true, .writeProcessMemory 12,
        .createRemoteThread true, .readPath, .loadLibrary true,
        .attach false]).map Injection.crashed) = (some true, some true) := by
  decide +kernel

end Windows

end TestRpc
