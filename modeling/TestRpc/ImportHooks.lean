import TestRpc.ByteMemory
import TestRpc.RepeatedSearch
import TestRpc.LibcCalls

/-!
# Hooks in the import address table

`winshim.c` makes a Windows program call `HookedCreateFileA` in place of
`CreateFileA`: `HookIAT` walks over the import table of the loaded image and
overwrites the first entry of a `KERNEL32.dll` descriptor that holds the
address of the target.  The walks stop at zero entries.  The table lives in the
memory that the walk reads and writes, with the layout of 64-bit images; page
protections are left out.
-/

namespace TestRpc

open ByteMemory RepeatedSearch

namespace Windows

/-! ## `HookIAT` -/

/-- The two look-ups of the loader, which return the same values throughout. -/
structure Loader where
  getModuleHandleA : CString → BitVec 64
  getProcAddress : BitVec 64 → CString → BitVec 64

/-- `originalCreateFileA` is zero for `NULL`. -/
structure Process where
  memory : Memory
  originalCreateFileA : BitVec 64

/-- `"KERNEL32.dll"` -/
def kernel32 : CString :=
  ⟨[0x4b, 0x45, 0x52, 0x4e, 0x45, 0x4c, 0x33, 0x32, 0x2e, 0x64, 0x6c, 0x6c],
    by decide⟩

/-- The address that `HookedCreateFileA` calls. -/
def Process.hookedCreateFileA (process : Process) : BitVec 64 :=
  process.originalCreateFileA

section HookIAT

variable (loader : Loader) (hModule : ℕ) (targetFunction : CString)
  (hookFunction : BitVec 64)

/-- `GetProcAddress(GetModuleHandleA("KERNEL32.dll"), targetFunction)` -/
def Loader.target : BitVec 64 :=
  loader.getProcAddress (loader.getModuleHandleA kernel32) targetFunction

/-- The loop over the thunks of a descriptor, with fuel; `true` when it returns
from `HookIAT`. -/
def hookThunks : ℕ → Process → ℕ → Option (Bool × Process)
  | 0, _, _ => none
  | fuel + 1, process, pThunk =>
      let function := load 64 process.memory pThunk
      if function = 0 then
        some (false, process)
      else if function = loader.target targetFunction then
        some (true, ⟨store process.memory pThunk hookFunction, function⟩)
      else
        hookThunks fuel process (pThunk + 8)

/-- The loop over the descriptors; `Name` and `FirstThunk` are at the offsets
12 and 16. -/
def hookDescriptors : ℕ → Process → ℕ → Option Process
  | 0, _, _ => none
  | fuel + 1, process, pImportDesc =>
      let name := load 32 process.memory (pImportDesc + 12)
      if name = 0 then
        some process
      else
        let moduleName := hModule + name.toNat
        if strcmp process.memory moduleName kernel32.chars = 0 then
          let firstThunk := load 32 process.memory (pImportDesc + 16)
          match hookThunks loader targetFunction hookFunction fuel process
              (hModule + firstThunk.toNat) with
          | none => none
          | some (true, process) => some process
          | some (false, process) =>
              hookDescriptors fuel process (pImportDesc + 20)
        else
          hookDescriptors fuel process (pImportDesc + 20)

/-- `e_lfanew` is at the offset `0x3c` of the image, and the `VirtualAddress`
of the import directory at the offset `0x90` of the NT headers. -/
def hookIAT (fuel : ℕ) (process : Process) : Option Process :=
  let eLfanew := load 32 process.memory (hModule + 0x3c)
  let ntHeaders := ((hModule : ℤ) + eLfanew.toInt).toNat
  let virtualAddress := load 32 process.memory (ntHeaders + 0x90)
  hookDescriptors loader hModule targetFunction hookFunction fuel process
    (hModule + virtualAddress.toNat)

/-- Successive calls of `HookIAT`. -/
def hookTimes (fuel : ℕ) : ℕ → Process → Option Process
  | 0, process => some process
  | k + 1, process =>
      match hookTimes fuel k process with
      | none => none
      | some process =>
          hookIAT loader hModule targetFunction hookFunction fuel process

end HookIAT

/-! ## Import tables in memory -/

/-- An import descriptor: where its name and its thunks are, and how many
thunks it has before the zero one. -/
structure Descriptor where
  nameAt : ℕ
  name : CString
  thunksAt : ℕ
  count : ℕ

def slotsFrom (address count : ℕ) : List ℕ :=
  (List.range count).map fun index => address + 8 * index

def Descriptor.slots (descriptor : Descriptor) : List ℕ :=
  slotsFrom descriptor.thunksAt descriptor.count

structure Descriptor.At (descriptor : Descriptor) (hModule : ℕ)
    (memory : Memory) (address : ℕ) : Prop where
  nonzero : load 32 memory (address + 12) ≠ 0
  nameAt : hModule + (load 32 memory (address + 12)).toNat =
    descriptor.nameAt
  name : bytesAt memory descriptor.nameAt
    (descriptor.name.chars.length + 1) = descriptor.name.object
  thunksAt : hModule + (load 32 memory (address + 16)).toNat =
    descriptor.thunksAt
  thunks : ∀ slot ∈ descriptor.slots, load 64 memory slot ≠ 0
  lastThunk : load 64 memory (descriptor.thunksAt + 8 * descriptor.count) = 0

/-- An array of descriptors, ended by one with a zero name. -/
def DescriptorsAt (hModule : ℕ) (memory : Memory) :
    ℕ → List Descriptor → Prop
  | address, [] => load 32 memory (address + 12) = 0
  | address, descriptor :: rest =>
      descriptor.At hModule memory address ∧
        DescriptorsAt hModule memory (address + 20) rest

structure ImportTable where
  ntHeaders : ℕ
  start : ℕ
  descriptors : List Descriptor

def ImportTable.slots (table : ImportTable) : List ℕ :=
  table.descriptors.flatMap Descriptor.slots

structure ImportTable.InMemory (table : ImportTable) (hModule : ℕ)
    (memory : Memory) : Prop where
  ntHeaders : (hModule : ℤ) + (load 32 memory (hModule + 0x3c)).toInt =
    table.ntHeaders
  start : hModule + (load 32 memory (table.ntHeaders + 0x90)).toNat =
    table.start
  descriptors : DescriptorsAt hModule memory table.start table.descriptors

/-- The ranges of an array of descriptors that are not slots: the fields of
the descriptors, the names and the zero thunks. -/
def fixedRanges : ℕ → List Descriptor → List (ℕ × ℕ)
  | address, [] => [(address + 12, 4)]
  | address, descriptor :: rest =>
      (address + 12, 4) :: (address + 16, 4) ::
        (descriptor.nameAt, descriptor.name.chars.length + 1) ::
        (descriptor.thunksAt + 8 * descriptor.count, 8) ::
        fixedRanges (address + 20) rest

/-- Every descriptor has thunks of its own, which are no part of the headers
and of the rest of the table. -/
structure ImportTable.Separate (table : ImportTable) (hModule : ℕ) :
    Prop where
  own : table.slots.Pairwise fun slot other => Apart slot 8 other 8
  fixed : ∀ slot ∈ table.slots,
    ∀ range ∈ (hModule + 0x3c, 4) :: (table.ntHeaders + 0x90, 4) ::
        fixedRanges table.start table.descriptors,
      Apart slot 8 range.1 range.2

/-! ## What the hooks should do -/

def kernelSlots (descriptors : List Descriptor) : List ℕ :=
  descriptors.flatMap fun descriptor =>
    if descriptor.name = kernel32 then descriptor.slots else []

/-- The slots under a descriptor named `KERNEL32.dll` that hold an address, in
the order of the table. -/
def ImportTable.targets (table : ImportTable) (memory : Memory)
    (address : BitVec 64) : List ℕ :=
  (kernelSlots table.descriptors).filter fun slot =>
    load 64 memory slot = address

/-- The state after `k` calls with the given target and hook. -/
structure ImportTable.HookedTimes (table : ImportTable) (memory : Memory)
    (target hook : BitVec 64) (k : ℕ) (final : Process) : Prop where
  changed : ∀ slot ∈ table.slots,
    load 64 final.memory slot ≠ load 64 memory slot ↔
      slot ∈ (table.targets memory target).take
        (min k (table.targets memory target).length)
  hooked : ∀ slot ∈ (table.targets memory target).take
      (min k (table.targets memory target).length),
    slot ∈ table.slots ∧ load 64 final.memory slot = hook
  outside : ∀ place,
    (∀ slot ∈ table.slots, place < slot ∨ slot + 8 ≤ place) →
      final.memory place = memory place
  original : final.originalCreateFileA =
    if 0 < min k (table.targets memory target).length then target else 0
  forwards : final.hookedCreateFileA ≠ hook

/-! ## One call -/

def isTarget (target value : BitVec 64) : Bool :=
  decide (value = target)

/-- The first of some slots that holds the target is hooked. -/
def Process.hookFirst (target hook : BitVec 64) (slots : List ℕ)
    (process : Process) : Bool × Process :=
  match slots.find? fun slot => isTarget target
      (load 64 process.memory slot) with
  | none => (false, process)
  | some slot => (true, ⟨store process.memory slot hook, target⟩)

def Process.hookOnce (target hook : BitVec 64) (table : ImportTable)
    (process : Process) : Process :=
  (process.hookFirst target hook (kernelSlots table.descriptors)).2

theorem Process.hookFirst_cases (process : Process)
    (target hook : BitVec 64) (slots : List ℕ) :
    process.hookFirst target hook slots = (false, process) ∨
      ∃ next, process.hookFirst target hook slots = (true, next) := by
  rw [Process.hookFirst]
  cases slots.find? fun slot => isTarget target
      (load 64 process.memory slot) with
  | none => exact .inl rfl
  | some slot => exact .inr ⟨_, rfl⟩

theorem slotsFrom_succ (address count : ℕ) :
    slotsFrom address (count + 1) =
      address :: slotsFrom (address + 8) count := by
  rw [slotsFrom, List.range_succ_eq_map, List.map_cons, List.map_map,
    slotsFrom]
  congr 1
  apply List.map_congr_left
  intro index _
  simp only [Function.comp_apply]
  omega

section Walk

variable {loader : Loader} {hModule : ℕ} {targetFunction : CString}
  {hookFunction : BitVec 64}

theorem hookThunks_eq {process : Process} {fuel count address : ℕ}
    (hthunks : ∀ slot ∈ slotsFrom address count,
      load 64 process.memory slot ≠ 0)
    (hlast : load 64 process.memory (address + 8 * count) = 0)
    (hfuel : count < fuel) :
    hookThunks loader targetFunction hookFunction fuel process address =
      some (process.hookFirst (loader.target targetFunction) hookFunction
        (slotsFrom address count)) := by
  induction count generalizing fuel address with
  | zero =>
      obtain ⟨fuel, rfl⟩ := Nat.exists_eq_add_of_lt hfuel
      rw [Nat.mul_zero, Nat.add_zero] at hlast
      simp only [hookThunks, hlast, if_true]
      rfl
  | succ count ih =>
      obtain ⟨fuel, rfl⟩ : ∃ rest, fuel = rest + 1 :=
        ⟨fuel - 1, by omega⟩
      rw [slotsFrom_succ] at hthunks ⊢
      have hfirst := hthunks address (List.mem_cons_self ..)
      rw [hookThunks]
      simp only [if_neg hfirst]
      by_cases htarget : load 64 process.memory address =
          loader.target targetFunction
      · simp [Process.hookFirst, isTarget, htarget]
      · rw [if_neg htarget, ih]
        · simp [Process.hookFirst, isTarget, htarget]
        · intro slot hmem
          exact hthunks slot (List.mem_cons_of_mem _ hmem)
        · rw [← hlast]
          congr 1
          omega
        · omega

theorem strcmp_kernel32 {memory : Memory} {address : ℕ} {name : CString}
    (hname : bytesAt memory address (name.chars.length + 1) = name.object) :
    strcmp memory address kernel32.chars = 0 ↔ name = kernel32 := by
  rw [strcmp_eq_zero_iff name.noNul kernel32.noNul hname]
  constructor
  · intro hchars
    cases name
    cases hchars
    rfl
  · intro hsame
    rw [hsame]

/-- How often the two loops can go round at most. -/
def rounds : List Descriptor → ℕ
  | [] => 1
  | descriptor :: rest => descriptor.count + 2 + rounds rest

theorem Process.hookFirst_append (target hook : BitVec 64)
    (slots more : List ℕ) (process : Process) :
    process.hookFirst target hook (slots ++ more) =
      match process.hookFirst target hook slots with
      | (true, process) => (true, process)
      | (false, process) => process.hookFirst target hook more := by
  rw [Process.hookFirst, List.find?_append, Process.hookFirst]
  cases hfind : slots.find? fun slot => isTarget target
      (load 64 process.memory slot) with
  | none => rfl
  | some slot => rfl

theorem hookDescriptors_eq {process : Process} {fuel address : ℕ}
    {descriptors : List Descriptor}
    (hdescriptors : DescriptorsAt hModule process.memory address descriptors)
    (hfuel : rounds descriptors ≤ fuel) :
    hookDescriptors loader hModule targetFunction hookFunction fuel process
        address =
      some (process.hookFirst (loader.target targetFunction) hookFunction
        (kernelSlots descriptors)).2 := by
  induction descriptors generalizing fuel address with
  | nil =>
      obtain ⟨fuel, rfl⟩ : ∃ rest, fuel = rest + 1 :=
        ⟨fuel - 1, by simp only [rounds] at hfuel; omega⟩
      simp only [DescriptorsAt] at hdescriptors
      simp only [hookDescriptors, hdescriptors, if_true]
      rfl
  | cons descriptor rest ih =>
      simp only [rounds] at hfuel
      obtain ⟨fuel, rfl⟩ : ∃ rest, fuel = rest + 1 :=
        ⟨fuel - 1, by omega⟩
      obtain ⟨hdescriptor, hrest⟩ := hdescriptors
      have hnext := ih hrest (show rounds rest ≤ fuel by omega)
      rw [hookDescriptors]
      simp only [if_neg hdescriptor.nonzero, hdescriptor.nameAt,
        strcmp_kernel32 hdescriptor.name, hdescriptor.thunksAt]
      by_cases hname : descriptor.name = kernel32
      · rw [if_pos hname, hookThunks_eq hdescriptor.thunks
          hdescriptor.lastThunk (by omega)]
        have hslots : kernelSlots (descriptor :: rest) =
            descriptor.slots ++ kernelSlots rest := by
          simp [kernelSlots, hname]
        rw [hslots, Process.hookFirst_append, ← Descriptor.slots]
        rcases process.hookFirst_cases (loader.target targetFunction)
          hookFunction descriptor.slots with hnone | ⟨next, hfound⟩
        · rw [hnone]
          exact hnext
        · rw [hfound]
      · have hslots : kernelSlots (descriptor :: rest) =
            kernelSlots rest := by
          simp [kernelSlots, hname]
        rw [if_neg hname, hslots]
        exact hnext

theorem hookIAT_eq {table : ImportTable} {process : Process} {fuel : ℕ}
    (htable : table.InMemory hModule process.memory)
    (hfuel : rounds table.descriptors ≤ fuel) :
    hookIAT loader hModule targetFunction hookFunction fuel process =
      some (process.hookFirst (loader.target targetFunction) hookFunction
        (kernelSlots table.descriptors)).2 := by
  rw [hookIAT]
  simp only [htable.ntHeaders, Int.toNat_natCast, htable.start]
  exact hookDescriptors_eq htable.descriptors hfuel

end Walk

/-! ## What a call leaves -/

theorem kernelSlots_sublist (descriptors : List Descriptor) :
    (kernelSlots descriptors).Sublist
      (descriptors.flatMap Descriptor.slots) := by
  induction descriptors with
  | nil => exact List.Sublist.slnil
  | cons descriptor rest ih =>
      rw [kernelSlots, List.flatMap_cons, List.flatMap_cons]
      apply List.Sublist.append _ ih
      split
      · exact List.Sublist.refl _
      · exact List.nil_sublist _

theorem ImportTable.Separate.nodup {table : ImportTable} {hModule : ℕ}
    (hseparate : table.Separate hModule) :
    (kernelSlots table.descriptors).Nodup := by
  apply List.Nodup.sublist (kernelSlots_sublist table.descriptors)
  apply hseparate.own.imp
  intro slot other hapart hsame
  unfold Apart at hapart
  omega

theorem ImportTable.Separate.same_or_apart {table : ImportTable}
    {hModule : ℕ} (hseparate : table.Separate hModule) {slot other : ℕ}
    (hslot : slot ∈ table.slots) (hother : other ∈ table.slots) :
    other = slot ∨ Apart slot 8 other 8 := by
  by_cases hsame : other = slot
  · exact .inl hsame
  · right
    have hsymm : Std.Symm fun left right => Apart left 8 right 8 :=
      ⟨fun _ _ hapart => hapart.symm⟩
    exact hseparate.own.forall hslot hother (Ne.symm hsame)

theorem DescriptorsAt.store {hModule : ℕ} {memory : Memory}
    {address slot : ℕ} {descriptors : List Descriptor}
    {hook : BitVec 64}
    (hdescriptors : DescriptorsAt hModule memory address descriptors)
    (hhook : hook ≠ 0)
    (hfixed : ∀ range ∈ fixedRanges address descriptors,
      Apart slot 8 range.1 range.2)
    (hslots : ∀ other ∈ descriptors.flatMap Descriptor.slots,
      other = slot ∨ Apart slot 8 other 8) :
    DescriptorsAt hModule (store memory slot hook) address descriptors := by
  induction descriptors generalizing address with
  | nil =>
      have hname := hfixed (address + 12, 4) (List.mem_singleton_self _)
      rw [DescriptorsAt, load_store_of_apart hook hname]
      exact hdescriptors
  | cons descriptor rest ih =>
      obtain ⟨hdescriptor, hrest⟩ := hdescriptors
      simp only [fixedRanges, List.forall_mem_cons] at hfixed
      obtain ⟨hname, hfirst, hstring, hlast, hfixed⟩ := hfixed
      simp only [List.flatMap_cons, List.forall_mem_append] at hslots
      refine ⟨?_, ih hrest hfixed hslots.2⟩
      have hnameLoad := @load_store_of_apart 64 32 memory slot
        (address + 12) hook hname
      have hfirstLoad := @load_store_of_apart 64 32 memory slot
        (address + 16) hook hfirst
      constructor
      case nonzero =>
        rw [hnameLoad]
        exact hdescriptor.nonzero
      case nameAt =>
        rw [hnameLoad]
        exact hdescriptor.nameAt
      case name =>
        rw [bytesAt_store_of_apart hook hstring]
        exact hdescriptor.name
      case thunksAt =>
        rw [hfirstLoad]
        exact hdescriptor.thunksAt
      case thunks =>
        intro other hmem
        rcases hslots.1 other hmem with rfl | hapart
        · rw [load_store (by decide)]
          exact hhook
        · rw [load_store_of_apart hook hapart]
          exact hdescriptor.thunks other hmem
      case lastThunk =>
        rw [load_store_of_apart hook hlast]
        exact hdescriptor.lastThunk

/-! ## Successive calls -/

/-- The memory shows the values in the slots of a table and is otherwise as
it was at first. -/
structure ImportTable.Shows (table : ImportTable) (hModule : ℕ)
    (first : Memory) (values : ℕ → BitVec 64) (memory : Memory) : Prop where
  inMemory : table.InMemory hModule memory
  slots : ∀ slot ∈ table.slots, load 64 memory slot = values slot
  outside : ∀ place,
    (∀ slot ∈ table.slots, place < slot ∨ slot + 8 ≤ place) →
      memory place = first place

section Calls

variable {table : ImportTable} {hModule : ℕ} {first : Memory}
  {values : ℕ → BitVec 64} {target hook : BitVec 64}

theorem ImportTable.Shows.store {memory : Memory}
    (hshows : table.Shows hModule first values memory)
    (hseparate : table.Separate hModule) (hhook : hook ≠ 0) {slot : ℕ}
    (hslot : slot ∈ table.slots) :
    table.Shows hModule first (Function.update values slot hook)
      (store memory slot hook) := by
  have hfixed := hseparate.fixed slot hslot
  simp only [List.forall_mem_cons] at hfixed
  obtain ⟨hheaders, hdirectory, hfixed⟩ := hfixed
  have hother := fun other (hmem : other ∈ table.slots) =>
    hseparate.same_or_apart hslot hmem
  refine ⟨⟨?_, ?_, ?_⟩, ?_, ?_⟩
  · rw [@load_store_of_apart 64 32 memory slot _ hook hheaders]
    exact hshows.inMemory.ntHeaders
  · rw [@load_store_of_apart 64 32 memory slot _ hook hdirectory]
    exact hshows.inMemory.start
  · exact hshows.inMemory.descriptors.store hhook hfixed hother
  · intro other hmem
    by_cases hsame : other = slot
    · rw [hsame, Function.update_self, load_store (by decide)]
    · have hapart := (hother other hmem).resolve_left hsame
      rw [Function.update_of_ne hsame, load_store_of_apart hook hapart]
      exact hshows.slots other hmem
  · intro place houtside
    rw [store_of_outside hook (houtside slot hslot)]
    exact hshows.outside place houtside

/-- A call does in memory what a search and a replacement do to the
values. -/
theorem ImportTable.Shows.hookOnce {process : Process}
    (hshows : table.Shows hModule first values process.memory)
    (target : BitVec 64) (hseparate : table.Separate hModule)
    (hhook : hook ≠ 0) :
    table.Shows hModule first
        (replaceFirst (kernelSlots table.descriptors) (isTarget target) hook
          values)
        (process.hookOnce target hook table).memory ∧
      (process.hookOnce target hook table).originalCreateFileA =
        if ((kernelSlots table.descriptors).find? fun slot =>
            isTarget target (values slot)).isSome then target
        else process.originalCreateFileA := by
  have hsubset := (kernelSlots_sublist table.descriptors).subset
  have hfind : ((kernelSlots table.descriptors).find? fun slot =>
      isTarget target (load 64 process.memory slot)) =
        (kernelSlots table.descriptors).find? fun slot =>
          isTarget target (values slot) := by
    apply List.find?_congr
    intro slot hmem
    rw [hshows.slots slot (hsubset hmem)]
  rw [Process.hookOnce, Process.hookFirst, hfind, replaceFirst]
  cases hfound : (kernelSlots table.descriptors).find? fun slot =>
      isTarget target (values slot) with
  | none => exact ⟨hshows, rfl⟩
  | some slot =>
      have hslot := hsubset (List.mem_of_find?_eq_some hfound)
      exact ⟨hshows.store hseparate hhook hslot, rfl⟩

/-- After `k` calls the first `k` slots that held the target are hooked, and
the original function is known once there was one. -/
theorem ImportTable.Separate.shows_iterate {memory : Memory}
    (hseparate : table.Separate hModule)
    (htable : table.InMemory hModule memory) (hhook : hook ≠ 0)
    (hdiffers : hook ≠ target) (k : ℕ) :
    table.Shows hModule memory
        (replaceIn hook (load 64 memory)
          ((table.targets memory target).take k))
        ((Process.hookOnce target hook table)^[k] ⟨memory, 0⟩).memory ∧
      ((Process.hookOnce target hook table)^[k]
          ⟨memory, 0⟩).originalCreateFileA =
        if 0 < min k (table.targets memory target).length then target
        else 0 := by
  have htest : isTarget target hook = false := decide_eq_false hdiffers
  induction k with
  | zero =>
      refine ⟨⟨htable, ?_, ?_⟩, by simp⟩
      · intro slot _
        simp [replaceIn]
      · intro place _
        rfl
  | succ k ih =>
      obtain ⟨hshows, horiginal⟩ := ih
      have hmatching : table.targets memory target =
          matching (kernelSlots table.descriptors) (isTarget target)
            (load 64 memory) := rfl
      have hnext := hshows.hookOnce target hseparate hhook
      rw [hmatching, replaceFirst_replaceIn_take hseparate.nodup htest,
        find?_replaceIn_take hseparate.nodup htest] at hnext
      rw [Function.iterate_succ_apply', hmatching]
      refine ⟨hnext.1, ?_⟩
      rw [hnext.2, horiginal, hmatching]
      by_cases hmore : k < (matching (kernelSlots table.descriptors)
          (isTarget target) (load 64 memory)).length
      · rw [List.getElem?_eq_getElem hmore, Option.isSome_some, if_pos rfl,
          if_pos (by omega)]
      · rw [List.getElem?_eq_none (Nat.not_lt.mp hmore), Nat.min_eq_right
          (by omega), Nat.min_eq_right (by omega)]
        simp

theorem hookTimes_eq {memory : Memory} (hseparate : table.Separate hModule)
    (htable : table.InMemory hModule memory) {loader : Loader}
    {targetFunction : CString} (hhook : hook ≠ 0)
    (hdiffers : hook ≠ loader.target targetFunction) {fuel : ℕ}
    (hfuel : rounds table.descriptors ≤ fuel) (k : ℕ) :
    hookTimes loader hModule targetFunction hook fuel k ⟨memory, 0⟩ =
      some ((Process.hookOnce (loader.target targetFunction) hook
        table)^[k] ⟨memory, 0⟩) := by
  induction k with
  | zero => rfl
  | succ k ih =>
      have hshows := (hseparate.shows_iterate htable hhook hdiffers k).1
      rw [hookTimes, ih, Function.iterate_succ_apply']
      exact hookIAT_eq hshows.inMemory hfuel

end Calls

/-- `HookIAT` terminates on every import table, and `k` calls hook the first
`k` entries of the target under `KERNEL32.dll`, or all there are. -/
theorem hookIAT_hooks_first {table : ImportTable} {hModule : ℕ}
    {memory : Memory} (htable : table.InMemory hModule memory)
    (hseparate : table.Separate hModule) (loader : Loader)
    (targetFunction : CString) {hookFunction : BitVec 64}
    (hhook : hookFunction ≠ 0)
    (hdiffers : hookFunction ≠ loader.target targetFunction) (k : ℕ) :
    ∃ bound final,
      (∀ fuel, bound ≤ fuel →
        hookTimes loader hModule targetFunction hookFunction fuel k
          ⟨memory, 0⟩ = some final) ∧
      table.HookedTimes memory (loader.target targetFunction) hookFunction k
        final := by
  obtain ⟨hshows, horiginal⟩ :=
    hseparate.shows_iterate htable hhook hdiffers k
  refine ⟨rounds table.descriptors, _, fun fuel hfuel =>
    hookTimes_eq hseparate htable hhook hdiffers hfuel k, ?_⟩
  have htake := @List.take_eq_take_min _
    (table.targets memory (loader.target targetFunction)) k
  have hheld : ∀ slot ∈
      (table.targets memory (loader.target targetFunction)).take k,
      slot ∈ table.slots ∧
        load 64 memory slot = loader.target targetFunction := by
    intro slot hmem
    have htarget := List.mem_filter.mp (List.mem_of_mem_take hmem)
    exact ⟨(kernelSlots_sublist _).subset htarget.1, by simpa using htarget.2⟩
  constructor
  case changed =>
    intro slot hslot
    rw [← htake, hshows.slots slot hslot]
    by_cases hmem : slot ∈
        (table.targets memory (loader.target targetFunction)).take k
    · simp [replaceIn, hmem, (hheld slot hmem).2, hdiffers]
    · simp [replaceIn, hmem]
  case hooked =>
    intro slot hmem
    rw [← htake] at hmem
    refine ⟨(hheld slot hmem).1, ?_⟩
    rw [hshows.slots slot (hheld slot hmem).1]
    simp [replaceIn, hmem]
  case outside => exact hshows.outside
  case original => exact horiginal
  case forwards =>
    rw [Process.hookedCreateFileA, horiginal]
    split
    · exact hdiffers.symm
    · exact hhook.symm

/-- `"USER32.dll"` -/
def user32 : CString :=
  ⟨[0x55, 0x53, 0x45, 0x52, 0x33, 0x32, 0x2e, 0x64, 0x6c, 0x6c], by decide⟩

/-- `"CreateFileA"` -/
def createFileA : CString :=
  ⟨[0x43, 0x72, 0x65, 0x61, 0x74, 0x65, 0x46, 0x69, 0x6c, 0x65, 0x41],
    by decide⟩

/-- An image at `0x1000` with two descriptors, the first of them not of
`KERNEL32.dll`; three thunks hold `0x77`. -/
def sampleImage : Memory :=
  let fields : List (ℕ × BitVec 32) :=
    [(0x103c, 0x40), (0x10d0, 0x100), (0x110c, 0x200), (0x1110, 0x300),
      (0x1120, 0x210), (0x1124, 0x320)]
  let thunks : List (ℕ × BitVec 64) :=
    [(0x1300, 0x77), (0x1320, 0x11), (0x1328, 0x77), (0x1330, 0x77)]
  let headers := fields.foldl
    (fun memory field => store memory field.1 field.2) fun _ => 0
  let named := storeBytes (storeBytes headers 0x1200 user32.object) 0x1210
    kernel32.object
  thunks.foldl (fun memory thunk => store memory thunk.1 thunk.2) named

def sampleTable : ImportTable where
  ntHeaders := 0x1040
  start := 0x1100
  descriptors := [⟨0x1200, user32, 0x1300, 1⟩, ⟨0x1210, kernel32, 0x1320, 3⟩]

theorem sampleTable_inMemory : sampleTable.InMemory 0x1000 sampleImage := by
  refine ⟨by decide, by decide, ?_, ?_, ?_⟩
  · constructor <;> decide
  · constructor <;> decide
  · unfold DescriptorsAt
    decide

theorem sampleTable_separate : sampleTable.Separate 0x1000 := by
  constructor
  · unfold Apart
    decide
  · unfold Apart
    decide

def sampleLoader : Loader :=
  ⟨fun _ => 0x70, fun _ _ => 0x77⟩

/-- One call hooks the first of the two entries under `KERNEL32.dll`. -/
theorem hookIAT_hooks_first_sampleTable :
    sampleTable.targets sampleImage 0x77 = [0x1328, 0x1330] ∧
      ∃ bound final,
        (∀ fuel, bound ≤ fuel →
          hookTimes sampleLoader 0x1000 createFileA 0x99 fuel 1
            ⟨sampleImage, 0⟩ = some final) ∧
        sampleTable.HookedTimes sampleImage 0x77 0x99 1 final := by
  refine ⟨by decide, ?_⟩
  exact hookIAT_hooks_first sampleTable_inMemory sampleTable_separate
    sampleLoader createFileA (by decide) (by decide) 1

end Windows

end TestRpc
