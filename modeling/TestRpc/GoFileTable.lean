import TestRpc.TransitionRuns

/-!
# The file table of the Go server

`net/rpc` runs every call in a goroutine of its own, and all of them share the
map `files`.  A step of this model is the start of a call, or one operating
system call or one access to `files` of a call that runs.  `Close` gives the
number back to the kernel before it deletes the entry, so that an `Open` that
gets the number in between stores its file under a key that `Close` is about
to delete.  Where no `Close` of a number is under way when an `Open` stores
its file under it, the table loses no live file.
-/

namespace TestRpc

open TransitionRuns

namespace Go

/-! ## States and steps -/

/-- An `*os.File`: the number of its descriptor, and whether it is open. -/
structure OsFile where
  number : ℕ
  isOpen : Bool
  deriving DecidableEq

/-- `file.Fd()`, which is `^uintptr(0)` for a closed file. -/
def OsFile.fd (file : OsFile) : ℕ :=
  if file.isOpen then file.number else 2 ^ 64 - 1

inductive Operation
  | read
  | write
  | lseek
  | ftruncate
  | fsync
  deriving DecidableEq

/-- How far a call has come.  `file` is an index into the files that the
server has created, `none` for a nil pointer; `closing` of an `Open` that has
returned says that a `Close` of its descriptor has started since. -/
inductive Progress
  | opening
  | opened (file : ℕ)
  | stored (file : ℕ)
  | openReturned (file fd : ℕ) (closing : Bool)
  | openFailed
  | closing (fildes : ℕ)
  | closeFound (fildes : ℕ) (file : Option ℕ)
  | closeReleased (fildes : ℕ)
  | closeReturned
  | using (operation : Operation) (fildes : ℕ)
  | usingFound (operation : Operation) (file : Option ℕ)
  | usingReturned
  deriving DecidableEq

structure Call where
  client : ℕ
  progress : Progress
  deriving DecidableEq

structure Server where
  objects : List OsFile
  files : ℕ → Option ℕ
  calls : List Call

def Server.initial : Server where
  objects := []
  files := fun _ => none
  calls := []

/-- A client's call starts; or a call takes its next step, `granted` being
the number of the file that `os.OpenFile` returns if that is the step. -/
inductive Event
  | startOpen (client : ℕ)
  | startClose (client fildes : ℕ)
  | startUse (client : ℕ) (operation : Operation) (fildes : ℕ)
  | advance (call : ℕ) (granted : Option ℕ)

def Server.isFree (server : Server) (number : ℕ) : Bool :=
  server.objects.all fun file => !file.isOpen || file.number != number

def Server.start (server : Server) (client : ℕ) (progress : Progress) :
    Server :=
  { server with calls := server.calls ++ [⟨client, progress⟩] }

def Server.proceed (server : Server) (index client : ℕ)
    (progress : Progress) : Server :=
  { server with calls := server.calls.set index ⟨client, progress⟩ }

/-- Note the start of a `Close` with the `Open`s that returned its
descriptor. -/
def Call.noteClose (fildes : ℕ) (call : Call) : Call :=
  match call.progress with
  | .openReturned file fd closing =>
      { call with
        progress := .openReturned file fd (closing || fd == fildes) }
  | _ => call

/-- `os.OpenFile`, which returns a number that is not open in the process. -/
def Server.openFile (server : Server) (index client : ℕ)
    (granted : Option ℕ) : Option Server :=
  match granted with
  | none => some (server.proceed index client .openFailed)
  | some number =>
      if server.isFree number then
        some { server.proceed index client
            (.opened server.objects.length) with
          objects := server.objects ++ [⟨number, true⟩] }
      else
        none

/-- `file.Close()`; a nil pointer and a closed file return an error. -/
def Server.closeFile (server : Server) (file : Option ℕ) : Server :=
  match file with
  | none => server
  | some file =>
      { server with
        objects := server.objects.modify file fun object =>
          { object with isOpen := false } }

def Server.advance (server : Server) (index : ℕ) (granted : Option ℕ) :
    Option Server :=
  match server.calls[index]? with
  | none => none
  | some ⟨client, progress⟩ =>
      match progress with
      | .opening => server.openFile index client granted
      | .opened file =>
          match server.objects[file]? with
          | none => none
          | some object =>
              some { server.proceed index client (.stored file) with
                files := Function.update server.files object.fd (some file) }
      | .stored file =>
          match server.objects[file]? with
          | none => none
          | some object =>
              some (server.proceed index client
                (.openReturned file object.fd false))
      | .closing fildes =>
          some (server.proceed index client
            (.closeFound fildes (server.files fildes)))
      | .closeFound fildes file =>
          some ((server.closeFile file).proceed index client
            (.closeReleased fildes))
      | .closeReleased fildes =>
          some { server.proceed index client .closeReturned with
            files := Function.update server.files fildes none }
      | .using operation fildes =>
          some (server.proceed index client
            (.usingFound operation (server.files fildes)))
      | .usingFound _ _ => some (server.proceed index client .usingReturned)
      | .openReturned _ _ _ | .openFailed | .closeReturned
      | .usingReturned => none

def Server.step (server : Server) : Event → Option Server
  | .startOpen client => some (server.start client .opening)
  | .startClose client fildes =>
      some ({ server with
        calls := server.calls.map (Call.noteClose fildes) }.start client
          (.closing fildes))
  | .startUse client operation fildes =>
      some (server.start client (.using operation fildes))
  | .advance index granted => server.advance index granted

/-! ## What is asked of the table -/

/-- For every `Open` that has returned and whose descriptor no `Close` has
started for, the table holds the file it created, and this is open. -/
def Server.KeepsLiveFiles (server : Server) : Prop :=
  ∀ (index client file fd : ℕ),
    server.calls[index]? = some ⟨client, .openReturned file fd false⟩ →
    server.files fd = some file ∧
      ∃ object, server.objects[file]? = some object ∧ object.isOpen = true

/-- The descriptor of a `Close` that is under way. -/
def Progress.closes : Progress → Option ℕ
  | .closing fildes => some fildes
  | .closeFound fildes _ => some fildes
  | .closeReleased fildes => some fildes
  | _ => none

/-- The file of an `Open` that has yet to store it. -/
def Progress.toStore : Progress → Option ℕ
  | .opened file => some file
  | _ => none

/-- The file of an `Open` that has stored it and has yet to return. -/
def Progress.toReturn : Progress → Option ℕ
  | .stored file => some file
  | _ => none

/-- No `Close` overlaps the end of an `Open` of the same number: none is under
way when the file is stored, and none starts before the `Open` returns. -/
def Server.NoOverlap (server : Server) : Event → Prop
  | .advance index _ =>
      ∀ call ∈ server.calls[index]?, ∀ file ∈ call.progress.toStore,
        ∀ object ∈ server.objects[file]?,
          ∀ other ∈ server.calls, other.progress.closes ≠ some object.fd
  | .startClose _ fildes =>
      ∀ call ∈ server.calls, ∀ file ∈ call.progress.toReturn,
        ∀ object ∈ server.objects[file]?, object.fd ≠ fildes
  | .startOpen _ => True
  | .startUse _ _ _ => True

/-- The descriptor that an `Open` has returned and that no `Close` has started
for. -/
def Progress.handle : Progress → Option ℕ
  | .openReturned _ fd false => some fd
  | _ => none

/-- A client uses and closes only descriptors that an `Open` of its own has
returned and that it has not closed. -/
def Server.Disciplined (server : Server) : Event → Prop
  | .startOpen _ => True
  | .startClose client fildes =>
      ∃ call ∈ server.calls, call.client = client ∧
        call.progress.handle = some fildes
  | .startUse client _ fildes =>
      ∃ call ∈ server.calls, call.client = client ∧
        call.progress.handle = some fildes
  | .advance _ _ => True

instance (server : Server) :
    ∀ event, Decidable (server.NoOverlap event)
  | .startOpen _ => inferInstanceAs (Decidable True)
  | .startClose _ fildes =>
      inferInstanceAs (Decidable (∀ call ∈ server.calls,
        ∀ file ∈ call.progress.toReturn,
          ∀ object ∈ server.objects[file]?, object.fd ≠ fildes))
  | .startUse _ _ _ => inferInstanceAs (Decidable True)
  | .advance index _ =>
      inferInstanceAs (Decidable (∀ call ∈ server.calls[index]?,
        ∀ file ∈ call.progress.toStore, ∀ object ∈ server.objects[file]?,
          ∀ other ∈ server.calls,
            other.progress.closes ≠ some object.fd))

instance (server : Server) :
    ∀ event, Decidable (server.Disciplined event)
  | .startOpen _ => inferInstanceAs (Decidable True)
  | .startClose client fildes =>
      inferInstanceAs (Decidable (∃ call ∈ server.calls,
        call.client = client ∧ call.progress.handle = some fildes))
  | .startUse client _ fildes =>
      inferInstanceAs (Decidable (∃ call ∈ server.calls,
        call.client = client ∧ call.progress.handle = some fildes))
  | .advance _ _ => inferInstanceAs (Decidable True)

/-! ## The invariant -/

/-- The file that a call has stored and that it, or the client that it
returned to, relies on. -/
def Progress.holds : Progress → Option ℕ
  | .stored file => some file
  | .openReturned file _ false => some file
  | _ => none

def Server.IsOpen (server : Server) (file number : ℕ) : Prop :=
  ∃ object, server.objects[file]? = some object ∧ object.isOpen = true ∧
    object.number = number

/-- A file is in the table under its number, open, and nothing is about to
close it. -/
def Server.Safe (server : Server) (file : ℕ) : Prop :=
  ∃ number, server.IsOpen file number ∧ server.files number = some file ∧
    ∀ call ∈ server.calls, call.progress.closes ≠ some number

/-- A file that no call but the one that opened it knows of. -/
def Server.Unshared (server : Server) (file : ℕ) : Prop :=
  (∃ number, server.IsOpen file number) ∧
    (∀ fildes, server.files fildes ≠ some file) ∧
    ∀ call ∈ server.calls, ∀ fildes,
      call.progress ≠ .closeFound fildes (some file)

def Server.HasNumber (server : Server) (file number : ℕ) : Prop :=
  ∃ object, server.objects[file]? = some object ∧ object.number = number

structure Server.Sound (server : Server) : Prop where
  distinct : ∀ left right number, server.IsOpen left number →
    server.IsOpen right number → left = right
  keyed : ∀ fildes file, server.files fildes = some file →
    server.HasNumber file fildes
  found : ∀ call ∈ server.calls, ∀ fildes file,
    call.progress = .closeFound fildes (some file) →
    server.HasNumber file fildes
  openedOnce : ∀ left right client client' file : ℕ,
    server.calls[left]? = some ⟨client, .opened file⟩ →
    server.calls[right]? = some ⟨client', .opened file⟩ → left = right
  unshared : ∀ call ∈ server.calls, ∀ file,
    call.progress = .opened file → server.Unshared file
  safe : ∀ call ∈ server.calls, ∀ file,
    call.progress.holds = some file → server.Safe file
  returned : ∀ call ∈ server.calls, ∀ file fd,
    call.progress = .openReturned file fd false → server.HasNumber file fd

theorem Server.IsOpen.hasNumber {server : Server} {file number : ℕ}
    (hopen : server.IsOpen file number) : server.HasNumber file number := by
  obtain ⟨object, hobject, _, hnumber⟩ := hopen
  exact ⟨object, hobject, hnumber⟩

theorem Server.HasNumber.unique {server : Server} {file number number' : ℕ}
    (hleft : server.HasNumber file number)
    (hright : server.HasNumber file number') : number = number' := by
  obtain ⟨object, hobject, rfl⟩ := hleft
  obtain ⟨object', hobject', rfl⟩ := hright
  rw [hobject, Option.some.injEq] at hobject'
  rw [hobject']

theorem Server.IsOpen.fd_eq {server : Server} {file number : ℕ}
    (hopen : server.IsOpen file number) {object : OsFile}
    (hobject : server.objects[file]? = some object) : object.fd = number := by
  obtain ⟨object', hobject', hisOpen, rfl⟩ := hopen
  rw [hobject, Option.some.injEq] at hobject'
  subst hobject'
  rw [OsFile.fd, if_pos hisOpen]

theorem Progress.closes_of_holds {progress : Progress} {file : ℕ}
    (hholds : progress.holds = some file) : progress.closes = none := by
  cases progress with
  | closing fildes | closeFound fildes found | closeReleased fildes =>
      cases hholds
  | _ => rfl

/-- What a call may have come to without touching the files or the table. -/
structure Server.Admits (server : Server) (progress : Progress) : Prop where
  found : ∀ fildes file, progress = .closeFound fildes (some file) →
    server.HasNumber file fildes ∧
      ∀ call ∈ server.calls, call.progress ≠ .opened file
  opened : ∀ file, progress = .opened file → server.Unshared file ∧
    ∀ call ∈ server.calls, call.progress ≠ .opened file
  closes : ∀ number, progress.closes = some number →
    ∀ call ∈ server.calls, ∀ file, call.progress.holds = some file →
      ¬server.IsOpen file number
  holds : ∀ file, progress.holds = some file → server.Safe file
  returned : ∀ file fd, progress = .openReturned file fd false →
    server.HasNumber file fd

/-- The calls change by one that is admitted. -/
theorem Server.Sound.withCalls {server : Server} (hinv : server.Sound)
    {calls : List Call} (new : Call) (hadmits : server.Admits new.progress)
    (hmem : ∀ call ∈ calls, call ∈ server.calls ∨ call = new)
    (honce : ∀ left right client client' file : ℕ,
      calls[left]? = some ⟨client, .opened file⟩ →
      calls[right]? = some ⟨client', .opened file⟩ → left = right) :
    ({ server with calls := calls } : Server).Sound := by
  have hunshared : ∀ file, server.Unshared file →
      (∀ fildes, new.progress ≠ .closeFound fildes (some file)) →
      ({ server with calls := calls } : Server).Unshared file := by
    rintro file ⟨hopen, hfiles, hcalls⟩ hnew
    refine ⟨hopen, hfiles, fun call hcall fildes => ?_⟩
    rcases hmem call hcall with hold | rfl
    · exact hcalls call hold fildes
    · exact hnew fildes
  refine ⟨hinv.distinct, hinv.keyed, ?_, honce, ?_, ?_, ?_⟩
  · intro call hcall fildes file hprogress
    rcases hmem call hcall with hold | rfl
    · exact hinv.found call hold fildes file hprogress
    · exact (hadmits.found fildes file hprogress).1
  · intro call hcall file hprogress
    rcases hmem call hcall with hold | rfl
    · apply hunshared file (hinv.unshared call hold file hprogress)
      intro fildes hnew
      exact (hadmits.found fildes file hnew).2 call hold hprogress
    · apply hunshared file (hadmits.opened file hprogress).1
      intro fildes hnew
      rw [hprogress] at hnew
      cases hnew
  · intro call hcall file hholds
    have hsafe : server.Safe file := by
      rcases hmem call hcall with hold | rfl
      · exact hinv.safe call hold file hholds
      · exact hadmits.holds file hholds
    obtain ⟨number, hopen, hfile, hnone⟩ := hsafe
    refine ⟨number, hopen, hfile, fun other hother => ?_⟩
    rcases hmem other hother with hold | rfl
    · exact hnone other hold
    · intro hcloses
      rcases hmem call hcall with hold | rfl
      · exact hadmits.closes number hcloses call hold file hholds hopen
      · rw [Progress.closes_of_holds hholds] at hcloses
        cases hcloses
  · intro call hcall file fd hprogress
    rcases hmem call hcall with hold | rfl
    · exact hinv.returned call hold file fd hprogress
    · exact hadmits.returned file fd hprogress

theorem Server.Sound.proceed {server : Server} (hinv : server.Sound)
    (index client : ℕ) {progress : Progress}
    (hadmits : server.Admits progress) :
    (server.proceed index client progress).Sound := by
  apply hinv.withCalls ⟨client, progress⟩ hadmits
  · intro call hcall
    exact List.mem_or_eq_of_mem_set hcall
  · intro left right client' client'' file hleft hright
    rcases getElem?_set_cases hleft with ⟨rfl, hset⟩ | ⟨_, hold⟩
    · rcases getElem?_set_cases hright with ⟨rfl, _⟩ | ⟨_, hother⟩
      · rfl
      · cases hset
        exact absurd rfl
          ((hadmits.opened file rfl).2 _ (List.mem_of_getElem? hother))
    · rcases getElem?_set_cases hright with ⟨rfl, hset⟩ | ⟨_, hother⟩
      · cases hset
        exact absurd rfl
          ((hadmits.opened file rfl).2 _ (List.mem_of_getElem? hold))
      · exact hinv.openedOnce left right _ _ file hold hother

theorem Server.Sound.start {server : Server} (hinv : server.Sound)
    (client : ℕ) {progress : Progress} (hadmits : server.Admits progress)
    (hplain : ∀ file, progress ≠ .opened file) :
    (server.start client progress).Sound := by
  apply hinv.withCalls ⟨client, progress⟩ hadmits
  · intro call hcall
    simpa using hcall
  · intro left right client' client'' file hleft hright
    rcases getElem?_append_singleton hleft with hold | ⟨_, hnew⟩
    · rcases getElem?_append_singleton hright with hother | ⟨_, hnew⟩
      · exact hinv.openedOnce left right _ _ file hold hother
      · cases hnew
        exact absurd rfl (hplain file)
    · cases hnew
      exact absurd rfl (hplain file)

/-- A call that holds nothing and knows of no file. -/
theorem Server.admits_of_closes {server : Server} {progress : Progress}
    (hholds : progress.holds = none)
    (hopened : ∀ file, progress ≠ .opened file)
    (hfound : ∀ fildes file, progress ≠ .closeFound fildes (some file))
    (hcloses : ∀ number, progress.closes = some number →
      ∀ call ∈ server.calls, ∀ file, call.progress.holds = some file →
        ¬server.IsOpen file number) :
    server.Admits progress := by
  refine ⟨?_, ?_, hcloses, ?_, ?_⟩
  · intro fildes file hprogress
    exact absurd hprogress (hfound fildes file)
  · intro file hprogress
    exact absurd hprogress (hopened file)
  · intro file hfile
    rw [hholds] at hfile
    cases hfile
  · intro file fd hreturned
    rw [hreturned] at hholds
    cases hholds

theorem Server.admits_plain (server : Server) {progress : Progress}
    (hcloses : progress.closes = none) (hholds : progress.holds = none)
    (hopened : ∀ file, progress ≠ .opened file) :
    server.Admits progress := by
  apply Server.admits_of_closes hholds hopened
  · intro fildes file hfound
    rw [hfound] at hcloses
    cases hcloses
  · intro number hnumber
    rw [hcloses] at hnumber
    cases hnumber

/-- A call that relies on a file that is safe. -/
theorem Server.Safe.admits {server : Server} {file : ℕ}
    (hsafe : server.Safe file) {progress : Progress}
    (hholds : progress.holds = some file)
    (hreturned : ∀ fd, progress = .openReturned file fd false →
      server.HasNumber file fd) :
    server.Admits progress := by
  have hcloses := Progress.closes_of_holds hholds
  constructor
  case found =>
    intro fildes found hfound
    rw [hfound] at hcloses
    cases hcloses
  case opened =>
    intro opened hopened
    rw [hopened] at hholds
    cases hholds
  case closes =>
    intro number hnumber
    rw [hcloses] at hnumber
    cases hnumber
  case holds =>
    intro held hheld
    rw [hholds] at hheld
    cases hheld
    exact hsafe
  case returned =>
    intro held fd hprogress
    rw [hprogress] at hholds
    cases hholds
    exact hreturned fd hprogress

/-- A `Close` that goes on is no danger to a file that is safe from it. -/
theorem Server.Sound.not_isOpen_of_closes {server : Server} (hinv : server.Sound)
    {call : Call} (hcall : call ∈ server.calls) {number : ℕ}
    (hcloses : call.progress.closes = some number) :
    ∀ other ∈ server.calls, ∀ file, other.progress.holds = some file →
      ¬server.IsOpen file number := by
  intro other hother file hholds hopen
  obtain ⟨number', hopen', _, hnone⟩ := hinv.safe other hother file hholds
  have hsame := hopen.hasNumber.unique hopen'.hasNumber
  exact hnone call hcall (hsame ▸ hcloses)

/-! ## Steps that touch the files or the table -/

theorem Server.isOpen_closeFile {server : Server} {file closed number : ℕ} :
    (server.closeFile (some closed)).IsOpen file number ↔
      server.IsOpen file number ∧ file ≠ closed := by
  simp only [Server.IsOpen, Server.closeFile, List.getElem?_modify]
  by_cases hsame : closed = file
  · subst hsame
    simp
  · simp [hsame, Ne.symm hsame]

theorem Server.hasNumber_closeFile {server : Server}
    {file closed number : ℕ} :
    (server.closeFile (some closed)).HasNumber file number ↔
      server.HasNumber file number := by
  simp only [Server.HasNumber, Server.closeFile, List.getElem?_modify]
  by_cases hsame : closed = file
  · subst hsame
    simp
  · simp [hsame]

theorem Server.calls_closeFile (server : Server) (file : Option ℕ) :
    (server.closeFile file).calls = server.calls := by
  cases file <;> rfl

theorem Server.Sound.closeFile {server : Server} (hinv : server.Sound)
    {call : Call} (hcall : call ∈ server.calls) {fildes : ℕ}
    {found : Option ℕ} (hfound : call.progress = .closeFound fildes found) :
    (server.closeFile found).Sound := by
  cases found with
  | none => exact hinv
  | some closed =>
      have hnumber := hinv.found call hcall fildes closed hfound
      refine ⟨?_, ?_, ?_, hinv.openedOnce, ?_, ?_, ?_⟩
      · intro left right number hleft hright
        exact hinv.distinct left right number
          (Server.isOpen_closeFile.mp hleft).1
          (Server.isOpen_closeFile.mp hright).1
      · intro fildes' file hfile
        exact Server.hasNumber_closeFile.mpr (hinv.keyed fildes' file hfile)
      · intro other hother fildes' file hprogress
        exact Server.hasNumber_closeFile.mpr
          (hinv.found other hother fildes' file hprogress)
      · intro other hother file hprogress
        obtain ⟨⟨number, hopen⟩, hfiles, hcalls⟩ :=
          hinv.unshared other hother file hprogress
        refine ⟨⟨number, Server.isOpen_closeFile.mpr ⟨hopen, ?_⟩⟩, hfiles,
          hcalls⟩
        rintro rfl
        exact hcalls call hcall fildes hfound
      · intro other hother file hholds
        obtain ⟨number, hopen, hfile, hnone⟩ :=
          hinv.safe other hother file hholds
        refine ⟨number, Server.isOpen_closeFile.mpr ⟨hopen, ?_⟩, hfile,
          hnone⟩
        rintro rfl
        have hsame := hnumber.unique hopen.hasNumber
        exact hnone call hcall (by rw [hfound, hsame]; rfl)
      · intro other hother file fd hprogress
        exact Server.hasNumber_closeFile.mpr
          (hinv.returned other hother file fd hprogress)

theorem Server.Sound.delete {server : Server} (hinv : server.Sound)
    {call : Call} (hcall : call ∈ server.calls) {fildes : ℕ}
    (hcloses : call.progress.closes = some fildes) :
    ({ server with
      files := Function.update server.files fildes none } : Server).Sound := by
  have hfiles : ∀ key file,
      Function.update server.files fildes none key = some file →
      server.files key = some file := by
    intro key file hfile
    by_cases hsame : key = fildes
    · subst hsame
      rw [Function.update_self] at hfile
      cases hfile
    · rwa [Function.update_of_ne hsame] at hfile
  refine ⟨hinv.distinct, ?_, hinv.found, hinv.openedOnce, ?_, ?_,
    hinv.returned⟩
  · intro key file hfile
    exact hinv.keyed key file (hfiles key file hfile)
  · intro other hother file hprogress
    obtain ⟨hopen, hnot, hcalls⟩ := hinv.unshared other hother file hprogress
    exact ⟨hopen, fun key hfile => hnot key (hfiles key file hfile), hcalls⟩
  · intro other hother file hholds
    obtain ⟨number, hopen, hfile, hnone⟩ :=
      hinv.safe other hother file hholds
    refine ⟨number, hopen, ?_, hnone⟩
    have hdiffers : number ≠ fildes := by
      rintro rfl
      exact hnone call hcall hcloses
    exact (Function.update_of_ne hdiffers _ _).trans hfile

theorem Server.Sound.store {server : Server} (hinv : server.Sound)
    {file number : ℕ} (hopen : server.IsOpen file number)
    (hopened : ∀ call ∈ server.calls, call.progress ≠ .opened file) :
    ({ server with
      files := Function.update server.files number (some file) } :
        Server).Sound := by
  have hfiles : ∀ key other,
      Function.update server.files number (some file) key = some other →
      server.files key = some other ∨ key = number ∧ other = file := by
    intro key other hother
    by_cases hsame : key = number
    · subst hsame
      rw [Function.update_self, Option.some.injEq] at hother
      exact .inr ⟨rfl, hother.symm⟩
    · rw [Function.update_of_ne hsame] at hother
      exact .inl hother
  refine ⟨hinv.distinct, ?_, hinv.found, hinv.openedOnce, ?_, ?_,
    hinv.returned⟩
  · intro key other hother
    rcases hfiles key other hother with hold | ⟨rfl, rfl⟩
    · exact hinv.keyed key other hold
    · exact hopen.hasNumber
  · intro call hcall other hprogress
    obtain ⟨hisOpen, hnot, hcalls⟩ :=
      hinv.unshared call hcall other hprogress
    refine ⟨hisOpen, fun key hother => ?_, hcalls⟩
    rcases hfiles key other hother with hold | ⟨rfl, rfl⟩
    · exact hnot key hold
    · exact hopened call hcall hprogress
  · intro call hcall other hholds
    obtain ⟨number', hopen', hfile, hnone⟩ :=
      hinv.safe call hcall other hholds
    refine ⟨number', hopen', ?_, hnone⟩
    by_cases hsame : number' = number
    · subst hsame
      rw [← hinv.distinct file other number' hopen hopen']
      exact Function.update_self ..
    · exact (Function.update_of_ne hsame _ _).trans hfile

theorem Server.isFree_iff {server : Server} {number : ℕ} :
    server.isFree number = true ↔ ∀ file, ¬server.IsOpen file number := by
  simp only [Server.isFree, List.all_eq_true, Bool.or_eq_true,
    Bool.not_eq_true', bne_iff_ne]
  constructor
  · rintro hall file ⟨object, hobject, hisOpen, rfl⟩
    rcases hall object (List.mem_of_getElem? hobject) with hclosed | hdiffers
    · rw [hisOpen] at hclosed
      cases hclosed
    · exact hdiffers rfl
  · intro hnone object hmem
    obtain ⟨file, hfile⟩ := List.getElem?_of_mem hmem
    cases hisOpen : object.isOpen with
    | false => exact .inl rfl
    | true =>
        right
        intro hnumber
        exact hnone file ⟨object, hfile, hisOpen, hnumber⟩

section Create

variable {server : Server} {number : ℕ}

theorem Server.isOpen_create {file number' : ℕ} :
    ({ server with objects := server.objects ++ [⟨number, true⟩] } :
        Server).IsOpen file number' ↔
      server.IsOpen file number' ∨
        file = server.objects.length ∧ number = number' := by
  constructor
  · rintro ⟨object, hobject, hisOpen, hnumber⟩
    rcases getElem?_append_singleton hobject with hold | ⟨rfl, rfl⟩
    · exact .inl ⟨object, hold, hisOpen, hnumber⟩
    · exact .inr ⟨rfl, hnumber⟩
  · rintro (⟨object, hobject, hopen⟩ | ⟨rfl, rfl⟩)
    · exact ⟨object, getElem?_append_left_of_some hobject, hopen⟩
    · exact ⟨_, List.getElem?_concat_length .., rfl, rfl⟩

theorem Server.HasNumber.create {file number' : ℕ}
    (hnumber : server.HasNumber file number') :
    ({ server with objects := server.objects ++ [⟨number, true⟩] } :
      Server).HasNumber file number' := by
  obtain ⟨object, hobject, hsame⟩ := hnumber
  exact ⟨object, getElem?_append_left_of_some hobject, hsame⟩

theorem Server.HasNumber.lt {file number' : ℕ}
    (hnumber : server.HasNumber file number') :
    file < server.objects.length := by
  obtain ⟨object, hobject, _⟩ := hnumber
  exact (List.getElem?_eq_some_iff.mp hobject).1

theorem Server.Sound.create (hinv : server.Sound)
    (hfree : server.isFree number = true) :
    ({ server with
      objects := server.objects ++ [⟨number, true⟩] } : Server).Sound := by
  have hnone := Server.isFree_iff.mp hfree
  refine ⟨?_, ?_, ?_, hinv.openedOnce, ?_, ?_, ?_⟩
  · intro left right number' hleft hright
    rcases Server.isOpen_create.mp hleft with hleft | ⟨rfl, rfl⟩
    · rcases Server.isOpen_create.mp hright with hright | ⟨rfl, rfl⟩
      · exact hinv.distinct left right number' hleft hright
      · exact absurd hleft (hnone left)
    · rcases Server.isOpen_create.mp hright with hright | ⟨rfl, _⟩
      · exact absurd hright (hnone right)
      · rfl
  · intro fildes file hfile
    exact (hinv.keyed fildes file hfile).create
  · intro call hcall fildes file hprogress
    exact (hinv.found call hcall fildes file hprogress).create
  · intro call hcall file hprogress
    obtain ⟨⟨number', hopen⟩, hrest⟩ := hinv.unshared call hcall file hprogress
    exact ⟨⟨number', Server.isOpen_create.mpr (.inl hopen)⟩, hrest⟩
  · intro call hcall file hholds
    obtain ⟨number', hopen, hrest⟩ := hinv.safe call hcall file hholds
    exact ⟨number', Server.isOpen_create.mpr (.inl hopen), hrest⟩
  · intro call hcall file fd hprogress
    exact (hinv.returned call hcall file fd hprogress).create

/-- Nothing knows of a file that was just created. -/
theorem Server.Sound.admits_created (hinv : server.Sound) :
    ({ server with objects := server.objects ++ [⟨number, true⟩] } :
      Server).Admits (.opened server.objects.length) := by
  constructor
  case found =>
    intro fildes file hfound
    cases hfound
  case opened =>
    rintro file ⟨⟩
    refine ⟨⟨⟨number, Server.isOpen_create.mpr (.inr ⟨rfl, rfl⟩)⟩, ?_, ?_⟩,
      ?_⟩
    · intro fildes hfile
      exact absurd (hinv.keyed fildes _ hfile).lt (lt_irrefl _)
    · intro call hcall fildes hfound
      exact absurd (hinv.found call hcall fildes _ hfound).lt (lt_irrefl _)
    · intro call hcall hopened
      obtain ⟨⟨number', hopen⟩, _⟩ := hinv.unshared call hcall _ hopened
      exact absurd hopen.hasNumber.lt (lt_irrefl _)
  case closes =>
    intro number hcloses
    cases hcloses
  case holds =>
    intro file hholds
    cases hholds
  case returned =>
    intro file fd hreturned
    cases hreturned

end Create

/-- A noted `Close` changes the `Open`s that returned its descriptor, and no
other call. -/
theorem Call.noteClose_cases (fildes : ℕ) (call : Call) :
    (call.noteClose fildes = call ∧
      ∀ file, call.progress ≠ .openReturned file fildes false) ∨
    ∃ file, call.noteClose fildes =
      ⟨call.client, .openReturned file fildes true⟩ := by
  obtain ⟨client, progress⟩ := call
  cases progress with
  | openReturned file fd closing =>
      by_cases hsame : fd = fildes
      · subst hsame
        right
        exact ⟨file, by simp [Call.noteClose]⟩
      · left
        simp [Call.noteClose, hsame]
  | _ => exact .inl ⟨rfl, by simp⟩

theorem Call.mem_of_mem_noteClose {calls : List Call} {fildes : ℕ}
    {call : Call} (hcall : call ∈ calls.map (Call.noteClose fildes))
    (hother : ∀ file, call.progress ≠ .openReturned file fildes true) :
    call ∈ calls := by
  obtain ⟨before, hbefore, rfl⟩ := List.mem_map.mp hcall
  rcases Call.noteClose_cases fildes before with ⟨hsame, _⟩ | ⟨file, hnew⟩
  · rw [hsame]
    exact hbefore
  · rw [hnew] at hother
    exact absurd rfl (hother file)

theorem Call.getElem?_of_noteClose {calls : List Call}
    {fildes index client file : ℕ}
    (hcall : (calls.map (Call.noteClose fildes))[index]? =
      some ⟨client, .opened file⟩) :
    calls[index]? = some ⟨client, .opened file⟩ := by
  rw [List.getElem?_map] at hcall
  obtain ⟨before, hbefore, hnote⟩ := Option.map_eq_some_iff.mp hcall
  rcases Call.noteClose_cases fildes before with ⟨hsame, _⟩ | ⟨_, hnew⟩
  · rw [hbefore, ← hnote, hsame]
  · rw [hnew] at hnote
    cases hnote

theorem Server.Sound.noteClose {server : Server} (hinv : server.Sound)
    (fildes : ℕ) :
    ({ server with
      calls := server.calls.map (Call.noteClose fildes) } :
        Server).Sound := by
  refine ⟨hinv.distinct, hinv.keyed, ?_, ?_, ?_, ?_, ?_⟩
  · intro call hcall fildes' file hprogress
    have hold := Call.mem_of_mem_noteClose hcall (by simp [hprogress])
    exact hinv.found call hold fildes' file hprogress
  · intro left right client client' file hleft hright
    exact hinv.openedOnce left right client client' file
      (Call.getElem?_of_noteClose hleft) (Call.getElem?_of_noteClose hright)
  · intro call hcall file hprogress
    have hold := Call.mem_of_mem_noteClose hcall (by simp [hprogress])
    obtain ⟨hopen, hfiles, hcalls⟩ :=
      hinv.unshared call hold file hprogress
    refine ⟨hopen, hfiles, fun other hother fildes' hfound => ?_⟩
    have hold' := Call.mem_of_mem_noteClose hother (by simp [hfound])
    exact hcalls other hold' fildes' hfound
  · intro call hcall file hholds
    have hold : call ∈ server.calls := by
      apply Call.mem_of_mem_noteClose hcall
      intro noted hnoted
      rw [hnoted] at hholds
      cases hholds
    obtain ⟨number, hopen, hfile, hnone⟩ := hinv.safe call hold file hholds
    refine ⟨number, hopen, hfile, fun other hother hcloses => ?_⟩
    have hold' : other ∈ server.calls := by
      apply Call.mem_of_mem_noteClose hother
      intro noted hnoted
      rw [hnoted] at hcloses
      cases hcloses
    exact hnone other hold' hcloses
  · intro call hcall file fd hprogress
    have hold := Call.mem_of_mem_noteClose hcall (by simp [hprogress])
    exact hinv.returned call hold file fd hprogress

/-! ## Every step -/

theorem Server.Sound.startClose {server : Server} (hinv : server.Sound)
    (client fildes : ℕ)
    (hallowed : server.NoOverlap (.startClose client fildes)) :
    (({ server with
      calls := server.calls.map (Call.noteClose fildes) } :
        Server).start client (.closing fildes)).Sound := by
  apply (hinv.noteClose fildes).start
  · apply Server.admits_of_closes rfl (by simp) (by simp)
    rintro number ⟨⟩ call hcall file hholds hopen
    obtain ⟨before, hbefore, rfl⟩ := List.mem_map.mp hcall
    rcases Call.noteClose_cases fildes before with ⟨hsame, hother⟩ |
      ⟨file', hnew⟩
    · rw [hsame] at hholds
      cases hprogress : before.progress with
      | stored file' =>
          rw [hprogress] at hholds
          cases hholds
          obtain ⟨object, hobject, _⟩ := id hopen
          exact hallowed before hbefore file
            (by rw [hprogress]; rfl) object hobject
            (hopen.fd_eq hobject)
      | openReturned file' fd closing =>
          rw [hprogress] at hholds
          cases closing with
          | true => cases hholds
          | false =>
              cases hholds
              have hnumber := hinv.returned before hbefore file fd hprogress
              have hfd : fd = fildes := hnumber.unique hopen.hasNumber
              rw [hfd] at hprogress
              exact hother file hprogress
      | _ =>
          rw [hprogress] at hholds
          cases hholds
    · rw [hnew] at hholds
      cases hholds
  · simp

/-- The step of `Open` that stores its file: the call forgets the file, the
table takes it, and the call relies on it from then on. -/
theorem Server.Sound.storeOpened {server : Server} (hinv : server.Sound)
    {index client file : ℕ} {object : OsFile}
    (hcall : server.calls[index]? = some ⟨client, .opened file⟩)
    (hobject : server.objects[file]? = some object)
    {granted : Option ℕ}
    (hallowed : server.NoOverlap (.advance index granted)) :
    ({ server.proceed index client (.stored file) with
      files := Function.update server.files object.fd (some file) } :
        Server).Sound := by
  have hmem := List.mem_of_getElem? hcall
  obtain ⟨⟨number, hopen⟩, _, _⟩ := hinv.unshared _ hmem file rfl
  have hfd : object.fd = number := hopen.fd_eq hobject
  have hnone := hallowed _ hcall file rfl object hobject
  rw [hfd] at hnone ⊢
  have hforgot : (server.proceed index client .openFailed).Sound :=
    hinv.proceed index client (server.admits_plain rfl rfl (by simp))
  have hopened : ∀ call ∈ (server.proceed index client .openFailed).calls,
      call.progress ≠ .opened file := by
    intro call hcall' hprogress
    obtain ⟨other, hother⟩ := List.getElem?_of_mem hcall'
    obtain ⟨client', progress⟩ := call
    cases hprogress
    rcases getElem?_set_cases hother with ⟨_, hset⟩ | ⟨hdiffers, hold⟩
    · cases hset
    · exact hdiffers (hinv.openedOnce other index _ _ file hold hcall)
  have hcloses : ∀ call ∈ (server.proceed index client .openFailed).calls,
      call.progress.closes ≠ some number := by
    intro call hcall'
    rcases List.mem_or_eq_of_mem_set hcall' with hold | rfl
    · exact hnone call hold
    · simp [Progress.closes]
  have hsafe : ({ server.proceed index client .openFailed with
      files := Function.update server.files number (some file) } :
        Server).Safe file :=
    ⟨number, hopen, Function.update_self .., hcloses⟩
  have hstored := (hforgot.store hopen hopened).proceed index client
    (hsafe.admits rfl (by simp) : Server.Admits _ (.stored file))
  simpa [Server.proceed, List.set_set] using hstored

theorem Server.Sound.admits_returned {server : Server} (hinv : server.Sound)
    {client file : ℕ} {object : OsFile}
    (hmem : ⟨client, .stored file⟩ ∈ server.calls)
    (hobject : server.objects[file]? = some object) :
    server.Admits (.openReturned file object.fd false) := by
  have hsafe : server.Safe file := hinv.safe _ hmem file rfl
  apply hsafe.admits rfl
  rintro fd ⟨⟩
  obtain ⟨number, hopen, _⟩ := hsafe
  rw [hopen.fd_eq hobject]
  exact hopen.hasNumber

theorem Server.Sound.admits_closeFound {server : Server}
    (hinv : server.Sound) {client fildes : ℕ}
    (hmem : ⟨client, .closing fildes⟩ ∈ server.calls) :
    server.Admits (.closeFound fildes (server.files fildes)) := by
  constructor
  case found =>
    intro fildes' file hfound
    simp only [Progress.closeFound.injEq] at hfound
    obtain ⟨rfl, hfile⟩ := hfound
    refine ⟨hinv.keyed fildes file hfile, fun call hcall hopened => ?_⟩
    obtain ⟨_, hnot, _⟩ := hinv.unshared call hcall file hopened
    exact hnot fildes hfile
  case opened =>
    intro file hopened
    cases hopened
  case closes =>
    intro number hcloses
    exact hinv.not_isOpen_of_closes hmem hcloses
  case holds =>
    intro file hholds
    cases hholds
  case returned =>
    intro file fd hreturned
    cases hreturned

theorem Server.Sound.admits_closeReleased {server : Server}
    (hinv : server.Sound) {call : Call} (hmem : call ∈ server.calls)
    {fildes : ℕ} (hcloses : call.progress.closes = some fildes) :
    server.Admits (.closeReleased fildes) := by
  apply Server.admits_of_closes rfl (by simp) (by simp)
  rintro number ⟨⟩
  exact hinv.not_isOpen_of_closes hmem hcloses

theorem Server.Sound.advance {server next : Server} (hinv : server.Sound)
    {index : ℕ} {granted : Option ℕ}
    (hallowed : server.NoOverlap (.advance index granted))
    (hstep : server.advance index granted = some next) :
    next.Sound := by
  unfold Server.advance at hstep
  cases hcall : server.calls[index]? with
  | none =>
      rw [hcall] at hstep
      cases hstep
  | some call =>
      obtain ⟨client, progress⟩ := call
      have hmem : (⟨client, progress⟩ : Call) ∈ server.calls :=
        List.mem_of_getElem? hcall
      rw [hcall] at hstep
      cases progress with
      | opening =>
          simp only [Server.openFile] at hstep
          cases granted with
          | none =>
              cases hstep
              exact hinv.proceed index client
                (server.admits_plain rfl rfl (by simp))
          | some number =>
              simp only at hstep
              split at hstep
              · next hfree =>
                cases hstep
                exact (hinv.create hfree).proceed index client
                  hinv.admits_created
              · cases hstep
      | opened file =>
          simp only at hstep
          split at hstep
          · cases hstep
          · next object hobject =>
            cases hstep
            exact hinv.storeOpened hcall hobject hallowed
      | stored file =>
          simp only at hstep
          split at hstep
          · cases hstep
          · next object hobject =>
            cases hstep
            exact hinv.proceed index client
              (hinv.admits_returned hmem hobject)
      | closing fildes =>
          cases hstep
          exact hinv.proceed index client (hinv.admits_closeFound hmem)
      | closeFound fildes file =>
          cases hstep
          have hclosed := hinv.closeFile hmem rfl
          exact hclosed.proceed index client
            (hclosed.admits_closeReleased (server.calls_closeFile file ▸ hmem)
              rfl)
      | closeReleased fildes =>
          cases hstep
          exact (hinv.delete hmem rfl).proceed index client
            (Server.admits_plain _ rfl rfl (by simp))
      | «using» operation fildes =>
          cases hstep
          exact hinv.proceed index client
            (server.admits_plain rfl rfl (by simp))
      | usingFound operation file =>
          cases hstep
          exact hinv.proceed index client
            (server.admits_plain rfl rfl (by simp))
      | openReturned file fd closing | openFailed | closeReturned
      | usingReturned => cases hstep

theorem Server.Sound.step {server next : Server} {event : Event}
    (hinv : server.Sound) (hallowed : server.NoOverlap event)
    (hstep : server.step event = some next) : next.Sound := by
  cases event with
  | startOpen client =>
      cases hstep
      exact hinv.start client (server.admits_plain rfl rfl (by simp))
        (by simp)
  | startClose client fildes =>
      cases hstep
      exact hinv.startClose client fildes hallowed
  | startUse client operation fildes =>
      cases hstep
      exact hinv.start client (server.admits_plain rfl rfl (by simp))
        (by simp)
  | advance index granted => exact hinv.advance hallowed hstep

/-! ## Whole runs -/

theorem Server.initial_sound : Server.initial.Sound := by
  refine ⟨?_, ?_, ?_, ?_, ?_, ?_, ?_⟩
  · rintro left right number ⟨object, hobject, _⟩
    simp [Server.initial] at hobject
  all_goals simp [Server.initial]

theorem Server.Sound.keepsLiveFiles {server : Server}
    (hinv : server.Sound) : server.KeepsLiveFiles := by
  intro index client file fd hcall
  have hmem := List.mem_of_getElem? hcall
  obtain ⟨number, hopen, hfile, _⟩ := hinv.safe _ hmem file rfl
  have hnumber := hinv.returned _ hmem file fd rfl
  rw [hnumber.unique hopen.hasNumber]
  obtain ⟨object, hobject, hisOpen, _⟩ := hopen
  exact ⟨hfile, object, hobject, hisOpen⟩

/-- While no `Close` overlaps the end of an `Open` of its number, the table
has every live file. -/
theorem Server.table_keeps_live_files (events : List Event)
    (server : Server)
    (hrun : Run Server.step Server.NoOverlap Server.initial events server) :
    server.KeepsLiveFiles := by
  have hsound : server.Sound := by
    apply hrun.invariant _ Server.initial_sound
    intro state event next hinv hallowed hstep
    exact hinv.step hallowed hstep
  exact hsound.keepsLiveFiles

/-- A client opens and closes a file, and a second one is given its number
once the entry is gone. -/
def reusedAfterDelete : List Event :=
  [.startOpen 0, .advance 0 (some 5), .advance 0 none, .advance 0 none,
    .startOpen 1, .startClose 0 5, .advance 2 none, .advance 2 none,
    .advance 2 none, .advance 1 (some 5), .advance 1 none, .advance 1 none]

theorem Server.table_keeps_live_files_reusedAfterDelete :
    ∃ server,
      Run Server.step Server.NoOverlap Server.initial reusedAfterDelete
        server ∧
      server.calls = [⟨0, .openReturned 0 5 true⟩,
        ⟨1, .openReturned 1 5 false⟩, ⟨0, .closeReturned⟩] ∧
      server.files 5 = some 1 ∧ server.KeepsLiveFiles := by
  obtain ⟨server, hexec, hcalls, hfile⟩ : ∃ server,
      execute Server.step Server.NoOverlap Server.initial
        reusedAfterDelete = some server ∧
      server.calls = [⟨0, .openReturned 0 5 true⟩,
        ⟨1, .openReturned 1 5 false⟩, ⟨0, .closeReturned⟩] ∧
      server.files 5 = some 1 := ⟨_, rfl, rfl, rfl⟩
  have hrun := run_of_execute hexec
  exact ⟨server, hrun, hcalls, hfile,
    Server.table_keeps_live_files reusedAfterDelete server hrun⟩

/-- The same, with the number given out between `file.Close()` and the
deletion. -/
def reusedBeforeDelete : List Event :=
  [.startOpen 0, .advance 0 (some 5), .advance 0 none, .advance 0 none,
    .startOpen 1, .startClose 0 5, .advance 2 none, .advance 2 none,
    .advance 1 (some 5), .advance 1 none, .advance 1 none, .advance 2 none]

/-- The second client has an open file and a descriptor for it, and the table
has no entry. -/
theorem Server.live_file_lost_reusedBeforeDelete :
    ∃ server,
      Run Server.step Server.Disciplined Server.initial reusedBeforeDelete
        server ∧
      server.calls = [⟨0, .openReturned 0 5 true⟩,
        ⟨1, .openReturned 1 5 false⟩, ⟨0, .closeReturned⟩] ∧
      server.files 5 = none ∧ ¬server.KeepsLiveFiles := by
  obtain ⟨server, hexec, hcalls, hfile⟩ : ∃ server,
      execute Server.step Server.Disciplined Server.initial
        reusedBeforeDelete = some server ∧
      server.calls = [⟨0, .openReturned 0 5 true⟩,
        ⟨1, .openReturned 1 5 false⟩, ⟨0, .closeReturned⟩] ∧
      server.files 5 = none := ⟨_, rfl, rfl, rfl⟩
  refine ⟨server, run_of_execute hexec, hcalls, hfile, fun hkeeps => ?_⟩
  have hlive := hkeeps 1 1 1 5 (by rw [hcalls]; rfl)
  rw [hfile] at hlive
  cases hlive.1

end Go

end TestRpc
