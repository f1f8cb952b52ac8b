import TestRpc.TransitionRuns
import TestRpc.SequentialReads

/-!
# The handles of the Java server

`Server.open` hands out the hash code of the `RandomAccessFile` that it
creates and puts the file into `files` under it; every other method looks its
file up under the handle that it is given.  A hash code need not be unique.
Over every sequence of calls, the handles identify their files exactly as long
as no `open` creates a file whose hash code is a key of `files` already.
-/

namespace TestRpc

open TransitionRuns FileCursor StreamReceive

namespace Java

/-! ## `RandomAccessFile` -/

inductive Thrown
  | illegalArgument
  | fileNotFound
  | nullPointer
  | negativeArraySize
  | indexOutOfBounds
  | io
  deriving DecidableEq

/-- The contents of the files of the file system. -/
abbrev Disk := ℕ → List UInt8

/-- `node` is the file of the file system that the stream was opened on. -/
structure RandomAccessFile where
  hashCode : CInt
  node : ℕ
  pointer : ℕ
  writable : Bool
  isOpen : Bool
  deriving DecidableEq

/-- A method of `RandomAccessFile`: what it returns or throws, and the stream
and the disk afterwards. -/
abbrev Method (α : Type) :=
  RandomAccessFile → Disk → Except Thrown α × RandomAccessFile × Disk

inductive Mode
  | r
  | rw
  | rws
  | rwd
  | other
  deriving DecidableEq

/-- `found` is the hash code of the new object and the file that the name
denotes; `none` when this cannot be opened. -/
def RandomAccessFile.new (mode : Mode) (found : Option (CInt × ℕ)) :
    Except Thrown RandomAccessFile :=
  match mode, found with
  | .other, _ => .error .illegalArgument
  | _, none => .error .fileNotFound
  | mode, some (hashCode, node) => .ok ⟨hashCode, node, 0, mode != .r, true⟩

/-- `fault` is the outcome of the system call that fails, `some true` when
this has released the descriptor nevertheless. -/
def RandomAccessFile.close (fault : Option Bool) : Method Unit :=
  fun file disk =>
    if file.isOpen then
      match fault with
      | none => (.ok (), { file with isOpen := false }, disk)
      | some released =>
          (.error .io, { file with isOpen := !released }, disk)
    else
      (.ok (), file, disk)

/-- The bytes read, or `none` for the status `-1`. -/
def RandomAccessFile.read (ask : Ask) (fails : Bool) :
    Method (Option (List UInt8)) :=
  fun file disk =>
    if file.isOpen && !fails then
      match Cursor.read ⟨disk file.node, file.pointer⟩ ask with
      | none => (.ok none, file, disk)
      | some (data, cursor) =>
          (.ok (some data), { file with pointer := cursor.position }, disk)
    else
      (.error .io, file, disk)

/-- The contents after `data` was written at `position`, with zeros in a gap
before it. -/
def written (content : List UInt8) (position : ℕ) (data : List UInt8) :
    List UInt8 :=
  if data = [] then
    content
  else
    padded 0 position (content.take position) ++ data ++
      content.drop (position + data.length)

/-- `fault` is the number of bytes after which the write fails. -/
def RandomAccessFile.write (b : List UInt8) (off len : CInt)
    (fault : Option ℕ) : Method Unit :=
  fun file disk =>
    if off.toInt < 0 ∨ len.toInt < 0 ∨ b.length < off.toNat + len.toNat then
      (.error .indexOutOfBounds, file, disk)
    else if file.isOpen && file.writable then
      let piece := (b.drop off.toNat).take len.toNat
      let data := match fault with
        | none => piece
        | some count => piece.take count
      let status := match fault with
        | none => .ok ()
        | some _ => .error .io
      (status, { file with pointer := file.pointer + data.length },
        Function.update disk file.node
          (written (disk file.node) file.pointer data))
    else
      (.error .io, file, disk)

def RandomAccessFile.seek (pos : BitVec 64) (fails : Bool) : Method Unit :=
  fun file disk =>
    if pos.toInt < 0 then
      (.error .io, file, disk)
    else if file.isOpen && !fails then
      (.ok (), { file with pointer := pos.toNat }, disk)
    else
      (.error .io, file, disk)

def RandomAccessFile.setLength (newLength : BitVec 64) (fails : Bool) :
    Method Unit :=
  fun file disk =>
    if newLength.toInt < 0 then
      (.error .io, file, disk)
    else if file.isOpen && file.writable && !fails then
      (.ok (), { file with pointer := min file.pointer newLength.toNat },
        Function.update disk file.node
          (padded 0 newLength.toNat
            ((disk file.node).take newLength.toNat)))
    else
      (.error .io, file, disk)

def RandomAccessFile.getFilePointer (fails : Bool) : Method ℕ :=
  fun file disk =>
    if file.isOpen && !fails then
      (.ok file.pointer, file, disk)
    else
      (.error .io, file, disk)

/-- `getFD().sync()`. -/
def RandomAccessFile.sync (fails : Bool) : Method Unit :=
  fun file disk =>
    if file.isOpen && !fails then
      (.ok (), file, disk)
    else
      (.error .io, file, disk)

/-! ## The server -/

/-- The map `files`, whose values refer to the objects created so far, in the
order of their creation. -/
structure ServerState where
  files : CInt → Option ℕ
  objects : List RandomAccessFile
  disk : Disk

/-- A method call through a reference, which is `none` for `null`. -/
def ServerState.invoke {α : Type} (server : ServerState) (file : Option ℕ)
    (method : Method α) : Except Thrown α × ServerState :=
  match file with
  | none => (.error .nullPointer, server)
  | some index =>
      match server.objects[index]? with
      | none => (.error .nullPointer, server)
      | some object =>
          let (result, object, disk) := method object server.disk
          (result, { server with
            objects := server.objects.set index object, disk := disk })

def ServerState.open (server : ServerState) (mode : Mode)
    (found : Option (CInt × ℕ)) : Except Thrown CInt × ServerState :=
  match RandomAccessFile.new mode found with
  | .error thrown => (.error thrown, server)
  | .ok file =>
      (.ok file.hashCode, { server with
        objects := server.objects ++ [file]
        files := Function.update server.files file.hashCode
          (some server.objects.length) })

def ServerState.close (server : ServerState) (fd : CInt)
    (fault : Option Bool) : Except Thrown Unit × ServerState :=
  let file := server.files fd
  match server.invoke file (RandomAccessFile.close fault) with
  | (.error thrown, server) => (.error thrown, server)
  | (.ok _, server) =>
      (.ok (), { server with
        files := Function.update server.files fd none })

/-- The arguments of a method other than `open` and `close`, without the
handle, and whether its system call fails. -/
inductive Operation
  | read (call : ReadCall) (fails : Bool)
  | write (b : List UInt8) (off len : CInt) (fault : Option ℕ)
  | seek (pos : BitVec 64) (fails : Bool)
  | ftruncate (length : BitVec 64) (fails : Bool)
  | offset (fails : Bool)
  | fsync (fails : Bool)

inductive Returned
  | nothing
  | bytes (result : Option (List UInt8))
  | offset (position : ℕ)
  deriving DecidableEq

/-- `read` from its second line on, and the other methods likewise; `file` is
what `files.get(fd)` has returned. -/
def ServerState.read (server : ServerState) (file : Option ℕ)
    (call : ReadCall) (fails : Bool) :
    Except Thrown (Option (List UInt8)) × ServerState :=
  if call.len.toInt < 0 then
    (.error .negativeArraySize, server)
  else
    let result := List.replicate call.len.toNat 0
    match server.invoke file (RandomAccessFile.read call.ask fails) with
    | (.error thrown, server) => (.error thrown, server)
    | (.ok none, server) => (.ok none, server)
    | (.ok (some data), server) =>
        (.ok (some (fillFront result data)), server)

def ServerState.write (server : ServerState) (file : Option ℕ)
    (b : List UInt8) (off len : CInt) (fault : Option ℕ) :
    Except Thrown Unit × ServerState :=
  server.invoke file (RandomAccessFile.write b off len fault)

def ServerState.seek (server : ServerState) (file : Option ℕ)
    (pos : BitVec 64) (fails : Bool) : Except Thrown Unit × ServerState :=
  server.invoke file (RandomAccessFile.seek pos fails)

def ServerState.ftruncate (server : ServerState) (file : Option ℕ)
    (length : BitVec 64) (fails : Bool) : Except Thrown Unit × ServerState :=
  server.invoke file (RandomAccessFile.setLength length fails)

def ServerState.offset (server : ServerState) (file : Option ℕ)
    (fails : Bool) : Except Thrown ℕ × ServerState :=
  server.invoke file (RandomAccessFile.getFilePointer fails)

def ServerState.fsync (server : ServerState) (file : Option ℕ)
    (fails : Bool) : Except Thrown Unit × ServerState :=
  server.invoke file (RandomAccessFile.sync fails)

def ServerState.operate (server : ServerState) (file : Option ℕ) :
    Operation → Except Thrown Returned × ServerState
  | .read call fails =>
      (server.read file call fails).map (Except.map .bytes) id
  | .write b off len fault =>
      (server.write file b off len fault).map
        (Except.map fun _ => .nothing) id
  | .seek pos fails =>
      (server.seek file pos fails).map (Except.map fun _ => .nothing) id
  | .ftruncate length fails =>
      (server.ftruncate file length fails).map
        (Except.map fun _ => .nothing) id
  | .offset fails =>
      (server.offset file fails).map (Except.map .offset) id
  | .fsync fails =>
      (server.fsync file fails).map (Except.map fun _ => .nothing) id

/-- Any of these methods, with its first line. -/
def ServerState.perform (server : ServerState) (fd : CInt)
    (operation : Operation) : Except Thrown Returned × ServerState :=
  server.operate (server.files fd) operation

/-- The streams that the keys of `files` lead to. -/
def ServerState.openFiles (server : ServerState) : OpenFiles 32 :=
  fun fd =>
    match server.files fd with
    | none => none
    | some file =>
        (server.objects[file]?).map fun object =>
          ⟨server.disk object.node, object.pointer⟩

/-- On an open stream, `read` returns what it returns on a table of open
streams. -/
theorem ServerState.read_openFiles {server : ServerState} {fd : CInt}
    {file : ℕ} {object : RandomAccessFile}
    (hfile : server.files fd = some file)
    (hobject : server.objects[file]? = some object)
    (hopen : object.isOpen = true) (call : ReadCall) :
    (server.perform fd (.read call false)).1.toOption =
      (Server.read fd server.openFiles call).map fun reply =>
        .bytes reply.1 := by
  have hview : server.openFiles fd =
      some ⟨server.disk object.node, object.pointer⟩ := by
    rw [ServerState.openFiles, hfile]
    simp only [hobject, Option.map_some]
  by_cases hlen : call.len.toInt < 0
  · simp [ServerState.perform, ServerState.operate, ServerState.read,
      Server.read, hview, hlen, Except.map, Except.toOption]
  · cases hread : Cursor.read ⟨server.disk object.node, object.pointer⟩
        call.ask with
    | none =>
        simp [ServerState.perform, ServerState.operate, ServerState.read,
          ServerState.invoke, RandomAccessFile.read, Server.read, hview,
          hfile, hobject, hopen, hlen, hread, Except.map, Except.toOption]
    | some result =>
        simp [ServerState.perform, ServerState.operate, ServerState.read,
          ServerState.invoke, RandomAccessFile.read, Server.read, hview,
          hfile, hobject, hopen, hlen, hread, Except.map, Except.toOption]

/-! ## Clients -/

/-- A handle that `open` returned to a client, with the file that this `open`
created; it is closed once a `close` of it has returned. -/
structure Handle where
  client : ℕ
  handle : CInt
  file : ℕ
  closed : Bool
  deriving DecidableEq

def Handle.noteClosed (client : ℕ) (fd : CInt) (record : Handle) : Handle :=
  if record.client = client ∧ record.handle = fd then
    { record with closed := true }
  else
    record

structure Clients where
  server : ServerState
  handles : List Handle

def Clients.initial (disk : Disk) : Clients where
  server := ⟨fun _ => none, [], disk⟩
  handles := []

inductive Request
  | open (client : ℕ) (mode : Mode) (found : Option (CInt × ℕ))
  | close (client : ℕ) (fd : CInt) (fault : Option Bool)
  | operate (client : ℕ) (fd : CInt) (operation : Operation)

def Clients.serve (clients : Clients) : Request → Clients
  | .open client mode found =>
      match clients.server.open mode found with
      | (.error _, server) => { clients with server := server }
      | (.ok handle, server) =>
          ⟨server, clients.handles ++
            [⟨client, handle, clients.server.objects.length, false⟩]⟩
  | .close client fd fault =>
      match clients.server.close fd fault with
      | (.error _, server) => { clients with server := server }
      | (.ok _, server) =>
          ⟨server, clients.handles.map (Handle.noteClosed client fd)⟩
  | .operate _ fd operation =>
      { clients with server := (clients.server.perform fd operation).2 }

def Clients.step (clients : Clients) (request : Request) : Option Clients :=
  some (clients.serve request)

/-- The client has a handle of this value that it has not closed. -/
def Clients.Holds (clients : Clients) (client : ℕ) (fd : CInt) : Prop :=
  ∃ record ∈ clients.handles, record.client = client ∧
    record.handle = fd ∧ record.closed = false

/-- Clients use only handles that they got from `open` and have not
closed. -/
def Clients.Disciplined (clients : Clients) : Request → Prop
  | .open _ _ _ => True
  | .close client fd _ => clients.Holds client fd
  | .operate client fd _ => clients.Holds client fd

/-- The hash code of a file that `open` creates is no key of `files`. -/
def Clients.Fresh (clients : Clients) : Request → Prop
  | .open _ mode found =>
      ∀ file ∈ (RandomAccessFile.new mode found).toOption,
        clients.server.files file.hashCode = none
  | .close _ _ _ => True
  | .operate _ _ _ => True

instance (clients : Clients) (client : ℕ) (fd : CInt) :
    Decidable (clients.Holds client fd) :=
  inferInstanceAs (Decidable (∃ record ∈ clients.handles, _))

instance (clients : Clients) :
    ∀ request, Decidable (clients.Disciplined request)
  | .open _ _ _ => inferInstanceAs (Decidable True)
  | .close client fd _ => inferInstanceAs (Decidable (clients.Holds client fd))
  | .operate client fd _ =>
      inferInstanceAs (Decidable (clients.Holds client fd))

instance (clients : Clients) : ∀ request, Decidable (clients.Fresh request)
  | .open _ mode found =>
      inferInstanceAs (Decidable
        (∀ file ∈ (RandomAccessFile.new mode found).toOption, _))
  | .close _ _ _ => inferInstanceAs (Decidable True)
  | .operate _ _ _ => inferInstanceAs (Decidable True)

def ServerState.IsOpen (server : ServerState) (file : ℕ) : Prop :=
  ∃ object, server.objects[file]? = some object ∧ object.isOpen = true

/-- The handles of open files are distinct; until it is closed, a handle leads
to the file of its `open`, its operations act on this file and on no other,
and the close of another handle leaves it alone. -/
structure Clients.Identifies (clients : Clients) : Prop where
  distinct : ∀ (left right : ℕ) (record record' : Handle),
    clients.handles[left]? = some record →
    clients.handles[right]? = some record' →
    clients.server.IsOpen record.file →
    clients.server.IsOpen record'.file →
    record.handle = record'.handle → left = right
  get : ∀ record ∈ clients.handles, record.closed = false →
    clients.server.files record.handle = some record.file
  acts : ∀ record ∈ clients.handles, record.closed = false →
    ∀ operation,
      clients.server.perform record.handle operation =
          clients.server.operate (some record.file) operation ∧
        ∀ other, other ≠ record.file →
          (clients.server.perform record.handle
              operation).2.objects[other]? =
            clients.server.objects[other]?
  closes : ∀ record ∈ clients.handles, ∀ other ∈ clients.handles,
    record.closed = false → other.closed = false → record ≠ other →
    ∀ fault,
      (clients.server.close record.handle fault).2.files other.handle =
          some other.file ∧
        (clients.server.close record.handle fault).2.objects[other.file]? =
          clients.server.objects[other.file]?

/-! ## What a call can change -/

/-- Nothing but the object that a reference leads to; no stream is opened
again. -/
structure ServerState.Touches (server next : ServerState)
    (file : Option ℕ) : Prop where
  files : next.files = server.files
  length : next.objects.length = server.objects.length
  others : ∀ other, file ≠ some other →
    next.objects[other]? = server.objects[other]?
  opens : ∀ other, next.IsOpen other → server.IsOpen other

theorem ServerState.Touches.refl (server : ServerState)
    (file : Option ℕ) : server.Touches server file :=
  ⟨rfl, rfl, fun _ _ => rfl, fun _ hopen => hopen⟩

/-- A closed stream stays closed. -/
def Method.KeepsClosed {α : Type} (method : Method α) : Prop :=
  ∀ file disk, (method file disk).2.1.isOpen = true → file.isOpen = true

theorem ServerState.invoke_touches {α : Type} (server : ServerState)
    (file : Option ℕ) {method : Method α}
    (hcloses : Method.KeepsClosed method) :
    server.Touches (server.invoke file method).2 file := by
  cases file with
  | none => exact .refl server none
  | some index =>
      cases hobject : server.objects[index]? with
      | none =>
          simp only [ServerState.invoke, hobject]
          exact .refl server (some index)
      | some object =>
          simp only [ServerState.invoke, hobject]
          refine ⟨rfl, List.length_set, ?_, ?_⟩
          · intro other hother
            exact List.getElem?_set_ne fun hsame =>
              hother (congrArg some hsame)
          · rintro other ⟨object', hobject', hopen⟩
            rcases getElem?_set_cases hobject' with ⟨rfl, rfl⟩ | ⟨_, hold⟩
            · exact ⟨object, hobject, hcloses object server.disk hopen⟩
            · exact ⟨object', hold, hopen⟩

theorem Method.keepsClosed_of_isOpen_eq {α : Type} {method : Method α}
    (hsame : ∀ file disk, (method file disk).2.1.isOpen = file.isOpen) :
    Method.KeepsClosed method := by
  intro file disk hopen
  rwa [hsame] at hopen

theorem RandomAccessFile.close_keepsClosed (fault : Option Bool) :
    Method.KeepsClosed (RandomAccessFile.close fault) := by
  intro file disk hopen
  cases hfile : file.isOpen with
  | true => rfl
  | false => simp [RandomAccessFile.close, hfile] at hopen

theorem RandomAccessFile.read_keepsClosed (ask : Ask) (fails : Bool) :
    Method.KeepsClosed (RandomAccessFile.read ask fails) := by
  apply Method.keepsClosed_of_isOpen_eq
  intro file disk
  unfold RandomAccessFile.read
  split
  · split <;> rfl
  · rfl

theorem RandomAccessFile.write_keepsClosed (b : List UInt8)
    (off len : CInt) (fault : Option ℕ) :
    Method.KeepsClosed (RandomAccessFile.write b off len fault) := by
  apply Method.keepsClosed_of_isOpen_eq
  intro file disk
  unfold RandomAccessFile.write
  split
  · rfl
  · split <;> rfl

theorem RandomAccessFile.seek_keepsClosed (pos : BitVec 64)
    (fails : Bool) : Method.KeepsClosed (RandomAccessFile.seek pos fails) := by
  apply Method.keepsClosed_of_isOpen_eq
  intro file disk
  unfold RandomAccessFile.seek
  split
  · rfl
  · split <;> rfl

theorem RandomAccessFile.setLength_keepsClosed (newLength : BitVec 64)
    (fails : Bool) :
    Method.KeepsClosed (RandomAccessFile.setLength newLength fails) := by
  apply Method.keepsClosed_of_isOpen_eq
  intro file disk
  unfold RandomAccessFile.setLength
  split
  · rfl
  · split <;> rfl

theorem RandomAccessFile.getFilePointer_keepsClosed (fails : Bool) :
    Method.KeepsClosed (RandomAccessFile.getFilePointer fails) := by
  apply Method.keepsClosed_of_isOpen_eq
  intro file disk
  unfold RandomAccessFile.getFilePointer
  split <;> rfl

theorem RandomAccessFile.sync_keepsClosed (fails : Bool) :
    Method.KeepsClosed (RandomAccessFile.sync fails) := by
  apply Method.keepsClosed_of_isOpen_eq
  intro file disk
  unfold RandomAccessFile.sync
  split <;> rfl

theorem ServerState.read_touches (server : ServerState) (file : Option ℕ)
    (call : ReadCall) (fails : Bool) :
    server.Touches (server.read file call fails).2 file := by
  have htouches := server.invoke_touches file
    (RandomAccessFile.read_keepsClosed call.ask fails)
  unfold ServerState.read
  split
  · exact .refl server file
  · dsimp only
    split <;> (next hinvoke => rw [hinvoke] at htouches; exact htouches)

theorem ServerState.operate_touches (server : ServerState)
    (file : Option ℕ) (operation : Operation) :
    server.Touches (server.operate file operation).2 file := by
  cases operation with
  | read call fails => exact server.read_touches file call fails
  | write b off len fault =>
      exact server.invoke_touches file
        (RandomAccessFile.write_keepsClosed b off len fault)
  | seek pos fails =>
      exact server.invoke_touches file
        (RandomAccessFile.seek_keepsClosed pos fails)
  | ftruncate length fails =>
      exact server.invoke_touches file
        (RandomAccessFile.setLength_keepsClosed length fails)
  | offset fails =>
      exact server.invoke_touches file
        (RandomAccessFile.getFilePointer_keepsClosed fails)
  | fsync fails =>
      exact server.invoke_touches file
        (RandomAccessFile.sync_keepsClosed fails)

theorem RandomAccessFile.not_isOpen_of_close_ok {fault : Option Bool}
    {file : RandomAccessFile} {disk : Disk}
    (hok : (RandomAccessFile.close fault file disk).1 = .ok ()) :
    (RandomAccessFile.close fault file disk).2.1.isOpen = false := by
  unfold RandomAccessFile.close at hok ⊢
  split at hok
  · next hopen =>
    rw [if_pos hopen]
    cases fault with
    | none => rfl
    | some released => cases hok
  · next hclosed =>
    rw [if_neg hclosed]
    simpa using hclosed

/-- A method call that returns was made on an object. -/
theorem ServerState.invoke_ok {α : Type} {server next : ServerState}
    {index : ℕ} {method : Method α} {value : α}
    (hinvoke : server.invoke (some index) method = (.ok value, next)) :
    ∃ object, (method object server.disk).1 = .ok value ∧
      next.objects[index]? = some (method object server.disk).2.1 := by
  cases hobject : server.objects[index]? with
  | none =>
      simp only [ServerState.invoke, hobject] at hinvoke
      cases hinvoke
  | some object =>
      simp only [ServerState.invoke, hobject, Prod.mk.injEq] at hinvoke
      obtain ⟨hvalue, rfl⟩ := hinvoke
      have hlt := (List.getElem?_eq_some_iff.mp hobject).1
      exact ⟨object, hvalue, List.getElem?_set_self hlt⟩

/-- `close` throws and keeps the entry, or closes the stream and removes
it. -/
theorem ServerState.close_cases (server : ServerState) (fd : CInt)
    (fault : Option Bool) :
    ∃ next, server.Touches next (server.files fd) ∧
      ((∃ thrown, server.close fd fault = (.error thrown, next)) ∨
        server.close fd fault = (.ok (), { next with
            files := Function.update next.files fd none }) ∧
          ∀ file, server.files fd = some file → ¬next.IsOpen file) := by
  have htouches := server.invoke_touches (server.files fd)
    (RandomAccessFile.close_keepsClosed fault)
  refine ⟨_, htouches, ?_⟩
  cases hinvoke : server.invoke (server.files fd)
      (RandomAccessFile.close fault) with
  | mk result next =>
      cases result with
      | error thrown =>
          left
          exact ⟨thrown, by simp only [ServerState.close, hinvoke]⟩
      | ok returned =>
          right
          refine ⟨by simp only [ServerState.close, hinvoke], ?_⟩
          rintro file hfile ⟨object, hobject, hopen⟩
          rw [hfile] at hinvoke
          obtain ⟨before, hok, hafter⟩ := ServerState.invoke_ok hinvoke
          rw [hafter, Option.some.injEq] at hobject
          rw [← hobject,
            RandomAccessFile.not_isOpen_of_close_ok hok] at hopen
          cases hopen

/-! ## The invariant -/

structure Clients.Sound (clients : Clients) : Prop where
  get : ∀ record ∈ clients.handles, record.closed = false →
    clients.server.files record.handle = some record.file
  keyed : ∀ fd file, clients.server.files fd = some file →
    ∃ record ∈ clients.handles, record.closed = false ∧
      record.handle = fd ∧ record.file = file
  created : ∀ record ∈ clients.handles,
    record.file < clients.server.objects.length
  once : ∀ (left right : ℕ) (record record' : Handle),
    clients.handles[left]? = some record →
    clients.handles[right]? = some record' →
    record.file = record'.file → left = right
  live : ∀ record ∈ clients.handles, clients.server.IsOpen record.file →
    record.closed = false

theorem Clients.initial_sound (disk : Disk) : (Clients.initial disk).Sound :=
  by
  constructor <;> simp [Clients.initial]

theorem Clients.Sound.eq_of_file_eq {clients : Clients}
    (hinv : clients.Sound) {record record' : Handle}
    (hmem : record ∈ clients.handles) (hmem' : record' ∈ clients.handles)
    (hfile : record.file = record'.file) : record = record' := by
  obtain ⟨left, hleft⟩ := List.getElem?_of_mem hmem
  obtain ⟨right, hright⟩ := List.getElem?_of_mem hmem'
  have hsame := hinv.once left right record record' hleft hright hfile
  rw [hsame, hright, Option.some.injEq] at hleft
  exact hleft.symm

theorem Clients.Sound.eq_of_handle_eq {clients : Clients}
    (hinv : clients.Sound) {record record' : Handle}
    (hmem : record ∈ clients.handles) (hmem' : record' ∈ clients.handles)
    (hlive : record.closed = false) (hlive' : record'.closed = false)
    (hhandle : record.handle = record'.handle) : record = record' := by
  have hfile := hinv.get record hmem hlive
  rw [hhandle, hinv.get record' hmem' hlive', Option.some.injEq] at hfile
  exact hinv.eq_of_file_eq hmem hmem' hfile.symm

theorem Clients.Sound.touched {clients : Clients} (hinv : clients.Sound)
    {next : ServerState} {file : Option ℕ}
    (htouches : clients.server.Touches next file) :
    ({ clients with server := next } : Clients).Sound := by
  refine ⟨?_, ?_, ?_, hinv.once, ?_⟩
  · intro record hmem hlive
    rw [htouches.files]
    exact hinv.get record hmem hlive
  · intro fd key hkey
    rw [htouches.files] at hkey
    exact hinv.keyed fd key hkey
  · intro record hmem
    rw [htouches.length]
    exact hinv.created record hmem
  · intro record hmem hopen
    exact hinv.live record hmem (htouches.opens record.file hopen)

theorem Clients.Sound.open {clients : Clients} (hinv : clients.Sound)
    (client : ℕ) {mode : Mode} {found : Option (CInt × ℕ)}
    (hfresh : clients.Fresh (.open client mode found)) :
    (clients.serve (.open client mode found)).Sound := by
  cases hnew : RandomAccessFile.new mode found with
  | error thrown =>
      simp only [Clients.serve, ServerState.open, hnew]
      exact hinv
  | ok file =>
      have hnone := hfresh file (by rw [hnew]; rfl)
      simp only [Clients.serve, ServerState.open, hnew]
      refine ⟨?_, ?_, ?_, ?_, ?_⟩
      · intro record hmem hlive
        rcases List.mem_append.mp hmem with hold | hnew
        · have hkey := hinv.get record hold hlive
          have hdiffers : record.handle ≠ file.hashCode := by
            intro hsame
            rw [hsame, hnone] at hkey
            cases hkey
          exact (Function.update_of_ne hdiffers _ _).trans hkey
        · rw [List.mem_singleton] at hnew
          subst hnew
          exact Function.update_self ..
      · intro fd key hkey
        by_cases hsame : fd = file.hashCode
        · subst hsame
          simp only [Function.update_self, Option.some.injEq] at hkey
          subst hkey
          exact ⟨_, List.mem_append_right _ (List.mem_singleton_self _), rfl,
            rfl, rfl⟩
        · simp only [Function.update_of_ne hsame] at hkey
          obtain ⟨record, hmem, hrecord⟩ := hinv.keyed fd key hkey
          exact ⟨record, List.mem_append_left _ hmem, hrecord⟩
      · intro record hmem
        rw [List.length_append, List.length_singleton]
        rcases List.mem_append.mp hmem with hold | hnew
        · exact (hinv.created record hold).trans (Nat.lt_succ_self _)
        · rw [List.mem_singleton] at hnew
          subst hnew
          exact Nat.lt_succ_self _
      · intro left right record record' hleft hright hsame
        have hcreated := fun index record
            (hrecord : clients.handles[index]? = some record) =>
          hinv.created record (List.mem_of_getElem? hrecord)
        rcases getElem?_append_singleton hleft with hold | ⟨rfl, rfl⟩
        · rcases getElem?_append_singleton hright with hold' | ⟨rfl, rfl⟩
          · exact hinv.once left right record record' hold hold' hsame
          · exact absurd hsame (hcreated left record hold).ne
        · rcases getElem?_append_singleton hright with hold' | ⟨rfl, rfl⟩
          · exact absurd hsame.symm (hcreated right record' hold').ne
          · rfl
      · intro record hmem hopen
        rcases List.mem_append.mp hmem with hold | hnew
        · obtain ⟨object, hobject, hisOpen⟩ := hopen
          have hlt := hinv.created record hold
          rw [List.getElem?_append_left hlt] at hobject
          exact hinv.live record hold ⟨object, hobject, hisOpen⟩
        · rw [List.mem_singleton] at hnew
          subst hnew
          rfl

theorem Handle.noteClosed_file (client : ℕ) (fd : CInt)
    (record : Handle) : (record.noteClosed client fd).file = record.file := by
  unfold Handle.noteClosed
  split <;> rfl

/-- A handle is live after a close that was live before and is not the one
that was closed. -/
theorem Handle.noteClosed_live {client : ℕ} {fd : CInt} {record : Handle}
    (hlive : (record.noteClosed client fd).closed = false) :
    record.noteClosed client fd = record ∧ record.closed = false ∧
      ¬(record.client = client ∧ record.handle = fd) := by
  unfold Handle.noteClosed at hlive ⊢
  split at hlive
  · cases hlive
  · next hother =>
    rw [if_neg hother]
    exact ⟨rfl, hlive, hother⟩

theorem Clients.Sound.close {clients : Clients} (hinv : clients.Sound)
    {client : ℕ} {fd : CInt} (fault : Option Bool)
    (hholds : clients.Holds client fd) :
    (clients.serve (.close client fd fault)).Sound := by
  obtain ⟨own, hown, hclient, hhandle, hlive⟩ := hholds
  have hkey : clients.server.files fd = some own.file :=
    hhandle ▸ hinv.get own hown hlive
  obtain ⟨next, htouches, ⟨thrown, hclose⟩ | ⟨hclose, hclosed⟩⟩ :=
    clients.server.close_cases fd fault
  · simp only [Clients.serve, hclose]
    exact hinv.touched htouches
  · simp only [Clients.serve, hclose]
    refine ⟨?_, ?_, ?_, ?_, ?_⟩
    · intro record hmem hopen
      obtain ⟨before, hbefore, rfl⟩ := List.mem_map.mp hmem
      obtain ⟨hsame, hlive', hother⟩ := Handle.noteClosed_live hopen
      rw [hsame]
      have hdiffers : before.handle ≠ fd := by
        intro hfd
        have hrecord := hinv.eq_of_handle_eq hbefore hown hlive' hlive
          (hfd.trans hhandle.symm)
        exact hother ⟨hrecord ▸ hclient, hfd⟩
      refine (Function.update_of_ne hdiffers _ _).trans ?_
      rw [htouches.files]
      exact hinv.get before hbefore hlive'
    · intro fd' file hfile
      by_cases hsame : fd' = fd
      · subst hsame
        simp only [Function.update_self] at hfile
        cases hfile
      · simp only [Function.update_of_ne hsame, htouches.files] at hfile
        obtain ⟨record, hmem, hlive', hfd, hrecord⟩ :=
          hinv.keyed fd' file hfile
        have hother : ¬(record.client = client ∧ record.handle = fd) :=
          fun hboth => hsame (hfd.symm.trans hboth.2)
        have hunnoted : record.noteClosed client fd = record :=
          if_neg hother
        exact ⟨record, List.mem_map.mpr ⟨record, hmem, hunnoted⟩, hlive', hfd,
          hrecord⟩
    · intro record hmem
      obtain ⟨before, hbefore, rfl⟩ := List.mem_map.mp hmem
      rw [Handle.noteClosed_file, htouches.length]
      exact hinv.created before hbefore
    · intro left right record record' hleft hright hsame
      rw [List.getElem?_map] at hleft hright
      obtain ⟨before, hbefore, rfl⟩ := Option.map_eq_some_iff.mp hleft
      obtain ⟨before', hbefore', rfl⟩ := Option.map_eq_some_iff.mp hright
      rw [Handle.noteClosed_file, Handle.noteClosed_file] at hsame
      exact hinv.once left right before before' hbefore hbefore' hsame
    · intro record hmem hopen
      obtain ⟨before, hbefore, rfl⟩ := List.mem_map.mp hmem
      rw [Handle.noteClosed_file] at hopen
      have hlive' :=
        hinv.live before hbefore (htouches.opens before.file hopen)
      -- the closed handle's own file is not open any more
      have hother : ¬(before.client = client ∧ before.handle = fd) := by
        rintro ⟨_, hfd⟩
        have hfile := hinv.get before hbefore hlive'
        rw [hfd] at hfile
        exact hclosed before.file hfile hopen
      rw [Handle.noteClosed, if_neg hother]
      exact hlive'

theorem Clients.Sound.serve {clients : Clients} (hinv : clients.Sound)
    {request : Request} (hdisciplined : clients.Disciplined request)
    (hfresh : clients.Fresh request) : (clients.serve request).Sound := by
  cases request with
  | «open» client mode found => exact hinv.open client hfresh
  | close client fd fault => exact hinv.close fault hdisciplined
  | operate client fd operation =>
      exact hinv.touched (clients.server.operate_touches _ operation)

theorem Clients.Sound.identifies {clients : Clients}
    (hinv : clients.Sound) : clients.Identifies := by
  refine ⟨?_, hinv.get, ?_, ?_⟩
  · intro left right record record' hleft hright hopen hopen' hhandle
    have hmem := List.mem_of_getElem? hleft
    have hmem' := List.mem_of_getElem? hright
    have hsame := hinv.eq_of_handle_eq hmem hmem'
      (hinv.live record hmem hopen) (hinv.live record' hmem' hopen') hhandle
    exact hinv.once left right record record' hleft hright
      (congrArg Handle.file hsame)
  · intro record hmem hlive operation
    have hperform : clients.server.perform record.handle operation =
        clients.server.operate (some record.file) operation := by
      rw [ServerState.perform, hinv.get record hmem hlive]
    refine ⟨hperform, fun other hother => ?_⟩
    rw [hperform]
    apply (clients.server.operate_touches _ operation).others
    exact fun hsame => hother (Option.some.inj hsame).symm
  · intro record hmem other hmem' hlive hlive' hdiffers fault
    have hhandle : other.handle ≠ record.handle := fun hsame =>
      hdiffers (hinv.eq_of_handle_eq hmem hmem' hlive hlive' hsame.symm)
    have hfile : some record.file ≠ some other.file := fun hsame =>
      hdiffers (hinv.eq_of_file_eq hmem hmem' (Option.some.inj hsame))
    obtain ⟨next, htouches, hcases⟩ :=
      clients.server.close_cases record.handle fault
    rw [hinv.get record hmem hlive] at htouches
    have hobject := htouches.others other.file hfile
    have hkey := hinv.get other hmem' hlive'
    rw [← htouches.files] at hkey
    rcases hcases with ⟨thrown, hclose⟩ | ⟨hclose, _⟩
    · rw [hclose]
      exact ⟨hkey, hobject⟩
    · rw [hclose]
      exact ⟨(Function.update_of_ne hhandle _ _).trans hkey, hobject⟩

/-- A second file under a key takes the entry of the first one. -/
theorem Clients.Sound.fresh_of_identifies {clients : Clients}
    (hinv : clients.Sound) {request : Request}
    (hidentifies : (clients.serve request).Identifies) :
    clients.Fresh request := by
  cases request with
  | «open» client mode found =>
      intro file hcreated
      have hnew : RandomAccessFile.new mode found = .ok file := by
        cases hnew : RandomAccessFile.new mode found with
        | error thrown =>
            rw [hnew] at hcreated
            cases hcreated
        | ok created =>
            rw [hnew] at hcreated
            cases hcreated
            rfl
      cases hkey : clients.server.files file.hashCode with
      | none => rfl
      | some before =>
          obtain ⟨record, hmem, hlive, hhandle, rfl⟩ :=
            hinv.keyed file.hashCode before hkey
          have hget := hidentifies.get record
          simp only [Clients.serve, ServerState.open, hnew] at hget
          have htaken := hget (List.mem_append_left _ hmem) hlive
          rw [hhandle, Function.update_self, Option.some.injEq] at htaken
          exact absurd htaken.symm (hinv.created record hmem).ne
  | close client fd fault => trivial
  | operate client fd operation => trivial

/-! ## Whole runs -/

theorem Clients.sound_of_run {disk : Disk} {requests : List Request}
    {clients : Clients}
    (hrun : Run Clients.step
      (fun clients request =>
        clients.Disciplined request ∧ clients.Fresh request)
      (Clients.initial disk) requests clients) : clients.Sound := by
  apply hrun.invariant _ (Clients.initial_sound disk)
  rintro clients request next hinv ⟨hdisciplined, hfresh⟩ ⟨⟩
  exact hinv.serve hdisciplined hfresh

/-- In a run of clients that use only their own live handles, the handles
identify their files in every state if and only if no `open` creates a file
whose hash code is a key of `files`. -/
theorem Clients.handles_identify_iff {disk : Disk}
    {requests : List Request} {final : Clients}
    (hrun : Run Clients.step Clients.Disciplined (Clients.initial disk)
      requests final) :
    (∀ before clients, before <+: requests →
        Run Clients.step Clients.Disciplined (Clients.initial disk) before
          clients → clients.Identifies) ↔
      Run Clients.step
        (fun clients request =>
          clients.Disciplined request ∧ clients.Fresh request)
        (Clients.initial disk) requests final := by
  constructor
  · intro hidentifies
    induction hrun with
    | refl => exact .refl _
    | @snoc middle next events event hrun hdisciplined hnext ih =>
        have hmiddle := ih fun before clients hstart =>
          hidentifies before clients
            (hstart.trans (List.prefix_append events [event]))
        refine hmiddle.snoc ⟨hdisciplined, ?_⟩ hnext
        apply (Clients.sound_of_run hmiddle).fresh_of_identifies
        have hserved := hidentifies _ next List.prefix_rfl
          (hrun.snoc hdisciplined hnext)
        cases hnext
        exact hserved
  · intro hfresh before clients hstart hbefore
    obtain ⟨middle, hmiddle⟩ := hfresh.shorten hstart
    rw [hbefore.unique hmiddle]
    exact (Clients.sound_of_run hmiddle).identifies

/-- Two clients work on one file of the file system; a third `open` is given
the hash code of the first, which is closed by then. -/
def hashCodeReused : List Request :=
  [.open 0 .rw (some (7, 0)), .open 1 .r (some (9, 0)),
    .operate 0 7 (.write [0x68, 0x69] 0 2 none),
    .operate 1 9 (.read ⟨2, 10⟩ false), .close 0 7 none,
    .open 1 .r (some (7, 1)), .operate 1 7 (.seek 1 false)]

theorem Clients.handles_identify_hashCodeReused :
    ∃ final,
      Run Clients.step Clients.Disciplined (Clients.initial fun _ => [])
        hashCodeReused final ∧
      final.server.objects = [⟨7, 0, 2, true, false⟩,
        ⟨9, 0, 2, false, true⟩, ⟨7, 1, 1, false, true⟩] ∧
      ∀ before clients, before <+: hashCodeReused →
        Run Clients.step Clients.Disciplined (Clients.initial fun _ => [])
          before clients → clients.Identifies := by
  obtain ⟨final, hexec, hfresh, hobjects⟩ : ∃ final,
      execute Clients.step Clients.Disciplined
        (Clients.initial fun _ => []) hashCodeReused = some final ∧
      execute Clients.step
        (fun clients request =>
          clients.Disciplined request ∧ clients.Fresh request)
        (Clients.initial fun _ => []) hashCodeReused = some final ∧
      final.server.objects = [⟨7, 0, 2, true, false⟩,
        ⟨9, 0, 2, false, true⟩, ⟨7, 1, 1, false, true⟩] :=
    ⟨_, rfl, rfl, rfl⟩
  have hrun := run_of_execute hexec
  exact ⟨final, hrun, hobjects,
    (Clients.handles_identify_iff hrun).mpr (run_of_execute hfresh)⟩

/-- Two clients are handed the same hash code, and the first closes its
handle. -/
def hashCodeShared : List Request :=
  [.open 0 .rw (some (7, 0)), .open 1 .rw (some (7, 1)), .close 0 7 none]

/-- The second client's file is closed and its handle leads nowhere, while
the first one's file stays open. -/
theorem Clients.not_identifies_hashCodeShared :
    ∃ final,
      Run Clients.step Clients.Disciplined (Clients.initial fun _ => [])
        hashCodeShared final ∧
      final.handles = [⟨0, 7, 0, true⟩, ⟨1, 7, 1, false⟩] ∧
      final.server.objects = [⟨7, 0, 0, true, true⟩,
        ⟨7, 1, 0, true, false⟩] ∧
      final.server.files 7 = none ∧ ¬final.Identifies := by
  obtain ⟨final, hexec, hhandles, hobjects, hkey⟩ : ∃ final,
      execute Clients.step Clients.Disciplined
        (Clients.initial fun _ => []) hashCodeShared = some final ∧
      final.handles = [⟨0, 7, 0, true⟩, ⟨1, 7, 1, false⟩] ∧
      final.server.objects = [⟨7, 0, 0, true, true⟩,
        ⟨7, 1, 0, true, false⟩] ∧
      final.server.files 7 = none := ⟨_, rfl, rfl, rfl, rfl⟩
  refine ⟨final, run_of_execute hexec, hhandles, hobjects, hkey,
    fun hidentifies => ?_⟩
  have hget := hidentifies.get ⟨1, 7, 1, false⟩ (by simp [hhandles]) rfl
  rw [hkey] at hget
  cases hget

end Java

end TestRpc
