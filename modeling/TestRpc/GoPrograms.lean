import TestRpc.CreationMode
import TestRpc.Programs
import TestRpc.SequentialReads
import TestRpc.TransitionRuns

/-!
# Programs on the Go server

The Go server runs each method of `Receiver` on its own package `os`, and
stands in for the `*os.File` of a client by the descriptor number, which is
looked up in the map `files`.  A client that calls the methods one after the
other gets what a program would get that uses the package directly, as long
as it uses only files that it has open and asks for creation modes that
`Open` passes on.  The one difference is that `Read` hides how many bytes it
has read.
-/

namespace TestRpc

open BlockCopies Programs StreamReceive

namespace Go

/-! ## The package `os` -/

/-- What the server takes from an `fs.FileInfo`: `Size()` and
`ModTime().Unix()`. -/
structure FileInfo where
  size : BitVec 64
  modTime : BitVec 64

/-- A call of the package `os`; `file` names an `*os.File` that is not
nil. -/
inductive OsCall
  | openFile (args : OpenArgs)
  | close (file : ℕ)
  | read (file length : ℕ)
  | write (file : ℕ) (b : List UInt8)
  | seek (file : ℕ) (offset whence : BitVec 64)
  | truncate (name : List UInt8) (size : BitVec 64)
  | fileTruncate (file : ℕ) (size : BitVec 64)
  | stat (name : List UInt8)
  | sync (file : ℕ)
  | rename (oldpath newpath : List UInt8)
  | remove (name : List UInt8)

/-- What a call returns besides a nil error; for `Read` the bytes that it has
stored in the front of its buffer. -/
@[reducible] def OsCall.Value : OsCall → Type
  | .openFile _ => ℕ
  | .read _ length => { data : List UInt8 // data.length ≤ length }
  | .write _ _ => BitVec 64
  | .seek _ _ _ => BitVec 64
  | .stat _ => FileInfo
  | _ => Unit

/-- `exec` returns `none` for an error; `fd` is `file.Fd()`. -/
structure OsPackage (σ : Type) where
  exec : (call : OsCall) → σ → Option call.Value × σ
  fd : σ → ℕ → BitVec 64

def OsPackage.openFile {σ : Type} (package : OsPackage σ) (args : OpenArgs)
    (os : σ) : Option ℕ × σ :=
  package.exec (.openFile args) os

/-- The open files of the process: `OpenFile` makes a new one, `Close` closes
its own file only, and no two of them have the same number at a time. -/
structure OsPackage.OpenFiles {σ : Type} (package : OsPackage σ) where
  isOpen : σ → ℕ → Prop
  opens : ∀ args os file, (package.openFile args os).1 = some file →
    ¬ isOpen os file ∧ isOpen (package.openFile args os).2 file
  keeps : ∀ call os file, isOpen os file → call ≠ .close file →
    isOpen (package.exec call os).2 file ∧
      package.fd (package.exec call os).2 file = package.fd os file
  distinct : ∀ os file other, isOpen os file → isOpen os other →
    package.fd os file = package.fd os other → file = other

/-! ## The server -/

/-- The methods of `Receiver` and their arguments, over the type of the
descriptors. -/
inductive FileCall (η : Type)
  | openCall (args : OpenArgs)
  | close (fildes : η)
  | read (fildes : η) (nbyte : BitVec 64)
  | write (fildes : η) (buf : List UInt8)
  | lseek (fildes : η) (offset whence : BitVec 64)
  | truncate (path : List UInt8) (length : BitVec 64)
  | ftruncate (fildes : η) (length : BitVec 64)
  | size (path : List UInt8)
  | lastModifiedTime (path : List UInt8)
  | fsync (fildes : η)
  | rename (old new : List UInt8)
  | unlink (path : List UInt8)

/-- What a caller sees of a call that has not failed. -/
inductive Reply
  | nothing
  | number (value : BitVec 64)
  | buffer (count : ℕ) (buf : List UInt8)
  deriving DecidableEq

/-- The server's process: `files`, where a missing key gives a nil pointer. -/
structure Served (σ : Type) where
  os : σ
  files : BitVec 64 → Option ℕ

section Receiver

variable {σ : Type} (package : OsPackage σ) (served : Served σ)

/-- A call of the package that is about no file. -/
def Served.onPath (call : OsCall) : Option call.Value × Served σ :=
  let result := package.exec call served.os
  (result.1, { served with os := result.2 })

/-- A call on `files[fildes]`.  The methods of a nil `*os.File` return
`os.ErrInvalid`. -/
def Served.onFile (fildes : BitVec 64) {α : Type}
    (method : ℕ → σ → Option α × σ) : Option α × Served σ :=
  match served.files fildes with
  | none => (none, served)
  | some file =>
      let result := method file served.os
      (result.1, { served with os := result.2 })

def Served.openCall (args : OpenArgs) : Option (BitVec 64) × Served σ :=
  match package.openFile (Receiver.openFile args) served.os with
  | (none, os) => (none, { served with os := os })
  | (some file, os) =>
      let fd := package.fd os file
      (some fd, ⟨os, Function.update served.files fd (some file)⟩)

def Served.close (fildes : BitVec 64) : Option Unit × Served σ :=
  let closed := served.onFile fildes fun file =>
    package.exec (.close file)
  (closed.1, { closed.2 with
    files := Function.update closed.2.files fildes none })

/-- `none` when `make` panics. -/
def Served.read (heap : Heap) (fildes nbyte : BitVec 64) :
    Option (Option (List UInt8) × Served σ) :=
  if 0 ≤ nbyte.toInt ∧ heap.serves nbyte.toNat = true then
    let buf := List.replicate nbyte.toNat 0
    let result := served.onFile fildes fun file =>
      package.exec (.read file nbyte.toNat)
    some (result.1.map fun data => fillFront buf data.1, result.2)
  else
    none

def Served.write (fildes : BitVec 64) (buf : List UInt8) :
    Option (BitVec 64) × Served σ :=
  served.onFile fildes fun file => package.exec (.write file buf)

def Served.lseek (fildes offset whence : BitVec 64) :
    Option (BitVec 64) × Served σ :=
  served.onFile fildes fun file => package.exec (.seek file offset whence)

def Served.truncate (path : List UInt8) (length : BitVec 64) :
    Option Unit × Served σ :=
  served.onPath package (.truncate path length)

def Served.ftruncate (fildes length : BitVec 64) : Option Unit × Served σ :=
  served.onFile fildes fun file => package.exec (.fileTruncate file length)

def Served.size (path : List UInt8) : Option (BitVec 64) × Served σ :=
  let result := served.onPath package (.stat path)
  (result.1.map FileInfo.size, result.2)

def Served.lastModifiedTime (path : List UInt8) :
    Option (BitVec 64) × Served σ :=
  let result := served.onPath package (.stat path)
  (result.1.map FileInfo.modTime, result.2)

def Served.fsync (fildes : BitVec 64) : Option Unit × Served σ :=
  served.onFile fildes fun file => package.exec (.sync file)

def Served.rename (old new : List UInt8) : Option Unit × Served σ :=
  served.onPath package (.rename old new)

def Served.unlink (path : List UInt8) : Option Unit × Served σ :=
  served.onPath package (.remove path)

end Receiver

/-! ## Clients and programs -/

def FileCall.map {η θ : Type} (f : η → θ) : FileCall η → FileCall θ
  | .openCall args => .openCall args
  | .close fildes => .close (f fildes)
  | .read fildes nbyte => .read (f fildes) nbyte
  | .write fildes buf => .write (f fildes) buf
  | .lseek fildes offset whence => .lseek (f fildes) offset whence
  | .truncate path length => .truncate path length
  | .ftruncate fildes length => .ftruncate (f fildes) length
  | .size path => .size path
  | .lastModifiedTime path => .lastModifiedTime path
  | .fsync fildes => .fsync (f fildes)
  | .rename old new => .rename old new
  | .unlink path => .unlink path

/-- A client of the server.  A program names its files by the number of their
`Open`; `opened` holds what the `Open`s have returned, zero for one that
failed. -/
structure Client (σ : Type) where
  served : Served σ
  opened : List (BitVec 64)

/-- A program that uses the package directly.  An entry of `opened` is `none`
when the file could not be opened or has been closed; either way a method of
it returns an error and does nothing. -/
structure Direct (σ : Type) where
  os : σ
  opened : List (Option ℕ)

section Machines

variable {σ : Type} (package : OsPackage σ) (heap : Heap) (view : Reply → Reply)

/-- `client.Call`, which returns the method's error or its reply. -/
def Client.call (client : Client σ) (call : FileCall ℕ) :
    Option (Option Reply × Client σ) :=
  let served := client.served
  let ok := fun (result : Option Unit × Served σ) =>
    some (result.1.map fun _ => Reply.nothing,
      { client with served := result.2 })
  let number := fun (result : Option (BitVec 64) × Served σ) =>
    some (result.1.map Reply.number, { client with served := result.2 })
  match call.map fun number => client.opened.getD number 0 with
  | .openCall args =>
      let result := served.openCall package args
      some (result.1.map fun _ => .nothing,
        ⟨result.2, client.opened ++ [result.1.getD 0]⟩)
  | .close fildes => ok (served.close package fildes)
  | .read fildes nbyte =>
      match served.read package heap fildes nbyte with
      | none => none
      | some result =>
          -- `len(reply.Buf)` is all that the caller learns of the count
          some (result.1.map fun buf => .buffer buf.length buf,
            { client with served := result.2 })
  | .write fildes buf => number (served.write package fildes buf)
  | .lseek fildes offset whence =>
      number (served.lseek package fildes offset whence)
  | .truncate path length => ok (served.truncate package path length)
  | .ftruncate fildes length => ok (served.ftruncate package fildes length)
  | .size path => number (served.size package path)
  | .lastModifiedTime path => number (served.lastModifiedTime package path)
  | .fsync fildes => ok (served.fsync package fildes)
  | .rename old new => ok (served.rename package old new)
  | .unlink path => ok (served.unlink package path)

def Direct.onPath (direct : Direct σ) (call : OsCall)
    (reply : call.Value → Reply) : Option Reply × Direct σ :=
  let result := package.exec call direct.os
  (result.1.map reply, { direct with os := result.2 })

def Direct.onFile (direct : Direct σ) (number : ℕ) (call : ℕ → OsCall)
    (reply : (file : ℕ) → (call file).Value → Reply) :
    Option Reply × Direct σ :=
  match direct.opened.getD number none with
  | none => (none, direct)
  | some file => direct.onPath package (call file) (reply file)

/-- The same call made of the package. -/
def Direct.call (direct : Direct σ) :
    FileCall ℕ → Option (Option Reply × Direct σ)
  | .openCall args =>
      let result := package.openFile args direct.os
      some (result.1.map fun _ => .nothing,
        ⟨result.2, direct.opened ++ [result.1]⟩)
  | .close number =>
      let result := direct.onFile package number .close fun _ _ => .nothing
      some (result.1, { result.2 with
        opened := result.2.opened.set number none })
  | .read number nbyte =>
      if 0 ≤ nbyte.toInt ∧ heap.serves nbyte.toNat = true then
        let buf := List.replicate nbyte.toNat 0
        some (direct.onFile package number (.read · nbyte.toNat)
          fun _ data => .buffer data.1.length (fillFront buf data.1))
      else
        none
  | .write number buf =>
      some (direct.onFile package number (.write · buf) fun _ => .number)
  | .lseek number offset whence =>
      some (direct.onFile package number (.seek · offset whence)
        fun _ => .number)
  | .truncate path length =>
      some (direct.onPath package (.truncate path length)
        fun _ => .nothing)
  | .ftruncate number length =>
      some (direct.onFile package number (.fileTruncate · length)
        fun _ _ => .nothing)
  | .size path =>
      some (direct.onPath package (.stat path) fun info => .number info.size)
  | .lastModifiedTime path =>
      some (direct.onPath package (.stat path)
        fun info => .number info.modTime)
  | .fsync number =>
      some (direct.onFile package number .sync fun _ _ => .nothing)
  | .rename old new =>
      some (direct.onPath package (.rename old new) fun _ => .nothing)
  | .unlink path =>
      some (direct.onPath package (.remove path) fun _ => .nothing)

def clientMachine (client : Client σ) (call : FileCall ℕ) :
    Option (Option Reply × Client σ) :=
  (client.call package heap call).map fun result =>
    (result.1.map view, result.2)

def directMachine (direct : Direct σ) (call : FileCall ℕ) :
    Option (Option Reply × Direct σ) :=
  (direct.call package heap call).map fun result =>
    (result.1.map view, result.2)

end Machines

/-! ## What is asked of a program -/

def FileCall.fildes? {η : Type} : FileCall η → Option η
  | .close fildes => some fildes
  | .read fildes _ => some fildes
  | .write fildes _ => some fildes
  | .lseek fildes _ _ => some fildes
  | .ftruncate fildes _ => some fildes
  | .fsync fildes => some fildes
  | _ => none

section Simulation

variable {σ : Type} {package : OsPackage σ} {heap : Heap} {view : Reply → Reply}

/-- The program uses files that it has open, asks for modes that `Open` passes
on and for lengths that can be allocated, and does not see whether a read has
filled its buffer. -/
structure Usable (package : OsPackage σ) (heap : Heap) (view : Reply → Reply)
    (direct : Direct σ) (call : FileCall ℕ) : Prop where
  live : ∀ number ∈ call.fildes?, ∃ file,
    direct.opened[number]? = some (some file)
  mode : ∀ args, call = .openCall args →
    args.oflag = O_CREATE ∨ args.mode = 0o644
  length : ∀ number nbyte, call = .read number nbyte →
    0 ≤ nbyte.toInt ∧ heap.serves nbyte.toNat = true
  count : ∀ (number : ℕ) nbyte file data, call = .read number nbyte →
    direct.opened[number]? = some (some file) →
    (package.exec (.read file nbyte.toNat) direct.os).1 = some data →
    ∀ buf, view (.buffer data.1.length buf) = view (.buffer nbyte.toNat buf)

/-- The client's descriptors lead to the files that the program has open. -/
structure Related (files : package.OpenFiles) (direct : Direct σ)
    (client : Client σ) : Prop where
  os : client.served.os = direct.os
  length : client.opened.length = direct.opened.length
  live : ∀ number file : ℕ, direct.opened[number]? = some (some file) →
    files.isOpen direct.os file ∧
      client.opened[number]? = some (package.fd direct.os file) ∧
      client.served.files (package.fd direct.os file) = some file
  own : ∀ number other file : ℕ, direct.opened[number]? = some (some file) →
    direct.opened[other]? = some (some file) → number = other

variable {files : package.OpenFiles} {direct : Direct σ}
  {client : Client σ}

/-- A call of the package that closes no file of the program. -/
theorem Related.exec (hrelated : Related files direct client)
    (call : OsCall) (hcloses : ∀ file, call ≠ .close file) :
    Related files { direct with os := (package.exec call direct.os).2 }
      { client with
        served := { client.served with
          os := (package.exec call direct.os).2 } } := by
  refine ⟨rfl, hrelated.length, ?_, hrelated.own⟩
  intro number file hopened
  obtain ⟨hopen, hfd, hfiles⟩ := hrelated.live number file hopened
  obtain ⟨hopen', hfd'⟩ := files.keeps call direct.os file hopen
    (hcloses file)
  simp only [hfd']
  exact ⟨hopen', hfd, hfiles⟩

/-- A descriptor of a live file leads to it. -/
theorem Related.file (hrelated : Related files direct client)
    {number file : ℕ} (hopened : direct.opened[number]? = some (some file)) :
    direct.opened.getD number none = some file ∧
      client.served.files (client.opened.getD number 0) = some file := by
  obtain ⟨-, hfd, hfiles⟩ := hrelated.live number file hopened
  rw [List.getD_eq_getElem?_getD, hopened, List.getD_eq_getElem?_getD, hfd]
  exact ⟨rfl, hfiles⟩

theorem Related.openCall (hrelated : Related files direct client)
    {args : OpenArgs} {file : ℕ}
    (hfile : (package.openFile args direct.os).1 = some file) :
    Related files
      ⟨(package.openFile args direct.os).2,
        direct.opened ++ [some file]⟩
      ⟨⟨(package.openFile args direct.os).2,
        Function.update client.served.files
          (package.fd (package.openFile args direct.os).2 file)
          (some file)⟩,
        client.opened ++
          [package.fd (package.openFile args direct.os).2 file]⟩ := by
  obtain ⟨hnew, hopened⟩ := files.opens args direct.os file hfile
  have hkept := hrelated.exec (.openFile args) (by simp)
  refine ⟨rfl, by simp [hrelated.length], ?_, ?_⟩
  · intro number other hother
    rcases TransitionRuns.getElem?_append_singleton hother with
      hbefore | ⟨rfl, hlast⟩
    · obtain ⟨hopen, hfd, hfiles⟩ := hkept.live number other hbefore
      refine ⟨hopen, TransitionRuns.getElem?_append_left_of_some hfd, ?_⟩
      have hne : other ≠ file := by
        rintro rfl
        exact hnew (hrelated.live number other hbefore).1
      simp only
      rw [Function.update_of_ne]
      · exact hfiles
      · intro hsame
        exact hne (files.distinct _ _ _ hopen hopened hsame)
    · cases hlast
      refine ⟨hopened, ?_, by simp⟩
      rw [← hrelated.length, List.getElem?_concat_length]
  · intro number other found hnumber hother
    rcases TransitionRuns.getElem?_append_singleton hnumber with
      hbefore | ⟨rfl, hlast⟩
    · rcases TransitionRuns.getElem?_append_singleton hother with
        hbefore' | ⟨rfl, hlast'⟩
      · exact hrelated.own number other found hbefore hbefore'
      · cases hlast'
        exact absurd (hrelated.live number file hbefore).1 hnew
    · cases hlast
      rcases TransitionRuns.getElem?_append_singleton hother with
        hbefore' | ⟨rfl, hlast'⟩
      · exact absurd (hrelated.live other file hbefore').1 hnew
      · rfl

theorem Related.openFailed (hrelated : Related files direct client)
    (args : OpenArgs) :
    Related files
      ⟨(package.openFile args direct.os).2, direct.opened ++ [none]⟩
      ⟨⟨(package.openFile args direct.os).2, client.served.files⟩,
        client.opened ++ [0]⟩ := by
  have hkept := hrelated.exec (.openFile args) (by simp)
  have hbefore : ∀ number file : ℕ,
      (direct.opened ++ [none])[number]? = some (some file) →
      direct.opened[number]? = some (some file) := by
    intro number file hfile
    rcases TransitionRuns.getElem?_append_singleton hfile with
      hbefore | ⟨-, hlast⟩
    · exact hbefore
    · cases hlast
  refine ⟨rfl, by simp [hrelated.length], ?_, ?_⟩
  · intro number file hfile
    obtain ⟨hopen, hfd, hfiles⟩ := hkept.live number file
      (hbefore number file hfile)
    exact ⟨hopen, TransitionRuns.getElem?_append_left_of_some hfd, hfiles⟩
  · intro number other file hnumber hother
    exact hrelated.own number other file (hbefore number file hnumber)
      (hbefore other file hother)

/-- Closing a file leaves the entries of the others, whose numbers differ
from its own. -/
theorem Related.close (hrelated : Related files direct client)
    {number file : ℕ} (hopened : direct.opened[number]? = some (some file)) :
    Related files
      ⟨(package.exec (.close file) direct.os).2,
        direct.opened.set number none⟩
      ⟨⟨(package.exec (.close file) direct.os).2,
        Function.update client.served.files (client.opened.getD number 0)
          none⟩, client.opened⟩ := by
  obtain ⟨hopen, hfd, -⟩ := hrelated.live number file hopened
  have hbefore : ∀ other found : ℕ,
      (direct.opened.set number none)[other]? = some (some found) →
      other ≠ number ∧ direct.opened[other]? = some (some found) := by
    intro other found hother
    rcases TransitionRuns.getElem?_set_cases hother with
      ⟨-, hnone⟩ | hbefore
    · cases hnone
    · exact hbefore
  refine ⟨rfl, by simp [hrelated.length], ?_, ?_⟩
  · intro other found hother
    obtain ⟨hne, hkeeps⟩ := hbefore other found hother
    obtain ⟨hopen', hfd', hfiles'⟩ := hrelated.live other found hkeeps
    have hfound : found ≠ file := by
      rintro rfl
      exact hne (hrelated.own other number found hkeeps hopened)
    obtain ⟨hkept, hnumber⟩ := files.keeps (.close file) direct.os found
      hopen' (by simpa using Ne.symm hfound)
    simp only [hnumber]
    refine ⟨hkept, hfd', ?_⟩
    rw [Function.update_of_ne]
    · exact hfiles'
    · rw [List.getD_eq_getElem?_getD, hfd]
      intro hsame
      exact hfound (files.distinct _ _ _ hopen' hopen hsame)
  · intro left right found hleft hright
    exact hrelated.own left right found (hbefore left found hleft).2
      (hbefore right found hright).2

/-! ## Calls and programs -/

theorem Served.onFile_eq {served : Served σ} {fildes : BitVec 64} {file : ℕ}
    (hfile : served.files fildes = some file) {α : Type}
    (method : ℕ → σ → Option α × σ) :
    served.onFile fildes method = ((method file served.os).1,
      { served with os := (method file served.os).2 }) := by
  rw [Served.onFile, hfile]

theorem Direct.onFile_eq {number file : ℕ}
    (hfile : direct.opened.getD number none = some file)
    (call : ℕ → OsCall)
    (reply : (file : ℕ) → (call file).Value → Reply) :
    direct.onFile package number call reply =
      direct.onPath package (call file) (reply file) := by
  rw [Direct.onFile, hfile]

/-- A read replies what it does on a cursor, where the package delivers the
bytes that the cursor does. -/
theorem Served.read_reply {served : Served σ} {fildes : BitVec 64}
    {file : ℕ} (hfile : served.files fildes = some file)
    {cursors : TestRpc.OpenFiles 64} {cursor : FileCursor.Cursor UInt8}
    (hcursor : cursors fildes = some cursor) {args : ReadArgs}
    (hdata : (package.exec (.read file args.nbyte.toNat)
        served.os).1.map Subtype.val =
      (cursor.read args.ask).map Prod.fst) :
    (served.read package heap fildes args.nbyte).map Prod.fst =
      (Receiver.read heap fildes cursors args).map Prod.fst := by
  rw [Served.read, Receiver.read, Served.onFile_eq hfile, hcursor]
  by_cases hallocates : args.Allocates heap
  · rw [if_pos hallocates, if_pos (show 0 ≤ args.nbyte.toInt ∧ _ from
      hallocates)]
    cases hread : cursor.read args.ask with
    | none =>
        rw [hread, Option.map_none, Option.map_eq_none_iff] at hdata
        simp only [hread, hdata, Option.map_some, Option.map_none]
    | some result =>
        rw [hread, Option.map_some, Option.map_eq_some_iff] at hdata
        obtain ⟨data, hexec, hdata⟩ := hdata
        simp only [hread, hexec, hdata, Option.map_some]
  · rw [if_neg hallocates, if_neg (show ¬ (0 ≤ args.nbyte.toInt ∧ _) from
      hallocates)]
    rfl

/-- The two machines answer alike. -/
def Alike (package : OsPackage σ) (heap : Heap) (view : Reply → Reply)
    (files : package.OpenFiles) (direct : Direct σ) (client : Client σ)
    (call : FileCall ℕ) : Prop :=
  ∃ answer after after',
    directMachine package heap view direct call = some (answer, after) ∧
    clientMachine package heap view client call = some (answer, after') ∧
    Related files after after'

theorem Related.alike_open (hrelated : Related files direct client)
    (args : OpenArgs) (hmode : args.oflag = O_CREATE ∨ args.mode = 0o644) :
    Alike package heap view files direct client (.openCall args) := by
  have hargs : Receiver.openFile args = args := by
    rw [Receiver.openFile]
    rcases hmode with hflag | hmode
    · rw [if_pos hflag]
    · rw [← hmode, ite_self]
  have hos := hrelated.os
  rcases hexec : package.openFile args direct.os with ⟨_ | file, os⟩
  · have hnext := hrelated.openFailed args
    rw [hexec] at hnext
    refine ⟨none, _, _, ?_, ?_, hnext⟩
    · simp [directMachine, Direct.call, hexec]
    · simp [clientMachine, Client.call, FileCall.map, Served.openCall, hargs,
        hos, hexec]
  · have hnext := hrelated.openCall (congrArg Prod.fst hexec)
    rw [hexec] at hnext
    refine ⟨some (view .nothing), _, _, ?_, ?_, hnext⟩
    · simp [directMachine, Direct.call, hexec]
    · simp [clientMachine, Client.call, FileCall.map, Served.openCall, hargs,
        hos, hexec]

theorem Related.alike_close (hrelated : Related files direct client)
    {number file : ℕ} (hopened : direct.opened[number]? = some (some file)) :
    Alike package heap view files direct client (.close number) := by
  obtain ⟨hdirect, hserved⟩ := hrelated.file hopened
  refine ⟨((package.exec (.close file) direct.os).1.map fun _ =>
    Reply.nothing).map view, _, _, ?_, ?_, hrelated.close hopened⟩
  · rw [directMachine, Direct.call, Direct.onFile_eq hdirect]
    rfl
  · simp only [clientMachine, Client.call, FileCall.map, Served.close,
      Served.onFile_eq hserved, hrelated.os]
    rfl

/-- The calls that the two machines make of the package alike. -/
theorem Related.alike_path (hrelated : Related files direct client)
    {call : FileCall ℕ} (onPath : OsCall)
    (hcloses : ∀ file, onPath ≠ .close file) (reply : onPath.Value → Reply)
    (hdirect : direct.call package heap call =
      some (direct.onPath package onPath reply))
    (hclient : client.call package heap call =
      some ((client.served.onPath package onPath).1.map reply,
        { client with
          served := (client.served.onPath package onPath).2 })) :
    Alike package heap view files direct client call := by
  refine ⟨((package.exec onPath direct.os).1.map reply).map view, _, _, ?_,
    ?_, hrelated.exec onPath hcloses⟩
  · rw [directMachine, hdirect]
    rfl
  · rw [clientMachine, hclient, Served.onPath, hrelated.os]
    rfl

theorem Related.alike_file (hrelated : Related files direct client)
    {call : FileCall ℕ} {number file : ℕ}
    (hopened : direct.opened[number]? = some (some file)) (onFile : OsCall)
    (hcloses : ∀ file, onFile ≠ .close file) (reply : onFile.Value → Reply)
    (hdirect : direct.opened.getD number none = some file →
      direct.call package heap call =
        some (direct.onPath package onFile reply))
    (hclient : client.served.files (client.opened.getD number 0) =
        some file →
      client.call package heap call =
        some ((package.exec onFile client.served.os).1.map reply,
          { client with
            served := { client.served with
              os := (package.exec onFile client.served.os).2 } })) :
    Alike package heap view files direct client call := by
  obtain ⟨hfile, hserved⟩ := hrelated.file hopened
  exact hrelated.alike_path onFile hcloses reply (hdirect hfile)
    (hclient hserved)

/-- The buffers agree; the counts do only as far as the program sees. -/
theorem Related.alike_read (hrelated : Related files direct client)
    {number : ℕ} {nbyte : BitVec 64}
    (husable : Usable package heap view direct (.read number nbyte)) :
    Alike package heap view files direct client (.read number nbyte) := by
  obtain ⟨file, hopened⟩ := husable.live number rfl
  obtain ⟨hdirect, hserved⟩ := hrelated.file hopened
  have hlength := husable.length number nbyte rfl
  have hnext := hrelated.exec (.read file nbyte.toNat) (by simp)
  rcases hexec : package.exec (.read file nbyte.toNat) direct.os with
    ⟨_ | data, os⟩
  · rw [hexec] at hnext
    refine ⟨none, _, _, ?_, ?_, hnext⟩
    · simp [directMachine, Direct.call, if_pos hlength,
        Direct.onFile_eq hdirect, Direct.onPath, hexec]
    · simp only [clientMachine, Client.call, FileCall.map, Served.read,
        if_pos hlength, Served.onFile_eq hserved, hrelated.os, hexec,
        Option.map_none, Option.map_some]
  · rw [hexec] at hnext
    have hview := husable.count number nbyte file data rfl hopened
      (congrArg Prod.fst hexec)
    have hfilled : (fillFront (List.replicate nbyte.toNat 0) data.1).length =
        nbyte.toNat := by
      have hfits : data.1.length ≤
          (List.replicate nbyte.toNat (0 : UInt8)).length := by
        rw [List.length_replicate]
        exact data.2
      rw [fillFront_length hfits, List.length_replicate]
    refine ⟨some (view (.buffer nbyte.toNat
      (fillFront (List.replicate nbyte.toNat 0) data.1))), _, _, ?_, ?_,
      hnext⟩
    · simp [directMachine, Direct.call, if_pos hlength,
        Direct.onFile_eq hdirect, Direct.onPath, hexec, hview]
    · simp only [clientMachine, Client.call, FileCall.map, Served.read,
        if_pos hlength, Served.onFile_eq hserved, hrelated.os, hexec,
        Option.map_some, hfilled]

theorem Related.alike (hrelated : Related files direct client)
    {call : FileCall ℕ} (husable : Usable package heap view direct call) :
    Alike package heap view files direct client call := by
  cases call with
  | openCall args =>
      exact hrelated.alike_open args (husable.mode args rfl)
  | close number =>
      obtain ⟨file, hopened⟩ := husable.live number rfl
      exact hrelated.alike_close hopened
  | read number nbyte => exact hrelated.alike_read husable
  | write number buf =>
      obtain ⟨file, hopened⟩ := husable.live number rfl
      refine hrelated.alike_file hopened (.write file buf) (by simp) .number
        (fun hfile => ?_) fun hserved => ?_
      · rw [Direct.call, Direct.onFile_eq hfile]
      · simp only [Client.call, FileCall.map, Served.write,
          Served.onFile_eq hserved]
  | lseek number offset whence =>
      obtain ⟨file, hopened⟩ := husable.live number rfl
      refine hrelated.alike_file hopened (.seek file offset whence) (by simp)
        .number (fun hfile => ?_) fun hserved => ?_
      · rw [Direct.call, Direct.onFile_eq hfile]
      · simp only [Client.call, FileCall.map, Served.lseek,
          Served.onFile_eq hserved]
  | ftruncate number length =>
      obtain ⟨file, hopened⟩ := husable.live number rfl
      refine hrelated.alike_file hopened (.fileTruncate file length)
        (by simp) (fun _ => .nothing) (fun hfile => ?_) fun hserved => ?_
      · rw [Direct.call, Direct.onFile_eq hfile]
      · simp only [Client.call, FileCall.map, Served.ftruncate,
          Served.onFile_eq hserved]
  | fsync number =>
      obtain ⟨file, hopened⟩ := husable.live number rfl
      refine hrelated.alike_file hopened (.sync file) (by simp)
        (fun _ => .nothing) (fun hfile => ?_) fun hserved => ?_
      · rw [Direct.call, Direct.onFile_eq hfile]
      · simp only [Client.call, FileCall.map, Served.fsync,
          Served.onFile_eq hserved]
  | truncate path length =>
      exact hrelated.alike_path (.truncate path length) (by simp)
        (fun _ => .nothing) rfl rfl
  | size path =>
      refine hrelated.alike_path (.stat path) (by simp)
        (fun info => .number info.size) rfl ?_
      simp only [Client.call, FileCall.map, Served.size, Option.map_map]
      rfl
  | lastModifiedTime path =>
      refine hrelated.alike_path (.stat path) (by simp)
        (fun info => .number info.modTime) rfl ?_
      simp only [Client.call, FileCall.map, Served.lastModifiedTime,
        Option.map_map]
      rfl
  | rename old new =>
      exact hrelated.alike_path (.rename old new) (by simp)
        (fun _ => .nothing) rfl rfl
  | unlink path =>
      exact hrelated.alike_path (.remove path) (by simp) (fun _ => .nothing)
        rfl rfl

/-- A client that is alone with the server gets what it would get from the
package itself, and leaves the files as they would be left. -/
theorem run_direct {ω : Type}
    {program : Program (FileCall ℕ) (Option Reply) ω} {os : σ}
    (files : package.OpenFiles)
    (hmeets : program.Meets (directMachine package heap view)
      (Usable package heap view) ⟨os, []⟩) :
    ∃ lines final final',
      program.run (directMachine package heap view) ⟨os, []⟩ =
        some (lines, final) ∧
      program.run (clientMachine package heap view)
          ⟨⟨os, fun _ => none⟩, []⟩ = some (lines, final') ∧
      final'.served.os = final.os := by
  have hstart : Related files ⟨os, []⟩ ⟨⟨os, fun _ => none⟩, []⟩ :=
    ⟨rfl, rfl, by simp, by simp⟩
  have halike : ∀ direct client call, Related files direct client →
      Usable package heap view direct call →
      Alike package heap view files direct client (id call) :=
    fun _ _ _ hrelated husable => hrelated.alike husable
  obtain ⟨lines, final, final', hrun, hrun', hfinal⟩ :=
    Program.run_translate halike hstart hmeets
  rw [Program.translate_id] at hrun'
  exact ⟨lines, final, final', hrun, hrun', hfinal.os⟩

end Simulation

/-! ## `remote.go` -/

def O_RDWR : BitVec 64 := 2

def testFile : List UInt8 := "../test_file.txt".toUTF8.toList

def renamedFile : List UInt8 := "../renamed_file.txt".toUTF8.toList

def deletedFile : List UInt8 := "../deleted_file.txt".toUTF8.toList

def Reply.bytes : Reply → List UInt8
  | .buffer _ buf => buf
  | _ => []

/-- The lines that `remote.go` prints. -/
inductive Line
  | fileSize (size : Reply)
  | lastModifiedTime (time : Reply)
  | chunk (length : Reply) (text : List UInt8)
  deriving DecidableEq

/-- `log.Fatal` ends the program when a call has failed. -/
def orFatal (call : FileCall ℕ)
    (next : Reply → Program (FileCall ℕ) (Option Reply) Line) :
    Program (FileCall ℕ) (Option Reply) Line :=
  .call call fun answer =>
    match answer with
    | none => .done
    | some reply => next reply

/-- The calls after `Open`. -/
def remoteMainOpened : Program (FileCall ℕ) (Option Reply) Line :=
  orFatal (.read 0 5) fun buf =>
  .write (.chunk buf buf.bytes) <|
  orFatal (.lseek 0 0 0) fun _ =>
  orFatal (.read 0 6) fun buf2 =>
  .write (.chunk buf2 (buf.bytes ++ buf2.bytes)) <|
  orFatal (.write 0 "word".toUTF8.toList) fun _ =>
  orFatal (.ftruncate 0 30) fun _ =>
  orFatal (.fsync 0) fun _ =>
  orFatal (.close 0) fun _ =>
  orFatal (.rename testFile renamedFile) fun _ =>
  orFatal (.unlink deletedFile) fun _ => .done

def remoteMain : Program (FileCall ℕ) (Option Reply) Line :=
  orFatal (.size testFile) fun size =>
  .write (.fileSize size) <|
  orFatal (.lastModifiedTime testFile) fun time =>
  .write (.lastModifiedTime time) <|
  orFatal (.openCall ⟨testFile, O_RDWR, 0o644⟩) fun _ => remoteMainOpened

/-- Every read that succeeds fills its buffer. -/
def OsPackage.FillsReads {σ : Type} (package : OsPackage σ) : Prop :=
  ∀ file length os data,
    (package.exec (.read file length) os).1 = some data →
    data.1.length = length

section RemoteMain

variable {σ : Type} {package : OsPackage σ} {heap : Heap}
  {direct after : Direct σ}

theorem meets_orFatal {call : FileCall ℕ}
    {next : Reply → Program (FileCall ℕ) (Option Reply) Line}
    (husable : Usable package heap id direct call)
    (hnext : ∀ reply after,
      directMachine package heap id direct call = some (some reply, after) →
      (next reply).Meets (directMachine package heap id)
        (Usable package heap id) after) :
    (orFatal call next).Meets (directMachine package heap id)
      (Usable package heap id) direct := by
  refine ⟨husable, fun answer after hanswer => ?_⟩
  cases answer with
  | none => trivial
  | some reply => exact hnext reply after hanswer

theorem usable_path {view : Reply → Reply} {call : FileCall ℕ}
    (hfildes : call.fildes? = none)
    (hopen : ∀ args, call ≠ .openCall args) :
    Usable package heap view direct call := by
  constructor
  case live =>
    intro number hnumber
    rw [hfildes] at hnumber
    cases hnumber
  case mode => exact fun args hcall => absurd hcall (hopen args)
  case length =>
    rintro number nbyte rfl
    cases hfildes
  case count =>
    rintro number nbyte file data rfl
    cases hfildes

theorem usable_file {view : Reply → Reply} {call : FileCall ℕ}
    {number file : ℕ} (hopened : direct.opened[number]? = some (some file))
    (hfildes : call.fildes? = some number)
    (hread : ∀ number nbyte, call ≠ .read number nbyte) :
    Usable package heap view direct call := by
  constructor
  case live =>
    intro other hother
    rw [hfildes] at hother
    cases hother
    exact ⟨file, hopened⟩
  case mode =>
    rintro args rfl
    cases hfildes
  case length => exact fun number nbyte hcall => absurd hcall (hread _ _)
  case count =>
    exact fun number nbyte file data hcall => absurd hcall (hread _ _)

theorem usable_read {view : Reply → Reply} (hfills : package.FillsReads)
    {number file : ℕ} (hopened : direct.opened[number]? = some (some file))
    {nbyte : BitVec 64}
    (hlength : 0 ≤ nbyte.toInt ∧ heap.serves nbyte.toNat = true) :
    Usable package heap view direct (.read number nbyte) := by
  constructor
  case live =>
    rintro other ⟨⟩
    exact ⟨file, hopened⟩
  case mode => exact fun args hcall => absurd hcall (by simp)
  case length =>
    rintro other length ⟨⟩
    exact hlength
  case count =>
    rintro other length file data ⟨⟩ - hdata buf
    rw [hfills _ _ _ _ hdata]

/-- Only `OpenFile` and `Close` change what a program has open. -/
theorem directMachine_opened {view : Reply → Reply} {call : FileCall ℕ}
    {answer : Option Reply} (hopen : ∀ args, call ≠ .openCall args)
    (hclose : ∀ number, call ≠ .close number)
    (hanswer : directMachine package heap view direct call =
      some (answer, after)) : after.opened = direct.opened := by
  have honFile : ∀ number call reply,
      (direct.onFile package number call reply).2.opened =
        direct.opened := by
    intro number call reply
    rw [Direct.onFile]
    split <;> rfl
  rw [directMachine, Option.map_eq_some_iff] at hanswer
  obtain ⟨result, hcall, hresult⟩ := hanswer
  cases hresult
  cases call with
  | openCall args => exact absurd rfl (hopen args)
  | close number => exact absurd rfl (hclose number)
  | read number nbyte =>
      rw [Direct.call] at hcall
      split at hcall
      · cases hcall
        exact honFile _ _ _
      · cases hcall
  | write number buf =>
      cases hcall
      exact honFile _ _ _
  | lseek number offset whence =>
      cases hcall
      exact honFile _ _ _
  | ftruncate number length =>
      cases hcall
      exact honFile _ _ _
  | fsync number =>
      cases hcall
      exact honFile _ _ _
  | truncate path length =>
      cases hcall
      rfl
  | size path =>
      cases hcall
      rfl
  | lastModifiedTime path =>
      cases hcall
      rfl
  | rename old new =>
      cases hcall
      rfl
  | unlink path =>
      cases hcall
      rfl

theorem directMachine_openCall {view : Reply → Reply} {args : OpenArgs}
    {reply : Reply}
    (hanswer : directMachine package heap view direct (.openCall args) =
      some (some reply, after)) :
    ∃ file, after.opened = direct.opened ++ [some file] := by
  rw [directMachine, Direct.call, Option.map_some, Option.some.injEq,
    Prod.mk.injEq] at hanswer
  obtain ⟨hreply, rfl⟩ := hanswer
  cases hfile : (package.openFile args direct.os).1 with
  | none =>
      rw [hfile] at hreply
      cases hreply
  | some file => exact ⟨file, rfl⟩

theorem remoteMainOpened_meets (hfills : package.FillsReads)
    (hfive : heap.serves 5 = true) (hsix : heap.serves 6 = true)
    {file : ℕ} (hopened : direct.opened = [some file]) :
    remoteMainOpened.Meets (directMachine package heap id)
      (Usable package heap id) direct := by
  have hlive : ∀ {state : Direct σ}, state.opened = direct.opened →
      state.opened[0]? = some (some file) := by
    intro state hstate
    rw [hstate, hopened]
    rfl
  apply meets_orFatal (usable_read hfills (hlive rfl) ⟨by decide, hfive⟩)
  intro buf state hread
  have hstate := directMachine_opened (by simp) (by simp) hread
  apply meets_orFatal (usable_file (hlive hstate) rfl (by simp))
  intro _ state hlseek
  replace hstate := (directMachine_opened (by simp) (by simp) hlseek).trans
    hstate
  apply meets_orFatal (usable_read hfills (hlive hstate) ⟨by decide, hsix⟩)
  intro buf2 state hread
  replace hstate := (directMachine_opened (by simp) (by simp) hread).trans
    hstate
  apply meets_orFatal (usable_file (hlive hstate) rfl (by simp))
  intro _ state hwrite
  replace hstate := (directMachine_opened (by simp) (by simp) hwrite).trans
    hstate
  apply meets_orFatal (usable_file (hlive hstate) rfl (by simp))
  intro _ state hftruncate
  replace hstate := (directMachine_opened (by simp) (by simp)
    hftruncate).trans hstate
  apply meets_orFatal (usable_file (hlive hstate) rfl (by simp))
  intro _ state hfsync
  replace hstate := (directMachine_opened (by simp) (by simp) hfsync).trans
    hstate
  apply meets_orFatal (usable_file (hlive hstate) rfl (by simp))
  intro _ state _
  apply meets_orFatal (usable_path rfl (by simp))
  intro _ state _
  exact meets_orFatal (usable_path rfl (by simp)) fun _ _ _ => trivial

/-- Where every `Read` fills its buffer and `make` serves its two lengths,
`remote.go` keeps to what the server can do. -/
theorem remoteMain_meets (hfills : package.FillsReads)
    (hfive : heap.serves 5 = true) (hsix : heap.serves 6 = true) (os : σ) :
    remoteMain.Meets (directMachine package heap id)
      (Usable package heap id) ⟨os, []⟩ := by
  apply meets_orFatal (usable_path rfl (by simp))
  intro size state hsize
  have hstate := directMachine_opened (by simp) (by simp) hsize
  apply meets_orFatal (usable_path rfl (by simp))
  intro time state htime
  replace hstate := (directMachine_opened (by simp) (by simp) htime).trans
    hstate
  apply meets_orFatal
  · constructor
    case live => simp [FileCall.fildes?]
    case mode =>
      rintro args ⟨⟩
      exact .inr rfl
    case length => simp
    case count => simp
  · intro _ state hopen
    obtain ⟨file, hopened⟩ := directMachine_openCall hopen
    rw [hstate] at hopened
    exact remoteMainOpened_meets hfills hfive hsix hopened

end RemoteMain

/-- A system on which every file holds one byte over and over.  Its state
says of each `*os.File` whether it is open. -/
def steadyPackage : OsPackage (List Bool) where
  exec := fun call os =>
    match call with
    | .openFile _ =>
        if os.length < 2 ^ 32 then (some os.length, os ++ [true])
        else (none, os)
    | .close file => (some (), os.set file false)
    | .read _ length =>
        (some ⟨List.replicate length 0x61, List.length_replicate.le⟩, os)
    | .write _ b => (some (BitVec.ofNat 64 b.length), os)
    | .seek _ offset _ => (some offset, os)
    | .truncate _ _ => (some (), os)
    | .fileTruncate _ _ => (some (), os)
    | .stat _ => (some ⟨42, 7⟩, os)
    | .sync _ => (some (), os)
    | .rename _ _ => (some (), os)
    | .remove _ => (some (), os)
  fd := fun _ file => BitVec.ofNat 64 (3 + file)

def steadyFiles : steadyPackage.OpenFiles where
  isOpen := fun os file => os[file]? = some true ∧ os.length ≤ 2 ^ 32
  opens := by
    intro args os file hfile
    simp only [steadyPackage, OsPackage.openFile] at hfile ⊢
    split at hfile
    · next hroom =>
      cases hfile
      rw [if_pos hroom]
      refine ⟨by simp, by simp, ?_⟩
      rw [List.length_append, List.length_singleton]
      omega
    · cases hfile
  keeps := by
    rintro call os file ⟨hopen, hlength⟩ hclose
    refine ⟨?_, rfl⟩
    cases call with
    | openFile args =>
        simp only [steadyPackage]
        split
        · refine ⟨TransitionRuns.getElem?_append_left_of_some hopen, ?_⟩
          rw [List.length_append, List.length_singleton]
          omega
        · exact ⟨hopen, hlength⟩
    | close other =>
        have hne : other ≠ file := fun h => hclose (by rw [h])
        refine ⟨?_, by simpa [steadyPackage] using hlength⟩
        simp only [steadyPackage, List.getElem?_set_ne hne]
        exact hopen
    | _ => exact ⟨hopen, hlength⟩
  distinct := by
    rintro os file other ⟨hfile, hlength⟩ ⟨hother, -⟩ hfd
    have hlt := (List.getElem?_eq_some_iff.mp hfile).1
    have hlt' := (List.getElem?_eq_some_iff.mp hother).1
    have hnat := congrArg BitVec.toNat hfd
    simp only [steadyPackage, BitVec.toNat_ofNat] at hnat
    omega

theorem steadyPackage_fillsReads : steadyPackage.FillsReads := by
  intro file length os data hdata
  cases hdata
  exact List.length_replicate

/-- `remote.go` on such a system. -/
theorem run_direct_remoteMain :
    ∃ final final',
      remoteMain.run (directMachine steadyPackage addressableHeap id) ⟨[], []⟩ =
        some ([.fileSize (.number 42), .lastModifiedTime (.number 7),
          .chunk (.buffer 5 (List.replicate 5 0x61))
            (List.replicate 5 0x61),
          .chunk (.buffer 6 (List.replicate 6 0x61))
            (List.replicate 11 0x61)], final) ∧
      remoteMain.run (clientMachine steadyPackage addressableHeap id)
          ⟨⟨[], fun _ => none⟩, []⟩ =
        some ([.fileSize (.number 42), .lastModifiedTime (.number 7),
          .chunk (.buffer 5 (List.replicate 5 0x61))
            (List.replicate 5 0x61),
          .chunk (.buffer 6 (List.replicate 6 0x61))
            (List.replicate 11 0x61)], final') ∧
      final'.served.os = final.os := by
  have hfive : addressableHeap.serves 5 = true := by decide
  have hsix : addressableHeap.serves 6 = true := by decide
  obtain ⟨lines, final, final', hdirect, hclient, hos⟩ := run_direct
    steadyFiles (remoteMain_meets steadyPackage_fillsReads hfive hsix [])
  have hlines : (remoteMain.run (directMachine steadyPackage addressableHeap id)
      ⟨[], []⟩).map Prod.fst =
        some [.fileSize (.number 42), .lastModifiedTime (.number 7),
          .chunk (.buffer 5 (List.replicate 5 0x61))
            (List.replicate 5 0x61),
          .chunk (.buffer 6 (List.replicate 6 0x61))
            (List.replicate 11 0x61)] := by
    decide
  rw [hdirect, Option.map_some, Option.some.injEq] at hlines
  subst hlines
  exact ⟨final, final', hdirect, hclient, hos⟩

end Go

end TestRpc
