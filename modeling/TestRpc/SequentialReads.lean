import TestRpc.FileCursor
import TestRpc.LibcCalls

/-!
# Read loops on the Go and the Java server

`Receiver.Read` and `Server.read` hand back the buffer they allocated, at its
full length, and drop the count that the read itself returned.  A client puts
the buffers together; that gives the bytes of the file exactly when no read
stopped short.  `make` moreover brings the Go server down for lengths that it
cannot allocate, the negative ones among them.
-/

namespace TestRpc

open FileCursor StreamReceive

/-- The open files of a server, each with its contents and its position. -/
abbrev OpenFiles (n : ℕ) := BitVec n → Option (Cursor UInt8)

/-- A sequence of reads; `none` as soon as one of them does not return. -/
def serveReads {φ ρ : Type}
    (read : φ → ρ → Option (Option (List UInt8) × φ)) :
    List ρ → φ → Option (List (Option (List UInt8)) × φ)
  | [], files => some ([], files)
  | request :: rest, files =>
      match read files request with
      | none => none
      | some (reply, files) =>
          match serveReads read rest files with
          | none => none
          | some (replies, files) => some (reply :: replies, files)

/-! ## The two servers -/

namespace Go

/-- What `make` can allocate; the runtime refuses lengths beyond its address
space. -/
structure Heap where
  serves : ℕ → Bool
  serves_le : ∀ length, serves length = true → length ≤ 2 ^ 48

/-- `ReadArgs` without the descriptor, and how much `file.Read` returns at
most. -/
structure ReadArgs where
  nbyte : BitVec 64
  cut : ℕ

def ReadArgs.ask (args : ReadArgs) : Ask :=
  ⟨args.nbyte.toNat, args.cut⟩

/-- The length is one that `make` allocates. -/
def ReadArgs.Allocates (heap : Heap) (args : ReadArgs) : Prop :=
  0 ≤ args.nbyte.toInt ∧ heap.serves args.nbyte.toNat = true

instance (heap : Heap) (args : ReadArgs) : Decidable (args.Allocates heap) :=
  inferInstanceAs (Decidable (_ ∧ _))

/-- `Receiver.Read`: the reply, with `none` for an error, and the files
afterwards; `none` when `make` panics, which ends the server. -/
def Receiver.read (heap : Heap) (fildes : BitVec 64) (files : OpenFiles 64)
    (args : ReadArgs) : Option (Option (List UInt8) × OpenFiles 64) :=
  if args.Allocates heap then
    let buf := List.replicate args.nbyte.toNat 0
    match files fildes with
    | none => some (none, files)
    | some file =>
        match file.read args.ask with
        | none => some (none, files)
        | some (data, file) =>
            some (some (fillFront buf data),
              Function.update files fildes (some file))
  else
    none

end Go

namespace Java

structure ReadCall where
  len : CInt
  cut : ℕ

/-- `RandomAccessFile.read` returns at least one byte before the end. -/
def ReadCall.ask (call : ReadCall) : Ask :=
  ⟨call.len.toNat, max 1 call.cut⟩

/-- `Server.read`: the result, with `none` for `null`, and the files
afterwards; `none` for an exception. -/
def Server.read (fd : CInt) (files : OpenFiles 32) (call : ReadCall) :
    Option (Option (List UInt8) × OpenFiles 32) :=
  match files fd with
  | none => none
  | some file =>
      if call.len.toInt < 0 then
        none
      else
        let result := List.replicate call.len.toNat 0
        match file.read call.ask with
        | none => some (none, files)
        | some (data, file) =>
            some (some (fillFront result data),
              Function.update files fd (some file))

end Java

/-! ## Both are padded reads -/

theorem fillFront_replicate (length : ℕ) (data : List UInt8) :
    fillFront (List.replicate length 0) data = padded 0 length data := by
  rw [fillFront_eq, List.drop_replicate, padded]

/-- Reads that each do one padded read of the file at a descriptor do a
sequence of them. -/
theorem serveReads_eq_readAll {n : ℕ} {ρ : Type}
    {read : OpenFiles n → ρ → Option (Option (List UInt8) × OpenFiles n)}
    (ask : ρ → Ask) {fildes : BitVec n} {requests : List ρ}
    (hread : ∀ request ∈ requests, ∀ files : OpenFiles n, ∀ file,
      files fildes = some file →
      read files request =
        match file.read (ask request) with
        | none => some (none, files)
        | some (data, next) =>
            some (some (padded 0 (ask request).length data),
              Function.update files fildes (some next)))
    {files : OpenFiles n} {file : Cursor UInt8}
    (hfile : files fildes = some file) :
    serveReads read requests files =
      some ((readAll 0 (requests.map ask) file).1,
        Function.update files fildes
          (some (readAll 0 (requests.map ask) file).2)) := by
  induction requests generalizing files file with
  | nil =>
      simp only [serveReads, List.map_nil, readAll]
      rw [← hfile, Function.update_eq_self]
  | cons request rest ih =>
      have hrest := fun other hmem =>
        hread other (List.mem_cons_of_mem request hmem)
      rw [serveReads, hread request (List.mem_cons_self ..) files file hfile,
        List.map_cons, readAll]
      cases hstep : file.read (ask request) with
      | none => simp only [ih hrest hfile]
      | some result =>
          obtain ⟨data, next⟩ := result
          simp only [ih hrest (Function.update_self fildes (some next) files),
            Function.update_idem]

theorem Go.receiver_read_eq {heap : Go.Heap} {args : Go.ReadArgs}
    (hserves : args.Allocates heap) {fildes : BitVec 64}
    {files : OpenFiles 64} {file : Cursor UInt8}
    (hfile : files fildes = some file) :
    Go.Receiver.read heap fildes files args =
      match file.read args.ask with
      | none => some (none, files)
      | some (data, next) =>
          some (some (padded 0 args.ask.length data),
            Function.update files fildes (some next)) := by
  rw [Go.Receiver.read, if_pos hserves, hfile]
  simp only [fillFront_replicate]
  rfl

theorem Java.server_read_eq {call : Java.ReadCall}
    (hlen : 0 < call.len.toInt) {fd : CInt} {files : OpenFiles 32}
    {file : Cursor UInt8} (hfile : files fd = some file) :
    Java.Server.read fd files call =
      match file.read call.ask with
      | none => some (none, files)
      | some (data, next) =>
          some (some (padded 0 call.ask.length data),
            Function.update files fd (some next)) := by
  rw [Java.Server.read, hfile]
  simp only [if_neg (not_lt.mpr hlen.le), fillFront_replicate]
  rfl

/-! ## Read loops -/

/-- The loop returns, and the buffers it returns are the stretch of the file
that it passed. -/
def ReadsExactly {n : ℕ} {ρ : Type}
    (read : OpenFiles n → ρ → Option (Option (List UInt8) × OpenFiles n))
    (fildes : BitVec n) (requests : List ρ) (files : OpenFiles n)
    (file : Cursor UInt8) : Prop :=
  ∃ replies files' final,
    serveReads read requests files = some (replies, files') ∧
      files' fildes = some final ∧
      replies.reduceOption.flatten = file.stretch final.position

theorem readsExactly_iff_fullReads {n : ℕ} {ρ : Type}
    {read : OpenFiles n → ρ → Option (Option (List UInt8) × OpenFiles n)}
    {ask : ρ → Ask} {fildes : BitVec n} {requests : List ρ}
    {files : OpenFiles n} {file : Cursor UInt8}
    (hserve : serveReads read requests files =
      some ((readAll 0 (requests.map ask) file).1,
        Function.update files fildes
          (some (readAll 0 (requests.map ask) file).2))) :
    ReadsExactly read fildes requests files file ↔
      FullReads (requests.map ask) file := by
  rw [← readAll_eq_stretch_iff 0 (requests.map ask) file]
  constructor
  · rintro ⟨replies, files', final, hreplies, hfinal, hstretch⟩
    rw [hserve, Option.some.injEq, Prod.mk.injEq] at hreplies
    rw [← hreplies.2, Function.update_self, Option.some.injEq] at hfinal
    rw [hreplies.1, hfinal, hstretch]
  · intro hstretch
    exact ⟨_, _, _, hserve, Function.update_self .., hstretch⟩

theorem Go.serveReads_panics {heap : Go.Heap} {fildes : BitVec 64}
    {requests : List Go.ReadArgs} {args : Go.ReadArgs}
    (hmem : args ∈ requests) (hrefused : ¬args.Allocates heap)
    (files : OpenFiles 64) :
    serveReads (Go.Receiver.read heap fildes) requests files = none := by
  induction requests generalizing files with
  | nil => cases hmem
  | cons first rest ih =>
      rw [serveReads]
      rcases List.mem_cons.mp hmem with rfl | hrest
      · rw [Go.Receiver.read, if_neg hrefused]
      · cases Go.Receiver.read heap fildes files first with
        | none => rfl
        | some result => simp only [ih hrest]

/-- A loop of `Receiver.Read`s on an open file never panics and returns
exactly the bytes it consumed if and only if every length can be allocated and
every read that is not at the end of the file returns all it asked for. -/
theorem Go.receiver_reads_exactly_iff (heap : Go.Heap) {fildes : BitVec 64}
    {files : OpenFiles 64} {file : Cursor UInt8}
    (hfile : files fildes = some file) (requests : List Go.ReadArgs) :
    ReadsExactly (Go.Receiver.read heap fildes) fildes requests files file ↔
      (∀ args ∈ requests, args.Allocates heap) ∧
        FullReads (requests.map Go.ReadArgs.ask) file := by
  by_cases hserves : ∀ args ∈ requests, args.Allocates heap
  · rw [and_iff_right hserves]
    apply readsExactly_iff_fullReads
    apply serveReads_eq_readAll Go.ReadArgs.ask _ hfile
    intro args hmem files file hfile
    exact Go.receiver_read_eq (hserves args hmem) hfile
  · refine iff_of_false ?_ fun hcondition => hserves hcondition.1
    rintro ⟨replies, files', final, hreplies, _⟩
    push Not at hserves
    obtain ⟨args, hmem, hrefused⟩ := hserves
    rw [Go.serveReads_panics hmem hrefused] at hreplies
    cases hreplies

/-- `"hello"`, from its beginning. -/
def helloFile : Cursor UInt8 := ⟨[0x68, 0x65, 0x6c, 0x6c, 0x6f], 0⟩

def Go.addressableHeap : Go.Heap :=
  ⟨fun length => decide (length ≤ 2 ^ 48), by simp⟩

theorem Go.receiver_reads_hello :
    ReadsExactly (Go.Receiver.read Go.addressableHeap 3) 3
      [⟨2, 10⟩, ⟨3, 10⟩, ⟨4, 10⟩] (fun _ => some helloFile) helloFile := by
  refine (Go.receiver_reads_exactly_iff Go.addressableHeap rfl _).mpr ⟨?_, ?_⟩
  · decide
  · simp [FullReads, Go.ReadArgs.ask, helloFile, Cursor.atEnd, Cursor.rest,
      Cursor.advance]

/-- Two `Receiver.Read`s of three bytes each return six, and one with a
negative `Nbyte` brings the server down. -/
theorem Go.receiver_reads_beyond_hello :
    (∃ files, serveReads (Go.Receiver.read Go.addressableHeap 3)
          [⟨3, 10⟩, ⟨3, 10⟩] (fun _ => some helloFile) =
        some ([some [0x68, 0x65, 0x6c], some [0x6c, 0x6f, 0]], files) ∧
      files 3 = some ⟨helloFile.content, 5⟩) ∧
      ¬ReadsExactly (Go.Receiver.read Go.addressableHeap 3) 3
        [⟨3, 10⟩, ⟨3, 10⟩] (fun _ => some helloFile) helloFile ∧
      serveReads (Go.Receiver.read Go.addressableHeap 3) [⟨-1, 10⟩]
        (fun _ => some helloFile) = none := by
  refine ⟨⟨_, rfl, rfl⟩, ?_, rfl⟩
  rintro ⟨replies, files', final, hserve, hfinal, hstretch⟩
  cases hserve
  cases hfinal
  exact absurd hstretch (by decide)

/-- Each call of a loop returns `null` exactly when no byte is left before
it. -/
def Java.NullsExact (fd : CInt) (calls : List Java.ReadCall)
    (files : OpenFiles 32) : Prop :=
  ∀ before call after, calls = before ++ call :: after →
    ∃ results files' file result files'',
      serveReads (Java.Server.read fd) before files =
          some (results, files') ∧
        files' fd = some file ∧
        Java.Server.read fd files' call = some (result, files'') ∧
        (result = none ↔ file.rest = [])

theorem Java.nullsExact {fd : CInt} {calls : List Java.ReadCall}
    (hlen : ∀ call ∈ calls, 0 < call.len.toInt) {files : OpenFiles 32}
    {file : Cursor UInt8} (hfile : files fd = some file) :
    Java.NullsExact fd calls files := by
  intro before call after hcalls
  have hlenBefore : ∀ call ∈ before, 0 < call.len.toInt := by
    intro call hmem
    exact hlen call (by rw [hcalls]; exact List.mem_append_left _ hmem)
  have hlenCall : 0 < call.len.toInt := hlen call (by simp [hcalls])
  have hpositive : 0 < call.ask.length := by
    have hnat := BitVec.toInt_eq_toNat_cond call.len
    simp only [Java.ReadCall.ask]
    split at hnat <;> omega
  have hserve := serveReads_eq_readAll Java.ReadCall.ask
    (fun call hmem _ _ hfile =>
      Java.server_read_eq (hlenBefore call hmem) hfile) hfile
  generalize (readAll 0 (before.map Java.ReadCall.ask) file).2 = reached
    at hserve
  have hreached : Function.update files fd (some reached) fd = some reached :=
    Function.update_self ..
  have hread := Java.server_read_eq hlenCall hreached
  cases hstep : reached.read call.ask with
  | none =>
      rw [hstep] at hread
      refine ⟨_, _, reached, _, _, hserve, hreached, hread, ?_⟩
      exact iff_of_true rfl
        (Cursor.atEnd_iff.mp (Cursor.read_eq_none_iff.mp hstep).2)
  | some result =>
      rw [hstep] at hread
      refine ⟨_, _, reached, _, _, hserve, hreached, hread, ?_⟩
      refine iff_of_false (by simp) fun hrest => ?_
      exact (Cursor.read_eq_some hstep).1
        ⟨hpositive, Cursor.atEnd_iff.mpr hrest⟩

/-- A loop of `Server.read`s returns exactly the bytes it consumed, and `null`
exactly when none is left, if and only if every read that is not at the end of
the file returns all it asked for. -/
theorem Java.server_reads_exactly_iff {fd : CInt} {files : OpenFiles 32}
    {file : Cursor UInt8} (hfile : files fd = some file)
    {calls : List Java.ReadCall}
    (hlen : ∀ call ∈ calls, 0 < call.len.toInt) :
    ReadsExactly (Java.Server.read fd) fd calls files file ∧
        Java.NullsExact fd calls files ↔
      FullReads (calls.map Java.ReadCall.ask) file := by
  rw [and_iff_left (Java.nullsExact hlen hfile)]
  apply readsExactly_iff_fullReads
  apply serveReads_eq_readAll Java.ReadCall.ask _ hfile
  intro call hmem files file hfile
  exact Java.server_read_eq (hlen call hmem) hfile

theorem Java.server_reads_hello :
    ReadsExactly (Java.Server.read 7) 7 [⟨2, 10⟩, ⟨3, 10⟩, ⟨4, 10⟩]
        (fun _ => some helloFile) helloFile ∧
      Java.NullsExact 7 [⟨2, 10⟩, ⟨3, 10⟩, ⟨4, 10⟩]
        fun _ => some helloFile := by
  have hlen : ∀ call ∈ ([⟨2, 10⟩, ⟨3, 10⟩, ⟨4, 10⟩] : List Java.ReadCall),
      0 < call.len.toInt := by
    decide
  refine (Java.server_reads_exactly_iff rfl hlen).mpr ?_
  simp [FullReads, Java.ReadCall.ask, helloFile, Cursor.atEnd, Cursor.rest,
    Cursor.advance]

/-- Two `Server.read`s of three bytes each return six bytes of five. -/
theorem Java.server_reads_beyond_hello :
    (∃ files, serveReads (Java.Server.read 7) [⟨3, 10⟩, ⟨3, 10⟩]
          (fun _ => some helloFile) =
        some ([some [0x68, 0x65, 0x6c], some [0x6c, 0x6f, 0]], files) ∧
      files 7 = some ⟨helloFile.content, 5⟩) ∧
      ¬ReadsExactly (Java.Server.read 7) 7 [⟨3, 10⟩, ⟨3, 10⟩]
        (fun _ => some helloFile) helloFile := by
  refine ⟨⟨_, rfl, rfl⟩, ?_⟩
  rintro ⟨replies, files', final, hserve, hfinal, hstretch⟩
  cases hserve
  cases hfinal
  exact absurd hstretch (by decide)

end TestRpc
