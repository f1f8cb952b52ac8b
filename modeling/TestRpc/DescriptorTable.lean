import TestRpc.TransitionRuns
import TestRpc.HandlerSafety

/-!
# The server's descriptor table

All handler threads share one descriptor table with the listening socket and
with each other's connections.  A step is the `accept` of a connection with
its request, the system call of a handler, or the end of a handler, which
closes its connection or leaves it open.  `history` records every change of
the table, so that the descriptors handed out by `OPEN` and not closed since
can be told from the server's own.
-/

namespace TestRpc

open TransitionRuns LittleEndian BlockCopies StreamReceive

/-! ## States and steps -/

/-- What an open descriptor refers to: one that the process was started with,
the listening socket, the connection of a handler, or the file that a
handler's `open` created. -/
inductive Entry
  | inherited
  | listening
  | connection (thread : ℕ)
  | file (thread : ℕ)
  deriving DecidableEq

/-- A handler thread before and after its system call, and after its end.
`acted` is the open descriptor that a descriptor-based call acted on; a call
on a descriptor that is not open fails with `EBADF`. -/
inductive Phase
  | serving
  | executed (acted : Option (ℕ × Entry))
  | ended
  deriving DecidableEq

structure Thread where
  payload : List UInt8
  socket : ℕ
  phase : Phase
  deriving DecidableEq

structure Touch where
  fildes : ℕ
  entry : Option Entry
  deriving DecidableEq

/-- The server process, with the changes of its table, the last one first. -/
structure FileServer where
  table : ℕ → Option Entry
  threads : List Thread
  history : List Touch

def maxFildes : ℕ := INT_MAX.toNat / 2

def FileServer.initial (inherited : ℕ → Bool) (serverSocket : ℕ) :
    FileServer where
  table := fun fildes =>
    if fildes = serverSocket then some .listening
    else if inherited fildes then some .inherited
    else none
  threads := []
  history := []

/-- A connection is accepted with its request; or a handler makes its system
call, `malloc` being its allocation of `buf` or `statbuf` and `granted` what
the kernel returns if the call is an `open`; or a handler ends, closing its
connection or not. -/
inductive TableEvent
  | accept (socket : ℕ) (payload : List UInt8)
  | execute (thread : ℕ) (malloc : Malloc) (granted : Option ℕ)
  | leave (thread : ℕ) (closes : Bool)

def FileServer.touch (server : FileServer) (fildes : ℕ)
    (entry : Option Entry) : FileServer :=
  { server with
    table := Function.update server.table fildes entry
    history := ⟨fildes, entry⟩ :: server.history }

def FileServer.setPhase (server : FileServer) (thread : ℕ) (phase : Phase) :
    FileServer :=
  { server with
    threads := server.threads.modify thread fun state =>
      { state with phase := phase } }

/-- The kernel returns descriptors that are not open. -/
def FileServer.free (server : FileServer) (fildes : ℕ) : Bool :=
  (server.table fildes).isNone && decide (fildes ≤ maxFildes)

/-- The effect of a system call on the table, and the open descriptor it acted
on if it names one; `none` when the kernel does not return `granted`. -/
def FileServer.perform (server : FileServer) (thread : ℕ) (call : LibCall)
    (granted : Option ℕ) : Option (FileServer × Option (ℕ × Entry)) :=
  match call with
  | .openCall _ _ _ =>
      match granted with
      | none => some (server, none)
      | some fildes =>
          if server.free fildes then
            some (server.touch fildes (some (.file thread)), none)
          else
            none
  | .close fildes =>
      match server.table fildes.toNat with
      | none => some (server, none)
      | some entry =>
          some (server.touch fildes.toNat none, some (fildes.toNat, entry))
  | call =>
      match call.fildes? with
      | none => some (server, none)
      | some fildes =>
          match server.table fildes.toNat with
          | none => some (server, none)
          | some entry => some (server, some (fildes.toNat, entry))

def FileServer.accept (server : FileServer) (socket : ℕ)
    (payload : List UInt8) : Option FileServer :=
  if server.free socket then
    some { server.touch socket (some (.connection server.threads.length)) with
      threads := server.threads ++ [⟨payload, socket, .serving⟩] }
  else
    none

def FileServer.execute (server : FileServer) (thread : ℕ) (malloc : Malloc)
    (granted : Option ℕ) : Option FileServer :=
  match server.threads[thread]? with
  | some ⟨payload, _, .serving⟩ =>
      match decode malloc payload with
      | .error _ => none
      | .ok none => some (server.setPhase thread (.executed none))
      | .ok (some call) =>
          match server.perform thread call granted with
          | none => none
          | some (next, acted) =>
              some (next.setPhase thread (.executed acted))
  | _ => none

/-- The end of a handler: with `close(client_socket)`, or with one of the
early exits that skip it. -/
def FileServer.leave (server : FileServer) (thread : ℕ) (closes : Bool) :
    Option FileServer :=
  match server.threads[thread]? with
  | some ⟨_, socket, .executed _⟩ =>
      if closes then
        some ((server.touch socket none).setPhase thread .ended)
      else
        some (server.setPhase thread .ended)
  | _ => none

def FileServer.step (server : FileServer) : TableEvent → Option FileServer
  | .accept socket payload => server.accept socket payload
  | .execute thread malloc granted => server.execute thread malloc granted
  | .leave thread closes => server.leave thread closes

/-! ## Which descriptor a request names -/

def LibCall.code : LibCall → FunctionCode
  | .openCall _ _ _ => .OPEN
  | .close _ => .CLOSE
  | .read _ _ => .READ
  | .write _ _ => .WRITE
  | .lseek _ _ _ => .LSEEK
  | .truncate _ _ => .TRUNCATE
  | .ftruncate _ _ => .FTRUNCATE
  | .stat _ => .STAT
  | .fstat _ => .FSTAT
  | .fsync _ => .FSYNC
  | .rename _ _ => .RENAME
  | .unlink _ => .UNLINK

/-- What the payload says about a call decoded from it: its function, and for
a descriptor-based call the handle whose `INT_MAX - handle` it names. -/
def NamedBy (code : FunctionCode) (payload : List UInt8) :
    Option LibCall → Prop
  | none => True
  | some call =>
      call.code = code ∧ ∀ fildes, call.fildes? = some fildes →
        ∃ handle, wordAt 32 payload 1 = .ok handle ∧
          intMaxMinus handle = .ok fildes

theorem namedBy_fildes {code : FunctionCode} {payload : List UInt8}
    {handle fildes : CInt} {call : LibCall}
    (hhandle : wordAt 32 payload 1 = .ok handle)
    (hfildes : intMaxMinus handle = .ok fildes) (hcode : call.code = code)
    (hcall : call.fildes? = some fildes) :
    Ends (NamedBy code payload) (pure (some call)) := by
  refine ends_pure ⟨hcode, fun named hnamed => ?_⟩
  rw [hcall, Option.some.injEq] at hnamed
  exact ⟨handle, hhandle, hnamed ▸ hfildes⟩

theorem namedBy_path {code : FunctionCode} {payload : List UInt8}
    {call : LibCall} (hcode : call.code = code)
    (hcall : call.fildes? = none) :
    Ends (NamedBy code payload) (pure (some call)) := by
  refine ends_pure ⟨hcode, fun named hnamed => ?_⟩
  rw [hcall] at hnamed
  cases hnamed

theorem decodeFunction_namedBy (malloc : Malloc) (code : FunctionCode)
    (payload : List UInt8) :
    Ends (NamedBy code payload) (decodeFunction malloc code payload) := by
  have hrejected : Ends (NamedBy code payload)
      (pure none : Except Fault (Option LibCall)) := ends_pure trivial
  cases code with
  | OPEN =>
      refine ends_bind fun _ _ => ends_bind fun _ _ => ends_ite
        (fun _ => ends_bind fun _ _ => ?_) fun _ => ?_
      · exact namedBy_path rfl rfl
      · exact namedBy_path rfl rfl
  | TRUNCATE | RENAME =>
      exact ends_bind fun _ _ => ends_bind fun _ _ => namedBy_path rfl rfl
  | UNLINK => exact ends_bind fun _ _ => namedBy_path rfl rfl
  | STAT =>
      exact ends_ite (fun _ => ends_bind fun _ _ => namedBy_path rfl rfl)
        fun _ => hrejected
  | CLOSE | FSYNC =>
      exact ends_bind fun _ hhandle => ends_bind fun _ hfildes =>
        namedBy_fildes hhandle hfildes rfl rfl
  | FSTAT =>
      exact ends_bind fun _ hhandle => ends_ite
        (fun _ => ends_bind fun _ hfildes =>
          namedBy_fildes hhandle hfildes rfl rfl)
        fun _ => hrejected
  | FTRUNCATE =>
      exact ends_bind fun _ hhandle => ends_bind fun _ _ =>
        ends_bind fun _ hfildes => namedBy_fildes hhandle hfildes rfl rfl
  | LSEEK =>
      exact ends_bind fun _ hhandle => ends_bind fun _ _ =>
        ends_bind fun _ _ => ends_bind fun _ hfildes =>
          namedBy_fildes hhandle hfildes rfl rfl
  | READ =>
      exact ends_bind fun _ hhandle => ends_bind fun _ _ => ends_ite
        (fun _ => ends_bind fun _ hfildes =>
          namedBy_fildes hhandle hfildes rfl rfl)
        fun _ => hrejected
  | WRITE =>
      refine ends_bind fun _ hhandle => ends_ite
        (fun _ => ends_bind fun _ hthrow => by cases hthrow) fun _ => ?_
      refine ends_bind fun _ _ => ends_ite (fun _ => ?_) fun _ => hrejected
      refine ends_bind fun _ _ => ends_ite
        (fun _ => ends_bind fun _ hthrow => by cases hthrow) fun _ => ?_
      exact ends_bind fun _ hfildes =>
        namedBy_fildes hhandle hfildes rfl rfl

theorem FunctionCode.ofByte?_eq_some {code : UInt8} {function : FunctionCode}
    (hcode : FunctionCode.ofByte? code = some function) :
    code = function.byte := by
  unfold FunctionCode.ofByte? at hcode
  split at hcode <;> cases hcode
  all_goals
    apply UInt8.toNat.inj
    assumption

/-- A call decoded from a payload is one of the payload's function code, and
names the descriptor `INT_MAX - handle`. -/
theorem decode_namedBy {malloc : Malloc} {payload : List UInt8}
    {call : LibCall} (hdecode : decode malloc payload = .ok (some call)) :
    payload.head? = some call.code.byte ∧
      ∀ fildes, call.fildes? = some fildes →
        ∃ handle, wordAt 32 payload 1 = .ok handle ∧
          intMaxMinus handle = .ok fildes := by
  cases payload with
  | nil => cases hdecode
  | cons code rest =>
      simp only [decode] at hdecode
      split at hdecode
      · next function hcode =>
        obtain ⟨hfunction, hfildes⟩ :=
          decodeFunction_namedBy malloc function _ _ hdecode
        rw [FunctionCode.ofByte?_eq_some hcode, hfunction]
        refine ⟨rfl, ?_⟩
        rw [← FunctionCode.ofByte?_eq_some hcode]
        exact hfildes
      · cases hdecode

/-! ## What a step can do -/

/-- The three kinds of system calls: an `open` that succeeds, a `close` of an
open descriptor, and those that leave the table as it is. -/
theorem FileServer.perform_cases {server next : FileServer} {thread : ℕ}
    {call : LibCall} {granted : Option ℕ} {acted : Option (ℕ × Entry)}
    (hperform : server.perform thread call granted = some (next, acted)) :
    (∃ fildes, call.code = .OPEN ∧ granted = some fildes ∧
      server.free fildes = true ∧
      next = server.touch fildes (some (.file thread)) ∧ acted = none) ∨
    (∃ fildes entry, call = .close fildes ∧
      server.table fildes.toNat = some entry ∧
      next = server.touch fildes.toNat none ∧
      acted = some (fildes.toNat, entry)) ∨
    (next = server ∧
      (acted = call.fildes?.bind fun fildes =>
        (server.table fildes.toNat).map fun entry => (fildes.toNat, entry)) ∧
      (call.code = .OPEN → granted = none) ∧
      ∀ fildes, call = .close fildes →
        server.table fildes.toNat = none) := by
  cases call with
  | openCall path oflag mode =>
      simp only [FileServer.perform] at hperform
      cases granted with
      | none =>
          cases hperform
          exact .inr (.inr ⟨rfl, rfl, fun _ => rfl, nofun⟩)
      | some fildes =>
          simp only at hperform
          split at hperform
          · next hfree =>
            cases hperform
            exact .inl ⟨fildes, rfl, rfl, hfree, rfl, rfl⟩
          · cases hperform
  | close fildes =>
      simp only [FileServer.perform] at hperform
      split at hperform
      · next hclosed =>
        cases hperform
        refine .inr (.inr ⟨rfl, by simp [LibCall.fildes?, hclosed],
          nofun, fun closing hclose => ?_⟩)
        cases hclose
        exact hclosed
      · next entry hopen =>
        cases hperform
        exact .inr (.inl ⟨fildes, entry, rfl, hopen, rfl, rfl⟩)
  | truncate path length | stat path | rename old new | unlink path =>
      cases hperform
      exact .inr (.inr ⟨rfl, rfl, nofun, nofun⟩)
  | read fildes nbyte | write fildes buf | lseek fildes offset whence
  | ftruncate fildes length | fstat fildes | fsync fildes =>
      simp only [FileServer.perform, LibCall.fildes?] at hperform
      refine .inr (.inr ?_)
      split at hperform
      · next hclosed =>
        cases hperform
        exact ⟨rfl, by simp [LibCall.fildes?, hclosed], nofun, nofun⟩
      · next entry hopen =>
        cases hperform
        exact ⟨rfl, by simp [LibCall.fildes?, hopen], nofun, nofun⟩

inductive FileServer.Steps (server : FileServer) :
    TableEvent → FileServer → Prop
  | accepted {socket : ℕ} {payload : List UInt8} :
      server.free socket = true →
      server.Steps (.accept socket payload)
        { server.touch socket (some (.connection server.threads.length)) with
          threads := server.threads ++ [⟨payload, socket, .serving⟩] }
  | rejected {index : ℕ} {malloc : Malloc} {granted : Option ℕ}
      {payload : List UInt8} {socket : ℕ} :
      server.threads[index]? = some ⟨payload, socket, .serving⟩ →
      decode malloc payload = .ok none →
      server.Steps (.execute index malloc granted)
        (server.setPhase index (.executed none))
  | executed {index : ℕ} {malloc : Malloc} {granted : Option ℕ}
      {payload : List UInt8} {socket : ℕ} {call : LibCall}
      {next : FileServer} {acted : Option (ℕ × Entry)} :
      server.threads[index]? = some ⟨payload, socket, .serving⟩ →
      decode malloc payload = .ok (some call) →
      server.perform index call granted = some (next, acted) →
      server.Steps (.execute index malloc granted)
        (next.setPhase index (.executed acted))
  | closed {index : ℕ} {payload : List UInt8} {socket : ℕ}
      {acted : Option (ℕ × Entry)} :
      server.threads[index]? = some ⟨payload, socket, .executed acted⟩ →
      server.Steps (.leave index true)
        ((server.touch socket none).setPhase index .ended)
  | leaked {index : ℕ} {payload : List UInt8} {socket : ℕ}
      {acted : Option (ℕ × Entry)} :
      server.threads[index]? = some ⟨payload, socket, .executed acted⟩ →
      server.Steps (.leave index false) (server.setPhase index .ended)

theorem FileServer.steps_of_step {server next : FileServer}
    {event : TableEvent} (hstep : server.step event = some next) :
    server.Steps event next := by
  cases event with
  | accept socket payload =>
      simp only [FileServer.step, FileServer.accept] at hstep
      split at hstep
      · next hfree =>
        cases hstep
        exact .accepted hfree
      · cases hstep
  | execute index malloc granted =>
      simp only [FileServer.step, FileServer.execute] at hstep
      split at hstep
      · next payload socket hthread =>
        split at hstep
        · cases hstep
        · next hdecode =>
          cases hstep
          exact .rejected hthread hdecode
        · next call hdecode =>
          split at hstep
          · cases hstep
          · next middle acted hperform =>
            cases hstep
            exact .executed hthread hdecode hperform
      · cases hstep
  | leave index closes =>
      simp only [FileServer.step, FileServer.leave] at hstep
      split at hstep
      · next payload socket acted hthread =>
        cases closes with
        | true =>
            cases hstep
            exact .closed hthread
        | false =>
            cases hstep
            exact .leaked hthread
      · cases hstep

/-! ## The table is its history -/

def replay (start : ℕ → Option Entry) : List Touch → ℕ → Option Entry
  | [] => start
  | touch :: older =>
      Function.update (replay start older) touch.fildes touch.entry

theorem exists_touch_of_replay {start : ℕ → Option Entry}
    {history : List Touch} {fildes : ℕ} {entry : Entry}
    (hreplay : replay start history fildes = some entry)
    (hstart : start fildes ≠ some entry) :
    ∃ newer older, history = newer ++ ⟨fildes, some entry⟩ :: older ∧
      ∀ touch ∈ newer, touch.fildes ≠ fildes := by
  induction history with
  | nil => exact absurd hreplay hstart
  | cons touch rest ih =>
      obtain ⟨touched, touchedEntry⟩ := touch
      by_cases heq : touched = fildes
      · subst heq
        simp only [replay, Function.update_self] at hreplay
        subst hreplay
        exact ⟨[], rest, rfl, fun _ hmem => by cases hmem⟩
      · simp only [replay] at hreplay
        rw [Function.update_of_ne (Ne.symm heq)] at hreplay
        obtain ⟨newer, older, rfl, huntouched⟩ := ih hreplay
        refine ⟨⟨touched, touchedEntry⟩ :: newer, older, rfl, ?_⟩
        intro touch hmem
        rcases List.mem_cons.mp hmem with rfl | hmem
        · exact heq
        · exact huntouched touch hmem

/-- The table is what its history made of the first one, and only `OPEN`
requests made files. -/
structure FileServer.Recorded (start : ℕ → Option Entry)
    (server : FileServer) : Prop where
  table_eq : server.table = replay start server.history
  opened : ∀ touch ∈ server.history, ∀ index : ℕ,
    touch.entry = some (.file index) →
      ∃ thread, server.threads[index]? = some thread ∧
        thread.payload.head? = some FunctionCode.OPEN.byte

theorem FileServer.getElem?_setPhase (server : FileServer) (index : ℕ)
    (phase : Phase) (other : ℕ) :
    (server.setPhase index phase).threads[other]? =
      (server.threads[other]?).map fun thread =>
        if index = other then { thread with phase := phase } else thread := by
  simp only [FileServer.setPhase, List.getElem?_modify]
  by_cases heq : index = other
  · simp [heq]
  · simp [heq]

/-- A change of phase keeps every thread, and all of it but the phase. -/
theorem FileServer.exists_after_setPhase {server : FileServer} {i : ℕ}
    {thread : Thread} (hthread : server.threads[i]? = some thread)
    (index : ℕ) (phase : Phase) :
    ∃ next, (server.setPhase index phase).threads[i]? = some next ∧
      next.payload = thread.payload ∧ next.socket = thread.socket ∧
      next.phase = if index = i then phase else thread.phase := by
  refine ⟨_, by rw [FileServer.getElem?_setPhase, hthread]; rfl, ?_⟩
  by_cases hsame : index = i
  · simp [hsame]
  · simp [hsame]

theorem FileServer.exists_before_setPhase {server : FileServer}
    {index i : ℕ} {phase : Phase} {next : Thread}
    (hnext : (server.setPhase index phase).threads[i]? = some next) :
    ∃ thread, server.threads[i]? = some thread ∧
      next.payload = thread.payload ∧ next.socket = thread.socket ∧
      next.phase = if index = i then phase else thread.phase := by
  rw [FileServer.getElem?_setPhase, Option.map_eq_some_iff] at hnext
  obtain ⟨thread, hthread, rfl⟩ := hnext
  refine ⟨thread, hthread, ?_⟩
  by_cases hsame : index = i
  · simp [hsame]
  · simp [hsame]

theorem FileServer.Recorded.touch {start : ℕ → Option Entry}
    {server : FileServer} (hinv : server.Recorded start) {fildes : ℕ}
    {entry : Option Entry}
    (hentry : ∀ index : ℕ, entry = some (.file index) →
      ∃ thread, server.threads[index]? = some thread ∧
        thread.payload.head? = some FunctionCode.OPEN.byte) :
    (server.touch fildes entry).Recorded start := by
  refine ⟨?_, fun touch hmem index hfile => ?_⟩
  · simp only [FileServer.touch, replay, hinv.table_eq]
  · rcases List.mem_cons.mp hmem with rfl | hmem
    · exact hentry index hfile
    · exact hinv.opened touch hmem index hfile

theorem FileServer.Recorded.setPhase {start : ℕ → Option Entry}
    {server : FileServer} (hinv : server.Recorded start) (index : ℕ)
    (phase : Phase) :
    (server.setPhase index phase).Recorded start := by
  refine ⟨hinv.table_eq, fun touch hmem opener hfile => ?_⟩
  obtain ⟨thread, hthread, hpayload⟩ := hinv.opened touch hmem opener hfile
  obtain ⟨next, hnext, hsame, _⟩ :=
    FileServer.exists_after_setPhase hthread index phase
  rw [← hsame] at hpayload
  exact ⟨next, hnext, hpayload⟩

theorem FileServer.Recorded.step {start : ℕ → Option Entry}
    {server next : FileServer} {event : TableEvent}
    (hinv : server.Recorded start) (hstep : server.step event = some next) :
    next.Recorded start := by
  cases FileServer.steps_of_step hstep with
  | @accepted socket payload hfree =>
      have htouch := @FileServer.Recorded.touch start server hinv socket
        (some (.connection server.threads.length))
        fun _ hfile => by cases hfile
      refine ⟨htouch.table_eq, fun touch hmem index hfile => ?_⟩
      obtain ⟨thread, hthread, hpayload⟩ :=
        htouch.opened touch hmem index hfile
      exact ⟨thread, getElem?_append_left_of_some hthread, hpayload⟩
  | rejected hthread hdecode => exact hinv.setPhase _ _
  | @executed index malloc granted payload socket call middle acted hthread
      hdecode hperform =>
      rcases FileServer.perform_cases hperform with
        ⟨fildes, hcode, _, _, rfl, _⟩ | ⟨fildes, entry, _, _, rfl, _⟩ |
        ⟨rfl, _⟩
      · refine (hinv.touch fun opener hfile => ?_).setPhase _ _
        cases hfile
        have hhead := (decode_namedBy hdecode).1
        rw [hcode] at hhead
        exact ⟨_, hthread, hhead⟩
      · exact (hinv.touch fun opener hfile => by cases hfile).setPhase _ _
      · exact hinv.setPhase _ _
  | closed hthread =>
      exact (hinv.touch fun opener hfile => by cases hfile).setPhase _ _
  | leaked hthread => exact hinv.setPhase _ _

/-! ## Confinement -/

/-- An earlier `OPEN` request made the descriptor, and nothing has closed it
since. -/
def FileServer.Issued (server : FileServer) (fildes : ℕ) : Prop :=
  ∃ index newer older,
    server.history = newer ++ ⟨fildes, some (.file index)⟩ :: older ∧
    (∀ touch ∈ newer, touch.fildes ≠ fildes) ∧
    ∃ thread, server.threads[index]? = some thread ∧
      thread.payload.head? = some FunctionCode.OPEN.byte

def Entry.isOwn : Entry → Bool
  | .file _ => false
  | _ => true

theorem FileServer.Recorded.issued_or_own {inherited : ℕ → Bool}
    {serverSocket : ℕ} {server : FileServer}
    (hinv : server.Recorded
      (FileServer.initial inherited serverSocket).table)
    {fildes : ℕ} {entry : Entry}
    (hopen : server.table fildes = some entry) :
    server.Issued fildes ∨ entry.isOwn = true := by
  cases entry with
  | file index =>
      have hstart : (FileServer.initial inherited serverSocket).table fildes ≠
          some (.file index) := by
        simp only [FileServer.initial]
        split
        · simp
        · split <;> simp
      rw [hinv.table_eq] at hopen
      obtain ⟨newer, older, hhistory, huntouched⟩ :=
        exists_touch_of_replay hopen hstart
      refine .inl ⟨index, newer, older, hhistory, huntouched, ?_⟩
      refine hinv.opened ⟨fildes, some (.file index)⟩ ?_ index rfl
      rw [hhistory]
      exact List.mem_append_right _ (List.mem_cons_self ..)
  | inherited => exact .inr rfl
  | listening => exact .inr rfl
  | connection thread => exact .inr rfl

/-- What a descriptor-based request can reach: the descriptor `INT_MAX - h` of
its handle and no other.  If that is not open, the call fails and nothing
changes; if it is, an earlier `OPEN` handed it out and it has not been closed
since, or it is one of the server's own. -/
structure Confined (server next : FileServer) (index : ℕ) (thread : Thread)
    (fildes : CInt) : Prop where
  named : ∃ handle, wordAt 32 thread.payload 1 = .ok handle ∧
    fildes = INT_MAX - handle
  others : ∀ other ≠ fildes.toNat, next.table other = server.table other
  unopened : server.table fildes.toNat = none →
    next.table = server.table ∧
      next.threads[index]? = some { thread with phase := .executed none }
  opened : ∀ entry, server.table fildes.toNat = some entry →
    next.threads[index]? = some { thread with
        phase := .executed (some (fildes.toNat, entry)) } ∧
      (server.Issued fildes.toNat ∨ entry.isOwn = true)

theorem FileServer.run_confined {inherited : ℕ → Bool} {serverSocket : ℕ}
    {events : List TableEvent} {server next : FileServer}
    (hrun : Run FileServer.step anyEvent
      (FileServer.initial inherited serverSocket) events server)
    {index : ℕ} {malloc : Malloc} {granted : Option ℕ}
    (hstep : server.step (.execute index malloc granted) = some next)
    {thread : Thread} (hthread : server.threads[index]? = some thread)
    {call : LibCall}
    (hdecode : decode malloc thread.payload = .ok (some call))
    {fildes : CInt} (hfildes : call.fildes? = some fildes) :
    Confined server next index thread fildes := by
  have hrecorded : server.Recorded
      (FileServer.initial inherited serverSocket).table :=
    hrun.invariant (fun _ _ _ hinv _ hstep => hinv.step hstep)
      ⟨rfl, fun _ hmem => by cases hmem⟩
  obtain ⟨handle, hhandle, hdifference⟩ :=
    (decode_namedBy hdecode).2 fildes hfildes
  have hnamed : ∃ handle, wordAt 32 thread.payload 1 = .ok handle ∧
      fildes = INT_MAX - handle :=
    ⟨handle, hhandle, (intMaxMinus_eq_ok_iff.mp hdifference).2.symm⟩
  cases FileServer.steps_of_step hstep with
  | rejected hthread' hdecode' =>
      rw [hthread, Option.some.injEq] at hthread'
      subst hthread'
      rw [hdecode] at hdecode'
      cases hdecode'
  | @executed _ _ _ payload socket call' middle acted hthread' hdecode'
      hperform =>
      rw [hthread, Option.some.injEq] at hthread'
      subst hthread'
      rw [hdecode, Except.ok.injEq, Option.some.injEq] at hdecode'
      subst hdecode'
      rcases FileServer.perform_cases hperform with
        ⟨_, hcode, _⟩ | ⟨closing, entry, rfl, hopen, rfl, rfl⟩ |
        ⟨rfl, rfl, _⟩
      · cases call <;> simp_all [LibCall.code, LibCall.fildes?]
      · simp only [LibCall.fildes?, Option.some.injEq] at hfildes
        subst hfildes
        refine ⟨hnamed, fun other hother => ?_, fun hnone => ?_,
          fun entry' hentry => ?_⟩
        · exact Function.update_of_ne hother _ _
        · rw [hnone] at hopen
          cases hopen
        · rw [hopen, Option.some.injEq] at hentry
          subst hentry
          refine ⟨?_, hrecorded.issued_or_own hopen⟩
          rw [FileServer.getElem?_setPhase]
          simp [FileServer.touch, hthread]
      · refine ⟨hnamed, fun _ _ => rfl, fun hnone => ⟨rfl, ?_⟩,
          fun entry hentry => ⟨?_, hrecorded.issued_or_own hentry⟩⟩
        · rw [FileServer.getElem?_setPhase, hthread]
          simp [hfildes, hnone]
        · rw [FileServer.getElem?_setPhase, hthread]
          simp [hfildes, hentry]

def freshServer : FileServer :=
  FileServer.initial (fun fildes => decide (fildes < 3)) 3

/-- An `OPEN` request for `a`, granted descriptor 5, and the arrival of a
`CLOSE` request for the handle `INT_MAX - 5`. -/
def openThenClose : List TableEvent :=
  [.accept 4 [0, 0x61, 0, 2, 0, 0, 0], .execute 0 amplestMalloc (some 5),
    .accept 6 [1, 0xfa, 0xff, 0xff, 0x7f]]

theorem run_confined_close :
    ∃ server next thread, Run FileServer.step anyEvent freshServer
        openThenClose server ∧
      server.step (.execute 1 amplestMalloc none) = some next ∧
      server.table 5 = some (.file 0) ∧ next.table 5 = none ∧
      Confined server next 1 thread 5 := by
  obtain ⟨server, next, thread, hexec, hstep, hthread, hdecode, hbefore,
    hafter⟩ : ∃ server next thread,
      execute FileServer.step anyEvent freshServer openThenClose =
        some server ∧
      server.step (.execute 1 amplestMalloc none) = some next ∧
      server.threads[1]? = some thread ∧
      decode amplestMalloc thread.payload = .ok (some (.close 5)) ∧
      server.table 5 = some (.file 0) ∧ next.table 5 = none :=
    ⟨_, _, _, rfl, rfl, rfl, rfl, rfl, rfl⟩
  have hrun := run_of_execute hexec
  exact ⟨server, next, thread, hrun, hstep, hbefore, hafter,
    FileServer.run_confined hrun hstep hthread hdecode rfl⟩

/-- A `CLOSE` request for the handle `INT_MAX - 3`, which no `OPEN` handed
out, closes the listening socket. -/
theorem close_reaches_listening_socket :
    ∃ server next, Run FileServer.step anyEvent freshServer
        [.accept 4 [1, 0xfc, 0xff, 0xff, 0x7f]] server ∧
      server.step (.execute 0 amplestMalloc none) = some next ∧
      ¬server.Issued 3 ∧ server.table 3 = some .listening ∧
      next.table 3 = none := by
  obtain ⟨server, next, hexec, hstep, hhistory, hbefore, hafter⟩ :
      ∃ server next, execute FileServer.step anyEvent freshServer
          [.accept 4 [1, 0xfc, 0xff, 0xff, 0x7f]] = some server ∧
        server.step (.execute 0 amplestMalloc none) = some next ∧
        server.history = [⟨4, some (.connection 0)⟩] ∧
        server.table 3 = some .listening ∧ next.table 3 = none :=
    ⟨_, _, rfl, rfl, rfl, rfl, rfl⟩
  refine ⟨server, next, run_of_execute hexec, hstep, ?_, hbefore, hafter⟩
  rintro ⟨index, newer, older, hsplit, _⟩
  have hmem : (⟨3, some (.file index)⟩ : Touch) ∈ server.history := by
    rw [hsplit]
    exact List.mem_append_right _ (List.mem_cons_self ..)
  rw [hhistory, List.mem_singleton] at hmem
  cases hmem

end TestRpc
