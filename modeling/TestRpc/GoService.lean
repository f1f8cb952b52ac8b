import TestRpc.GoPrograms
import TestRpc.Linearizability

/-!
# Many clients of the Go server

Any number of clients call the methods of `Receiver`, and every call runs in a
goroutine of its own.  A step is the start of a call, one call of the package
`os`, one access to `files` or the return.
The clients are asked to use only descriptors of their own, and the goroutines
to run in an order in which no `Open` stores its file in the moment in which a
`Close` of the same number has closed its file and has not deleted the entry
yet.
-/

namespace TestRpc

open BlockCopies Programs StreamReceive TransitionRuns Linearizability

namespace Go

/-! ## The calls of the package -/

section Execute

variable {σ : Type} (package : OsPackage σ)

/-- A call of the package and what the method replies. -/
def OsPackage.replyOf (os : σ) (call : OsCall) (reply : call.Value → Reply) :
    Option Reply × σ :=
  let result := package.exec call os
  (result.1.map reply, result.2)

/-- A method of `file`, which does nothing for a nil pointer. -/
def OsPackage.replyOn (os : σ) (file : Option ℕ) (call : ℕ → OsCall)
    (reply : (file : ℕ) → (call file).Value → Reply) : Option Reply × σ :=
  match file with
  | none => (none, os)
  | some file => package.replyOf os (call file) (reply file)

/-- What a method of `Receiver` does to the operating system once it has
looked up its file. -/
def FileCall.execute (file : Option ℕ) (os : σ) :
    FileCall (BitVec 64) → Option Reply × σ
  | .openCall args =>
      let result := package.openFile (Receiver.openFile args) os
      (result.1.map fun file => .number (package.fd result.2 file), result.2)
  | .close _ => package.replyOn os file .close fun _ _ => .nothing
  | .read _ nbyte =>
      let made := List.replicate nbyte.toNat 0
      package.replyOn os file (.read · nbyte.toNat) fun _ data =>
        let buf := fillFront made data.1
        .buffer buf.length buf
  | .write _ buf => package.replyOn os file (.write · buf) fun _ => .number
  | .lseek _ offset whence =>
      package.replyOn os file (.seek · offset whence) fun _ => .number
  | .truncate path length =>
      package.replyOf os (.truncate path length) fun _ => .nothing
  | .ftruncate _ length =>
      package.replyOn os file (.fileTruncate · length) fun _ _ => .nothing
  | .size path =>
      package.replyOf os (.stat path) fun info => .number info.size
  | .lastModifiedTime path =>
      package.replyOf os (.stat path) fun info => .number info.modTime
  | .fsync _ => package.replyOn os file .sync fun _ _ => .nothing
  | .rename old new =>
      package.replyOf os (.rename old new) fun _ => .nothing
  | .unlink path => package.replyOf os (.remove path) fun _ => .nothing

/-- `make` does not panic. -/
def FileCall.allocates {η : Type} (heap : Heap) : FileCall η → Bool
  | .read _ nbyte =>
      decide (0 ≤ nbyte.toInt) && heap.serves nbyte.toNat
  | _ => true

/-- The descriptor that a call closes. -/
def FileCall.closed? {η : Type} : FileCall η → Option η
  | .close fildes => some fildes
  | _ => none

/-- The descriptor that a call uses and leaves open. -/
def FileCall.used? {η : Type} : FileCall η → Option η
  | .close _ => none
  | call => call.fildes?

/-- The files are known by the numbers that they have while they are open. -/
def byNumber {package : OsPackage σ} (files : package.OpenFiles) :
    Specification σ (FileCall (BitVec 64)) (Option Reply) :=
  fun os call reply next =>
    match call.fildes? with
    | none => call.execute package none os = (reply, next)
    | some fildes => ∃ file, files.isOpen os file ∧
        package.fd os file = fildes ∧
        call.execute package (some file) os = (reply, next)

end Execute

section Alone

variable {σ : Type} {package : OsPackage σ} {heap : Heap}

theorem Served.openCall_execute (served : Served σ) (args : OpenArgs) :
    ((served.openCall package args).1.map Reply.number,
        (served.openCall package args).2.os) =
      (FileCall.openCall args).execute package none served.os := by
  rw [Served.openCall, FileCall.execute]
  rcases package.openFile (Receiver.openFile args) served.os with
    ⟨_ | file, os⟩ <;> rfl

/-- A client that is alone with the server sees the same. -/
theorem Client.call_execute (client : Client σ) {call : FileCall ℕ}
    (hopen : ∀ args, call ≠ .openCall args) {own : FileCall (BitVec 64)}
    (hown : own = call.map fun number => client.opened.getD number 0) :
    (client.call package heap call).map
        (fun result => (result.1, result.2.served.os)) =
      if own.allocates heap then
        some (own.execute package (own.fildes?.bind client.served.files)
          client.served.os)
      else
        none := by
  subst hown
  cases call with
  | openCall args => exact absurd rfl (hopen args)
  | read number nbyte =>
      rw [Client.call, FileCall.map]
      simp only [Served.read, FileCall.allocates, Bool.and_eq_true,
        decide_eq_true_eq, FileCall.fildes?, Option.bind_some]
      by_cases hallocates : 0 ≤ nbyte.toInt ∧ heap.serves nbyte.toNat = true
      · rw [if_pos hallocates, if_pos hallocates]
        generalize client.opened.getD number 0 = fildes
        cases hfile : client.served.files fildes with
        | none =>
            simp only [Served.onFile, hfile, FileCall.execute,
              OsPackage.replyOn, Option.map_some, Option.map_none]
        | some file =>
            simp only [Served.onFile, hfile, FileCall.execute,
              OsPackage.replyOn, OsPackage.replyOf, Option.map_some,
              Option.map_map]
            rfl
      · rw [if_neg hallocates, if_neg hallocates]
        rfl
  | close number | write number | lseek number | ftruncate number
  | fsync number =>
      simp only [Client.call, FileCall.map, Served.close, Served.write,
        Served.lseek, Served.ftruncate, Served.fsync, FileCall.allocates,
        FileCall.fildes?, Option.bind_some, if_true]
      generalize client.opened.getD number 0 = fildes
      cases hfile : client.served.files fildes <;>
        simp only [Served.onFile, hfile, FileCall.execute, OsPackage.replyOn,
          OsPackage.replyOf, Option.map_some, Option.map_none]
  | truncate | size | lastModifiedTime | rename | unlink =>
      simp only [Client.call, FileCall.map, Served.truncate, Served.size,
        Served.lastModifiedTime, Served.rename, Served.unlink, Served.onPath,
        FileCall.allocates, FileCall.execute, OsPackage.replyOf, if_true,
        Option.map_some, Option.map_map, Function.comp_def]

end Alone

/-! ## States and steps -/

/-- How far a call has come.  `live` of an `Open` that has returned says that
its client has not started to close the descriptor. -/
inductive Stage
  | started
  | found (file : Option ℕ)
  | opened (file : ℕ)
  | stored (file : ℕ)
  | openReturned (fd : BitVec 64) (live : Bool)
  | released (reply : Option Reply)
  | executed (reply : Option Reply)
  | returned (reply : Option Reply)
  deriving DecidableEq

structure Running where
  client : ℕ
  call : FileCall (BitVec 64)
  stage : Stage

structure RpcServer (σ : Type) where
  os : σ
  files : BitVec 64 → Option ℕ
  calls : List Running
  history : List (Act (FileCall (BitVec 64)) (Option Reply))

def RpcServer.initial {σ : Type} (os : σ) : RpcServer σ where
  os := os
  files := fun _ => none
  calls := []
  history := []

inductive RpcEvent
  | start (client : ℕ) (call : FileCall (BitVec 64))
  | advance (index : ℕ)

/-- A client that starts to close a descriptor gives it up. -/
def Running.noteStart (client : ℕ) (call : FileCall (BitVec 64))
    (running : Running) : Running :=
  match call.closed?, running.stage with
  | some fildes, .openReturned fd live =>
      let given := running.client == client && fd == fildes
      { running with stage := .openReturned fd (live && !given) }
  | _, _ => running

section Steps

variable {σ : Type} (package : OsPackage σ) (heap : Heap)
  (server : RpcServer σ)

def RpcServer.setStage (index : ℕ) (running : Running) (stage : Stage) :
    RpcServer σ :=
  { server with
    calls := server.calls.set index { running with stage := stage } }

def RpcServer.start (client : ℕ) (call : FileCall (BitVec 64)) :
    RpcServer σ :=
  { server with
    calls := server.calls.map (Running.noteStart client call) ++
      [⟨client, call, .started⟩]
    history := server.history ++ [.invoke server.calls.length call] }

/-- Where a call stands after its call of the package. -/
def FileCall.stageAfter (file : Option ℕ) (os : σ)
    (call : FileCall (BitVec 64)) : Stage :=
  match call with
  | .openCall args =>
      match (package.openFile (Receiver.openFile args) os).1 with
      | none => .executed none
      | some file => .opened file
  | .close _ => .released (call.execute package file os).1
  | _ => .executed (call.execute package file os).1

def RpcServer.make (index : ℕ) (running : Running) (file : Option ℕ) :
    RpcServer σ :=
  { server.setStage index running
      (running.call.stageAfter package file server.os) with
    os := (running.call.execute package file server.os).2 }

def RpcServer.respond (index : ℕ) (running : Running) (stage : Stage)
    (reply : Option Reply) : RpcServer σ :=
  { server.setStage index running stage with
    history := server.history ++ [.respond index reply] }

def RpcServer.advance (index : ℕ) : Option (RpcServer σ) :=
  match server.calls[index]? with
  | none => none
  | some running =>
      match running.stage, running.call.fildes? with
      | .started, none => some (server.make package index running none)
      | .started, some fildes =>
          some (server.setStage index running
            (.found (server.files fildes)))
      | .found file, some _ =>
          -- `make` comes after the lookup, and its panic ends the server
          if running.call.allocates heap then
            some (server.make package index running file)
          else
            none
      | .opened file, _ =>
          -- `files[file.Fd()] = file`
          some { server.setStage index running (.stored file) with
            files := Function.update server.files
              (package.fd server.os file) (some file) }
      | .stored file, _ =>
          -- `file.Fd()` is asked a second time for the reply
          let fd := package.fd server.os file
          some (server.respond index running (.openReturned fd true)
            (some (.number fd)))
      | .released reply, some fildes =>
          some { server.setStage index running (.executed reply) with
            files := Function.update server.files fildes none }
      | .executed reply, _ =>
          some (server.respond index running (.returned reply) reply)
      | _, _ => none

def RpcServer.step : RpcEvent → Option (RpcServer σ)
  | .start client call => some (server.start client call)
  | .advance index => server.advance package heap index

end Steps

/-! ## What is asked of the clients -/

/-- Whether the client has the result of the call. -/
def Stage.isOver : Stage → Bool
  | .openReturned _ _ => true
  | .returned _ => true
  | _ => false

/-- The file of an `Open` that has yet to store it. -/
def Stage.toStore : Stage → Option ℕ
  | .opened file => some file
  | _ => none

/-- The key that a `Close` has yet to delete, its file being closed. -/
def Running.toDelete (running : Running) : Option (BitVec 64) :=
  match running.stage with
  | .released _ => running.call.fildes?
  | _ => none

section Runs

variable {σ : Type}

/-- Clients use descriptors that an `Open` of their own has returned, and
close them when no other call of theirs uses them.  No `Open` stores its file
under a key that a `Close` is about to delete. -/
def RpcServer.Disciplined (package : OsPackage σ) (server : RpcServer σ) :
    RpcEvent → Prop
  | .start client call =>
      (∀ fildes ∈ call.fildes?, ∃ running ∈ server.calls,
        running.client = client ∧
          running.stage = .openReturned fildes true) ∧
      ∀ fildes ∈ call.closed?, ∀ running ∈ server.calls,
        running.client = client → running.call.fildes? = some fildes →
        running.stage.isOver = true
  | .advance index =>
      ∀ running ∈ server.calls[index]?, ∀ file ∈ running.stage.toStore,
        ∀ other ∈ server.calls,
          other.toDelete ≠ some (package.fd server.os file)

instance RpcServer.decidableDisciplined (package : OsPackage σ)
    (server : RpcServer σ) :
    ∀ event, Decidable (server.Disciplined package event)
  | .start _ call =>
      -- the general instance would try all the numbers
      @instDecidableAnd _ _ (Option.decidableForallMem call.fildes?)
        (Option.decidableForallMem call.closed?)
  | .advance index =>
      inferInstanceAs (Decidable (∀ running ∈ server.calls[index]?,
        ∀ file ∈ running.stage.toStore, ∀ other ∈ server.calls,
          other.toDelete ≠ some (package.fd server.os file)))

variable {package : OsPackage σ}

/-! ## What a step does -/

theorem FileCall.closed_or_used {η : Type} {call : FileCall η} {fildes : η}
    (hfildes : call.fildes? = some fildes) :
    call.closed? = some fildes ∨ call.used? = some fildes := by
  cases call with
  | close other => exact .inl hfildes
  | _ => exact .inr hfildes

theorem FileCall.fildes_of_closed {η : Type} {call : FileCall η}
    {fildes : η} (hclosed : call.closed? = some fildes) :
    call.fildes? = some fildes := by
  cases call with
  | close other => exact hclosed
  | _ => cases hclosed

theorem FileCall.fildes_of_used {η : Type} {call : FileCall η}
    {fildes : η} (hused : call.used? = some fildes) :
    call.fildes? = some fildes ∧ call.closed? = none := by
  cases call with
  | close other => cases hused
  | _ => exact ⟨hused, rfl⟩

/-- Only a live descriptor that its client starts to close is touched. -/
theorem Running.noteStart_cases (client : ℕ) (call : FileCall (BitVec 64))
    (running : Running) :
    running.noteStart client call = running ∨
      ∃ fd, call.closed? = some fd ∧ running.client = client ∧
        running.stage = .openReturned fd true ∧
        running.noteStart client call =
          { running with stage := .openReturned fd false } := by
  obtain ⟨owner, own, stage⟩ := running
  unfold Running.noteStart
  cases hclosed : call.closed? with
  | none => exact .inl rfl
  | some fildes =>
      cases stage with
      | openReturned fd live =>
          by_cases hgiven : owner = client ∧ fd = fildes
          · obtain ⟨rfl, rfl⟩ := hgiven
            cases live with
            | false => exact .inl rfl
            | true => exact .inr ⟨fd, rfl, rfl, rfl, by simp⟩
          · left
            have hkept : (owner == client && fd == fildes) = false := by
              simpa using hgiven
            simp [hkept]
      | _ => exact .inl rfl

theorem Running.noteStart_eq {client : ℕ} {call : FileCall (BitVec 64)}
    {running : Running}
    (hstage : ∀ fd, (running.noteStart client call).stage ≠
      .openReturned fd false) :
    running.noteStart client call = running := by
  rcases running.noteStart_cases client call with
    hsame | ⟨fd, _, _, _, hnew⟩
  · exact hsame
  · rw [hnew] at hstage
    exact absurd rfl (hstage fd)

theorem RpcServer.start_calls {server : RpcServer σ} {client : ℕ}
    {call : FileCall (BitVec 64)} {i : ℕ} {running : Running}
    (hi : (server.start client call).calls[i]? = some running) :
    (∃ before, server.calls[i]? = some before ∧
        running = before.noteStart client call) ∨
      i = server.calls.length ∧ running = ⟨client, call, .started⟩ := by
  rcases getElem?_append_singleton hi with hold | ⟨hlast, rfl⟩
  · rw [List.getElem?_map, Option.map_eq_some_iff] at hold
    obtain ⟨before, hbefore, rfl⟩ := hold
    exact .inl ⟨before, hbefore, rfl⟩
  · rw [List.length_map] at hlast
    exact .inr ⟨hlast, rfl⟩

theorem RpcServer.mem_start {server : RpcServer σ} {client : ℕ}
    {call : FileCall (BitVec 64)} {running : Running}
    (hmem : running ∈ (server.start client call).calls) :
    (∃ before ∈ server.calls, running = before.noteStart client call) ∨
      running = ⟨client, call, .started⟩ := by
  obtain ⟨i, hi⟩ := List.getElem?_of_mem hmem
  rcases RpcServer.start_calls hi with ⟨before, hbefore, hnote⟩ | ⟨_, hnew⟩
  · exact .inl ⟨before, List.mem_of_getElem? hbefore, hnote⟩
  · exact .inr hnew

theorem RpcServer.noteStart_mem {server : RpcServer σ} {client : ℕ}
    {call : FileCall (BitVec 64)} {running : Running}
    (hmem : running ∈ server.calls)
    (hsame : running.noteStart client call = running) :
    running ∈ (server.start client call).calls := by
  apply List.mem_append_left
  rw [← hsame]
  exact List.mem_map_of_mem hmem

/-- The steps of a call that runs. -/
inductive RpcServer.Advances (package : OsPackage σ) (heap : Heap)
    (server : RpcServer σ) (index : ℕ) (running : Running) :
    RpcServer σ → Prop
  | call (hstage : running.stage = .started)
      (hfildes : running.call.fildes? = none) :
      Advances package heap server index running
        (server.make package index running none)
  | find {fildes : BitVec 64} (hstage : running.stage = .started)
      (hfildes : running.call.fildes? = some fildes) :
      Advances package heap server index running
        (server.setStage index running (.found (server.files fildes)))
  | callFound {file : Option ℕ} {fildes : BitVec 64}
      (hstage : running.stage = .found file)
      (hfildes : running.call.fildes? = some fildes) :
      Advances package heap server index running
        (server.make package index running file)
  | store {file : ℕ} (hstage : running.stage = .opened file) :
      Advances package heap server index running
        { server.setStage index running (.stored file) with
          files := Function.update server.files
            (package.fd server.os file) (some file) }
  | returnNumber {file : ℕ} (hstage : running.stage = .stored file) :
      Advances package heap server index running
        (server.respond index running
          (.openReturned (package.fd server.os file) true)
          (some (.number (package.fd server.os file))))
  | delete {reply : Option Reply} {fildes : BitVec 64}
      (hstage : running.stage = .released reply)
      (hfildes : running.call.fildes? = some fildes) :
      Advances package heap server index running
        { server.setStage index running (.executed reply) with
          files := Function.update server.files fildes none }
  | respond {reply : Option Reply} (hstage : running.stage = .executed reply) :
      Advances package heap server index running
        (server.respond index running (.returned reply) reply)

theorem RpcServer.advance_cases {heap : Heap} {server next : RpcServer σ}
    {index : ℕ} (hadvance : server.advance package heap index = some next) :
    ∃ running, server.calls[index]? = some running ∧
      server.Advances package heap index running next := by
  unfold RpcServer.advance at hadvance
  cases hindex : server.calls[index]? with
  | none => simp [hindex] at hadvance
  | some running =>
      refine ⟨running, rfl, ?_⟩
      simp only [hindex] at hadvance
      cases hstage : running.stage with
      | started =>
          cases hfildes : running.call.fildes? with
          | none =>
              simp only [hstage, hfildes, Option.some.injEq] at hadvance
              exact hadvance ▸ .call hstage hfildes
          | some fildes =>
              simp only [hstage, hfildes, Option.some.injEq] at hadvance
              exact hadvance ▸ .find hstage hfildes
      | found file =>
          cases hfildes : running.call.fildes? with
          | none => simp [hstage, hfildes] at hadvance
          | some fildes =>
              simp only [hstage, hfildes] at hadvance
              by_cases hallocates : running.call.allocates heap = true
              · rw [if_pos hallocates, Option.some.injEq] at hadvance
                exact hadvance ▸ .callFound hstage hfildes
              · rw [if_neg hallocates] at hadvance
                cases hadvance
      | opened file =>
          simp only [hstage, Option.some.injEq] at hadvance
          exact hadvance ▸ .store hstage
      | stored file =>
          simp only [hstage, Option.some.injEq] at hadvance
          exact hadvance ▸ .returnNumber hstage
      | released reply =>
          cases hfildes : running.call.fildes? with
          | none => simp [hstage, hfildes] at hadvance
          | some fildes =>
              simp only [hstage, hfildes, Option.some.injEq] at hadvance
              exact hadvance ▸ .delete hstage hfildes
      | executed reply =>
          simp only [hstage, Option.some.injEq] at hadvance
          exact hadvance ▸ .respond hstage
      | openReturned fd live => simp [hstage] at hadvance
      | returned reply => simp [hstage] at hadvance

theorem RpcServer.Advances.not_live {heap : Heap}
    {server next : RpcServer σ} {index : ℕ} {running : Running}
    (hadvances : server.Advances package heap index running next) :
    ∀ fd, running.stage ≠ .openReturned fd true := by
  intro fd hlive
  cases hadvances with
  | call hstage | find hstage | callFound hstage | store hstage
  | returnNumber hstage | delete hstage | respond hstage =>
      rw [hlive] at hstage
      cases hstage

/-- Where a call stands after its call of the package. -/
theorem FileCall.stageAfter_cases (package : OsPackage σ)
    (file : Option ℕ) (os : σ) (call : FileCall (BitVec 64)) :
    (∃ args own, call = .openCall args ∧
        (package.openFile (Receiver.openFile args) os).1 = some own ∧
        call.stageAfter package file os = .opened own) ∨
      (∃ fildes, call = .close fildes ∧
        call.stageAfter package file os =
          .released (call.execute package file os).1) ∨
      call.stageAfter package file os =
        .executed (call.execute package file os).1 := by
  cases call with
  | openCall args =>
      cases hopen : (package.openFile (Receiver.openFile args) os).1 with
      | none =>
          right
          right
          simp only [FileCall.stageAfter, FileCall.execute, hopen,
            Option.map_none]
      | some own =>
          exact .inl ⟨args, own, rfl, hopen, by
            simp only [FileCall.stageAfter, hopen]⟩
  | close fildes => exact .inr (.inl ⟨fildes, rfl, rfl⟩)
  | _ => exact .inr (.inr rfl)

end Runs

end Go

end TestRpc
