import TestRpc.DescriptorTable

/-!
# Live handles across clients

Clients that use only handles which their own `open` calls returned and which
they have not closed, on the shared descriptor table of the server.  The
invariant partitions the table: the listening socket, the connection of every
handler that has not ended, and one file for every live handle.
-/

namespace TestRpc

open TransitionRuns LittleEndian BlockCopies StreamReceive

/-! ## Handles -/

/-- A handle is held by its client until the client asks to close it, and
lives until a handler executes that request. -/
inductive HandleStatus
  | held
  | closing (thread : ℕ)
  | closed
  deriving DecidableEq

/-- A handle that the handler `opener` made for a client. -/
structure Handle where
  opener : ℕ
  client : ℕ
  handle : CInt
  status : HandleStatus
  deriving DecidableEq

def Handle.live (record : Handle) : Bool :=
  decide (record.status ≠ .closed)

def Handle.fildes (record : Handle) : ℕ :=
  (INT_MAX - record.handle).toNat

def Handle.requested (client : ℕ) (call : LibCall) (thread : ℕ)
    (record : Handle) : Handle :=
  if record.status = .held ∧ record.client = client ∧
      call = .close record.handle then
    { record with status := .closing thread }
  else
    record

def Handle.executed (thread : ℕ) (record : Handle) : Handle :=
  if record.status = .closing thread then
    { record with status := .closed }
  else
    record

/-- The server with its clients: who made which call, by handler, and the
handles made so far. -/
structure Clients where
  server : FileServer
  calls : List (ℕ × LibCall)
  handles : List Handle

def Clients.initial (inherited : ℕ → Bool) (serverSocket : ℕ) : Clients where
  server := FileServer.initial inherited serverSocket
  calls := []
  handles := []

inductive ClientEvent
  | request (client socket : ℕ) (call : LibCall)
  | execute (thread : ℕ) (malloc : Malloc) (granted : Option ℕ)
  | leave (thread : ℕ) (closes : Bool)

def madeHandle (thread client : ℕ) (call : LibCall) (granted : Option ℕ) :
    List Handle :=
  match call, granted with
  | .openCall _ _ _, some fildes =>
      [⟨thread, client, handedOut (BitVec.ofNat 32 fildes), .held⟩]
  | _, _ => []

def Clients.step (clients : Clients) : ClientEvent → Option Clients
  | .request client socket call =>
      match clients.server.accept socket call.transmitted.payload with
      | none => none
      | some server =>
          some ⟨server, clients.calls ++ [(client, call)],
            clients.handles.map (Handle.requested client call
              clients.server.threads.length)⟩
  | .execute thread malloc granted =>
      match clients.server.execute thread malloc granted,
          clients.calls[thread]? with
      | some server, some (client, call) =>
          some ⟨server, clients.calls,
            clients.handles.map (Handle.executed thread) ++
              madeHandle thread client call granted⟩
      | _, _ => none
  | .leave thread closes =>
      match clients.server.leave thread closes with
      | none => none
      | some server => some { clients with server := server }

/-- Clients call the stubs, with handles that their own `open` calls returned
and that they have not closed since. -/
def Disciplined (clients : Clients) : ClientEvent → Prop
  | .request client _ call =>
      call.Sendable ∧ ∀ handle, call.fildes? = some handle →
        ∃ record ∈ clients.handles, record.client = client ∧
          record.handle = handle ∧ record.status = .held
  | _ => True

/-! ## The invariant -/

/-- The partition of the table, and what handlers and handles owe to each
other. -/
structure Clients.Sound (serverSocket : ℕ) (clients : Clients) : Prop where
  calls_length : clients.calls.length = clients.server.threads.length
  payloads : ∀ (i client : ℕ) (call : LibCall),
    clients.calls[i]? = some (client, call) → call.Sendable ∧
      ∃ thread, clients.server.threads[i]? = some thread ∧
        thread.payload = call.transmitted.payload
  listening : clients.server.table serverSocket = some .listening
  sockets : ∀ (i : ℕ) (thread : Thread),
    clients.server.threads[i]? = some thread → thread.phase ≠ .ended →
      clients.server.table thread.socket = some (.connection i)
  remote : ∀ record ∈ clients.handles, isRemoteFildes record.handle = true
  files : ∀ record ∈ clients.handles, record.live = true →
    clients.server.table record.fildes = some (.file record.opener)
  openers : (clients.handles.map Handle.opener).Nodup
  opened : ∀ record ∈ clients.handles, ∃ thread,
    clients.server.threads[record.opener]? = some thread ∧
      thread.phase ≠ .serving
  closing : ∀ record ∈ clients.handles, ∀ i : ℕ,
    record.status = .closing i → ∃ thread client,
      clients.server.threads[i]? = some thread ∧ thread.phase = .serving ∧
        clients.calls[i]? = some (client, .close record.handle)
  closers : ∀ (i client : ℕ) (thread : Thread) (handle : CInt),
    clients.server.threads[i]? = some thread → thread.phase = .serving →
    clients.calls[i]? = some (client, .close handle) →
      ∃ record ∈ clients.handles, record.status = .closing i ∧
        record.handle = handle

theorem Clients.initial_sound (inherited : ℕ → Bool) (serverSocket : ℕ) :
    (Clients.initial inherited serverSocket).Sound serverSocket where
  calls_length := rfl
  payloads := fun _ _ _ hcall => by cases hcall
  listening := if_pos rfl
  sockets := fun _ _ hthread => by cases hthread
  remote := fun _ hmem => by cases hmem
  files := fun _ hmem => by cases hmem
  openers := List.nodup_nil
  opened := fun _ hmem => by cases hmem
  closing := fun _ hmem => by cases hmem
  closers := fun _ _ _ _ hthread => by cases hthread

/-! ### Changes of the table -/

theorem FileServer.touch_of_ne {server : FileServer} {fildes other : ℕ}
    {entry : Option Entry} (hne : other ≠ fildes) :
    (server.touch fildes entry).table other = server.table other :=
  Function.update_of_ne hne _ _

theorem FileServer.touch_self (server : FileServer) (fildes : ℕ)
    (entry : Option Entry) :
    (server.touch fildes entry).table fildes = entry :=
  Function.update_self ..

theorem FileServer.touch_free {server : FileServer} {fildes other : ℕ}
    {entry : Option Entry} {present : Entry}
    (hfree : server.free fildes = true)
    (hopen : server.table other = some present) :
    (server.touch fildes entry).table other = some present := by
  have hne : other ≠ fildes := by
    rintro rfl
    simp [FileServer.free, hopen] at hfree
  rw [FileServer.touch_of_ne hne, hopen]

theorem FileServer.touch_of_entry_ne {server : FileServer}
    {fildes other : ℕ} {entry : Option Entry} {before present : Entry}
    (hbefore : server.table fildes = some before)
    (hopen : server.table other = some present) (hne : present ≠ before) :
    (server.touch fildes entry).table other = some present := by
  have hother : other ≠ fildes := by
    rintro rfl
    rw [hopen, Option.some.injEq] at hbefore
    exact hne hbefore
  rw [FileServer.touch_of_ne hother, hopen]

/-- The handles that `OPEN` makes are remote and resolve to the descriptor
they were made for. -/
theorem handedOut_of_le {fildes : ℕ} (hle : fildes ≤ maxFildes) :
    isRemoteFildes (handedOut (BitVec.ofNat 32 fildes)) = true ∧
      (INT_MAX - handedOut (BitVec.ofNat 32 fildes)).toNat = fildes := by
  have hmax : maxFildes = 1073741823 := by decide
  rw [hmax] at hle
  have hnat : (BitVec.ofNat 32 fildes : CInt).toNat = fildes := by
    rw [BitVec.toNat_ofNat, Nat.mod_eq_of_lt (by omega)]
  have hint : 0 ≤ (BitVec.ofNat 32 fildes : CInt).toInt := by
    rw [BitVec.toInt_eq_toNat_cond, hnat]
    split <;> omega
  have hintMax : INT_MAX.toNat = 2147483647 := by decide
  have hhandle : (handedOut (BitVec.ofNat 32 fildes)).toNat =
      2147483647 - fildes := by
    rw [handedOut, if_pos hint, BitVec.toNat_sub, hnat, hintMax]
    omega
  constructor
  · rw [isRemoteFildes_iff, hhandle]
    omega
  · rw [BitVec.toNat_sub, hhandle, hintMax]
    omega

/-! ### Changes of the handles -/

@[simp] theorem Handle.requested_opener (client : ℕ) (call : LibCall)
    (thread : ℕ) (record : Handle) :
    (record.requested client call thread).opener = record.opener := by
  unfold Handle.requested
  split <;> rfl

theorem Handle.map_opener_requested (client : ℕ) (call : LibCall)
    (thread : ℕ) (handles : List Handle) :
    (handles.map (Handle.requested client call thread)).map Handle.opener =
      handles.map Handle.opener := by
  simp

@[simp] theorem Handle.requested_handle (client : ℕ) (call : LibCall)
    (thread : ℕ) (record : Handle) :
    (record.requested client call thread).handle = record.handle := by
  unfold Handle.requested
  split <;> rfl

@[simp] theorem Handle.requested_fildes (client : ℕ) (call : LibCall)
    (thread : ℕ) (record : Handle) :
    (record.requested client call thread).fildes = record.fildes := by
  simp only [Handle.fildes, Handle.requested_handle]

theorem Handle.live_of_requested {client : ℕ} {call : LibCall} {thread : ℕ}
    {record : Handle}
    (hlive : (record.requested client call thread).live = true) :
    record.live = true := by
  unfold Handle.requested at hlive
  split at hlive
  · next hheld => simp [Handle.live, hheld.1]
  · exact hlive

theorem Handle.requested_closing {client : ℕ} {call : LibCall}
    {thread i : ℕ} {record : Handle}
    (hclosing : (record.requested client call thread).status = .closing i) :
    record.status = .closing i ∨ i = thread ∧ call = .close record.handle := by
  unfold Handle.requested at hclosing
  split at hclosing
  · next hheld =>
    cases hclosing
    exact .inr ⟨rfl, hheld.2.2⟩
  · exact .inl hclosing

theorem Handle.requested_of_closing {client : ℕ} {call : LibCall}
    {thread i : ℕ} {record : Handle} (hclosing : record.status = .closing i) :
    record.requested client call thread = record := by
  simp [Handle.requested, hclosing]

@[simp] theorem Handle.executed_opener (thread : ℕ) (record : Handle) :
    (record.executed thread).opener = record.opener := by
  unfold Handle.executed
  split <;> rfl

theorem Handle.map_opener_executed (thread : ℕ) (handles : List Handle) :
    (handles.map (Handle.executed thread)).map Handle.opener =
      handles.map Handle.opener := by
  simp

@[simp] theorem Handle.executed_handle (thread : ℕ) (record : Handle) :
    (record.executed thread).handle = record.handle := by
  unfold Handle.executed
  split <;> rfl

@[simp] theorem Handle.executed_fildes (thread : ℕ) (record : Handle) :
    (record.executed thread).fildes = record.fildes := by
  simp only [Handle.fildes, Handle.executed_handle]

theorem Handle.live_of_executed {thread : ℕ} {record : Handle}
    (hlive : (record.executed thread).live = true) :
    record.live = true ∧ record.status ≠ .closing thread := by
  unfold Handle.executed at hlive
  split at hlive
  · simp [Handle.live] at hlive
  · next hother => exact ⟨hlive, hother⟩

theorem Handle.executed_closing {thread i : ℕ} {record : Handle}
    (hclosing : (record.executed thread).status = .closing i) :
    record.status = .closing i ∧ i ≠ thread := by
  unfold Handle.executed at hclosing
  split at hclosing
  · cases hclosing
  · next hother =>
    refine ⟨hclosing, ?_⟩
    rintro rfl
    exact hother hclosing

theorem Handle.executed_of_ne {thread : ℕ} {record : Handle}
    (hother : record.status ≠ .closing thread) :
    record.executed thread = record :=
  if_neg hother

/-! ### Requests -/

theorem Clients.Sound.request {serverSocket : ℕ} {clients : Clients}
    (hinv : clients.Sound serverSocket) {client socket : ℕ} {call : LibCall}
    (hsend : call.Sendable)
    (hholds : ∀ handle, call.fildes? = some handle →
      ∃ record ∈ clients.handles, record.client = client ∧
        record.handle = handle ∧ record.status = .held)
    (hfree : clients.server.free socket = true) :
    Clients.Sound serverSocket
      ⟨{ clients.server.touch socket
            (some (.connection clients.server.threads.length)) with
          threads := clients.server.threads ++
            [⟨call.transmitted.payload, socket, .serving⟩] },
        clients.calls ++ [(client, call)],
        clients.handles.map (Handle.requested client call
          clients.server.threads.length)⟩ where
  calls_length := by simp [hinv.calls_length]
  payloads := by
    intro i owner made hmade
    rcases getElem?_append_singleton hmade with hold | ⟨rfl, hnew⟩
    · obtain ⟨hmadeSend, thread, hthread, hpayload⟩ :=
        hinv.payloads i owner made hold
      exact ⟨hmadeSend, thread, getElem?_append_left_of_some hthread,
        hpayload⟩
    · cases hnew
      refine ⟨hsend, ⟨_, socket, .serving⟩, ?_, rfl⟩
      rw [hinv.calls_length]
      exact List.getElem?_concat_length
  listening := FileServer.touch_free hfree hinv.listening
  sockets := by
    intro i thread hthread hphase
    rcases getElem?_append_singleton hthread with hold | ⟨rfl, rfl⟩
    · exact FileServer.touch_free hfree (hinv.sockets i thread hold hphase)
    · exact FileServer.touch_self _ _ _
  remote := by
    intro record hmem
    obtain ⟨before, hbefore, rfl⟩ := List.mem_map.mp hmem
    rw [Handle.requested_handle]
    exact hinv.remote before hbefore
  files := by
    intro record hmem hlive
    obtain ⟨before, hbefore, rfl⟩ := List.mem_map.mp hmem
    rw [Handle.requested_fildes, Handle.requested_opener]
    have hfile :=
      hinv.files before hbefore (Handle.live_of_requested hlive)
    generalize before.fildes = fildes at hfile ⊢
    exact FileServer.touch_free hfree hfile
  openers := by
    rw [Handle.map_opener_requested]
    exact hinv.openers
  opened := by
    intro record hmem
    obtain ⟨before, hbefore, rfl⟩ := List.mem_map.mp hmem
    rw [Handle.requested_opener]
    obtain ⟨thread, hthread, hphase⟩ := hinv.opened before hbefore
    exact ⟨thread, getElem?_append_left_of_some hthread, hphase⟩
  closing := by
    intro record hmem i hclosing
    obtain ⟨before, hbefore, rfl⟩ := List.mem_map.mp hmem
    rw [Handle.requested_handle]
    rcases Handle.requested_closing hclosing with hold | ⟨rfl, rfl⟩
    · obtain ⟨thread, owner, hthread, hphase, hcall⟩ :=
        hinv.closing before hbefore i hold
      exact ⟨thread, owner, getElem?_append_left_of_some hthread, hphase,
        getElem?_append_left_of_some hcall⟩
    · refine ⟨_, client, List.getElem?_concat_length, rfl, ?_⟩
      rw [← hinv.calls_length]
      exact List.getElem?_concat_length
  closers := by
    intro i owner thread handle hthread hphase hcall
    rcases getElem?_append_singleton hcall with hold | ⟨rfl, hnew⟩
    · rcases getElem?_append_singleton hthread with hthread | ⟨rfl, _⟩
      · obtain ⟨record, hmem, hclosing, hhandle⟩ :=
          hinv.closers i owner thread handle hthread hphase hold
        refine ⟨record, List.mem_map.mpr ⟨record, hmem, ?_⟩, hclosing,
          hhandle⟩
        exact Handle.requested_of_closing hclosing
      · have hlt := (List.getElem?_eq_some_iff.mp hold).1
        rw [hinv.calls_length] at hlt
        omega
    · cases hnew
      obtain ⟨record, hmem, rfl, rfl, hheld⟩ := hholds handle rfl
      refine ⟨_, List.mem_map.mpr ⟨record, hmem, rfl⟩, ?_,
        Handle.requested_handle _ _ _ _⟩
      simp [Handle.requested, hheld, hinv.calls_length]

/-! ### Executions and ends of handlers -/

/-- A handler gets on to its next phase, with a change of the table that
leaves the listening socket, the connections of the handlers that have not
ended, and the files of the handles that stay live. -/
theorem Clients.Sound.advance {serverSocket : ℕ} {clients : Clients}
    (hinv : clients.Sound serverSocket) {server : FileServer} {index : ℕ}
    {thread : Thread} {phase : Phase}
    (hthread : clients.server.threads[index]? = some thread)
    (hphase : phase ≠ .serving) (hthreads : server.threads =
      (clients.server.setPhase index phase).threads)
    (hlistening : server.table serverSocket = some .listening)
    (hsockets : ∀ (i : ℕ) (other : Thread),
      clients.server.threads[i]? = some other → other.phase ≠ .ended →
      (i = index → phase ≠ .ended) →
        server.table other.socket = some (.connection i))
    (hfiles : ∀ record ∈ clients.handles, record.live = true →
      record.status ≠ .closing index →
        server.table record.fildes = some (.file record.opener))
    (hended : thread.phase = .ended → phase = .ended) :
    Clients.Sound serverSocket ⟨server, clients.calls,
      clients.handles.map (Handle.executed index)⟩ := by
  constructor
  case calls_length =>
    rw [hthreads]
    simpa [FileServer.setPhase] using hinv.calls_length
  case payloads =>
    intro i client call hcall
    obtain ⟨hsend, other, hother, hpayload⟩ := hinv.payloads i client call hcall
    obtain ⟨next, hnext, hsame, _⟩ :=
      FileServer.exists_after_setPhase hother index phase
    rw [hthreads]
    exact ⟨hsend, next, hnext, hsame.trans hpayload⟩
  case listening => exact hlistening
  case sockets =>
    intro i next hnext hrunning
    rw [hthreads] at hnext
    obtain ⟨other, hother, _, hsocket, hnextPhase⟩ :=
      FileServer.exists_before_setPhase hnext
    rw [hsocket]
    rw [hnextPhase] at hrunning
    by_cases heq : index = i
    · subst heq
      rw [if_pos rfl] at hrunning
      rw [hthread, Option.some.injEq] at hother
      subst hother
      exact hsockets index thread hthread (fun h => hrunning (hended h))
        fun _ => hrunning
    · rw [if_neg heq] at hrunning
      exact hsockets i other hother hrunning fun h => absurd h.symm heq
  case remote =>
    intro record hmem
    obtain ⟨before, hbefore, rfl⟩ := List.mem_map.mp hmem
    rw [Handle.executed_handle]
    exact hinv.remote before hbefore
  case files =>
    intro record hmem hlive
    obtain ⟨before, hbefore, rfl⟩ := List.mem_map.mp hmem
    obtain ⟨hlive, hother⟩ := Handle.live_of_executed hlive
    rw [Handle.executed_fildes, Handle.executed_opener]
    exact hfiles before hbefore hlive hother
  case openers =>
    rw [Handle.map_opener_executed]
    exact hinv.openers
  case opened =>
    intro record hmem
    obtain ⟨before, hbefore, rfl⟩ := List.mem_map.mp hmem
    rw [Handle.executed_opener]
    obtain ⟨other, hother, hserved⟩ := hinv.opened before hbefore
    obtain ⟨next, hnext, _, _, hnextPhase⟩ :=
      FileServer.exists_after_setPhase hother index phase
    rw [hthreads]
    refine ⟨next, hnext, ?_⟩
    rw [hnextPhase]
    split
    · exact hphase
    · exact hserved
  case closing =>
    intro record hmem i hclosing
    obtain ⟨before, hbefore, rfl⟩ := List.mem_map.mp hmem
    obtain ⟨hclosing, hne⟩ := Handle.executed_closing hclosing
    rw [Handle.executed_handle]
    obtain ⟨other, client, hother, hserving, hcall⟩ :=
      hinv.closing before hbefore i hclosing
    obtain ⟨next, hnext, _, _, hnextPhase⟩ :=
      FileServer.exists_after_setPhase hother index phase
    rw [if_neg (Ne.symm hne)] at hnextPhase
    rw [hthreads]
    exact ⟨next, client, hnext, hnextPhase.trans hserving, hcall⟩
  case closers =>
    intro i client next handle hnext hserving hcall
    rw [hthreads] at hnext
    obtain ⟨other, hother, _, _, hnextPhase⟩ :=
      FileServer.exists_before_setPhase hnext
    have hne : index ≠ i := by
      rintro rfl
      rw [if_pos rfl] at hnextPhase
      exact hphase (hnextPhase.symm.trans hserving)
    rw [if_neg hne] at hnextPhase
    obtain ⟨record, hmem, hclosing, hhandle⟩ := hinv.closers i client other
      handle hother (hnextPhase.symm.trans hserving) hcall
    refine ⟨record, List.mem_map.mpr ⟨record, hmem, ?_⟩, hclosing, hhandle⟩
    apply Handle.executed_of_ne
    rw [hclosing]
    simpa using Ne.symm hne

theorem Clients.Sound.addHandle {serverSocket : ℕ} {server : FileServer}
    {calls : List (ℕ × LibCall)} {handles : List Handle}
    (hinv : Clients.Sound serverSocket ⟨server, calls, handles⟩)
    {record : Handle} (hremote : isRemoteFildes record.handle = true)
    (hfile : server.table record.fildes = some (.file record.opener))
    (hfresh : record.opener ∉ handles.map Handle.opener)
    (hheld : record.status = .held) {thread : Thread}
    (hthread : server.threads[record.opener]? = some thread)
    (hphase : thread.phase ≠ .serving) :
    Clients.Sound serverSocket ⟨server, calls, handles ++ [record]⟩ := by
  refine ⟨hinv.calls_length, hinv.payloads, hinv.listening, hinv.sockets,
    ?_, ?_, ?_, ?_, ?_, ?_⟩
  · intro other hmem
    rcases List.mem_append.mp hmem with hold | hnew
    · exact hinv.remote other hold
    · rw [List.mem_singleton.mp hnew]
      exact hremote
  · intro other hmem hlive
    rcases List.mem_append.mp hmem with hold | hnew
    · exact hinv.files other hold hlive
    · rw [List.mem_singleton.mp hnew]
      exact hfile
  · rw [List.map_append, List.nodup_append]
    refine ⟨hinv.openers, List.nodup_singleton _, ?_⟩
    rintro opener hold _ hnew rfl
    rw [List.map_singleton, List.mem_singleton] at hnew
    exact hfresh (hnew ▸ hold)
  · intro other hmem
    rcases List.mem_append.mp hmem with hold | hnew
    · exact hinv.opened other hold
    · rw [List.mem_singleton.mp hnew]
      exact ⟨thread, hthread, hphase⟩
  · intro other hmem i hclosing
    rcases List.mem_append.mp hmem with hold | hnew
    · exact hinv.closing other hold i hclosing
    · rw [List.mem_singleton.mp hnew, hheld] at hclosing
      cases hclosing
  · intro i client other handle hother hserving hcall
    obtain ⟨closing, hmem, hstatus, hhandle⟩ :=
      hinv.closers i client other handle hother hserving hcall
    exact ⟨closing, List.mem_append_left _ hmem, hstatus, hhandle⟩

theorem LibCall.code_onServer (call : LibCall) :
    call.transmitted.onServer.code = call.code := by
  cases call <;>
    simp only [LibCall.transmitted, LibCall.onServer, LibCall.code]

theorem LibCall.close_of_onServer {call : LibCall} {fildes : CInt}
    (hclose : call.transmitted.onServer = .close fildes) :
    ∃ handle, call = .close handle ∧ fildes = INT_MAX - handle := by
  cases call with
  | close handle =>
      simp only [LibCall.transmitted, LibCall.onServer,
        LibCall.close.injEq] at hclose
      exact ⟨handle, rfl, hclose.symm⟩
  | _ => cases hclose

theorem madeHandle_eq_nil {thread client : ℕ} {call : LibCall}
    {granted : Option ℕ} (hnot : call.code = .OPEN → granted = none) :
    madeHandle thread client call granted = [] := by
  cases call with
  | openCall path oflag mode =>
      rw [hnot rfl]
      rfl
  | _ => rfl

theorem Clients.Sound.not_mem_openers {serverSocket : ℕ} {clients : Clients}
    (hinv : clients.Sound serverSocket) {index : ℕ} {thread : Thread}
    (hthread : clients.server.threads[index]? = some thread)
    (hserving : thread.phase = .serving) :
    index ∉ clients.handles.map Handle.opener := by
  intro hmem
  obtain ⟨record, hrecord, rfl⟩ := List.mem_map.mp hmem
  obtain ⟨other, hother, hserved⟩ := hinv.opened record hrecord
  rw [hthread, Option.some.injEq] at hother
  exact hserved (hother ▸ hserving)

theorem Clients.Sound.eq_of_opener_eq {serverSocket : ℕ} {clients : Clients}
    (hinv : clients.Sound serverSocket) {left right : Handle}
    (hleft : left ∈ clients.handles) (hright : right ∈ clients.handles)
    (hopener : left.opener = right.opener) :
    left = right :=
  List.inj_on_of_nodup_map hinv.openers hleft hright hopener

/-- Executing a `CLOSE` request takes the file of its own handle from the
table and of no other. -/
theorem Clients.Sound.files_of_close {serverSocket : ℕ} {clients : Clients}
    (hinv : clients.Sound serverSocket) {index client : ℕ} {thread : Thread}
    {handle : CInt}
    (hthread : clients.server.threads[index]? = some thread)
    (hserving : thread.phase = .serving)
    (hcall : clients.calls[index]? = some (client, .close handle)) :
    ∃ opener, clients.server.table (INT_MAX - handle).toNat =
        some (.file opener) ∧
      ∀ record ∈ clients.handles, record.live = true →
        record.status ≠ .closing index →
          clients.server.table record.fildes = some (.file record.opener) ∧
            record.opener ≠ opener := by
  obtain ⟨closing, hmem, hstatus, rfl⟩ :=
    hinv.closers index client thread handle hthread hserving hcall
  have hlive : closing.live = true := by simp [Handle.live, hstatus]
  refine ⟨closing.opener, hinv.files closing hmem hlive,
    fun record hrecord hrecordLive hother =>
      ⟨hinv.files record hrecord hrecordLive, fun hopener => ?_⟩⟩
  have hsame := hinv.eq_of_opener_eq hrecord hmem hopener
  exact hother (hsame ▸ hstatus)

theorem Clients.Sound.execute_open {serverSocket : ℕ} {clients : Clients}
    (hinv : clients.Sound serverSocket) {index fildes : ℕ} {thread : Thread}
    (hthread : clients.server.threads[index]? = some thread)
    (hserving : thread.phase = .serving)
    (hfree : clients.server.free fildes = true) (client : ℕ) {call : LibCall}
    (hcode : call.code = .OPEN) :
    Clients.Sound serverSocket
      ⟨(clients.server.touch fildes (some (.file index))).setPhase index
          (.executed none),
        clients.calls, clients.handles.map (Handle.executed index) ++
          madeHandle index client call (some fildes)⟩ := by
  have hserved : Phase.executed none ≠ .serving := by simp
  have hle : fildes ≤ maxFildes := by
    simp only [FileServer.free, Bool.and_eq_true, decide_eq_true_eq] at hfree
    exact hfree.2
  obtain ⟨hremote, hresolves⟩ := handedOut_of_le hle
  let server := (clients.server.touch fildes
    (some (.file index))).setPhase index (.executed none)
  have hadvanced : Clients.Sound serverSocket ⟨server, clients.calls,
      clients.handles.map (Handle.executed index)⟩ := by
    refine hinv.advance hthread hserved rfl
      (FileServer.touch_free hfree hinv.listening)
      (fun i other hother hrunning _ =>
        FileServer.touch_free hfree (hinv.sockets i other hother hrunning))
      (fun record hmem hlive _ => ?_) (by simp [hserving])
    have hfile := hinv.files record hmem hlive
    generalize record.fildes = present at hfile ⊢
    exact FileServer.touch_free hfree hfile
  have hafter : server.threads[index]? =
      some { thread with phase := .executed none } := by
    rw [FileServer.getElem?_setPhase]
    simp only [FileServer.touch, hthread, Option.map_some, if_true]
  cases call with
  | openCall path oflag mode =>
      refine hadvanced.addHandle hremote ?_ ?_ rfl hafter hserved
      · rw [Handle.fildes, hresolves]
        exact FileServer.touch_self _ _ _
      · rw [Handle.map_opener_executed]
        exact hinv.not_mem_openers hthread hserving
  | _ => cases hcode

theorem Clients.Sound.execute {serverSocket : ℕ} {clients : Clients}
    (hinv : clients.Sound serverSocket) {index : ℕ} {malloc : Malloc}
    {granted : Option ℕ} {server : FileServer}
    (hstep : clients.server.step (.execute index malloc granted) =
      some server)
    {client : ℕ} {call : LibCall}
    (hcall : clients.calls[index]? = some (client, call)) :
    Clients.Sound serverSocket ⟨server, clients.calls,
      clients.handles.map (Handle.executed index) ++
        madeHandle index client call granted⟩ := by
  obtain ⟨hsend, thread, hthread, hpayload⟩ :=
    hinv.payloads index client call hcall
  have hserved : ∀ acted, Phase.executed acted ≠ .serving := fun _ => by simp
  have hdecodes := decode_payload hsend malloc
  rw [← hpayload] at hdecodes
  cases FileServer.steps_of_step hstep with
  | @rejected _ _ _ payload socket hserving hdecode =>
      rw [hthread, Option.some.injEq] at hserving
      subst hserving
      -- Only a request that needs a buffer is rejected, and no `OPEN` does.
      have hnot : call.code = .OPEN → granted = none := by
        intro hcode
        rw [hdecode] at hdecodes
        cases call <;> cases hcode
        simp [Malloc.servesFor, LibCall.handlerBuf] at hdecodes
      rw [madeHandle_eq_nil hnot, List.append_nil]
      exact hinv.advance hthread (hserved none) rfl hinv.listening
        (fun i other hother hrunning _ => hinv.sockets i other hother hrunning)
        (fun record hmem hlive _ => hinv.files record hmem hlive) (by simp)
  | @executed _ _ _ payload socket made middle acted hserving hdecode
      hperform =>
      rw [hthread, Option.some.injEq] at hserving
      subst hserving
      rw [hdecode, Except.ok.injEq] at hdecodes
      have hmade : made = call.transmitted.onServer := by
        split at hdecodes
        · exact Option.some.inj hdecodes
        · cases hdecodes
      subst hmade
      rcases FileServer.perform_cases hperform with
        ⟨fildes, hcode, rfl, hfree, rfl, rfl⟩ |
        ⟨fildes, entry, hclose, hopen, rfl, rfl⟩ | ⟨rfl, _, hnot, _⟩
      · -- An `open` that the kernel grants.
        rw [LibCall.code_onServer] at hcode
        exact hinv.execute_open hthread rfl hfree client hcode
      · -- A `close`: it takes a file from the table.
        obtain ⟨handle, rfl, rfl⟩ := LibCall.close_of_onServer hclose
        obtain ⟨opener, hfile, hothers⟩ :=
          hinv.files_of_close hthread rfl hcall
        have hnone : madeHandle index client (.close handle) granted = [] := rfl
        rw [hnone, List.append_nil]
        generalize (INT_MAX - handle).toNat = closed at hfile ⊢
        refine hinv.advance hthread (hserved _) rfl
          (FileServer.touch_of_entry_ne hfile hinv.listening (by simp))
          (fun i other hother hrunning _ => FileServer.touch_of_entry_ne hfile
            (hinv.sockets i other hother hrunning) (by simp))
          (fun record hmem hlive hother => ?_) (by simp)
        obtain ⟨hrecord, hne⟩ := hothers record hmem hlive hother
        generalize record.fildes = present at hrecord ⊢
        exact FileServer.touch_of_entry_ne hfile hrecord (by simpa using hne)
      · rw [LibCall.code_onServer] at hnot
        rw [madeHandle_eq_nil hnot, List.append_nil]
        exact hinv.advance hthread (hserved acted) rfl hinv.listening
          (fun i other hother hrunning _ =>
            hinv.sockets i other hother hrunning)
          (fun record hmem hlive _ => hinv.files record hmem hlive) (by simp)

theorem Clients.Sound.map_executed {serverSocket : ℕ} {clients : Clients}
    (hinv : clients.Sound serverSocket) {index : ℕ} {thread : Thread}
    (hthread : clients.server.threads[index]? = some thread)
    (hserved : thread.phase ≠ .serving) :
    clients.handles.map (Handle.executed index) = clients.handles := by
  rw [List.map_congr_left (g := id), List.map_id]
  intro record hmem
  apply Handle.executed_of_ne
  intro hclosing
  obtain ⟨other, client, hother, hserving, _⟩ :=
    hinv.closing record hmem index hclosing
  rw [hthread, Option.some.injEq] at hother
  exact hserved (hother ▸ hserving)

theorem Clients.Sound.leave {serverSocket : ℕ} {clients : Clients}
    (hinv : clients.Sound serverSocket) {index : ℕ} {closes : Bool}
    {server : FileServer}
    (hstep : clients.server.step (.leave index closes) = some server) :
    Clients.Sound serverSocket { clients with server := server } := by
  have hended : Phase.ended ≠ .serving := by simp
  cases FileServer.steps_of_step hstep with
  | @closed _ payload socket acted hthread =>
      have hconnection := hinv.sockets index _ hthread (by simp)
      rw [← hinv.map_executed hthread (by simp)]
      refine hinv.advance hthread hended rfl
        (FileServer.touch_of_entry_ne hconnection hinv.listening (by simp))
        (fun i other hother hrunning hstays => ?_)
        (fun record hmem hlive _ => ?_) (by simp)
      · refine FileServer.touch_of_entry_ne hconnection
          (hinv.sockets i other hother hrunning) ?_
        intro hsame
        cases hsame
        exact hstays rfl rfl
      · have hfile := hinv.files record hmem hlive
        generalize record.fildes = present at hfile ⊢
        exact FileServer.touch_of_entry_ne hconnection hfile (by simp)
  | @leaked _ payload socket acted hthread =>
      rw [← hinv.map_executed hthread (by simp)]
      exact hinv.advance hthread hended rfl hinv.listening
        (fun i other hother hrunning _ => hinv.sockets i other hother hrunning)
        (fun record hmem hlive _ => hinv.files record hmem hlive) (by simp)

theorem Clients.Sound.step {serverSocket : ℕ} {clients next : Clients}
    {event : ClientEvent} (hinv : clients.Sound serverSocket)
    (hallowed : Disciplined clients event)
    (hstep : clients.step event = some next) :
    next.Sound serverSocket := by
  cases event with
  | request client socket call =>
      simp only [Clients.step] at hstep
      split at hstep
      · cases hstep
      · next server haccept =>
        cases hstep
        cases @FileServer.steps_of_step _ _
          (.accept socket call.transmitted.payload) haccept with
        | accepted hfree => exact hinv.request hallowed.1 hallowed.2 hfree
  | execute index malloc granted =>
      simp only [Clients.step] at hstep
      split at hstep
      · next server client call hexecute hcall =>
        cases hstep
        exact hinv.execute hexecute hcall
      · cases hstep
  | leave index closes =>
      simp only [Clients.step] at hstep
      split at hstep
      · cases hstep
      · next server hleave =>
        cases hstep
        exact hinv.leave hleave

/-! ## Live handles -/

/-- The live handles of all clients are pairwise distinct and remote, and each
resolves to the file that its `open` created, never to a socket. -/
structure Clients.HandlesSound (clients : Clients) : Prop where
  distinct :
    ((clients.handles.filter Handle.live).map Handle.handle).Nodup
  remote : ∀ record ∈ clients.handles, record.live = true →
    isRemoteFildes record.handle = true
  resolves : ∀ record ∈ clients.handles, record.live = true →
    clients.server.table record.fildes = some (.file record.opener)
  apart : ∀ record ∈ clients.handles, record.live = true →
    clients.server.table record.fildes ≠ some .listening ∧
      ∀ thread, clients.server.table record.fildes ≠
        some (.connection thread)

theorem Clients.Sound.handlesSound {serverSocket : ℕ} {clients : Clients}
    (hinv : clients.Sound serverSocket) :
    clients.HandlesSound := by
  refine ⟨?_, fun record hmem _ => hinv.remote record hmem, hinv.files,
    fun record hmem hlive => ?_⟩
  · refine List.Nodup.map_on ?_ (hinv.openers.of_map.filter _)
    intro left hleft right hright hhandle
    rw [List.mem_filter] at hleft hright
    have hfileLeft := hinv.files left hleft.1 hleft.2
    have hfileRight := hinv.files right hright.1 hright.2
    have hfildes : left.fildes = right.fildes := by
      rw [Handle.fildes, Handle.fildes, hhandle]
    rw [hfildes, hfileRight, Option.some.injEq, Entry.file.injEq] at hfileLeft
    exact hinv.eq_of_opener_eq hleft.1 hright.1 hfileLeft.symm
  · rw [hinv.files record hmem hlive]
    exact ⟨nofun, fun _ => nofun⟩

/-- In every run of clients that use only handles of their own `open` calls
which they have not closed, all live handles are sound in every state. -/
theorem Clients.run_handlesSound {inherited : ℕ → Bool} {serverSocket : ℕ}
    {events : List ClientEvent} {final : Clients}
    (hrun : Run Clients.step Disciplined
      (Clients.initial inherited serverSocket) events final) :
    final.HandlesSound :=
  (hrun.invariant
    (fun _ _ _ hinv hallowed hstep => hinv.step hallowed hstep)
    (Clients.initial_sound inherited serverSocket)).handlesSound

/-- Two clients open a file each, and the first one closes its own. -/
theorem run_handlesSound_two_clients :
    ∃ events final, Run Clients.step Disciplined
        (Clients.initial (fun fildes => decide (fildes < 3)) 3) events final ∧
      final.handles = [⟨0, 7, 0x7ffffffa, .closed⟩,
        ⟨1, 8, 0x7ffffff8, .held⟩] ∧
      final.HandlesSound := by
  have hopen : ∀ clients client socket, Disciplined clients (.request client
      socket (.openCall remoteA O_CREAT (some 0o644))) := by
    intro clients client socket
    exact ⟨⟨by decide, by decide, fun _ => rfl⟩, nofun⟩
  obtain ⟨events, opened, hrun, hhandles, hserver⟩ : ∃ events opened,
      Run Clients.step Disciplined
        (Clients.initial (fun fildes => decide (fildes < 3)) 3) events
        opened ∧
      opened.handles = [⟨0, 7, 0x7ffffffa, .held⟩,
        ⟨1, 8, 0x7ffffff8, .held⟩] ∧
      ∃ next final, opened.step (.request 7 8 (.close 0x7ffffffa)) =
          some next ∧
        next.step (.execute 2 amplestMalloc none) = some final ∧
        final.handles = [⟨0, 7, 0x7ffffffa, .closed⟩,
          ⟨1, 8, 0x7ffffff8, .held⟩] :=
    ⟨_, _, ((((Run.refl _).snoc (hopen _ 7 4) rfl).snoc
        (show Disciplined _ (.execute 0 amplestMalloc (some 5))
          from trivial) rfl).snoc (hopen _ 8 6) rfl).snoc
        (show Disciplined _ (.execute 1 amplestMalloc (some 7))
          from trivial) rfl, rfl, _, _, rfl, rfl, rfl⟩
  obtain ⟨next, final, hrequest, hexecute, hfinal⟩ := hserver
  have hclose : Disciplined opened (.request 7 8 (.close 0x7ffffffa)) := by
    refine ⟨show isRemoteFildes 0x7ffffffa = true by decide, ?_⟩
    intro handle hhandle
    cases hhandle
    refine ⟨⟨0, 7, 0x7ffffffa, .held⟩, ?_, rfl, rfl, rfl⟩
    rw [hhandles]
    exact List.mem_cons_self ..
  have hlast := (hrun.snoc hclose hrequest).snoc
    (show Disciplined _ (.execute 2 amplestMalloc none) from trivial) hexecute
  exact ⟨_, final, hlast, hfinal, Clients.run_handlesSound hlast⟩

end TestRpc
