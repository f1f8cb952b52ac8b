import TestRpc.ServerProcess

/-!
# How a peer can stop the server

A peer that resets its connection, or announces a size that `malloc` cannot
serve, ends the loop for all clients; so does one that has a handler close the
listening socket, or makes a handler take the process down.  One that sends
nothing keeps `main` waiting in `recv`, and one that keeps a handler from
returning keeps `main` waiting in `pthread_join`.  These are all: in every
other run the loop goes on, but for failures of `accept`, `pthread_create` and
`pthread_join`.
-/

namespace TestRpc

open TransitionRuns LittleEndian BlockCopies StreamReceive

/-! ## `main` -/

/-- `main` has not left its loop but for a failure of one of its own calls,
and waits for no peer: neither in `recv` nor for a handler that is blocked. -/
structure Server.KeepsOn (server : Server) : Prop where
  exits : ∀ exit, server.pc = .left exit → exit = .acceptFailed ∨
    exit = .createFailed ∨ exit = .joinFailed
  attends : server.pc ≠ .receiving
  joins : server.pc = .joining → ¬server.BlockedIn server.threadIndex

/-- No peer harms the server: every accepted connection is harmless and not
silent, no handler takes the process down, and `main` does not come to join a
handler that is blocked. -/
def Server.PeersHarmless (server : Server) : Event → Prop
  | .acceptConnection connection => connection.Harmless server.payloadSizeBuf
  | .acceptSilent => False
  | .create => 50 ≤ server.threadIndex + 1 → ¬server.BlockedIn 0
  | .join =>
      server.threadIndex + 1 < 50 →
        ¬server.BlockedIn (server.threadIndex + 1)
  | .block handler =>
      server.pc = .joining →
        server.threadId[server.threadIndex]? ≠ some (some handler)
  | .crash _ => False
  | _ => True

theorem Server.keepsOn_of_pc {server : Server}
    (hexits : ∀ exit, server.pc = .left exit → exit = .acceptFailed ∨
      exit = .createFailed ∨ exit = .joinFailed)
    (hreceiving : server.pc ≠ .receiving) (hjoining : server.pc ≠ .joining) :
    server.KeepsOn :=
  ⟨hexits, hreceiving, fun hpc => absurd hpc hjoining⟩

theorem Server.KeepsOn.of_eq {server next : Server}
    (hkeeps : server.KeepsOn) (hpc : next.pc = server.pc)
    (hindex : next.threadIndex = server.threadIndex)
    (hthreads : next.threadId = server.threadId)
    (hblocked : next.blocked ⊆ server.blocked) : next.KeepsOn := by
  refine ⟨fun exit hexit => ?_, ?_, fun hjoining => ?_⟩
  · rw [hpc] at hexit
    exact hkeeps.exits exit hexit
  · rw [hpc]
    exact hkeeps.attends
  · rintro ⟨handler, hmem, hslot⟩
    rw [hindex, hthreads] at hslot
    rw [hpc] at hjoining
    exact hkeeps.joins hjoining ⟨handler, hblocked hmem, hslot⟩

theorem Server.create_keepsOn_iff {server : Server}
    (hbatched : server.Batched) (hpc : server.pc = .assigned) :
    server.create.KeepsOn ↔
      (50 ≤ server.threadIndex + 1 → ¬server.BlockedIn 0) := by
  obtain ⟨hindex, base, hbatch⟩ :=
    hbatched.creating (by simp [Server.running, hpc]) (by simp [hpc])
  have hlength := hbatch.slots_length
  rw [Server.create_eq (by omega)]
  by_cases hmore : server.threadIndex + 1 < 50
  · refine iff_of_true (Server.keepsOn_of_pc ?_ ?_ ?_) (by omega)
    · simp [hmore]
    · simp [hmore]
    · simp [hmore]
  · have hslot : (server.threadId.set server.threadIndex
        (some server.handlers.length))[0]? = server.threadId[0]? :=
      List.getElem?_set_ne (by omega)
    have hblocked : ({ server with
        pc := .joining
        threadId := server.threadId.set server.threadIndex
          (some server.handlers.length)
        threadIndex := 0
        handlers := server.handlers ++ [.created] } : Server).BlockedIn 0 ↔
        server.BlockedIn 0 := by
      simp only [Server.BlockedIn, hslot]
    simp only [hmore, if_false]
    rw [← hblocked]
    exact ⟨fun hkeeps _ => hkeeps.joins rfl,
      fun hfree => ⟨by simp, by simp, fun _ => hfree (by omega)⟩⟩

theorem Server.join_keepsOn_iff {server next : Server}
    (hbatched : server.Batched) (hpc : server.pc = .joining)
    (hjoin : server.join = some next) :
    next.KeepsOn ↔ (server.threadIndex + 1 < 50 →
      ¬server.BlockedIn (server.threadIndex + 1)) := by
  obtain ⟨hindex, base, hbatch, rfl⟩ := hbatched.join_cases hpc hjoin
  by_cases hmore : server.threadIndex + 1 < 50
  · simp only [hmore, if_true]
    exact ⟨fun hkeeps _ => hkeeps.joins rfl,
      fun hfree => ⟨by simp, by simp, fun _ => hfree trivial⟩⟩
  · refine iff_of_true (Server.keepsOn_of_pc ?_ ?_ ?_) (by omega)
    · simp [hmore]
    · simp [hmore]
    · simp [hmore]

/-- A handler that is blocked holds `main` up if `main` is joining it. -/
theorem Server.KeepsOn.block_iff {server : Server} (hkeeps : server.KeepsOn)
    (handler : ℕ) :
    ({ server with blocked := handler :: server.blocked } :
        Server).KeepsOn ↔
      (server.pc = .joining →
        server.threadId[server.threadIndex]? ≠ some (some handler)) := by
  constructor
  · intro hnext hpc hslot
    exact hnext.joins hpc ⟨handler, List.mem_cons_self .., hslot⟩
  · intro hother
    refine ⟨hkeeps.exits, hkeeps.attends, fun hpc => ?_⟩
    rintro ⟨blocked, hmem, hslot⟩
    rcases List.mem_cons.mp hmem with rfl | hold
    · exact hother hpc hslot
    · exact hkeeps.joins hpc ⟨blocked, hold, hslot⟩

/-- From a state in which `main` keeps on, the harmless steps are those after
which it does. -/
theorem Server.KeepsOn.step_iff {server next : Server} {event : Event}
    (hkeeps : server.KeepsOn) (hbatched : server.Batched)
    (hstep : server.step event = some next) :
    next.KeepsOn ↔ server.PeersHarmless event := by
  cases Server.steps_of_step hstep with
  | @received connection argument _ hpc hreceive =>
      have hharmless : connection.Harmless server.payloadSizeBuf :=
        (Connection.harmless_iff _ _).mpr ⟨argument, by rw [hreceive]⟩
      exact iff_of_true (Server.keepsOn_of_pc (by simp) (by simp) (by simp)) hharmless
  | receiveFailed hpc hreceive hexit =>
      refine iff_of_false (fun hnext => ?_) (fun hharmless => ?_)
      · have hexits := hnext.exits _ rfl
        rcases hexit with ⟨_, rfl⟩ | ⟨_, rfl⟩
        · simp at hexits
        · simp at hexits
      · obtain ⟨argument, hhanded⟩ :=
          (Connection.harmless_iff _ _).mp hharmless
        rw [hreceive] at hhanded
        rcases hexit with ⟨rfl, _⟩ | ⟨rfl, _⟩
        · cases hhanded
        · cases hhanded
  | silent hpc => exact iff_of_false (fun hnext => hnext.attends rfl) id
  | acceptFailed hpc | createFailed hpc | joinFailed hpc =>
      refine iff_of_true (Server.keepsOn_of_pc ?_ (by simp [Server.leave])
        (by simp [Server.leave])) trivial
      simp [Server.leave]
  | assigned hpc =>
      exact iff_of_true (Server.keepsOn_of_pc (by simp) (by simp) (by simp)) trivial
  | created hpc => exact Server.create_keepsOn_iff hbatched hpc
  | joined hpc hjoin => exact Server.join_keepsOn_iff hbatched hpc hjoin
  | copied hrunning hcreated hargument =>
      exact iff_of_true (hkeeps.of_eq rfl rfl rfl (List.Subset.refl _))
        trivial
  | blocks hrunning hcopied => exact hkeeps.block_iff _
  | unblocks hrunning =>
      exact iff_of_true
        (hkeeps.of_eq rfl rfl rfl (List.filter_subset_self _)) trivial
  | finished hrunning hcopied hfree =>
      exact iff_of_true (hkeeps.of_eq rfl rfl rfl (List.Subset.refl _))
        trivial
  | crashed hrunning hcopied =>
      refine iff_of_false (fun hnext => ?_) id
      have hexits := hnext.exits _ rfl
      simp at hexits

/-! ## The listening socket -/

/-- The handler is about to make a `close` of the listening socket. -/
def ServerProcess.ClosesSocket (serverSocket : ℕ) (process : ServerProcess)
    (handler : ℕ) (malloc : Malloc) : Prop :=
  ∃ thread ∈ process.files.threads[handler]?, ∃ fildes,
    decode malloc thread.payload = .ok (some (.close fildes)) ∧
      fildes.toNat = serverSocket

/-- No peer harms the server, and no handler closes the listening socket. -/
def ServerProcess.PeersHarmless (serverSocket : ℕ)
    (process : ServerProcess) : ProcessEvent → Prop
  | .accept connection =>
      process.server.PeersHarmless (.acceptConnection connection)
  | .acceptSilent _ => process.server.PeersHarmless .acceptSilent
  | .main event => process.server.PeersHarmless event
  | .execute handler malloc _ =>
      ¬process.ClosesSocket serverSocket handler malloc
  | .enterAccept | .copy _ | .finish _ _ => True

/-- The server goes on serving: `main` keeps on, the listening socket is
open, and every request received has been dispatched to a handler or is just
being dispatched. -/
structure ServerProcess.KeepsLoop (serverSocket : ℕ)
    (process : ServerProcess) : Prop where
  keepsOn : process.server.KeepsOn
  listening : process.files.table serverSocket = some .listening
  dispatched : process.server.requests.length =
    process.server.handlers.length + process.server.undispatched

/-- No handler has the listening socket for its connection. -/
structure ServerProcess.Apart (serverSocket : ℕ) (process : ServerProcess) :
    Prop where
  batched : process.server.Batched
  dispatched : process.server.Dispatched
  threads : ∀ thread ∈ process.files.threads, thread.socket ≠ serverSocket
  argument : ∀ arguments ∈ process.server.argument,
    arguments.clientSocket ≠ serverSocket
  received : ∀ argument, process.server.pc = .received argument →
    argument.clientSocket ≠ serverSocket

theorem ServerProcess.initial_apart (inherited : ℕ → Bool)
    (serverSocket : ℕ) (uninitialised : List UInt8) :
    (ServerProcess.initial inherited serverSocket uninitialised).Apart
      serverSocket where
  batched := Server.initial_batched uninitialised
  dispatched := Server.initial_dispatched uninitialised
  threads := fun _ hmem => by cases hmem
  argument := fun _ hmem => by cases hmem
  received := fun _ hpc => by cases hpc

theorem ServerProcess.initial_keepsLoop (inherited : ℕ → Bool)
    (serverSocket : ℕ) (uninitialised : List UInt8) :
    (ServerProcess.initial inherited serverSocket uninitialised).KeepsLoop
      serverSocket where
  keepsOn := by
    have hpc : (ServerProcess.initial inherited serverSocket
        uninitialised).server.pc = .accepting := rfl
    refine Server.keepsOn_of_pc ?_ ?_ ?_ <;> simp [hpc]
  listening := if_pos rfl
  dispatched := rfl

section Steps

variable {serverSocket : ℕ} {process next : ServerProcess}

theorem FileServer.ne_of_free {files : FileServer} {fildes : ℕ}
    (hlistening : files.table serverSocket = some .listening)
    (hfree : files.free fildes = true) : fildes ≠ serverSocket := by
  rintro rfl
  simp [FileServer.free, hlistening] at hfree

/-- The steps of `main` pass the descriptor of a connection on, and make
none. -/
theorem ServerProcess.Apart.main {event : Event} {server : Server}
    (hapart : process.Apart serverSocket) (hevent : event.ofMain = true)
    (hserver : process.server.step event = some server) :
    ({ process with server := server } : ServerProcess).Apart
      serverSocket := by
  have hsame : server.argument = process.server.argument →
      (∀ argument, server.pc ≠ .received argument) ∨
        server.pc = process.server.pc →
      ({ process with server := server } : ServerProcess).Apart
        serverSocket := by
    intro hargument hpc
    refine ⟨hapart.batched.step hserver, hapart.dispatched.step hserver,
      hapart.threads, ?_, fun argument hreceived => ?_⟩
    · rw [hargument]
      exact hapart.argument
    · rcases hpc with hother | hpc
      · exact absurd hreceived (hother argument)
      · exact hapart.received argument (hpc ▸ hreceived)
  cases Server.steps_of_step hserver with
  | received hpc hreceive => cases hevent
  | receiveFailed hpc hreceive hexit => cases hevent
  | copied hrunning hcreated hargument => cases hevent
  | finished hrunning hcopied hfree => cases hevent
  | silent hpc => cases hevent
  | @assigned argument hpc =>
      refine ⟨hapart.batched.step hserver, hapart.dispatched.step hserver,
        hapart.threads, fun arguments hmem => ?_, by simp⟩
      rw [Option.mem_some_iff] at hmem
      subst hmem
      exact hapart.received argument hpc
  | created hpc =>
      obtain ⟨hindex, base, hbatch⟩ :=
        hapart.batched.creating (by simp [Server.running, hpc]) (by simp [hpc])
      have hlength := hbatch.slots_length
      have hcreate : process.server.create = _ := Server.create_eq (by omega)
      apply hsame
      · rw [hcreate]
      · left
        intro argument
        rw [hcreate]
        by_cases hmore : process.server.threadIndex + 1 < 50 <;>
          simp [hmore]
  | joined hpc hjoin =>
      obtain ⟨_, _, _, rfl⟩ := hapart.batched.join_cases hpc hjoin
      apply hsame rfl
      left
      intro argument
      by_cases hmore : process.server.threadIndex + 1 < 50 <;> simp [hmore]
  | unblocks hrunning => exact hsame rfl (.inr rfl)
  | blocks hrunning hcopied => exact hsame rfl (.inr rfl)
  | acceptFailed hpc | createFailed hpc | joinFailed hpc
  | crashed hrunning hcopied => exact hsame rfl (.inl (by simp [Server.leave]))

theorem ServerProcess.Apart.files {files : FileServer}
    (hapart : process.Apart serverSocket) {event : TableEvent}
    (haccept : ∀ socket payload, event ≠ .accept socket payload)
    (hfiles : process.files.step event = some files) :
    ∀ thread ∈ files.threads, thread.socket ≠ serverSocket := by
  have hphase : ∀ (middle : FileServer) (index : ℕ) (phase : Phase),
      middle.threads = process.files.threads →
      ∀ thread ∈ (middle.setPhase index phase).threads,
        thread.socket ≠ serverSocket := by
    intro middle index phase hthreads thread hmem
    obtain ⟨i, hi⟩ := List.getElem?_of_mem hmem
    obtain ⟨before, hbefore, _, hsocket, _⟩ :=
      FileServer.exists_before_setPhase hi
    rw [hthreads] at hbefore
    rw [hsocket]
    exact hapart.threads before (List.mem_of_getElem? hbefore)
  cases FileServer.steps_of_step hfiles with
  | accepted hfree => exact absurd rfl (haccept _ _)
  | rejected hthread hdecode => exact hphase _ _ _ rfl
  | executed hthread hdecode hperform =>
      rcases FileServer.perform_cases hperform with
        ⟨fildes, _, _, _, rfl, _⟩ | ⟨fildes, entry, _, _, rfl, _⟩ | ⟨rfl, _⟩
      · exact hphase _ _ _ rfl
      · exact hphase _ _ _ rfl
      · exact hphase _ _ _ rfl
  | closed hthread => exact hphase _ _ _ rfl
  | leaked hthread => exact hphase _ _ _ rfl

theorem ServerProcess.Apart.step {event : ProcessEvent}
    (hapart : process.Apart serverSocket)
    (hlistening : process.files.table serverSocket = some .listening)
    (hstep : process.step serverSocket event = some next) :
    next.Apart serverSocket := by
  have hbatched : next.server.Batched :=
    ServerProcess.server_invariant (fun _ _ _ hinv => hinv.step)
      hapart.batched hstep
  have hdispatched : next.server.Dispatched :=
    ServerProcess.server_invariant (fun _ _ _ hinv => hinv.step)
      hapart.dispatched hstep
  cases ServerProcess.steps_of_step hstep with
  | entered hpc hopen =>
      exact ⟨hbatched, hdispatched, hapart.threads, hapart.argument,
        hapart.received⟩
  | refused hpc hclosed => exact absurd hlistening hclosed
  | @received connection argument _ hpc hfree hreceive hsocket =>
      have hne : argument.clientSocket ≠ serverSocket :=
        hsocket ▸ FileServer.ne_of_free hlistening hfree
      refine ⟨hbatched, hdispatched, fun thread hmem => ?_, hapart.argument,
        fun received hreceived => ?_⟩
      · rcases List.mem_append.mp hmem with hold | hnew
        · exact hapart.threads thread hold
        · rw [List.mem_singleton.mp hnew]
          exact hne
      · cases hreceived
        exact hne
  | receiveFailed hpc hreceive hexit =>
      exact ⟨hbatched, hdispatched, hapart.threads, hapart.argument, by simp⟩
  | silent hpc hfree =>
      exact ⟨hbatched, hdispatched, hapart.threads, hapart.argument, by simp⟩
  | main hevent hserver => exact hapart.main hevent hserver
  | @copied handler arguments hserver hcreated hargument =>
      refine ⟨hbatched, hdispatched, fun thread hmem => ?_, hapart.argument,
        hapart.received⟩
      obtain ⟨i, hi⟩ := List.getElem?_of_mem hmem
      rw [FileServer.getElem?_setArguments, Option.map_eq_some_iff] at hi
      obtain ⟨before, hbefore, rfl⟩ := hi
      split
      · exact hapart.argument arguments hargument
      · exact hapart.threads before (List.mem_of_getElem? hbefore)
  | executed hrunning hcopied hfiles =>
      exact ⟨hbatched, hdispatched, hapart.files (by simp) hfiles,
        hapart.argument, hapart.received⟩
  | finished hserver hfiles =>
      have hthreads := hapart.files (by simp) hfiles
      cases Server.steps_of_step hserver with
      | finished hrunning hcopied hfree =>
          exact ⟨hbatched, hdispatched, hthreads, hapart.argument,
            hapart.received⟩

/-- Of the system calls only a `close` that names it closes the listening
socket. -/
theorem ServerProcess.execute_listening_iff {handler : ℕ} {malloc : Malloc}
    {granted : Option ℕ} {files : FileServer}
    (hlistening : process.files.table serverSocket = some .listening)
    (hfiles : process.files.step (.execute handler malloc granted) =
      some files) :
    files.table serverSocket = some .listening ↔
      ¬process.ClosesSocket serverSocket handler malloc := by
  cases FileServer.steps_of_step hfiles with
  | rejected hthread hdecode =>
      refine iff_of_true hlistening ?_
      rintro ⟨thread, hmem, fildes, hclose, _⟩
      rw [hthread, Option.mem_some_iff] at hmem
      subst hmem
      rw [hdecode] at hclose
      cases hclose
  | @executed _ _ _ payload socket call _ _ hthread hdecode hperform =>
      have hcloses : process.ClosesSocket serverSocket handler malloc ↔
          ∃ fildes, call = .close fildes ∧ fildes.toNat = serverSocket := by
        simp only [ServerProcess.ClosesSocket, hthread, Option.mem_some_iff,
          exists_eq_left', hdecode, Except.ok.injEq, Option.some.injEq]
      rw [hcloses]
      rcases FileServer.perform_cases hperform with
        ⟨fildes, hcode, _, hfree, rfl, _⟩ |
        ⟨fildes, entry, rfl, hopen, rfl, _⟩ | ⟨rfl, _, _, hnot⟩
      · refine iff_of_true ?_ ?_
        · exact (Function.update_of_ne
            (FileServer.ne_of_free hlistening hfree).symm _ _).trans hlistening
        · rintro ⟨closing, rfl, _⟩
          cases hcode
      · by_cases hsame : fildes.toNat = serverSocket
        · refine iff_of_false (fun hnext => ?_) fun hnot =>
            hnot ⟨fildes, rfl, hsame⟩
          rw [← hsame] at hnext
          simp [FileServer.setPhase, FileServer.touch] at hnext
        · refine iff_of_true ?_ ?_
          · exact (Function.update_of_ne (Ne.symm hsame) _ _).trans hlistening
          · rintro ⟨closing, hclosing, hsocket⟩
            cases hclosing
            exact hsame hsocket
      · refine iff_of_true hlistening ?_
        rintro ⟨closing, rfl, rfl⟩
        have hclosed := hnot closing rfl
        rw [hlistening] at hclosed
        cases hclosed

theorem ServerProcess.KeepsLoop.of_keepsOn
    (hkeeps : next.server.KeepsOn) (hdispatched : next.server.Dispatched)
    (hbatched : next.server.Batched)
    (hlistening : next.files.table serverSocket = some .listening) :
    next.KeepsLoop serverSocket := by
  refine ⟨hkeeps, hlistening, hdispatched.length ?_ ?_⟩
  · intro hcrashed
    have hexits := hkeeps.exits _ hcrashed
    simp at hexits
  · intro hundefined
    rw [Server.Batched, hundefined] at hbatched
    exact hbatched rfl

/-- From a state in which the server goes on, the harmless steps are those
after which it does. -/
theorem ServerProcess.KeepsLoop.step_iff {event : ProcessEvent}
    (hloop : process.KeepsLoop serverSocket)
    (hapart : process.Apart serverSocket)
    (hstep : process.step serverSocket event = some next) :
    next.KeepsLoop serverSocket ↔
      process.PeersHarmless serverSocket event := by
  have hafter := hapart.step hloop.listening hstep
  have hserver : ∀ taken, event.ofServer = some taken →
      next.files.table serverSocket = some .listening →
      (next.KeepsLoop serverSocket ↔ process.server.PeersHarmless taken) := by
    intro taken htaken hlistening
    rw [← hloop.keepsOn.step_iff hapart.batched
      (ServerProcess.server_step hstep htaken)]
    exact ⟨fun hnext => hnext.keepsOn, fun hkeeps => .of_keepsOn hkeeps
      hafter.dispatched hafter.batched hlistening⟩
  have htouch : ∀ (files : FileServer) (socket : ℕ) (entry : Option Entry),
      socket ≠ serverSocket → files.table serverSocket = some .listening →
      (files.touch socket entry).table serverSocket = some .listening :=
    fun _ _ _ hne hlistening =>
      (Function.update_of_ne hne.symm _ _).trans hlistening
  cases ServerProcess.steps_of_step hstep with
  | entered hpc hopen =>
      exact iff_of_true ⟨hloop.keepsOn, hloop.listening, hloop.dispatched⟩
        trivial
  | refused hpc hclosed => exact absurd hloop.listening hclosed
  | received hpc hfree hreceive hsocket =>
      refine hserver _ rfl (htouch _ _ _ ?_ hloop.listening)
      exact hsocket ▸ FileServer.ne_of_free hloop.listening hfree
  | receiveFailed hpc hreceive hexit => exact hserver _ rfl hloop.listening
  | silent hpc hfree =>
      refine hserver _ rfl (htouch _ _ _ ?_ hloop.listening)
      exact FileServer.ne_of_free hloop.listening hfree
  | main hevent hmain => exact hserver _ rfl hloop.listening
  | copied hcopy hcreated hargument => exact hserver _ rfl hloop.listening
  | executed hrunning hcopied hfiles =>
      refine Iff.trans ?_
        (ServerProcess.execute_listening_iff hloop.listening hfiles)
      exact ⟨fun hnext => hnext.listening,
        fun hlistening => ⟨hloop.keepsOn, hlistening, hloop.dispatched⟩⟩
  | finished hfinish hfiles =>
      refine hserver _ rfl ?_
      cases FileServer.steps_of_step hfiles with
      | leaked hthread => exact hloop.listening
      | closed hthread =>
          refine htouch _ _ _ ?_ hloop.listening
          exact hapart.threads _ (List.mem_of_getElem? hthread)

end Steps

/-! ## Whole runs -/

/-- The runs in which the server goes on in every state are those in which no
peer harms it: every accepted connection is harmless, no handler closes the
listening socket or takes the process down, and `main` comes to join no
handler that is blocked. -/
theorem ServerProcess.run_keepsLoop_iff {inherited : ℕ → Bool}
    {serverSocket : ℕ} {uninitialised : List UInt8}
    {events : List ProcessEvent} {final : ServerProcess}
    (hrun : Run (ServerProcess.step serverSocket) anyEvent
      (ServerProcess.initial inherited serverSocket uninitialised) events
      final) :
    (∀ before middle, before <+: events →
        Run (ServerProcess.step serverSocket) anyEvent
          (ServerProcess.initial inherited serverSocket uninitialised) before
          middle →
        middle.KeepsLoop serverSocket) ↔
      Run (ServerProcess.step serverSocket)
        (ServerProcess.PeersHarmless serverSocket)
        (ServerProcess.initial inherited serverSocket uninitialised) events
        final :=
  Run.good_iff_allowed
    (fun _ _ _ hapart hloop hstep => hapart.step hloop.listening hstep)
    (fun _ _ _ hapart hloop hstep => hloop.step_iff hapart hstep)
    (ServerProcess.initial_apart inherited serverSocket uninitialised)
    (ServerProcess.initial_keepsLoop inherited serverSocket uninitialised)
    hrun

def freshProcess : ServerProcess :=
  ServerProcess.initial (fun fildes => decide (fildes < 3)) 3
    (List.replicate 8 0)

/-- A request to close the descriptor 5, on a connection with the number 4. -/
def closeFiveConnection : Connection where
  clientSocket := 4
  stream := ⟨requestBytes [1, 0xfa, 0xff, 0xff, 0x7f], .closed⟩
  sizeCut := 8
  payloadCut := 5
  malloc := amplestMalloc

/-- A request from the `accept` of its connection to the return of its
handler. -/
def servedRequest (connection : Connection) : List ProcessEvent :=
  [.enterAccept, .accept connection, .main .assign, .main .create, .copy 0,
    .execute 0 amplestMalloc none, .finish 0 true]

theorem run_keepsLoop_closeFive :
    ∃ final, Run (ServerProcess.step 3) anyEvent freshProcess
        (servedRequest closeFiveConnection) final ∧
      final.server.handlers =
        [.finished ⟨[1, 0xfa, 0xff, 0xff, 0x7f], 5, 4⟩] ∧
      final.KeepsLoop 3 := by
  have haccept : ∀ process : ServerProcess,
      process.server.payloadSizeBuf = List.replicate 8 0 →
      process.PeersHarmless 3 (.accept closeFiveConnection) := by
    intro process hsizeBuf
    refine (Connection.harmless_iff _ _).mpr
      ⟨⟨[1, 0xfa, 0xff, 0xff, 0x7f], 5, 4⟩, ?_⟩
    rw [hsizeBuf]
    rfl
  have hexecute : ∀ process : ServerProcess,
      process.files.threads[0]? =
        some ⟨[1, 0xfa, 0xff, 0xff, 0x7f], 4, .serving⟩ →
      process.PeersHarmless 3 (.execute 0 amplestMalloc none) := by
    rintro process hthread ⟨thread, hmem, fildes, hdecode, hsocket⟩
    rw [hthread, Option.mem_some_iff] at hmem
    subst hmem
    have hfive : decode amplestMalloc [1, 0xfa, 0xff, 0xff, 0x7f] =
        .ok (some (.close 5)) := rfl
    rw [hfive, Except.ok.injEq, Option.some.injEq,
      LibCall.close.injEq] at hdecode
    rw [← hdecode] at hsocket
    exact absurd hsocket (by decide)
  obtain ⟨final, hrun, hharmless, hhandlers⟩ : ∃ final,
      Run (ServerProcess.step 3) anyEvent freshProcess
        (servedRequest closeFiveConnection) final ∧
      Run (ServerProcess.step 3) (ServerProcess.PeersHarmless 3)
        freshProcess (servedRequest closeFiveConnection) final ∧
      final.server.handlers =
        [.finished ⟨[1, 0xfa, 0xff, 0xff, 0x7f], 5, 4⟩] := by
    refine ⟨_, run_of_execute rfl, ?_, rfl⟩
    refine (((((((Run.refl _).snoc ?_ rfl).snoc ?_ rfl).snoc ?_ rfl).snoc ?_
      rfl).snoc ?_ rfl).snoc ?_ rfl).snoc ?_ rfl
    · trivial
    · exact haccept _ rfl
    · trivial
    · exact fun hfull => absurd hfull (by decide)
    · trivial
    · exact hexecute _ rfl
    · trivial
  exact ⟨final, hrun, hhandlers, (ServerProcess.run_keepsLoop_iff hrun).mpr
    hharmless _ final (List.prefix_refl _) hrun⟩

/-- A peer that sends the size `2 ^ 64 - 1` and nothing else. -/
def oversizedConnection : Connection where
  clientSocket := 4
  stream := ⟨List.replicate 8 0xff, .closed⟩
  sizeCut := 8
  payloadCut := 1
  malloc := amplestMalloc

/-- One such connection ends the loop, through no failure of `accept`,
`pthread_create` or `pthread_join`; and a request to close the descriptor 3
makes the next `accept` fail. -/
theorem loop_left_because_of_peer :
    (∃ final, Run (ServerProcess.step 3) anyEvent freshProcess
        [.enterAccept, .accept oversizedConnection] final ∧
      final.server.pc = .left .mallocFailed) ∧
    ∃ final, Run (ServerProcess.step 3) anyEvent freshProcess
        (servedRequest (closeThreeConnection 5) ++ [.enterAccept]) final ∧
      final.files.table 3 = none ∧
      final.server.pc = .left .acceptFailed := by
  constructor
  · obtain ⟨final, hexec, hpc⟩ : ∃ final,
        execute (ServerProcess.step 3) anyEvent freshProcess
          [.enterAccept, .accept oversizedConnection] = some final ∧
        final.server.pc = .left .mallocFailed := ⟨_, rfl, rfl⟩
    exact ⟨final, run_of_execute hexec, hpc⟩
  · obtain ⟨final, hexec, htable, hpc⟩ : ∃ final,
        execute (ServerProcess.step 3) anyEvent freshProcess
          (servedRequest (closeThreeConnection 5) ++ [.enterAccept]) =
            some final ∧
        final.files.table 3 = none ∧
        final.server.pc = .left .acceptFailed := ⟨_, rfl, rfl, rfl⟩
    exact ⟨final, run_of_execute hexec, htable, hpc⟩

end TestRpc
