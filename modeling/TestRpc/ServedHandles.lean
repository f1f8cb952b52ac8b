import TestRpc.LiveHandles

/-!
# Requests that find their files

A client that closes a handle only when none of its other requests on it has
still to be executed, one that it gave up included, never makes a handler act
on a descriptor that means something else by then.  Every request that a
handler executes then finds, under the descriptor it names, the file that the
handle was made for.
-/

namespace TestRpc

open TransitionRuns

/-- A handle is closed when no other request that names it has still to be
executed. -/
def Quiet (clients : Clients) : ClientEvent → Prop
  | .request _ _ (.close handle) =>
      ∀ served ∈ clients.calls.zip clients.server.threads,
        served.2.phase = .serving → served.1.2.fildes? ≠ some handle
  | _ => True

/-- The handle of a request that has still to be executed is held by its
client, or this request is the one that closes it. -/
def Clients.Attached (clients : Clients) : Prop :=
  ∀ (i client : ℕ) (call : LibCall) (thread : Thread) (handle : CInt),
    clients.calls[i]? = some (client, call) →
    clients.server.threads[i]? = some thread → thread.phase = .serving →
    call.fildes? = some handle →
    ∃ record ∈ clients.handles, record.handle = handle ∧
      (record.status = .held ∨ record.status = .closing i)

section Steps

variable {serverSocket : ℕ} {clients : Clients}

theorem Clients.Attached.request (hattached : clients.Attached)
    (hsound : clients.Sound serverSocket) {client socket : ℕ}
    {call : LibCall}
    (hdisciplined : Disciplined clients (.request client socket call))
    (hquiet : Quiet clients (.request client socket call))
    {server : FileServer}
    (hthreads : server.threads = clients.server.threads ++
      [⟨call.transmitted.payload, socket, .serving⟩]) :
    Clients.Attached ⟨server, clients.calls ++ [(client, call)],
      clients.handles.map (Handle.requested client call
        clients.server.threads.length)⟩ := by
  intro i owner made thread handle hmade hthread hserving hfildes
  simp only [hthreads] at hthread
  rcases getElem?_append_singleton hmade with hold | ⟨rfl, hnew⟩
  · rcases getElem?_append_singleton hthread with hbefore | ⟨rfl, _⟩
    · obtain ⟨record, hmem, hhandle, hstatus⟩ :=
        hattached i owner made thread handle hold hbefore hserving hfildes
      refine ⟨_, List.mem_map.mpr ⟨record, hmem, rfl⟩,
        (Handle.requested_handle ..).trans hhandle, ?_⟩
      rcases hstatus with hheld | hclosing
      · left
        rw [Handle.requested, if_neg]
        · exact hheld
        · -- Nobody closes a handle with a request to be executed.
          rintro ⟨_, _, rfl⟩
          rw [hhandle] at hquiet
          apply hquiet ((owner, made), thread) _ hserving hfildes
          apply List.mem_of_getElem? (i := i)
          exact List.getElem?_zip_eq_some.mpr ⟨hold, hbefore⟩
      · right
        rw [Handle.requested_of_closing hclosing]
        exact hclosing
    · have hlt := (List.getElem?_eq_some_iff.mp hold).1
      rw [hsound.calls_length] at hlt
      omega
  · cases hnew
    obtain ⟨record, hmem, rfl, rfl, hheld⟩ := hdisciplined.2 handle hfildes
    refine ⟨_, List.mem_map.mpr ⟨record, hmem, rfl⟩,
      Handle.requested_handle .., ?_⟩
    rw [Handle.requested]
    split
    · right
      rw [hsound.calls_length]
    · exact .inl hheld

theorem Clients.Attached.advance (hattached : clients.Attached)
    {server : FileServer} {index : ℕ} {phase : Phase}
    (hphase : phase ≠ .serving)
    (hthreads : server.threads =
      (clients.server.setPhase index phase).threads)
    {handles : List Handle}
    (hhandles : ∀ record ∈ clients.handles,
      record.status ≠ .closing index → record ∈ handles) :
    Clients.Attached ⟨server, clients.calls, handles⟩ := by
  intro i client call next handle hcall hnext hserving hfildes
  simp only [hthreads] at hnext
  obtain ⟨thread, hthread, _, _, hnextPhase⟩ :=
    FileServer.exists_before_setPhase hnext
  rw [hnextPhase] at hserving
  by_cases hsame : index = i
  · rw [if_pos hsame] at hserving
    exact absurd hserving hphase
  · rw [if_neg hsame] at hserving
    obtain ⟨record, hmem, hhandle, hstatus⟩ :=
      hattached i client call thread handle hcall hthread hserving hfildes
    refine ⟨record, hhandles record hmem ?_, hhandle, hstatus⟩
    rcases hstatus with hheld | hclosing
    · rw [hheld]
      simp
    · rw [hclosing]
      simpa using Ne.symm hsame

theorem FileServer.threads_of_execute {server next : FileServer}
    {index : ℕ} {malloc : Malloc} {granted : Option ℕ}
    (hstep : server.step (.execute index malloc granted) = some next) :
    ∃ acted, next.threads =
      (server.setPhase index (.executed acted)).threads := by
  cases FileServer.steps_of_step hstep with
  | rejected hthread hdecode => exact ⟨none, rfl⟩
  | @executed _ _ _ _ _ _ _ acted hthread hdecode hperform =>
      rcases FileServer.perform_cases hperform with
        ⟨fildes, _, _, _, rfl, _⟩ | ⟨fildes, entry, _, _, rfl, _⟩ |
        ⟨rfl, _⟩
      · exact ⟨acted, rfl⟩
      · exact ⟨acted, rfl⟩
      · exact ⟨acted, rfl⟩

theorem FileServer.threads_of_leave {server next : FileServer} {index : ℕ}
    {closes : Bool} (hstep : server.step (.leave index closes) = some next) :
    next.threads = (server.setPhase index .ended).threads := by
  cases FileServer.steps_of_step hstep with
  | closed hthread => rfl
  | leaked hthread => rfl

theorem Clients.Attached.step {next : Clients} {event : ClientEvent}
    (hattached : clients.Attached) (hsound : clients.Sound serverSocket)
    (hdisciplined : Disciplined clients event)
    (hquiet : Quiet clients event)
    (hstep : clients.step event = some next) : next.Attached := by
  cases event with
  | request client socket call =>
      simp only [Clients.step] at hstep
      split at hstep
      · cases hstep
      · next server haccept =>
        cases hstep
        cases @FileServer.steps_of_step _ _
          (.accept socket call.transmitted.payload) haccept with
        | accepted hfree =>
            exact hattached.request hsound hdisciplined hquiet rfl
  | execute index malloc granted =>
      simp only [Clients.step] at hstep
      split at hstep
      · next server client call hexecute hcall =>
        cases hstep
        obtain ⟨acted, hthreads⟩ := @FileServer.threads_of_execute _ _ index
          malloc granted hexecute
        apply hattached.advance (by simp) hthreads
        intro record hmem hother
        apply List.mem_append_left
        exact List.mem_map.mpr ⟨record, hmem, Handle.executed_of_ne hother⟩
      · cases hstep
  | leave index closes =>
      simp only [Clients.step] at hstep
      split at hstep
      · cases hstep
      · next server hleave =>
        cases hstep
        exact hattached.advance (by simp)
          (@FileServer.threads_of_leave _ _ index closes hleave)
          fun record hmem _ => hmem

/-- A descriptor that was free is nobody's. -/
theorem Clients.Sound.touch (hsound : clients.Sound serverSocket)
    {fildes : ℕ} (hfree : clients.server.free fildes = true)
    (entry : Option Entry) :
    Clients.Sound serverSocket
      ⟨clients.server.touch fildes entry, clients.calls,
        clients.handles⟩ where
  calls_length := hsound.calls_length
  payloads := hsound.payloads
  listening := FileServer.touch_free hfree hsound.listening
  sockets := fun i thread hthread hphase =>
    FileServer.touch_free hfree (hsound.sockets i thread hthread hphase)
  remote := hsound.remote
  files := by
    intro record hmem hlive
    have hfile := hsound.files record hmem hlive
    generalize record.fildes = present at hfile ⊢
    exact FileServer.touch_free hfree hfile
  openers := hsound.openers
  opened := hsound.opened
  closing := hsound.closing
  closers := hsound.closers

/-- A request that has still to be executed finds its file. -/
theorem Clients.Attached.file (hattached : clients.Attached)
    (hsound : clients.Sound serverSocket) {i client : ℕ} {call : LibCall}
    {thread : Thread} {handle : CInt}
    (hcall : clients.calls[i]? = some (client, call))
    (hthread : clients.server.threads[i]? = some thread)
    (hserving : thread.phase = .serving)
    (hfildes : call.fildes? = some handle) :
    ∃ opener, clients.server.table (INT_MAX - handle).toNat =
      some (.file opener) := by
  obtain ⟨record, hmem, rfl, hstatus⟩ :=
    hattached i client call thread handle hcall hthread hserving hfildes
  refine ⟨record.opener, hsound.files record hmem ?_⟩
  rcases hstatus with hheld | hclosing
  · simp [Handle.live, hheld]
  · simp [Handle.live, hclosing]

end Steps

theorem Clients.initial_attached (inherited : ℕ → Bool)
    (serverSocket : ℕ) :
    (Clients.initial inherited serverSocket).Attached := by
  intro i client call thread handle hcall
  cases hcall

end TestRpc
