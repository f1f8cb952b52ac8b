import TestRpc.AcceptLoop

/-!
# What becomes of a request

Every handler gets a pointer to the same `argument`, which `main` overwrites
for the next request.  A handler has its own request's arguments in the runs
in which `main` assigns `argument` only after all handlers have copied it, and
in some other runs it has not.
-/

namespace TestRpc

open TransitionRuns LittleEndian BlockCopies StreamReceive

def Server.undispatched (server : Server) : ℕ :=
  match server.pc with
  | .received _ => 1
  | .assigned => 1
  | .left .createFailed => 1
  | _ => 0

theorem Server.Dispatched.length {server : Server}
    (hinv : server.Dispatched) (hcrashed : server.pc ≠ .left .handlerCrashed)
    (hundefined : server.pc ≠ .left .undefined) :
    server.requests.length =
      server.handlers.length + server.undispatched := by
  unfold Server.Dispatched at hinv
  unfold Server.undispatched
  cases hpc : server.pc with
  | left exit =>
      simp only [hpc] at hinv hcrashed hundefined
      cases exit <;> simp_all
  | accepting | receiving | joining => simpa [hpc] using hinv
  | received argument | assigned =>
      simp only [hpc] at hinv
      exact hinv.1

/-! ## Handlers and their arguments -/

/-- The handler created for the `i`-th request has copied the arguments of the
`i`-th request, if it has copied any; one that has not will find them in
`argument`. -/
structure Server.OwnArguments (server : Server) : Prop where
  own : ∀ (i : ℕ) (handler : Handler) (arguments : ThreadArg),
    server.handlers[i]? = some handler →
    handler.arguments? = some arguments →
    server.requests[i]? = some arguments
  waiting : ∀ i : ℕ, server.handlers[i]? = some .created →
    server.requests[i]? = server.argument

/-- `main` assigns `argument` only when every handler created so far has
copied it. -/
def AssignsAfterCopies (server : Server) : Event → Prop
  | .assign => ∀ handler ∈ server.handlers, handler ≠ .created
  | _ => True

instance (server : Server) (event : Event) :
    Decidable (AssignsAfterCopies server event) :=
  match event with
  | .assign =>
      inferInstanceAs
        (Decidable (∀ handler ∈ server.handlers, handler ≠ .created))
  | .acceptConnection _ | .acceptSilent | .acceptFails | .create
  | .createFails | .join | .joinFails | .copy _ | .block _ | .unblock _
  | .finish _ | .crash _ => isTrue trivial

theorem Server.initial_ownArguments (uninitialised : List UInt8) :
    (Server.initial uninitialised).OwnArguments := by
  constructor
  · intro i handler arguments hhandler
    cases hhandler
  · intro i hcreated
    cases hcreated

theorem Server.OwnArguments.setHandler {server : Server}
    (hinv : server.OwnArguments) {index : ℕ} {state : Handler}
    (hstate : state ≠ .created)
    (hown : ∀ arguments, state.arguments? = some arguments →
      server.requests[index]? = some arguments) :
    Server.OwnArguments
      { server with handlers := server.handlers.set index state } := by
  constructor
  · intro i handler arguments hhandler harguments
    rcases getElem?_set_cases hhandler with ⟨rfl, rfl⟩ | ⟨_, hold⟩
    · exact hown arguments harguments
    · exact hinv.own i handler arguments hold harguments
  · intro i hcreated
    rcases getElem?_set_cases hcreated with ⟨_, hsame⟩ | ⟨_, hold⟩
    · exact absurd hsame.symm hstate
    · exact hinv.waiting i hold

theorem Server.OwnArguments.receive {server : Server}
    (hinv : server.OwnArguments)
    (hlength : server.requests.length = server.handlers.length)
    (argument : ThreadArg) {pc : MainPc} {payloadSizeBuf : List UInt8} :
    Server.OwnArguments { server with
      pc := pc
      payloadSizeBuf := payloadSizeBuf
      requests := server.requests ++ [argument] } := by
  have hsame : ∀ (i : ℕ) (handler : Handler),
      server.handlers[i]? = some handler →
      (server.requests ++ [argument])[i]? = server.requests[i]? := by
    intro i handler hhandler
    obtain ⟨hlt, _⟩ := List.getElem?_eq_some_iff.mp hhandler
    exact List.getElem?_append_left (by omega)
  constructor
  · intro i handler arguments hhandler harguments
    rw [hsame i handler hhandler]
    exact hinv.own i handler arguments hhandler harguments
  · intro i hcreated
    rw [hsame i _ hcreated]
    exact hinv.waiting i hcreated

theorem Server.OwnArguments.create {server : Server}
    (hinv : server.OwnArguments)
    (hargument : server.requests[server.handlers.length]? = server.argument)
    {pc : MainPc} {threadId : List (Option ℕ)} {threadIndex : ℕ} :
    Server.OwnArguments { server with
      pc := pc
      threadId := threadId
      threadIndex := threadIndex
      handlers := server.handlers ++ [.created] } := by
  constructor
  · intro i handler arguments hhandler harguments
    rcases getElem?_append_singleton hhandler with hold | ⟨_, rfl⟩
    · exact hinv.own i handler arguments hold harguments
    · cases harguments
  · intro i hcreated
    rcases getElem?_append_singleton hcreated with hold | ⟨rfl, _⟩
    · exact hinv.waiting i hold
    · exact hargument

theorem Server.OwnArguments.step {server next : Server} {event : Event}
    (hdispatched : server.Dispatched) (hinv : server.OwnArguments)
    (hallowed : AssignsAfterCopies server event)
    (hstep : server.step event = some next) :
    next.OwnArguments := by
  cases Server.steps_of_step hstep with
  | received hpc hreceive =>
      simp only [Server.Dispatched, hpc] at hdispatched
      exact hinv.receive hdispatched _
  | assigned hpc =>
      -- All handlers have their copies, so none sees the new value.
      refine ⟨hinv.own, fun i hcreated => ?_⟩
      exact absurd rfl
        (hallowed _ (List.mem_of_getElem? hcreated))
  | created hpc =>
      simp only [Server.Dispatched, hpc] at hdispatched
      by_cases hindex : server.threadIndex < server.threadId.length
      · rw [Server.create_eq hindex]
        exact hinv.create hdispatched.2
      · rw [Server.create, if_neg hindex]
        exact ⟨hinv.own, hinv.waiting⟩
  | joined hpc hjoin =>
      rcases Server.join_cases hjoin with ⟨rfl, _⟩ | ⟨handler, _, rfl⟩
      · exact ⟨hinv.own, hinv.waiting⟩
      · exact ⟨hinv.own, hinv.waiting⟩
  | copied hrunning hcreated hargument =>
      refine hinv.setHandler (by simp) fun arguments harguments => ?_
      rw [hinv.waiting _ hcreated, hargument]
      exact harguments
  | finished hrunning hcopied hfree =>
      refine hinv.setHandler (by simp) fun arguments harguments => ?_
      exact hinv.own _ _ _ hcopied harguments
  | receiveFailed hpc hreceive hexit => exact ⟨hinv.own, hinv.waiting⟩
  | unblocks hrunning => exact ⟨hinv.own, hinv.waiting⟩
  | silent hpc | acceptFailed hpc | createFailed hpc | joinFailed hpc
  | blocks hrunning hcopied | crashed hrunning hcopied =>
      exact ⟨hinv.own, hinv.waiting⟩

/-- Every request is handled exactly once and with its own data: the copies of
the handlers are the requests they were created for, in order, and no request
is left without a handler but one that `main` is just creating it for. -/
structure Server.HandledOnce (server : Server) : Prop where
  own : ∀ (i : ℕ) (handler : Handler) (arguments : ThreadArg),
    server.handlers[i]? = some handler →
    handler.arguments? = some arguments →
    server.requests[i]? = some arguments
  once : (∀ handler ∈ server.handlers, handler ≠ .created) →
    server.handlers.map Handler.arguments? =
      (server.requests.take server.handlers.length).map some
  dispatched : server.running = true →
    server.requests.length = server.handlers.length + server.undispatched

/-- In every run in which `main` assigns `argument` only after all handlers
have copied it, every request is handled exactly once and with its own
data. -/
theorem Server.run_handledOnce {uninitialised : List UInt8}
    {events : List Event} {final : Server}
    (hrun : Run Server.step AssignsAfterCopies
      (Server.initial uninitialised) events final) :
    final.HandledOnce := by
  obtain ⟨hdispatched, hown⟩ := @Run.invariant _ _ _ _
    (fun server => server.Dispatched ∧ server.OwnArguments)
    (fun _ _ _ hinv hallowed hstep =>
      ⟨hinv.1.step hstep, hinv.2.step hinv.1 hallowed hstep⟩) _ _ _ hrun
    ⟨Server.initial_dispatched uninitialised,
      Server.initial_ownArguments uninitialised⟩
  refine ⟨hown.own, fun hcopied => ?_, fun hrunning => ?_⟩
  · apply List.ext_getElem?
    intro i
    rw [List.getElem?_map, List.getElem?_map]
    cases hhandler : final.handlers[i]? with
    | none =>
        have hge := List.getElem?_eq_none_iff.mp hhandler
        simp [Nat.not_lt.mpr hge]
    | some handler =>
        obtain ⟨hlt, _⟩ := List.getElem?_eq_some_iff.mp hhandler
        have hne := hcopied handler (List.mem_of_getElem? hhandler)
        obtain ⟨arguments, harguments⟩ :
            ∃ arguments, handler.arguments? = some arguments := by
          cases handler with
          | created => exact absurd rfl hne
          | copied arguments => exact ⟨arguments, rfl⟩
          | finished arguments => exact ⟨arguments, rfl⟩
        rw [List.getElem?_take_of_lt hlt,
          hown.own i handler arguments hhandler harguments]
        simp [harguments]
  · apply hdispatched.length
    · intro hpc
      simp [Server.running, hpc] at hrunning
    · intro hpc
      simp [Server.running, hpc] at hrunning

def firstConnection : Connection := closeThreeConnection 5

def secondConnection : Connection :=
  { closeThreeConnection 5 with clientSocket := 5 }

def copyInTime : List Event :=
  [.acceptConnection firstConnection, .assign, .create, .copy 0,
    .acceptConnection secondConnection, .assign, .create, .copy 1]

/-- The same steps, the first handler copying after `main` has received the
second request and assigned it to `argument`. -/
def copyTooLate : List Event :=
  [.acceptConnection firstConnection, .assign, .create,
    .acceptConnection secondConnection, .assign, .copy 0, .create, .copy 1]

theorem run_handledOnce_copyInTime :
    ∃ final, Run Server.step AssignsAfterCopies
        (Server.initial (List.replicate 8 0)) copyInTime final ∧
      final.handlers = [.copied ⟨closeThree, 5, 4⟩,
        .copied ⟨closeThree, 5, 5⟩] ∧
      final.HandledOnce := by
  obtain ⟨final, hexec, hhandlers⟩ : ∃ final,
      execute Server.step AssignsAfterCopies
        (Server.initial (List.replicate 8 0)) copyInTime = some final ∧
      final.handlers = [.copied ⟨closeThree, 5, 4⟩,
        .copied ⟨closeThree, 5, 5⟩] := ⟨_, rfl, rfl⟩
  have hrun := run_of_execute hexec
  exact ⟨final, hrun, hhandlers, Server.run_handledOnce hrun⟩

/-- Both handlers have the second request: the first one is dropped and the
second one is handled twice. -/
theorem not_handledOnce_copyTooLate :
    ∃ final, Run Server.step anyEvent
        (Server.initial (List.replicate 8 0)) copyTooLate final ∧
      final.requests = [⟨closeThree, 5, 4⟩, ⟨closeThree, 5, 5⟩] ∧
      final.handlers = [.copied ⟨closeThree, 5, 5⟩,
        .copied ⟨closeThree, 5, 5⟩] ∧
      ¬final.HandledOnce := by
  obtain ⟨final, hexec, hrequests, hhandlers⟩ : ∃ final,
      execute Server.step anyEvent
        (Server.initial (List.replicate 8 0)) copyTooLate = some final ∧
      final.requests = [⟨closeThree, 5, 4⟩, ⟨closeThree, 5, 5⟩] ∧
      final.handlers = [.copied ⟨closeThree, 5, 5⟩,
        .copied ⟨closeThree, 5, 5⟩] := ⟨_, rfl, rfl, rfl⟩
  refine ⟨final, run_of_execute hexec, hrequests, hhandlers, fun honce => ?_⟩
  have hown := honce.own 0 (.copied ⟨closeThree, 5, 5⟩) ⟨closeThree, 5, 5⟩
    (by rw [hhandlers]; rfl) rfl
  rw [hrequests] at hown
  exact absurd hown (by decide)

end TestRpc
