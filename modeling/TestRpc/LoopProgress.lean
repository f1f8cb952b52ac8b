import TestRpc.ThreadBatches

/-!
# The accept loop comes back

Between two `accept`s, `main` has to assign `argument`, create a thread and,
after every fiftieth one, wait for fifty handlers.  Each handler copies its
arguments and returns.  Every step of this kind takes one off the work that is
left; so `main` is back at `accept` after a number of steps that does not
depend on their order.  While there is work left some step of the kind can be
taken, unless the server is held up by handlers whose calls do not return:
with a full batch, `main` then waits in `pthread_join` for one of them.
-/

namespace TestRpc

open TransitionRuns

/-! ## The work that is left -/

def Handler.remaining : Handler → ℕ
  | .created => 2
  | .copied _ => 1
  | .finished _ => 0

def Handlers.remaining (handlers : List Handler) : ℕ :=
  (handlers.map Handler.remaining).sum

/-- The joins that follow the next `pthread_create`. -/
def Server.joinsAhead (server : Server) : ℕ :=
  if server.threadIndex + 1 < 50 then 0 else 50

/-- The steps that `main` takes until it is at `accept`, with the two of the
handler that it is about to create. -/
def Server.mainWork (server : Server) : ℕ :=
  match server.pc with
  | .accepting => 0
  | .receiving => 0
  | .received _ => 4 + server.joinsAhead
  | .assigned => 3 + server.joinsAhead
  | .joining => 50 - server.threadIndex
  | .left _ => 0

def Server.work (server : Server) : ℕ :=
  server.mainWork + Handlers.remaining server.handlers

/-- `main` is in its loop and does not wait for a peer in `recv`. -/
def Server.attending (server : Server) : Bool :=
  match server.pc with
  | .receiving => false
  | .left _ => false
  | _ => true

/-- A step that neither accepts a connection nor ends the loop by a
failure. -/
def Ordinary (_ : Server) : Event → Prop
  | .assign => True
  | .create => True
  | .join => True
  | .copy _ => True
  | .finish _ => True
  | _ => False

/-- Calls of handlers that do not return hold the server up: all other
handlers have returned, and `main` is at `accept` or joins a blocked one. -/
structure Server.HeldUp (server : Server) : Prop where
  handlers : ∀ (i : ℕ) (handler : Handler),
    server.handlers[i]? = some handler →
    i ∈ server.blocked ∨ ∃ arguments, handler = .finished arguments
  blocked : server.blocked ≠ []
  main : server.pc = .accepting ∨
    server.pc = .joining ∧ server.BlockedIn server.threadIndex

/-- Every run of ordinary steps is at most so long, can go on until it is so
long if nothing holds the server up, and has then brought `main` back to
`accept` and all handlers to their end. -/
structure Server.ReturnsAfter (server : Server) (steps : ℕ) : Prop where
  bounded : ∀ events next, Run Server.step Ordinary server events next →
    events.length ≤ steps
  goesOn : ∀ events next, Run Server.step Ordinary server events next →
    events.length < steps →
    (∃ event after, Ordinary next event ∧ next.step event = some after) ∨
      next.HeldUp
  back : ∀ events next, Run Server.step Ordinary server events next →
    events.length = steps →
    next.pc = .accepting ∧ ∀ handler ∈ next.handlers,
      ∃ arguments, handler = .finished arguments

/-! ## Every step takes one off -/

theorem Handlers.remaining_append (handlers more : List Handler) :
    Handlers.remaining (handlers ++ more) =
      Handlers.remaining handlers + Handlers.remaining more := by
  simp [Handlers.remaining]

theorem Handlers.remaining_set {handlers : List Handler} {index : ℕ}
    {before : Handler} (hbefore : handlers[index]? = some before)
    (after : Handler) :
    Handlers.remaining (handlers.set index after) + before.remaining =
      Handlers.remaining handlers + after.remaining :=
  sum_map_set Handler.remaining hbefore after

theorem Handlers.remaining_eq_zero_iff (handlers : List Handler) :
    Handlers.remaining handlers = 0 ↔
      ∀ handler ∈ handlers, ∃ arguments, handler = .finished arguments := by
  rw [Handlers.remaining, List.sum_eq_zero_iff]
  simp only [List.mem_map, forall_exists_index, and_imp,
    forall_apply_eq_imp_iff₂]
  apply forall₂_congr
  intro handler _
  cases handler with
  | created => simp [Handler.remaining]
  | copied arguments => simp [Handler.remaining]
  | finished arguments => simp [Handler.remaining]

theorem Server.work_create {server : Server} (hpc : server.pc = .assigned)
    (hindex : server.threadIndex < server.threadId.length) :
    server.create.work + 1 = server.work := by
  rw [Server.create_eq hindex, Server.work, Server.work, Server.mainWork,
    Server.mainWork, hpc]
  simp only [Handlers.remaining_append, Server.joinsAhead]
  by_cases hmore : server.threadIndex + 1 < 50
  · simp only [if_pos hmore, Handlers.remaining, List.map_cons, List.map_nil,
      List.sum_singleton, Handler.remaining]
    omega
  · simp only [if_neg hmore, Handlers.remaining, List.map_cons, List.map_nil,
      List.sum_singleton, Handler.remaining]
    omega

theorem Server.work_join {server next : Server} (hbatched : server.Batched)
    (hpc : server.pc = .joining) (hjoin : server.join = some next) :
    next.work + 1 = server.work := by
  obtain ⟨hindex, base, hbatch, rfl⟩ := hbatched.join_cases hpc hjoin
  simp only [Server.work, Server.mainWork, hpc]
  by_cases hmore : server.threadIndex + 1 < 50
  · simp only [if_pos hmore]
    omega
  · simp only [if_neg hmore]
    omega

theorem Server.work_step {server next : Server} {event : Event}
    (hbatched : server.Batched) (hordinary : Ordinary server event)
    (hstep : server.step event = some next) :
    next.work + 1 = server.work := by
  cases Server.steps_of_step hstep with
  | assigned hpc =>
      simp only [Server.work, Server.mainWork, Server.joinsAhead, hpc]
      omega
  | created hpc =>
      obtain ⟨hindex, base, hbatch⟩ :=
        hbatched.creating (by simp [Server.running, hpc]) (by simp [hpc])
      have hlength := hbatch.slots_length
      exact Server.work_create hpc (by omega)
  | joined hpc hjoin => exact Server.work_join hbatched hpc hjoin
  | @copied handler arguments hrunning hcreated hargument =>
      have hset := Handlers.remaining_set hcreated (.copied arguments)
      simp only [Handler.remaining] at hset
      simp only [Server.work, Server.mainWork, Server.joinsAhead]
      omega
  | @finished handler arguments hrunning hcopied hfree =>
      have hset := Handlers.remaining_set hcopied (.finished arguments)
      simp only [Handler.remaining] at hset
      simp only [Server.work, Server.mainWork, Server.joinsAhead]
      omega
  | received hpc hreceive => exact absurd hordinary id
  | receiveFailed hpc hreceive hexit => exact absurd hordinary id
  | unblocks hrunning => exact absurd hordinary id
  | silent hpc | acceptFailed hpc | createFailed hpc | joinFailed hpc
  | blocks hrunning hcopied | crashed hrunning hcopied =>
      exact absurd hordinary id

/-! ## Some step can be taken -/

/-- `argument` has been assigned when there is a handler to copy it, and only
handlers that have returned have been joined. -/
structure Server.Ready (server : Server) : Prop where
  batched : server.Batched
  armed : server.pc = .assigned ∨ server.handlers ≠ [] →
    server.argument.isSome = true
  joined : ∀ handler ∈ server.joined, ∃ arguments,
    server.handlers[handler]? = some (.finished arguments)

theorem Server.initial_ready (uninitialised : List UInt8) :
    (Server.initial uninitialised).Ready where
  batched := Server.initial_batched uninitialised
  armed := by simp [Server.initial]
  joined := by simp [Server.initial]

theorem Server.join_joined {server next : Server}
    (hjoin : server.join = some next) {handler : ℕ}
    (hmem : handler ∈ next.joined) :
    handler ∈ server.joined ∨ ∃ arguments,
      server.handlers[handler]? = some (.finished arguments) := by
  unfold Server.join at hjoin
  split at hjoin
  · next joined hslot =>
    split at hjoin
    · cases hjoin
      exact .inl hmem
    · split at hjoin
      · next arguments hfinished =>
        have hcases : handler ∈ server.joined ++ [joined] := by
          dsimp only at hjoin
          split at hjoin
          · cases hjoin
            exact hmem
          · cases hjoin
            exact hmem
        rcases List.mem_append.mp hcases with hold | hlast
        · exact .inl hold
        · rw [List.mem_singleton.mp hlast]
          exact .inr ⟨arguments, hfinished⟩
      · cases hjoin
  · cases hjoin
    exact .inl hmem

theorem Server.Ready.armed_step {server next : Server} {event : Event}
    (hready : server.Ready) (hstep : server.step event = some next)
    (hnext : next.pc = .assigned ∨ next.handlers ≠ []) :
    next.argument.isSome = true := by
  cases Server.steps_of_step hstep with
  | assigned hpc => rfl
  | created hpc =>
      have hargument := hready.armed (.inl hpc)
      by_cases hindex : server.threadIndex < server.threadId.length
      · rw [Server.create_eq hindex]
        exact hargument
      · rw [Server.create, if_neg hindex]
        exact hargument
  | joined hpc hjoin =>
      rcases Server.join_cases hjoin with ⟨rfl, _⟩ | ⟨_, _, rfl⟩
      · simp only [Server.leave, reduceCtorEq, false_or] at hnext
        exact hready.armed (.inr hnext)
      · by_cases hmore : server.threadIndex + 1 < 50
        · simp only [hmore, if_true, hpc, reduceCtorEq, false_or] at hnext
          exact hready.armed (.inr hnext)
        · simp only [hmore, if_false, reduceCtorEq, false_or] at hnext
          exact hready.armed (.inr hnext)
  | copied hrunning hcreated hargument =>
      exact hready.armed (.inr (List.ne_nil_of_mem
        (List.mem_of_getElem? hcreated)))
  | finished hrunning hcopied hfree =>
      exact hready.armed (.inr (List.ne_nil_of_mem
        (List.mem_of_getElem? hcopied)))
  | blocks hrunning hcopied => exact hready.armed hnext
  | unblocks hrunning => exact hready.armed hnext
  | received hpc hreceive =>
      simp only [reduceCtorEq, false_or] at hnext
      exact hready.armed (.inr hnext)
  | silent hpc =>
      simp only [reduceCtorEq, false_or] at hnext
      exact hready.armed (.inr hnext)
  | receiveFailed hpc hreceive hexit =>
      simp only [reduceCtorEq, false_or] at hnext
      exact hready.armed (.inr hnext)
  | acceptFailed hpc | createFailed hpc | joinFailed hpc
  | crashed hrunning hcopied =>
      simp only [Server.leave, reduceCtorEq, false_or] at hnext
      exact hready.armed (.inr hnext)

theorem Server.joined_of_step {server next : Server} {event : Event}
    (hstep : server.step event = some next) {handler : ℕ}
    (hmem : handler ∈ next.joined) :
    handler ∈ server.joined ∨ ∃ arguments,
      server.handlers[handler]? = some (.finished arguments) := by
  cases Server.steps_of_step hstep with
  | joined hpc hjoin => exact Server.join_joined hjoin hmem
  | created hpc =>
      left
      by_cases hindex : server.threadIndex < server.threadId.length
      · rw [Server.create_eq hindex] at hmem
        exact hmem
      · rw [Server.create, if_neg hindex] at hmem
        exact hmem
  | received hpc hreceive => exact .inl hmem
  | receiveFailed hpc hreceive hexit => exact .inl hmem
  | copied hrunning hcreated hargument => exact .inl hmem
  | finished hrunning hcopied hfree => exact .inl hmem
  | unblocks hrunning => exact .inl hmem
  | silent hpc | acceptFailed hpc | assigned hpc | createFailed hpc
  | joinFailed hpc | blocks hrunning hcopied | crashed hrunning hcopied =>
      exact .inl hmem

theorem Server.Ready.step {server next : Server} {event : Event}
    (hready : server.Ready) (hstep : server.step event = some next) :
    next.Ready where
  batched := hready.batched.step hstep
  armed := hready.armed_step hstep
  joined := by
    intro handler hmem
    rcases Server.joined_of_step hstep hmem with hold | ⟨arguments, hfinished⟩
    · obtain ⟨arguments, hfinished⟩ := hready.joined handler hold
      exact ⟨arguments, Server.finished_of_step hstep hfinished⟩
    · exact ⟨arguments, Server.finished_of_step hstep hfinished⟩

/-- The thread that `main` waits for has returned or is blocked when all
handlers have or are. -/
theorem Server.Ready.exists_join {server : Server} (hready : server.Ready)
    (hpc : server.pc = .joining)
    (hall : ∀ (i : ℕ) (handler : Handler),
      server.handlers[i]? = some handler →
      i ∈ server.blocked ∨ ∃ arguments, handler = .finished arguments) :
    (∃ after, server.step .join = some after) ∨ server.HeldUp := by
  obtain ⟨hindex, base, hbatch⟩ := hready.batched.joining hpc
  have hslot := hbatch.slots server.threadIndex hindex
  have hcreated := hbatch.created_eq
  have hnew : base + server.threadIndex ∉ server.joined := by
    rw [hbatch.joined_eq, List.mem_range]
    omega
  obtain ⟨handler, hhandler⟩ : ∃ handler,
      server.handlers[base + server.threadIndex]? = some handler :=
    ⟨_, List.getElem?_eq_getElem (by omega)⟩
  rcases hall _ handler hhandler with hblocked | ⟨arguments, rfl⟩
  · exact .inr ⟨hall, List.ne_nil_of_mem hblocked,
      .inr ⟨hpc, _, hblocked, hslot⟩⟩
  · left
    rw [Server.step, if_pos hpc, Server.join]
    simp only [hslot, if_neg hnew, hhandler]
    by_cases hmore : server.threadIndex + 1 < 50
    · exact ⟨_, if_pos hmore⟩
    · exact ⟨_, if_neg hmore⟩

theorem Server.Ready.exists_handler_step {server : Server}
    (hready : server.Ready) (hrunning : server.running = true) {index : ℕ}
    {handler : Handler} (hindex : server.handlers[index]? = some handler)
    (hfree : index ∉ server.blocked)
    (hunfinished : ∀ arguments, handler ≠ .finished arguments) :
    ∃ event after, Ordinary server event ∧
      server.step event = some after := by
  cases handler with
  | created =>
      obtain ⟨arguments, hargument⟩ := Option.isSome_iff_exists.mp
        (hready.armed (.inr (List.ne_nil_of_mem
          (List.mem_of_getElem? hindex))))
      refine ⟨.copy index,
        { server with
          handlers := server.handlers.set index (.copied arguments) },
        trivial, ?_⟩
      simp only [Server.step, hrunning, if_true, Server.copy, hindex,
        hargument]
  | copied arguments =>
      refine ⟨.finish index,
        { server with
          handlers := server.handlers.set index (.finished arguments) },
        trivial, ?_⟩
      simp only [Server.step, hrunning, if_true, Server.finish, hindex,
        if_neg hfree]
  | finished arguments => exact absurd rfl (hunfinished arguments)

theorem Server.running_of_attending {server : Server}
    (hattending : server.attending = true) : server.running = true := by
  unfold Server.attending at hattending
  unfold Server.running
  cases hpc : server.pc with
  | left exit => simp [hpc] at hattending
  | accepting | receiving | received argument | assigned | joining => rfl

theorem Server.Ready.exists_step {server : Server} (hready : server.Ready)
    (hattending : server.attending = true) (hwork : server.work ≠ 0) :
    (∃ event after, Ordinary server event ∧
      server.step event = some after) ∨ server.HeldUp := by
  have hrunning := Server.running_of_attending hattending
  by_cases hall : ∀ (i : ℕ) (handler : Handler),
      server.handlers[i]? = some handler →
      i ∈ server.blocked ∨ ∃ arguments, handler = .finished arguments
  · cases hpc : server.pc with
    | accepting =>
        -- All of the work that is left is that of blocked handlers.
        have hremaining : Handlers.remaining server.handlers ≠ 0 := by
          simpa [Server.work, Server.mainWork, hpc] using hwork
        rw [Ne, Handlers.remaining_eq_zero_iff] at hremaining
        push Not at hremaining
        obtain ⟨handler, hmem, hunfinished⟩ := hremaining
        obtain ⟨index, hindex⟩ := List.getElem?_of_mem hmem
        rcases hall index handler hindex with hblocked | ⟨arguments, rfl⟩
        · exact .inr ⟨hall, List.ne_nil_of_mem hblocked, .inl hpc⟩
        · exact absurd rfl (hunfinished arguments)
    | received argument =>
        refine .inl ⟨.assign,
          { server with pc := .assigned, argument := some argument },
          trivial, ?_⟩
        simp only [Server.step, hpc]
    | assigned =>
        refine .inl ⟨.create, server.create, trivial, ?_⟩
        rw [Server.step, if_pos hpc]
    | joining =>
        rcases hready.exists_join hpc hall with ⟨after, hafter⟩ | hheld
        · exact .inl ⟨.join, after, trivial, hafter⟩
        · exact .inr hheld
    | receiving | left exit => simp [Server.attending, hpc] at hattending
  · left
    push Not at hall
    obtain ⟨index, handler, hindex, hfree, hunfinished⟩ := hall
    exact hready.exists_handler_step hrunning hindex hfree hunfinished

/-! ## How much work there can be -/

theorem Handler.remaining_le (handler : Handler) : handler.remaining ≤ 2 := by
  cases handler with
  | created => exact le_rfl
  | copied arguments => exact Nat.le_succ 1
  | finished arguments => exact Nat.zero_le 2

/-- Handlers that have been joined have nothing left to do. -/
theorem Server.Ready.remaining_le {server : Server} (hready : server.Ready)
    {count : ℕ} (hjoined : server.joined = List.range count) :
    Handlers.remaining server.handlers ≤
      2 * (server.handlers.length - count) := by
  apply sum_map_le_of_settled
  · intro i hlt handler hhandler
    obtain ⟨arguments, hfinished⟩ := hready.joined i
      (by rw [hjoined]; exact List.mem_range.mpr hlt)
    rw [hfinished, Option.mem_some_iff] at hhandler
    subst hhandler
    rfl
  · intro handler _
    exact handler.remaining_le

theorem Server.Ready.work_le {server : Server} (hready : server.Ready)
    (hrunning : server.running = true) : server.work ≤ 152 := by
  by_cases hpc : server.pc = .joining
  · obtain ⟨hindex, base, hbatch⟩ := hready.batched.joining hpc
    have hremaining := hready.remaining_le hbatch.joined_eq
    have hcreated := hbatch.created_eq
    simp only [Server.work, Server.mainWork, hpc]
    omega
  · obtain ⟨hindex, base, hbatch⟩ := hready.batched.creating hrunning hpc
    have hremaining := hready.remaining_le hbatch.joined_eq
    have hcreated := hbatch.created_eq
    have hmain : server.mainWork ≤ 4 + server.joinsAhead := by
      unfold Server.mainWork
      cases hplace : server.pc with
      | joining => exact absurd hplace hpc
      | accepting | receiving | received argument | assigned | left exit =>
          simp only
          omega
    unfold Server.joinsAhead at hmain
    rw [Server.work]
    split at hmain <;> omega

/-! ## Whole runs -/

theorem Server.attending_of_ordinary {server next : Server} {event : Event}
    (hbatched : server.Batched) (hattending : server.attending = true)
    (hordinary : Ordinary server event)
    (hstep : server.step event = some next) : next.attending = true := by
  cases Server.steps_of_step hstep with
  | assigned hpc => rfl
  | created hpc =>
      obtain ⟨hindex, base, hbatch⟩ :=
        hbatched.creating (by simp [Server.running, hpc]) (by simp [hpc])
      have hlength := hbatch.slots_length
      rw [Server.create_eq (by omega)]
      by_cases hmore : server.threadIndex + 1 < 50 <;>
        simp [Server.attending, hmore]
  | joined hpc hjoin =>
      obtain ⟨_, _, _, rfl⟩ := hbatched.join_cases hpc hjoin
      by_cases hmore : server.threadIndex + 1 < 50 <;>
        simp [Server.attending, hmore]
  | copied hrunning hcreated hargument => exact hattending
  | finished hrunning hcopied hfree => exact hattending
  | received hpc hreceive => exact absurd hordinary id
  | receiveFailed hpc hreceive hexit => exact absurd hordinary id
  | unblocks hrunning => exact absurd hordinary id
  | silent hpc | acceptFailed hpc | createFailed hpc | joinFailed hpc
  | blocks hrunning hcopied | crashed hrunning hcopied =>
      exact absurd hordinary id

theorem Server.Ready.run {server next : Server} {events : List Event}
    (hready : server.Ready) (hattending : server.attending = true)
    (hrun : Run Server.step Ordinary server events next) :
    (next.Ready ∧ next.attending = true) ∧
      events.length + next.work = server.work := by
  apply hrun.length_add_measure _ ⟨hready, hattending⟩
  rintro state event after ⟨hinv, hstate⟩ hordinary hstep
  exact ⟨⟨hinv.step hstep,
    Server.attending_of_ordinary hinv.batched hstate hordinary hstep⟩,
    Server.work_step hinv.batched hordinary hstep⟩

theorem Server.Ready.returnsAfter {server : Server} (hready : server.Ready)
    (hattending : server.attending = true) :
    server.ReturnsAfter server.work := by
  constructor
  case bounded =>
    intro events next hrun
    have hlength := (hready.run hattending hrun).2
    omega
  case goesOn =>
    intro events next hrun hshort
    obtain ⟨⟨hnext, hnextAttending⟩, hlength⟩ := hready.run hattending hrun
    exact hnext.exists_step hnextAttending (by omega)
  case back =>
    intro events next hrun hall
    obtain ⟨⟨hnext, hnextAttending⟩, hlength⟩ := hready.run hattending hrun
    have hzero : next.mainWork = 0 ∧
        Handlers.remaining next.handlers = 0 := by
      rw [Server.work] at hlength
      omega
    refine ⟨?_, (Handlers.remaining_eq_zero_iff _).mp hzero.2⟩
    rw [Server.mainWork] at hzero
    cases hpc : next.pc with
    | accepting => rfl
    | received argument | assigned => simp [hpc] at hzero
    | joining =>
        have hindex := (hnext.batched.joining hpc).1
        simp only [hpc] at hzero
        omega
    | receiving | left exit => simp [Server.attending, hpc] at hnextAttending

/-- In every state of every run in which `main` is in its loop and does not
wait in `recv`, it is back at `accept` after a number of ordinary steps that
their order does not change and that is never greater than 152; only handlers
whose calls do not return can hold it up. -/
theorem Server.run_returns {uninitialised : List UInt8}
    {events : List Event} {server : Server}
    (hrun : Run Server.step anyEvent (Server.initial uninitialised) events
      server) (hattending : server.attending = true) :
    ∃ steps ≤ 152, server.ReturnsAfter steps := by
  have hready : server.Ready := by
    apply hrun.invariant _ (Server.initial_ready uninitialised)
    intro state event next hinv _ hstep
    exact hinv.step hstep
  exact ⟨server.work,
    hready.work_le (Server.running_of_attending hattending),
    hready.returnsAfter hattending⟩

/-- The fiftieth request of a batch is received before any handler of the
batch has copied its arguments. -/
def fullestBatch : List Event :=
  (List.replicate 49 [Event.acceptConnection (closeThreeConnection 5),
    .assign, .create]).flatten ++ [.acceptConnection (closeThreeConnection 5)]

theorem run_returns_fullestBatch :
    ∃ server, Run Server.step anyEvent (Server.initial (List.replicate 8 0))
        fullestBatch server ∧
      (server.attending, server.work) = (true, 152) ∧
      ∃ steps ≤ 152, server.ReturnsAfter steps := by
  have hexec : (execute Server.step anyEvent
      (Server.initial (List.replicate 8 0)) fullestBatch).map
        (fun server => (server.attending, server.work)) =
      some (true, 152) := by
    decide +kernel
  obtain ⟨server, hserver, hreached⟩ := Option.map_eq_some_iff.mp hexec
  have hrun := run_of_execute hserver
  exact ⟨server, hrun, hreached,
    Server.run_returns hrun (Prod.mk.inj hreached).1⟩

end TestRpc
