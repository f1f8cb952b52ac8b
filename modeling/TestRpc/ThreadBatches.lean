import TestRpc.AcceptLoop
import TestRpc.RepeatedSearch

/-!
# Batches of handler threads

`thread_index` is where the next thread is created, tells when a batch of fifty
is full, and walks over the batch while it is joined.  In every run the slots
in front of it are the threads that have yet to be joined, so that `main` joins
each thread once and never has more than fifty to join.
-/

namespace TestRpc

open TransitionRuns RepeatedSearch

/-! ## What is asked of the batches -/

/-- The handlers created and not joined yet, in the order of their
creation. -/
def Server.unjoined (server : Server) : List ℕ :=
  (List.range server.handlers.length).filter fun handler =>
    handler ∉ server.joined

/-- At the head of the loop, the slots in front of `thread_index` are the
handlers that have not been joined, and all earlier ones have been joined once.
In every state, the next thread is created in a slot of the array, a slot is
overwritten only when its thread has been joined, and the next thread to join
is there and has not been joined. -/
structure Server.LosesNoThread (server : Server) : Prop where
  head : server.pc = .accepting →
    server.threadIndex < 50 ∧
      server.threadId.take server.threadIndex = server.unjoined.map some ∧
      ∀ handler < server.handlers.length, handler ∉ server.unjoined →
        server.joined.count handler = 1 ∧
          ∀ later ∈ server.unjoined, handler < later
  creates : server.pc = .assigned →
    server.threadIndex < server.threadId.length
  overwrites : ∀ event next, server.step event = some next →
    ∀ k handler : ℕ, server.threadId[k]? = some (some handler) →
      next.threadId[k]? ≠ some (some handler) → handler ∈ server.joined
  joins : server.pc = .joining →
    ∃ handler ∈ server.unjoined,
      server.threadId[server.threadIndex]? = some (some handler)
  defined : server.pc ≠ .left .undefined
  once : server.joined.Nodup
  atMost : server.unjoined.length ≤ 50

/-! ## One batch -/

theorem Server.unjoined_eq {server : Server} {count : ℕ}
    (hjoined : server.joined = List.range count)
    (hcount : count ≤ server.handlers.length) :
    server.unjoined =
      List.range' count (server.handlers.length - count) := by
  have hfirst : server.joined =
      (List.range server.handlers.length).take count := by
    rw [hjoined, List.take_range, Nat.min_eq_left hcount]
  rw [Server.unjoined, hfirst, filter_notMem_take List.nodup_range,
    List.range_eq_range', List.drop_range']
  simp

section Batch

variable {server : Server} {base filled done : ℕ}

theorem Batch.unjoined_eq
    (hbatch : Batch server.threadId server.handlers.length server.joined base
      filled done) (hdone : done ≤ filled) :
    server.unjoined = List.range' (base + done) (filled - done) := by
  have hcreated := hbatch.created_eq
  rw [Server.unjoined_eq hbatch.joined_eq (by omega), hcreated,
    Nat.add_sub_add_left]

theorem Batch.take_slots
    (hbatch : Batch server.threadId server.handlers.length server.joined base
      filled done) :
    server.threadId.take filled = (List.range' base filled).map some := by
  apply List.ext_getElem?
  intro k
  by_cases hk : k < filled
  · rw [List.getElem?_take_of_lt hk, hbatch.slots k hk, List.getElem?_map,
      List.getElem?_range' hk]
    simp
  · rw [List.getElem?_eq_none (by simp; omega),
      List.getElem?_eq_none (by simp; omega)]

end Batch

/-! ## Slots of earlier batches -/

/-- The number of slots that the current batch has filled. -/
def Server.filled (server : Server) : ℕ :=
  match server.pc with
  | .joining => 50
  | _ => server.threadIndex

/-- A slot that is not of the current batch has a thread that was joined. -/
def Server.Settled (server : Server) : Prop :=
  ∀ k handler : ℕ, server.threadId[k]? = some (some handler) →
    k < server.filled ∨ handler ∈ server.joined

theorem Server.Settled.create {server : Server} (hsettled : server.Settled)
    (hpc : server.pc = .assigned)
    (hindex : server.threadIndex < server.threadId.length)
    (hbatch : server.threadIndex < 50) : server.create.Settled := by
  intro k handler hslot
  have hfilled : server.create.filled = server.threadIndex + 1 := by
    rw [Server.create_eq hindex]
    by_cases hmore : server.threadIndex + 1 < 50
    · simp [Server.filled, hmore]
    · simp [Server.filled, hmore]
      omega
  rw [hfilled]
  rw [Server.create_eq hindex] at hslot ⊢
  rcases getElem?_set_cases hslot with ⟨rfl, _⟩ | ⟨_, hold⟩
  · exact .inl (Nat.lt_succ_self _)
  · rcases hsettled k handler hold with hlt | hjoined
    · simp only [Server.filled, hpc] at hlt
      exact .inl (by omega)
    · exact .inr hjoined

/-- Joining the last thread of a batch settles all of its slots. -/
theorem Server.Settled.join {server next : Server}
    (hsettled : server.Settled) (hbatched : server.Batched)
    (hpc : server.pc = .joining) (hjoin : server.join = some next) :
    next.Settled := by
  obtain ⟨hindex, base, hbatch, rfl⟩ := hbatched.join_cases hpc hjoin
  intro k handler hheld
  rcases hsettled k handler hheld with hlt | hold
  · simp only [Server.filled, hpc] at hlt
    by_cases hmore : server.threadIndex + 1 < 50
    · left
      simpa [Server.filled, hmore] using hlt
    · right
      simp only [hbatch.slots k hlt, Option.some.injEq] at hheld
      simp only [hbatch.joined_eq, List.mem_append, List.mem_range,
        List.mem_singleton]
      omega
  · right
    exact List.mem_append_left _ hold

theorem Server.Settled.of_eq {server next : Server}
    (hsettled : server.Settled) (hslots : next.threadId = server.threadId)
    (hfilled : next.filled = server.filled)
    (hjoined : next.joined = server.joined) : next.Settled := by
  intro k handler hslot
  rw [hslots] at hslot
  rw [hfilled, hjoined]
  exact hsettled k handler hslot

theorem Server.Settled.step {server next : Server} {event : Event}
    (hsettled : server.Settled) (hbatched : server.Batched)
    (hstep : server.step event = some next)
    (hrunning : next.running = true) : next.Settled := by
  cases Server.steps_of_step hstep with
  | received hpc hreceive =>
      exact hsettled.of_eq rfl (by simp [Server.filled, hpc]) rfl
  | silent hpc | assigned hpc =>
      exact hsettled.of_eq rfl (by simp [Server.filled, hpc]) rfl
  | created hpc =>
      obtain ⟨hindex, base, hbatch⟩ :=
        hbatched.creating (by simp [Server.running, hpc]) (by simp [hpc])
      have hlength := hbatch.slots_length
      exact hsettled.create hpc (by omega) hindex
  | joined hpc hjoin => exact hsettled.join hbatched hpc hjoin
  | copied hrunning' hcreated hargument => exact hsettled.of_eq rfl rfl rfl
  | finished hrunning' hcopied hfree => exact hsettled.of_eq rfl rfl rfl
  | blocks hrunning' hcopied => exact hsettled.of_eq rfl rfl rfl
  | unblocks hrunning' => exact hsettled.of_eq rfl rfl rfl
  | receiveFailed hpc hreceive hexit => cases hrunning
  | acceptFailed hpc | createFailed hpc | joinFailed hpc
  | crashed hrunning' hcopied => cases hrunning

/-! ## After the loop -/

/-- The handlers joined are the first ones, and at most fifty are not. -/
def Server.Bounded (server : Server) : Prop :=
  ∃ count, server.joined = List.range count ∧
    count ≤ server.handlers.length ∧ server.handlers.length ≤ count + 50

theorem Batch.bounded {server : Server} {base filled done : ℕ}
    (hbatch : Batch server.threadId server.handlers.length server.joined base
      filled done) (hdone : done ≤ filled) (hfilled : filled ≤ 50) :
    server.Bounded := by
  have hcreated := hbatch.created_eq
  exact ⟨base + done, hbatch.joined_eq, by omega, by omega⟩

theorem Server.Batched.bounded {server : Server} (hbatched : server.Batched)
    (hrunning : server.running = true) : server.Bounded := by
  by_cases hpc : server.pc = .joining
  · obtain ⟨hindex, base, hbatch⟩ := hbatched.joining hpc
    exact hbatch.bounded hindex.le le_rfl
  · obtain ⟨hindex, base, hbatch⟩ := hbatched.creating hrunning hpc
    exact hbatch.bounded (Nat.zero_le _) hindex.le

/-- A step that leaves the loop creates and joins nothing. -/
theorem Server.step_left {server next : Server} {event : Event}
    (hstep : server.step event = some next)
    (hleft : next.running = false) :
    next.handlers.length = server.handlers.length ∧
      next.joined = server.joined := by
  cases Server.steps_of_step hstep with
  | received hpc hreceive => cases hleft
  | silent hpc | assigned hpc => cases hleft
  | created hpc =>
      by_cases hindex : server.threadIndex < server.threadId.length
      · rw [Server.create_eq hindex] at hleft
        by_cases hmore : server.threadIndex + 1 < 50 <;>
          simp [Server.running, hmore] at hleft
      · rw [Server.create, if_neg hindex]
        exact ⟨rfl, rfl⟩
  | joined hpc hjoin =>
      rcases Server.join_cases hjoin with ⟨rfl, _⟩ | ⟨handler, _, rfl⟩
      · exact ⟨rfl, rfl⟩
      · by_cases hmore : server.threadIndex + 1 < 50 <;>
          simp [Server.running, hmore, hpc] at hleft
  | copied hrunning hcreated hargument =>
      exact ⟨List.length_set, rfl⟩
  | finished hrunning hcopied hfree => exact ⟨List.length_set, rfl⟩
  | unblocks hrunning => exact ⟨rfl, rfl⟩
  | receiveFailed hpc hreceive hexit => exact ⟨rfl, rfl⟩
  | acceptFailed hpc | createFailed hpc | joinFailed hpc
  | blocks hrunning hcopied | crashed hrunning hcopied => exact ⟨rfl, rfl⟩

theorem Server.Bounded.step {server next : Server} {event : Event}
    (hbounded : server.Bounded) (hbatched : server.Batched)
    (hstep : server.step event = some next) : next.Bounded := by
  cases hrunning : next.running with
  | true => exact (hbatched.step hstep).bounded hrunning
  | false =>
      obtain ⟨hhandlers, hjoined⟩ := Server.step_left hstep hrunning
      rw [Server.Bounded, hhandlers, hjoined]
      exact hbounded

theorem Server.Bounded.unjoined_le {server : Server}
    (hbounded : server.Bounded) : server.unjoined.length ≤ 50 := by
  obtain ⟨count, hjoined, hcount, hcreated⟩ := hbounded
  rw [Server.unjoined_eq hjoined hcount, List.length_range']
  omega

/-! ## Whole runs -/

theorem Server.running_of_step {server next : Server} {event : Event}
    (hstep : server.step event = some next) : server.running = true := by
  cases Server.steps_of_step hstep with
  | copied hrunning hcreated hargument => exact hrunning
  | finished hrunning hcopied hfree => exact hrunning
  | blocks hrunning hcopied | crashed hrunning hcopied => exact hrunning
  | unblocks hrunning => exact hrunning
  | received hpc hreceive => simp [Server.running, hpc]
  | receiveFailed hpc hreceive hexit => simp [Server.running, hpc]
  | silent hpc | acceptFailed hpc | assigned hpc | created hpc
  | createFailed hpc | joined hpc hjoin | joinFailed hpc =>
      simp [Server.running, hpc]

/-- What the batches are, which slots are settled, and how many handlers are
not joined. -/
structure Server.Accounted (server : Server) : Prop where
  batched : server.Batched
  settled : server.running = true → server.Settled
  bounded : server.Bounded

theorem Server.initial_accounted (uninitialised : List UInt8) :
    (Server.initial uninitialised).Accounted := by
  refine ⟨Server.initial_batched uninitialised, fun _ k handler hslot => ?_,
    0, rfl, Nat.zero_le _, Nat.zero_le _⟩
  have hempty := List.mem_of_getElem? hslot
  rw [Server.initial, List.mem_replicate] at hempty
  cases hempty.2

theorem Server.Accounted.step {server next : Server} {event : Event}
    (hinv : server.Accounted) (hstep : server.step event = some next) :
    next.Accounted := by
  refine ⟨hinv.batched.step hstep, fun hrunning => ?_,
    hinv.bounded.step hinv.batched hstep⟩
  apply Server.Settled.step _ hinv.batched hstep hrunning
  exact hinv.settled (Server.running_of_step hstep)

/-- At the head of the loop the current batch has no thread that was
joined. -/
theorem Server.Accounted.head {server : Server} (hinv : server.Accounted)
    (hpc : server.pc = .accepting) :
    server.threadIndex < 50 ∧
      server.threadId.take server.threadIndex = server.unjoined.map some ∧
      ∀ handler < server.handlers.length, handler ∉ server.unjoined →
        server.joined.count handler = 1 ∧
          ∀ later ∈ server.unjoined, handler < later := by
  obtain ⟨hindex, base, hbatch⟩ :=
    hinv.batched.creating (by simp [Server.running, hpc]) (by simp [hpc])
  have hunjoined := hbatch.unjoined_eq (Nat.zero_le _)
  have hcreated := hbatch.created_eq
  refine ⟨hindex, ?_, fun handler hhandler hmem => ?_⟩
  · rw [hunjoined, hbatch.take_slots]
    rfl
  · rw [hunjoined, List.mem_range'_1] at hmem
    have hearlier : handler < base := by omega
    refine ⟨?_, fun later hlater => ?_⟩
    · rw [hbatch.joined_eq]
      exact List.count_eq_one_of_mem List.nodup_range
        (List.mem_range.mpr hearlier)
    · rw [hunjoined, List.mem_range'_1] at hlater
      omega

/-- Only `pthread_create` writes a slot, and it does so behind the current
batch. -/
theorem Server.Accounted.overwrites {server next : Server} {event : Event}
    (hinv : server.Accounted) (hstep : server.step event = some next)
    {k handler : ℕ} (hslot : server.threadId[k]? = some (some handler))
    (hnext : next.threadId[k]? ≠ some (some handler)) :
    handler ∈ server.joined := by
  have hsettled := hinv.settled (Server.running_of_step hstep)
  cases Server.steps_of_step hstep with
  | created hpc =>
      rcases hsettled k handler hslot with hlt | hjoined
      · simp only [Server.filled, hpc] at hlt
        have hindex : k ≠ server.threadIndex := hlt.ne
        by_cases hbound : server.threadIndex < server.threadId.length
        · rw [Server.create_eq hbound] at hnext
          exact absurd ((List.getElem?_set_ne hindex.symm).trans hslot) hnext
        · rw [Server.create, if_neg hbound] at hnext
          exact absurd hslot hnext
      · exact hjoined
  | joined hpc hjoin =>
      rcases Server.join_cases hjoin with ⟨rfl, _⟩ | ⟨_, _, rfl⟩
      · exact absurd hslot hnext
      · exact absurd hslot hnext
  | received hpc hreceive => exact absurd hslot hnext
  | receiveFailed hpc hreceive hexit => exact absurd hslot hnext
  | copied hrunning hcreated hargument => exact absurd hslot hnext
  | finished hrunning hcopied hfree => exact absurd hslot hnext
  | unblocks hrunning => exact absurd hslot hnext
  | silent hpc | acceptFailed hpc | assigned hpc | createFailed hpc
  | joinFailed hpc | blocks hrunning hcopied | crashed hrunning hcopied =>
      exact absurd hslot hnext

theorem Server.Accounted.joins {server : Server} (hinv : server.Accounted)
    (hpc : server.pc = .joining) :
    ∃ handler ∈ server.unjoined,
      server.threadId[server.threadIndex]? = some (some handler) := by
  obtain ⟨hindex, base, hbatch⟩ := hinv.batched.joining hpc
  refine ⟨base + server.threadIndex, ?_,
    hbatch.slots server.threadIndex hindex⟩
  rw [hbatch.unjoined_eq hindex.le, List.mem_range'_1]
  omega

theorem Server.Accounted.losesNoThread {server : Server}
    (hinv : server.Accounted) : server.LosesNoThread := by
  constructor
  case head => exact hinv.head
  case creates =>
    intro hpc
    obtain ⟨hindex, base, hbatch⟩ :=
      hinv.batched.creating (by simp [Server.running, hpc]) (by simp [hpc])
    have hlength := hbatch.slots_length
    omega
  case overwrites =>
    intro event next hstep k handler hslot hnext
    exact hinv.overwrites hstep hslot hnext
  case joins => exact hinv.joins
  case defined =>
    intro hpc
    have hbatched := hinv.batched
    simp only [Server.Batched, hpc] at hbatched
    exact hbatched rfl
  case once =>
    obtain ⟨count, hjoined, _⟩ := hinv.bounded
    rw [hjoined]
    exact List.nodup_range
  case atMost => exact hinv.bounded.unjoined_le

/-- In every run of the accept loop, whatever the order of the steps of `main`
and of the handlers and whatever fails, no thread is lost. -/
theorem Server.run_losesNoThread {uninitialised : List UInt8}
    {events : List Event} {server : Server}
    (hrun : Run Server.step anyEvent (Server.initial uninitialised) events
      server) : server.LosesNoThread := by
  have haccounted : server.Accounted := by
    apply hrun.invariant _ (Server.initial_accounted uninitialised)
    intro state event next hinv _ hstep
    exact hinv.step hstep
  exact haccounted.losesNoThread

def answeredRequest (handler : ℕ) : List Event :=
  [.acceptConnection (closeThreeConnection 5), .assign, .create,
    .copy handler, .finish handler]

/-- A batch of fifty requests and the first request after it. -/
def fullBatch : List Event :=
  (List.range 50).flatMap answeredRequest ++ List.replicate 50 .join ++
    answeredRequest 50

theorem run_losesNoThread_fullBatch :
    ∃ server, Run Server.step anyEvent (Server.initial (List.replicate 8 0))
        fullBatch server ∧
      (server.pc, server.threadIndex, server.joined, server.unjoined) =
        (.accepting, 1, List.range 50, [50]) ∧
      server.LosesNoThread := by
  have hexec : (execute Server.step anyEvent
      (Server.initial (List.replicate 8 0)) fullBatch).map
        (fun server => (server.pc, server.threadIndex, server.joined,
          server.unjoined)) =
      some (.accepting, 1, List.range 50, [50]) := by
    decide +kernel
  obtain ⟨server, hserver, hreached⟩ := Option.map_eq_some_iff.mp hexec
  have hrun := run_of_execute hserver
  exact ⟨server, hrun, hreached, Server.run_losesNoThread hrun⟩

end TestRpc
