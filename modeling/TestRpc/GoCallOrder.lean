import TestRpc.GoNumberClaims

/-!
# The Go server is linearizable

The calls of all clients take effect one after the other on the operating
system, by the numbers of the open files and without any table.  A call takes
effect when it calls the package `os`; what it does to `files` before and
after is seen by nobody else.
-/

namespace TestRpc

open Programs TransitionRuns Linearizability

namespace Go

section Runs

variable {σ : Type} {package : OsPackage σ}

/-! ## The order of the calls -/

/-- What a call returns, from the step on in which it takes effect. -/
def Running.outcome (package : OsPackage σ) (os : σ) (running : Running) :
    Option (Option Reply) :=
  match running.stage with
  | .started => none
  | .found _ => none
  | .opened file => some (some (.number (package.fd os file)))
  | .stored file => some (some (.number (package.fd os file)))
  | .openReturned fd _ => some (some (.number fd))
  | .released reply => some reply
  | .executed reply => some reply
  | .returned reply => some reply

structure RpcServer.Explains (files : package.OpenFiles) (origin : σ)
    (server : RpcServer σ)
    (order : List (Effect (FileCall (BitVec 64)) (Option Reply))) :
    Prop where
  linearizes : Linearizes (byNumber files) origin server.os server.history
    order
  fresh : ∀ i operation, .invoke i operation ∈ server.history →
    i < server.calls.length
  invoked : ∀ (i : ℕ) running, server.calls[i]? = some running →
    .invoke i running.call ∈ server.history
  pending : ∀ (i : ℕ) running, server.calls[i]? = some running →
    running.outcome package server.os = none → i ∉ order.map Effect.id
  committed : ∀ (i : ℕ) running reply, server.calls[i]? = some running →
    running.outcome package server.os = some reply →
    ⟨i, running.call, reply⟩ ∈ order

theorem Running.noteStart_call (client : ℕ) (call : FileCall (BitVec 64))
    (running : Running) :
    (running.noteStart client call).call = running.call := by
  rcases running.noteStart_cases client call with hsame | ⟨_, _, _, _, hnew⟩
  · rw [hsame]
  · rw [hnew]

theorem Running.noteStart_outcome (os : σ) (client : ℕ)
    (call : FileCall (BitVec 64)) (running : Running) :
    (running.noteStart client call).outcome package os =
      running.outcome package os := by
  rcases running.noteStart_cases client call with
    hsame | ⟨fd, _, _, hstage, hnew⟩
  · rw [hsame]
  · rw [hnew]
    simp only [Running.outcome, hstage]

theorem FileCall.outcome_stageAfter (client : ℕ) (file : Option ℕ) (os : σ)
    (call : FileCall (BitVec 64)) :
    (⟨client, call, call.stageAfter package file os⟩ : Running).outcome
        package (call.execute package file os).2 =
      some (call.execute package file os).1 := by
  rcases call.stageAfter_cases package file os with
    ⟨args, own, rfl, hopen, hstage⟩ | ⟨fildes, _, hstage⟩ | hstage
  · simp only [Running.outcome, hstage, FileCall.execute, hopen,
      Option.map_some]
  · simp only [Running.outcome, hstage]
  · simp only [Running.outcome, hstage]

section Explains

variable {files : package.OpenFiles} {origin : σ} {server next : RpcServer σ}
  {order longer : List (Effect (FileCall (BitVec 64)) (Option Reply))}
  {index : ℕ} {running : Running}

theorem RpcServer.Leaves.outcome_eq (hsound : server.Sound files)
    {other : Running} (hmem : other ∈ server.calls)
    (hleaves : server.Leaves files next other) :
    other.outcome package next.os = other.outcome package server.os := by
  have hneeds := hleaves.needs_eq hsound hmem
  unfold Running.needs at hneeds
  unfold Running.outcome
  cases hstage : other.stage with
  | opened file => simp only [(hleaves.opened file hstage).2]
  | stored file =>
      rw [hstage] at hneeds
      simp only [Option.some.inj hneeds]
  | _ => rfl

theorem RpcServer.Explains.start
    (hexplains : server.Explains files origin order) (client : ℕ)
    (call : FileCall (BitVec 64)) :
    (server.start client call).Explains files origin order := by
  have hlength : (server.start client call).calls.length =
      server.calls.length + 1 := by
    simp [RpcServer.start]
  constructor
  case linearizes =>
    apply hexplains.linearizes.invoke
    intro operation hmem
    exact absurd (hexplains.fresh _ _ hmem) (Nat.lt_irrefl _)
  case fresh =>
    intro i operation hmem
    rw [hlength]
    rcases List.mem_append.mp hmem with hold | hnew
    · exact Nat.lt_succ_of_lt (hexplains.fresh i operation hold)
    · cases List.mem_singleton.mp hnew
      exact Nat.lt_succ_self _
  case invoked =>
    intro i running hi
    rcases start_calls hi with ⟨before, hbefore, rfl⟩ | ⟨rfl, rfl⟩
    · rw [before.noteStart_call]
      exact List.mem_append_left _ (hexplains.invoked i before hbefore)
    · exact List.mem_append_right _ (List.mem_singleton_self _)
  case pending =>
    intro i running hi hnone
    rcases start_calls hi with ⟨before, hbefore, rfl⟩ | ⟨rfl, rfl⟩
    · rw [before.noteStart_outcome] at hnone
      exact hexplains.pending i before hbefore hnone
    · intro hmem
      obtain ⟨effect, heffect, hid⟩ := List.mem_map.mp hmem
      have hlt := hexplains.fresh _ _
        (hexplains.linearizes.invoked effect heffect)
      omega
  case committed =>
    intro i running reply hi hreply
    rcases start_calls hi with ⟨before, hbefore, rfl⟩ | ⟨rfl, rfl⟩
    · rw [before.noteStart_outcome] at hreply
      rw [before.noteStart_call]
      exact hexplains.committed i before reply hbefore hreply
    · cases hreply

/-- One call goes on, and no other one takes effect. -/
theorem RpcServer.Explains.set
    (hexplains : server.Explains files origin order)
    (hindex : server.calls[index]? = some running) {stage : Stage}
    (hcalls : next.calls =
      server.calls.set index { running with stage := stage })
    (hinvokes : ∀ i operation, .invoke i operation ∈ next.history ↔
      .invoke i operation ∈ server.history)
    (hothers : ∀ (i : ℕ) other, i ≠ index → server.calls[i]? = some other →
      other.outcome package next.os = other.outcome package server.os)
    (hlinearizes : Linearizes (byNumber files) origin next.os next.history
      longer)
    (hkept : ∀ effect ∈ order, effect ∈ longer)
    (hids : ∀ id ∈ longer.map Effect.id, id ∈ order.map Effect.id ∨
      id = index)
    (hpending : ({ running with stage := stage } : Running).outcome package
      next.os = none → index ∉ longer.map Effect.id)
    (hcommitted : ∀ reply, ({ running with stage := stage } :
      Running).outcome package next.os = some reply →
        ⟨index, running.call, reply⟩ ∈ longer) :
    next.Explains files origin longer := by
  have hcases : ∀ {i : ℕ} {call}, next.calls[i]? = some call →
      i = index ∧ call = { running with stage := stage } ∨
        i ≠ index ∧ server.calls[i]? = some call := by
    intro i call hcall
    rw [hcalls] at hcall
    exact getElem?_set_cases hcall
  constructor
  case linearizes => exact hlinearizes
  case fresh =>
    intro i operation hmem
    rw [hcalls, List.length_set]
    exact hexplains.fresh i operation ((hinvokes i operation).mp hmem)
  case invoked =>
    intro i call hcall
    rw [hinvokes]
    rcases hcases hcall with ⟨rfl, rfl⟩ | ⟨_, hold⟩
    · exact hexplains.invoked i running hindex
    · exact hexplains.invoked i call hold
  case pending =>
    intro i call hcall hnone hmem
    rcases hcases hcall with ⟨rfl, rfl⟩ | ⟨hne, hold⟩
    · exact hpending hnone hmem
    · rw [hothers i call hne hold] at hnone
      rcases hids i hmem with hearlier | hsame
      · exact hexplains.pending i call hold hnone hearlier
      · exact hne hsame
  case committed =>
    intro i call reply hcall hreply
    rcases hcases hcall with ⟨rfl, rfl⟩ | ⟨hne, hold⟩
    · exact hcommitted reply hreply
    · rw [hothers i call hne hold] at hreply
      exact hkept _ (hexplains.committed i call reply hold hreply)

/-- A step of a call that has its effect before or after. -/
theorem RpcServer.Explains.keep
    (hexplains : server.Explains files origin order)
    (hindex : server.calls[index]? = some running) {stage : Stage}
    (hcalls : next.calls =
      server.calls.set index { running with stage := stage })
    (hos : next.os = server.os)
    (hinvokes : ∀ i operation, .invoke i operation ∈ next.history ↔
      .invoke i operation ∈ server.history)
    (hlinearizes : Linearizes (byNumber files) origin server.os next.history
      order)
    (houtcome : ({ running with stage := stage } : Running).outcome package
      server.os = running.outcome package server.os) :
    next.Explains files origin order := by
  rw [← hos] at hlinearizes
  apply hexplains.set hindex hcalls hinvokes _ hlinearizes
  · exact fun _ heffect => heffect
  · exact fun _ hid => .inl hid
  · intro hnone
    rw [hos, houtcome] at hnone
    exact hexplains.pending index running hindex hnone
  · intro reply hreply
    rw [hos, houtcome] at hreply
    exact hexplains.committed index running reply hindex hreply
  · intro i other _ _
    rw [hos]

/-- A call takes effect when it calls the package. -/
theorem RpcServer.Explains.make (hsound : server.Sound files)
    (hexplains : server.Explains files origin order)
    (hindex : server.calls[index]? = some running)
    (hlive : ∀ fd, running.stage ≠ .openReturned fd true)
    (hnone : running.outcome package server.os = none) {file : Option ℕ}
    (hcloses : server.ClosesOwn package running file)
    (hspec : byNumber files server.os running.call
      (running.call.execute package file server.os).1
      (running.call.execute package file server.os).2) :
    (server.make package index running file).Explains files origin
      (order ++ [⟨index, running.call,
        (running.call.execute package file server.os).1⟩]) := by
  have houtcome : ({ running with
      stage := running.call.stageAfter package file server.os } :
        Running).outcome package (server.make package index running file).os =
      some (running.call.execute package file server.os).1 :=
    FileCall.outcome_stageAfter running.client file server.os running.call
  apply hexplains.set hindex rfl
  · intro i operation
    rfl
  · intro i other hi hother
    have hleaves := hsound.leaves_make hindex hlive hcloses hi hother
    exact hleaves.outcome_eq hsound (List.mem_of_getElem? hother)
  · exact hexplains.linearizes.commit (hexplains.invoked index running hindex)
      (hexplains.pending index running hindex hnone) hspec
  · exact fun effect heffect => List.mem_append_left _ heffect
  · simp
  · intro hnone'
    rw [houtcome] at hnone'
    cases hnone'
  · intro reply hreply
    rw [houtcome, Option.some.injEq] at hreply
    rw [← hreply]
    exact List.mem_append_right _ (List.mem_singleton_self _)

theorem RpcServer.Explains.advance {heap : Heap}
    (hsound : server.Sound files)
    (hexplains : server.Explains files origin order)
    (hindex : server.calls[index]? = some running)
    (hadvances : server.Advances package heap index running next) :
    ∃ longer, next.Explains files origin longer := by
  have hlive := hadvances.not_live
  cases hadvances with
  | call hstage hfildes =>
      refine ⟨_, hexplains.make hsound hindex hlive ?_
        (RpcServer.closesOwn_none hfildes) ?_⟩
      · rw [Running.outcome, hstage]
      · simp only [byNumber, hfildes]
  | find hstage hfildes =>
      refine ⟨order, hexplains.keep hindex rfl rfl (fun _ _ => Iff.rfl)
        hexplains.linearizes ?_⟩
      simp only [Running.outcome, hstage]
  | callFound hstage hfildes =>
      have hcloses := hsound.closesOwn_found hindex hstage
      obtain ⟨own, rfl, hholds⟩ := hsound.found hindex hstage hfildes
      refine ⟨_, hexplains.make hsound hindex hlive ?_ hcloses ?_⟩
      · rw [Running.outcome, hstage]
      · simp only [byNumber, hfildes]
        exact ⟨own, hholds.isOpen, hholds.number, rfl⟩
  | store hstage =>
      refine ⟨order, hexplains.keep hindex rfl rfl (fun _ _ => Iff.rfl)
        hexplains.linearizes ?_⟩
      simp only [Running.outcome, hstage]
  | returnNumber hstage =>
      have heffect := hexplains.committed index running _ hindex
        (by rw [Running.outcome, hstage])
      refine ⟨order, hexplains.keep hindex rfl rfl ?_
        (hexplains.linearizes.respond heffect) ?_⟩
      · simp [RpcServer.respond]
      · simp only [Running.outcome, hstage]
  | delete hstage hfildes =>
      refine ⟨order, hexplains.keep hindex rfl rfl (fun _ _ => Iff.rfl)
        hexplains.linearizes ?_⟩
      simp only [Running.outcome, hstage]
  | respond hstage =>
      have heffect := hexplains.committed index running _ hindex
        (by rw [Running.outcome, hstage])
      refine ⟨order, hexplains.keep hindex rfl rfl ?_
        (hexplains.linearizes.respond heffect) ?_⟩
      · simp [RpcServer.respond]
      · simp only [Running.outcome, hstage]

end Explains

theorem RpcServer.initial_sound (files : package.OpenFiles) (os : σ) :
    (RpcServer.initial os).Sound files where
  opened := by simp [RpcServer.initial]
  held := by simp [RpcServer.initial]
  alone := by simp [RpcServer.initial]
  borrowed := by simp [RpcServer.initial]
  deleted := by simp [RpcServer.initial]

theorem RpcServer.initial_explains (files : package.OpenFiles) (os : σ) :
    (RpcServer.initial os).Explains files os [] where
  linearizes := Linearizes.initial _ os
  fresh := by simp [RpcServer.initial]
  invoked := by simp [RpcServer.initial]
  pending := by simp
  committed := by simp [RpcServer.initial]

/-- The clients of the Go server see its calls in one order. -/
theorem RpcServer.calls_linearizable (files : package.OpenFiles)
    (heap : Heap) {os : σ} {events : List RpcEvent} {server : RpcServer σ}
    (hrun : Run (RpcServer.step package heap)
      (RpcServer.Disciplined package) (RpcServer.initial os) events server) :
    ∃ order, Linearizes (byNumber files) os server.os server.history
      order := by
  have hinv : server.Sound files ∧
      ∃ order, server.Explains files os order := by
    apply hrun.invariant _ ⟨RpcServer.initial_sound files os, [],
      RpcServer.initial_explains files os⟩
    rintro state event next ⟨hsound, order, hexplains⟩ hdisciplined hstep
    cases event with
    | start client call =>
        cases hstep
        exact ⟨hsound.start hdisciplined, order,
          hexplains.start client call⟩
    | advance index =>
        obtain ⟨running, hindex, hadvances⟩ := RpcServer.advance_cases hstep
        exact ⟨hsound.advance hindex hdisciplined hadvances,
          hexplains.advance hsound hindex hadvances⟩
  obtain ⟨_, order, hexplains⟩ := hinv
  exact ⟨order, hexplains.linearizes⟩

end Runs

/-- A process that may have one file open besides the standard ones, so that
all its files have the number 3.  The state counts the files and says which
one is open. -/
def narrowPackage : OsPackage (ℕ × Option ℕ) where
  exec := fun call os =>
    match call with
    | .openFile _ =>
        match os.2 with
        | none => (some os.1, os.1 + 1, some os.1)
        | some _ => (none, os)
    | .close file =>
        match os.2 with
        | none => (none, os)
        | some current =>
            if current = file then (some (), os.1, none) else (none, os)
    | other => ((steadyPackage.exec other []).1, os)
  fd := fun _ _ => 3

def narrowFiles : narrowPackage.OpenFiles where
  isOpen := fun os file => os.2 = some file
  opens := by
    rintro args ⟨count, _ | current⟩ file hfile
    · exact ⟨by simp, hfile⟩
    · cases hfile
  keeps := by
    rintro call ⟨count, current⟩ file hopen hclose
    cases hopen
    refine ⟨?_, rfl⟩
    cases call with
    | close other =>
        have hne : file ≠ other := by
          rintro rfl
          exact hclose rfl
        simp only [narrowPackage, if_neg hne]
    | _ => rfl
  distinct := by
    intro os file other hfile hother _
    exact Option.some.inj (hfile.symm.trans hother)

deriving instance DecidableEq for FileCall

/-- The second `Open` gets the number that the `Close` has given back, and
waits with storing its file until the `Close` has deleted the entry. -/
def handedOn : List RpcEvent :=
  [.start 0 (.openCall ⟨testFile, O_RDWR, 0o644⟩), .advance 0, .advance 0,
    .advance 0, .start 0 (.close 3),
    .start 1 (.openCall ⟨renamedFile, O_RDWR, 0o644⟩), .advance 1, .advance 1,
    .advance 2, .advance 1, .advance 2, .advance 1, .advance 2,
    .start 1 (.read 3 2), .advance 3, .advance 3, .advance 3]

theorem calls_linearizable_handedOn :
    ∃ server, Run (RpcServer.step narrowPackage addressableHeap)
        (RpcServer.Disciplined narrowPackage) (RpcServer.initial (0, none))
        handedOn server ∧
      (server.os, server.history.drop 4) =
        ((2, some 1), [.respond 1 (some .nothing),
          .respond 2 (some (.number 3)), .invoke 3 (.read 3 2),
          .respond 3 (some (.buffer 2 [0x61, 0x61]))]) ∧
      ∃ order, Linearizes (byNumber narrowFiles) (0, none) server.os
        server.history order := by
  have hexec : (execute (RpcServer.step narrowPackage addressableHeap)
      (RpcServer.Disciplined narrowPackage) (RpcServer.initial (0, none))
      handedOn).map (fun server => (server.os, server.history.drop 4)) =
        some ((2, some 1), [.respond 1 (some .nothing),
          .respond 2 (some (.number 3)), .invoke 3 (.read 3 2),
          .respond 3 (some (.buffer 2 [0x61, 0x61]))]) := by
    decide +kernel
  obtain ⟨server, hserver, hreached⟩ := Option.map_eq_some_iff.mp hexec
  have hrun := run_of_execute hserver
  exact ⟨server, hrun, hreached,
    RpcServer.calls_linearizable narrowFiles addressableHeap hrun⟩

end Go

end TestRpc
