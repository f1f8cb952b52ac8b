import TestRpc.GoService

/-!
# Who may use a number of the Go server

At every moment a number belongs to one call or client: to the `Open` that got
it from the kernel, then to the client that it was returned to, then to the
`Close` that gives it back.  What a number leads to in `files` changes only by
the call that it belongs to, so that a call finds the open file of the number
that its client has named.
-/

namespace TestRpc

open BlockCopies Programs StreamReceive TransitionRuns

namespace Go

section Runs

variable {σ : Type}

/-! ## The invariant -/

/-- The number that is the call's, or its client's, and nobody else's. -/
def Running.claims (package : OsPackage σ) (os : σ) (running : Running) :
    Option (BitVec 64) :=
  match running.stage with
  | .opened file => some (package.fd os file)
  | .stored file => some (package.fd os file)
  | .openReturned fd live => if live then some fd else none
  | .started => running.call.closed?
  | .found _ => running.call.closed?
  | _ => none

/-- The number under which the call relies on the table. -/
def Running.needs (package : OsPackage σ) (os : σ) (running : Running) :
    Option (BitVec 64) :=
  match running.stage with
  | .stored file => some (package.fd os file)
  | .openReturned fd live => if live then some fd else none
  | .started => running.call.fildes?
  | .found _ => running.call.fildes?
  | _ => none

/-- The number that the call uses and that is its client's. -/
def Running.uses (running : Running) : Option (BitVec 64) :=
  match running.stage with
  | .started => running.call.used?
  | .found _ => running.call.used?
  | _ => none

/-- The file that the call knows of, if any. -/
def Stage.Knows (file : ℕ) : Stage → Prop
  | .found result => result = some file
  | .stored own => own = file
  | _ => True

variable {package : OsPackage σ}

structure RpcServer.Holds (files : package.OpenFiles) (server : RpcServer σ)
    (fd : BitVec 64) (file : ℕ) : Prop where
  isOpen : files.isOpen server.os file
  number : package.fd server.os file = fd
  entry : server.files fd = some file

/-- `deleted` says that a number whose key is about to be deleted belongs to
nobody, or to an `Open` that has yet to store its file. -/
structure RpcServer.Sound (files : package.OpenFiles)
    (server : RpcServer σ) : Prop where
  opened : ∀ running ∈ server.calls, ∀ file, running.stage = .opened file →
    files.isOpen server.os file
  held : ∀ running ∈ server.calls, ∀ fd,
    running.needs package server.os = some fd →
    ∃ file, server.Holds files fd file ∧ running.stage.Knows file
  alone : ∀ (i j : ℕ) left right fd, server.calls[i]? = some left →
    server.calls[j]? = some right →
    left.claims package server.os = some fd →
    right.claims package server.os = some fd → i = j
  borrowed : ∀ running ∈ server.calls, ∀ fd, running.uses = some fd →
    ∃ holder ∈ server.calls, holder.client = running.client ∧
      holder.stage = .openReturned fd true
  deleted : ∀ running ∈ server.calls, ∀ fd, running.toDelete = some fd →
    ∀ other ∈ server.calls, other.claims package server.os = some fd →
    ∃ file, other.stage = .opened file

theorem Running.claims_openReturned (os : σ) {running : Running}
    {fd : BitVec 64} (hstage : running.stage = .openReturned fd true) :
    running.claims package os = some fd := by
  rw [Running.claims, hstage]
  rfl

/-- A call that is about to delete a key claims no number. -/
theorem Running.claims_of_toDelete (os : σ) {running : Running}
    {fd : BitVec 64} (hdelete : running.toDelete = some fd) :
    running.claims package os = none := by
  unfold Running.toDelete at hdelete
  unfold Running.claims
  cases hstage : running.stage with
  | released reply => rfl
  | _ => simp [hstage] at hdelete

section Sound

variable {files : package.OpenFiles} {server next : RpcServer σ} {index : ℕ}
  {running : Running}

/-- Behind every number that a call relies on there is a claim. -/
theorem RpcServer.Sound.holder (hsound : server.Sound files) {i : ℕ}
    {other : Running} (hother : server.calls[i]? = some other)
    {fd : BitVec 64} (hneeds : other.needs package server.os = some fd) :
    other.claims package server.os = some fd ∧
        (∀ file, other.stage ≠ .opened file) ∨
      ∃ (j : ℕ) (holder : Running), server.calls[j]? = some holder ∧
        holder.stage = .openReturned fd true := by
  have hborrowed : other.uses = some fd → ∃ (j : ℕ) (holder : Running),
      server.calls[j]? = some holder ∧
        holder.stage = .openReturned fd true := by
    intro huses
    obtain ⟨holder, hmem, _, hstage⟩ := hsound.borrowed other
      (List.mem_of_getElem? hother) fd huses
    obtain ⟨j, hj⟩ := List.getElem?_of_mem hmem
    exact ⟨j, holder, hj, hstage⟩
  unfold Running.needs at hneeds
  cases hstage : other.stage with
  | stored file =>
      rw [hstage] at hneeds
      exact .inl ⟨by rw [Running.claims, hstage]; exact hneeds, by simp⟩
  | openReturned number live =>
      cases live with
      | false => simp [hstage] at hneeds
      | true =>
          rw [hstage] at hneeds
          exact .inl ⟨by rw [Running.claims, hstage]; exact hneeds, by simp⟩
  | started =>
      rw [hstage] at hneeds
      rcases FileCall.closed_or_used hneeds with hclosed | hused
      · exact .inl ⟨by rw [Running.claims, hstage]; exact hclosed, by simp⟩
      · exact .inr (hborrowed (by rw [Running.uses, hstage]; exact hused))
  | found file =>
      rw [hstage] at hneeds
      rcases FileCall.closed_or_used hneeds with hclosed | hused
      · exact .inl ⟨by rw [Running.claims, hstage]; exact hclosed, by simp⟩
      · exact .inr (hborrowed (by rw [Running.uses, hstage]; exact hused))
  | _ => simp [hstage] at hneeds

/-- A number that a call claims is not what another one relies on. -/
theorem RpcServer.Sound.needs_ne (hsound : server.Sound files)
    (hindex : server.calls[index]? = some running)
    (hlive : ∀ fd, running.stage ≠ .openReturned fd true)
    {number : BitVec 64}
    (hclaims : running.claims package server.os = some number) {i : ℕ}
    (hi : i ≠ index) {other : Running}
    (hother : server.calls[i]? = some other) {fd : BitVec 64}
    (hneeds : other.needs package server.os = some fd) : fd ≠ number := by
  rintro rfl
  rcases hsound.holder hother hneeds with
    ⟨hown, _⟩ | ⟨j, holder, hholder, hstage⟩
  · exact hi (hsound.alone i index other running fd hother hindex hown
      hclaims)
  · have hsame := hsound.alone j index holder running fd hholder hindex
      (Running.claims_openReturned _ hstage) hclaims
    subst hsame
    rw [hholder, Option.some.injEq] at hindex
    exact hlive fd (hindex ▸ hstage)

/-- A number that a call relies on is not about to be deleted. -/
theorem RpcServer.Sound.not_toDelete (hsound : server.Sound files) {i : ℕ}
    {other : Running} (hother : server.calls[i]? = some other)
    {fd : BitVec 64} (hneeds : other.needs package server.os = some fd) :
    ∀ running ∈ server.calls, running.toDelete ≠ some fd := by
  intro running hmem hdelete
  have hdeleted := hsound.deleted running hmem fd hdelete
  rcases hsound.holder hother hneeds with
    ⟨hown, hstored⟩ | ⟨j, holder, hholder, hstage⟩
  · obtain ⟨file, hopened⟩ := hdeleted other (List.mem_of_getElem? hother)
      hown
    exact hstored file hopened
  · obtain ⟨file, hopened⟩ := hdeleted holder (List.mem_of_getElem? hholder)
      (Running.claims_openReturned _ hstage)
    rw [hstage] at hopened
    cases hopened

/-- A step takes nothing from a call that it is not about. -/
structure RpcServer.Leaves (files : package.OpenFiles)
    (server next : RpcServer σ) (other : Running) : Prop where
  opened : ∀ file, other.stage = .opened file →
    files.isOpen next.os file ∧
      package.fd next.os file = package.fd server.os file
  held : ∀ fd file, other.needs package server.os = some fd →
    server.Holds files fd file → next.Holds files fd file

theorem RpcServer.Leaves.needs_eq (hsound : server.Sound files)
    {other : Running} (hmem : other ∈ server.calls)
    (hleaves : server.Leaves files next other) :
    other.needs package next.os = other.needs package server.os := by
  have hheld := hsound.held other hmem
  unfold Running.needs at hheld ⊢
  cases hstage : other.stage with
  | stored file =>
      obtain ⟨own, hholds, hknows⟩ := hheld _ (by rw [hstage])
      rw [hstage] at hknows
      subst hknows
      have hholds' := hleaves.held _ _ (by rw [Running.needs, hstage]) hholds
      exact congrArg some hholds'.number
  | _ => rfl

theorem RpcServer.Leaves.claims_eq (hsound : server.Sound files)
    {other : Running} (hmem : other ∈ server.calls)
    (hleaves : server.Leaves files next other) :
    other.claims package next.os = other.claims package server.os := by
  have hneeds := hleaves.needs_eq hsound hmem
  unfold Running.needs at hneeds
  unfold Running.claims
  cases hstage : other.stage with
  | opened file => exact congrArg some (hleaves.opened file hstage).2
  | stored file =>
      rw [hstage] at hneeds
      exact hneeds
  | _ => rfl

/-- What a call may come to in a step. -/
structure RpcServer.Admits (files : package.OpenFiles)
    (server next : RpcServer σ) (index : ℕ) (running new : Running) :
    Prop where
  opened : ∀ file, new.stage = .opened file → files.isOpen next.os file
  held : ∀ fd, new.needs package next.os = some fd →
    ∃ file, next.Holds files fd file ∧ new.stage.Knows file
  claims : ∀ fd, new.claims package next.os = some fd →
    ∀ (i : ℕ) other, i ≠ index → server.calls[i]? = some other →
      other.claims package server.os ≠ some fd
  uses : ∀ fd, new.uses = some fd → running.uses = some fd
  deletes : ∀ fd, new.toDelete = some fd →
    ∀ (i : ℕ) other, i ≠ index → server.calls[i]? = some other →
      other.claims package server.os = some fd →
      ∃ file, other.stage = .opened file
  stays : ∀ fd, new.claims package next.os = some fd →
    (∃ file, new.stage = .opened file) ∨
      ∀ other ∈ server.calls, other.toDelete ≠ some fd

theorem RpcServer.Sound.set (hsound : server.Sound files)
    (hindex : server.calls[index]? = some running)
    (hlive : ∀ fd, running.stage ≠ .openReturned fd true)
    {stage : Stage}
    (hcalls : next.calls =
      server.calls.set index { running with stage := stage })
    (hleaves : ∀ (i : ℕ) other, i ≠ index → server.calls[i]? = some other →
      server.Leaves files next other)
    (hadmits : server.Admits files next index running
      { running with stage := stage }) : next.Sound files := by
  have hcases : ∀ {i : ℕ} {call}, next.calls[i]? = some call →
      i = index ∧ call = { running with stage := stage } ∨
        i ≠ index ∧ server.calls[i]? = some call := by
    intro i call hcall
    rw [hcalls] at hcall
    exact getElem?_set_cases hcall
  -- a descriptor that is live stays live
  have hholder : ∀ holder ∈ server.calls, ∀ fd,
      holder.stage = .openReturned fd true → holder ∈ next.calls := by
    intro holder hmem fd hstage
    obtain ⟨j, hj⟩ := List.getElem?_of_mem hmem
    have hne : index ≠ j := by
      rintro rfl
      rw [hj, Option.some.injEq] at hindex
      exact hlive fd (hindex ▸ hstage)
    apply List.mem_of_getElem?
    rw [hcalls, List.getElem?_set_ne hne, hj]
  have hclaims : ∀ {i : ℕ} {other}, i ≠ index →
      server.calls[i]? = some other →
      other.claims package next.os = other.claims package server.os :=
    fun hi hother =>
      (hleaves _ _ hi hother).claims_eq hsound (List.mem_of_getElem? hother)
  constructor
  case opened =>
    intro call hmem file hstage
    obtain ⟨i, hi⟩ := List.getElem?_of_mem hmem
    rcases hcases hi with ⟨_, rfl⟩ | ⟨hne, hold⟩
    · exact hadmits.opened file hstage
    · exact ((hleaves i call hne hold).opened file hstage).1
  case held =>
    intro call hmem fd hneeds
    obtain ⟨i, hi⟩ := List.getElem?_of_mem hmem
    rcases hcases hi with ⟨_, rfl⟩ | ⟨hne, hold⟩
    · exact hadmits.held fd hneeds
    · have hmem' := List.mem_of_getElem? hold
      rw [(hleaves i call hne hold).needs_eq hsound hmem'] at hneeds
      obtain ⟨file, hholds, hknows⟩ := hsound.held call hmem' fd hneeds
      exact ⟨file, (hleaves i call hne hold).held fd file hneeds hholds,
        hknows⟩
  case alone =>
    intro i j left right fd hi hj hleft hright
    rcases hcases hi with ⟨rfl, rfl⟩ | ⟨hne, hold⟩
    · rcases hcases hj with ⟨rfl, _⟩ | ⟨hne', hold'⟩
      · rfl
      · rw [hclaims hne' hold'] at hright
        exact absurd hright (hadmits.claims fd hleft j right hne' hold')
    · rw [hclaims hne hold] at hleft
      rcases hcases hj with ⟨rfl, rfl⟩ | ⟨hne', hold'⟩
      · exact absurd hleft (hadmits.claims fd hright i left hne hold)
      · rw [hclaims hne' hold'] at hright
        exact hsound.alone i j left right fd hold hold' hleft hright
  case borrowed =>
    intro call hmem fd huses
    obtain ⟨i, hi⟩ := List.getElem?_of_mem hmem
    rcases hcases hi with ⟨_, rfl⟩ | ⟨_, hold⟩
    · obtain ⟨holder, hmem', hclient, hstage⟩ := hsound.borrowed running
        (List.mem_of_getElem? hindex) fd (hadmits.uses fd huses)
      exact ⟨holder, hholder holder hmem' fd hstage, hclient, hstage⟩
    · obtain ⟨holder, hmem', hclient, hstage⟩ := hsound.borrowed call
        (List.mem_of_getElem? hold) fd huses
      exact ⟨holder, hholder holder hmem' fd hstage, hclient, hstage⟩
  case deleted =>
    intro call hmem fd hdelete other hmem' hother
    obtain ⟨i, hi⟩ := List.getElem?_of_mem hmem
    obtain ⟨j, hj⟩ := List.getElem?_of_mem hmem'
    rcases hcases hj with ⟨rfl, rfl⟩ | ⟨hne', hold'⟩
    · rcases hadmits.stays fd hother with hopened | hnone
      · exact hopened
      · rcases hcases hi with ⟨_, rfl⟩ | ⟨_, hold⟩
        · rw [Running.claims_of_toDelete _ hdelete] at hother
          cases hother
        · exact absurd hdelete (hnone call (List.mem_of_getElem? hold))
    · rw [hclaims hne' hold'] at hother
      rcases hcases hi with ⟨rfl, rfl⟩ | ⟨_, hold⟩
      · exact hadmits.deletes fd hdelete j other hne' hold' hother
      · exact hsound.deleted call (List.mem_of_getElem? hold) fd hdelete
          other (List.mem_of_getElem? hold') hother

end Sound

/-! ## The start of a call -/

theorem Running.noteStart_claims (client : ℕ) (call : FileCall (BitVec 64))
    {running : Running} {os : σ} {fd : BitVec 64}
    (hclaims : (running.noteStart client call).claims package os = some fd) :
    running.noteStart client call = running ∧
      running.claims package os = some fd := by
  rcases running.noteStart_cases client call with hsame | ⟨_, _, _, _, hnew⟩
  · rw [hsame] at hclaims
    exact ⟨hsame, hclaims⟩
  · rw [hnew] at hclaims
    cases hclaims

theorem Running.uses_cases {running : Running} {fd : BitVec 64}
    (huses : running.uses = some fd) :
    running.stage.isOver = false ∧ running.call.used? = some fd := by
  unfold Running.uses at huses
  cases hstage : running.stage with
  | started =>
      rw [hstage] at huses
      exact ⟨rfl, huses⟩
  | found file =>
      rw [hstage] at huses
      exact ⟨rfl, huses⟩
  | _ => simp [hstage] at huses

section Start

variable {files : package.OpenFiles} {server : RpcServer σ} {client : ℕ}
  {call : FileCall (BitVec 64)}

/-- The live descriptor that a `Close` takes over is no longer claimed by the
`Open` that returned it. -/
theorem RpcServer.Sound.start_alone (hsound : server.Sound files)
    (hdisciplined : server.Disciplined package (.start client call))
    {i : ℕ} {before : Running} (hbefore : server.calls[i]? = some before)
    {fd : BitVec 64}
    (hclaims : (before.noteStart client call).claims package server.os =
      some fd) : call.closed? ≠ some fd := by
  intro hclosed
  obtain ⟨hsame, hclaims⟩ := Running.noteStart_claims client call hclaims
  obtain ⟨holder, hholder, hclient, hstage⟩ :=
    hdisciplined.1 fd (FileCall.fildes_of_closed hclosed)
  obtain ⟨j, hj⟩ := List.getElem?_of_mem hholder
  have hij := hsound.alone i j before holder fd hbefore hj hclaims
    (Running.claims_openReturned _ hstage)
  subst hij
  rw [hbefore, Option.some.injEq] at hj
  subst hj
  rw [Running.noteStart, hclosed, hstage] at hsame
  have hagain := congrArg Running.stage hsame
  simp [hstage, hclient] at hagain

/-- A call that is under way keeps the descriptor that it uses. -/
theorem RpcServer.Sound.start_borrowed (hsound : server.Sound files)
    (hdisciplined : server.Disciplined package (.start client call))
    {before : Running} (hbefore : before ∈ server.calls) {fd : BitVec 64}
    (huses : before.uses = some fd) :
    ∃ holder ∈ (server.start client call).calls,
      holder.client = before.client ∧
        holder.stage = .openReturned fd true := by
  obtain ⟨hunder, hused⟩ := Running.uses_cases huses
  obtain ⟨holder, hholder, hclient, hstage⟩ :=
    hsound.borrowed before hbefore fd huses
  rcases holder.noteStart_cases client call with
    hkept | ⟨fd', hclosed, howner, hstage', _⟩
  · exact ⟨holder, noteStart_mem hholder hkept, hclient, hstage⟩
  · -- its client would be closing it
    rw [hstage, Stage.openReturned.injEq] at hstage'
    rw [← hstage'.1] at hclosed
    have hover := hdisciplined.2 fd hclosed before hbefore
      (hclient.symm.trans howner) (FileCall.fildes_of_used hused).1
    rw [hunder] at hover
    cases hover

/-- The descriptor of a call that starts passes from the `Open` that returned
it to the call if the call is a `Close`, and stays where it is otherwise. -/
theorem RpcServer.Sound.start (hsound : server.Sound files)
    (hdisciplined : server.Disciplined package (.start client call)) :
    (server.start client call).Sound files := by
  constructor
  case opened =>
    intro running hmem file hstage
    rcases mem_start hmem with ⟨before, hbefore, rfl⟩ | rfl
    · rw [Running.noteStart_eq (by simp [hstage])] at hstage
      exact hsound.opened before hbefore file hstage
    · cases hstage
  case held =>
    intro running hmem fd hneeds
    rcases mem_start hmem with ⟨before, hbefore, rfl⟩ | rfl
    · have hsame : before.noteStart client call = before := by
        apply Running.noteStart_eq
        intro number hstage
        rw [Running.needs, hstage] at hneeds
        cases hneeds
      rw [hsame] at hneeds ⊢
      obtain ⟨file, hholds, hknows⟩ := hsound.held before hbefore fd hneeds
      exact ⟨file, ⟨hholds.isOpen, hholds.number, hholds.entry⟩, hknows⟩
    · obtain ⟨holder, hholder, _, hstage⟩ := hdisciplined.1 fd hneeds
      obtain ⟨file, hholds, _⟩ := hsound.held holder hholder fd
        (by rw [Running.needs, hstage]; rfl)
      exact ⟨file, ⟨hholds.isOpen, hholds.number, hholds.entry⟩, trivial⟩
  case alone =>
    intro i j left right fd hi hj hleft hright
    rcases start_calls hi with ⟨before, hbefore, rfl⟩ | ⟨rfl, rfl⟩
    · rcases start_calls hj with ⟨before', hbefore', rfl⟩ | ⟨rfl, rfl⟩
      · exact hsound.alone i j before before' fd hbefore hbefore'
          (Running.noteStart_claims client call hleft).2
          (Running.noteStart_claims client call hright).2
      · exact absurd hright (hsound.start_alone hdisciplined hbefore hleft)
    · rcases start_calls hj with ⟨before', hbefore', rfl⟩ | ⟨rfl, rfl⟩
      · exact absurd hleft (hsound.start_alone hdisciplined hbefore' hright)
      · rfl
  case borrowed =>
    intro running hmem fd huses
    rcases mem_start hmem with ⟨before, hbefore, rfl⟩ | rfl
    · have hsame : before.noteStart client call = before := by
        apply Running.noteStart_eq
        intro number hstage
        rw [Running.uses, hstage] at huses
        cases huses
      rw [hsame] at huses ⊢
      exact hsound.start_borrowed hdisciplined hbefore huses
    · obtain ⟨hfildes, hclosed⟩ := FileCall.fildes_of_used huses
      obtain ⟨holder, hholder, hclient, hstage⟩ := hdisciplined.1 fd hfildes
      refine ⟨holder, noteStart_mem hholder ?_, hclient, hstage⟩
      rw [Running.noteStart, hclosed]
  case deleted =>
    intro running hmem fd hdelete other hother hclaims
    rcases mem_start hmem with ⟨before, hbefore, rfl⟩ | rfl
    · have hsame : before.noteStart client call = before := by
        apply Running.noteStart_eq
        intro number hstage
        rw [Running.toDelete, hstage] at hdelete
        cases hdelete
      rw [hsame] at hdelete
      have hdeleted := hsound.deleted before hbefore fd hdelete
      rcases mem_start hother with ⟨before', hbefore', rfl⟩ | rfl
      · obtain ⟨hsame', hclaims⟩ := Running.noteStart_claims client call
          hclaims
        rw [hsame']
        exact hdeleted before' hbefore' hclaims
      · obtain ⟨holder, hholder, _, hstage⟩ :=
          hdisciplined.1 fd (FileCall.fildes_of_closed hclaims)
        obtain ⟨file, hopened⟩ := hdeleted holder hholder
          (Running.claims_openReturned _ hstage)
        rw [hstage] at hopened
        cases hopened
    · cases hdelete

end Start

/-! ## Calls of the package -/

section Keeps

variable (files : package.OpenFiles) {os : σ} {other : ℕ}

theorem OsPackage.OpenFiles.replyOn_keeps (hopen : files.isOpen os other)
    {file : Option ℕ} {call : ℕ → OsCall}
    (hcall : ∀ own, file = some own → call own ≠ .close other)
    (reply : (file : ℕ) → (call file).Value → Reply) :
    files.isOpen (package.replyOn os file call reply).2 other ∧
      package.fd (package.replyOn os file call reply).2 other =
        package.fd os other := by
  cases file with
  | none => exact ⟨hopen, rfl⟩
  | some own => exact files.keeps (call own) os other hopen (hcall own rfl)

/-- Only a `Close` touches an open file, and only the one that it closes. -/
theorem OsPackage.OpenFiles.execute_keeps (hopen : files.isOpen os other)
    {file : Option ℕ} {call : FileCall (BitVec 64)}
    (hclosed : call.closed? ≠ none → file ≠ some other) :
    files.isOpen (call.execute package file os).2 other ∧
      package.fd (call.execute package file os).2 other =
        package.fd os other := by
  cases call with
  | openCall args => exact files.keeps _ os other hopen (by simp)
  | close fildes =>
      apply files.replyOn_keeps hopen
      rintro own rfl
      simpa using hclosed (by simp [FileCall.closed?])
  | read | write | lseek | ftruncate | fsync =>
      exact files.replyOn_keeps hopen (by simp) _
  | truncate | size | lastModifiedTime | rename | unlink =>
      exact files.keeps _ os other hopen (by simp)

end Keeps

section Steps

variable {files : package.OpenFiles} {server next : RpcServer σ} {index : ℕ}
  {running : Running}

/-- A step that touches neither the files nor the table. -/
theorem RpcServer.Sound.leaves_same (hsound : server.Sound files)
    (hos : next.os = server.os) (hfiles : next.files = server.files)
    {other : Running} (hmem : other ∈ server.calls) :
    server.Leaves files next other := by
  constructor
  · intro file hstage
    rw [hos]
    exact ⟨hsound.opened other hmem file hstage, rfl⟩
  · intro fd file _ hholds
    exact ⟨by rw [hos]; exact hholds.isOpen, by rw [hos]; exact hholds.number,
      by rw [hfiles]; exact hholds.entry⟩

/-- A step that changes the table under one number. -/
theorem RpcServer.Sound.leaves_update (hsound : server.Sound files)
    {stage : Stage} {number : BitVec 64} {entry : Option ℕ}
    {other : Running} (hmem : other ∈ server.calls)
    (hneeds : ∀ fd, other.needs package server.os = some fd → fd ≠ number) :
    server.Leaves files
      { server.setStage index running stage with
        files := Function.update server.files number entry } other := by
  constructor
  · intro file hstage
    exact ⟨hsound.opened other hmem file hstage, rfl⟩
  · intro fd file hfd hholds
    refine ⟨hholds.isOpen, hholds.number, ?_⟩
    simp only [Function.update_of_ne (hneeds fd hfd)]
    exact hholds.entry

/-- If the call closes `file`, it claims its number. -/
def RpcServer.ClosesOwn (package : OsPackage σ) (server : RpcServer σ)
    (running : Running) (file : Option ℕ) : Prop :=
  ∀ fildes, running.call.closed? = some fildes →
    running.claims package server.os = some fildes ∧
      ∀ own, file = some own → package.fd server.os own = fildes

theorem RpcServer.closesOwn_none
    (hfildes : running.call.fildes? = none) :
    server.ClosesOwn package running none := by
  intro fildes hclosed
  rw [FileCall.fildes_of_closed hclosed] at hfildes
  cases hfildes

/-- What a call has found is the open file of the number that it was given. -/
theorem RpcServer.Sound.found (hsound : server.Sound files)
    (hindex : server.calls[index]? = some running) {file : Option ℕ}
    (hstage : running.stage = .found file) {fildes : BitVec 64}
    (hfildes : running.call.fildes? = some fildes) :
    ∃ own, file = some own ∧ server.Holds files fildes own := by
  obtain ⟨own, hholds, hknows⟩ := hsound.held running
    (List.mem_of_getElem? hindex) fildes
    (by rw [Running.needs, hstage]; exact hfildes)
  rw [hstage] at hknows
  exact ⟨own, hknows, hholds⟩

theorem RpcServer.Sound.closesOwn_found (hsound : server.Sound files)
    (hindex : server.calls[index]? = some running) {file : Option ℕ}
    (hstage : running.stage = .found file) :
    server.ClosesOwn package running file := by
  intro fildes hclosed
  refine ⟨by rw [Running.claims, hstage]; exact hclosed, ?_⟩
  rintro own rfl
  obtain ⟨own', hown, hholds⟩ := hsound.found hindex hstage
    (FileCall.fildes_of_closed hclosed)
  cases hown
  exact hholds.number

theorem RpcServer.Sound.leaves_make (hsound : server.Sound files)
    (hindex : server.calls[index]? = some running)
    (hlive : ∀ fd, running.stage ≠ .openReturned fd true)
    {file : Option ℕ}
    (hcloses : server.ClosesOwn package running file)
    {i : ℕ} {other : Running} (hi : i ≠ index)
    (hother : server.calls[i]? = some other) :
    server.Leaves files (server.make package index running file) other := by
  constructor
  · intro own hstage
    have hopen := hsound.opened other (List.mem_of_getElem? hother) own hstage
    apply files.execute_keeps hopen
    rintro hclosed rfl
    obtain ⟨fildes, hfildes⟩ := Option.ne_none_iff_exists'.mp hclosed
    obtain ⟨hclaims, hnumber⟩ := hcloses fildes hfildes
    apply hi
    apply hsound.alone i index other running fildes hother hindex ?_ hclaims
    rw [Running.claims, hstage]
    exact congrArg some (hnumber own rfl)
  · intro fd own hneeds hholds
    have hkeeps : running.call.closed? ≠ none → file ≠ some own := by
      rintro hclosed rfl
      obtain ⟨fildes, hfildes⟩ := Option.ne_none_iff_exists'.mp hclosed
      obtain ⟨hclaims, hnumber⟩ := hcloses fildes hfildes
      apply hsound.needs_ne hindex hlive hclaims hi hother hneeds
      rw [← hholds.number]
      exact hnumber own rfl
    obtain ⟨hopen, hfd⟩ := files.execute_keeps hholds.isOpen hkeeps
    exact ⟨hopen, hfd.trans hholds.number, hholds.entry⟩

/-- A call that has nothing to do with the files any more. -/
theorem RpcServer.admits_plain {new : Running}
    (hopened : ∀ file, new.stage ≠ .opened file)
    (hneeds : new.needs package next.os = none)
    (hclaims : new.claims package next.os = none) (huses : new.uses = none)
    (hdeletes : new.toDelete = none) :
    server.Admits files next index running new := by
  constructor
  case opened => exact fun file hstage => absurd hstage (hopened file)
  case held => simp [hneeds]
  case claims => simp [hclaims]
  case uses => simp [huses]
  case deletes => simp [hdeletes]
  case stays => simp [hclaims]

theorem Running.opened_or_needs {os : σ} {running : Running}
    {fd : BitVec 64} (hclaims : running.claims package os = some fd) :
    (∃ file, running.stage = .opened file ∧ package.fd os file = fd) ∨
      running.needs package os = some fd := by
  unfold Running.claims at hclaims
  unfold Running.needs
  cases hstage : running.stage with
  | opened file =>
      rw [hstage, Option.some.injEq] at hclaims
      exact .inl ⟨file, rfl, hclaims⟩
  | started =>
      rw [hstage] at hclaims
      exact .inr (FileCall.fildes_of_closed hclaims)
  | found file =>
      rw [hstage] at hclaims
      exact .inr (FileCall.fildes_of_closed hclaims)
  | _ =>
      rw [hstage] at hclaims
      exact .inr hclaims

/-- Behind a claim there is an open file of that number, which a step that
leaves the call alone keeps. -/
theorem RpcServer.Leaves.claimed (hsound : server.Sound files)
    {other : Running} (hmem : other ∈ server.calls)
    (hleaves : server.Leaves files next other) {fd : BitVec 64}
    (hclaims : other.claims package server.os = some fd) :
    ∃ file, files.isOpen server.os file ∧ files.isOpen next.os file ∧
      package.fd next.os file = fd := by
  rcases Running.opened_or_needs hclaims with ⟨file, hstage, hfd⟩ | hneeds
  · obtain ⟨hopen, hsame⟩ := hleaves.opened file hstage
    exact ⟨file, hsound.opened other hmem file hstage, hopen,
      hsame.trans hfd⟩
  · obtain ⟨file, hholds, _⟩ := hsound.held other hmem fd hneeds
    have hholds' := hleaves.held fd file hneeds hholds
    exact ⟨file, hholds.isOpen, hholds'.isOpen, hholds'.number⟩

/-- The new file of an `Open` has a number that nobody claims, and the number
of a file that is being closed was claimed by its `Close` alone. -/
theorem RpcServer.Sound.make (hsound : server.Sound files)
    (hindex : server.calls[index]? = some running)
    (hlive : ∀ fd, running.stage ≠ .openReturned fd true)
    {file : Option ℕ}
    (hcloses : server.ClosesOwn package running file) :
    (server.make package index running file).Sound files := by
  have hleaves : ∀ (i : ℕ) other, i ≠ index →
      server.calls[i]? = some other →
      server.Leaves files (server.make package index running file) other :=
    fun i other hi hother =>
      hsound.leaves_make hindex hlive hcloses hi hother
  apply hsound.set hindex hlive rfl hleaves
  rcases running.call.stageAfter_cases package file server.os with
    ⟨args, own, hcall, hopen, hstage⟩ | ⟨fildes, hcall, hstage⟩ | hstage
  · rw [hstage]
    obtain ⟨hnew, hopened⟩ := files.opens _ _ own hopen
    have hos : (server.make package index running file).os =
        (package.openFile (Receiver.openFile args) server.os).2 := by
      rw [RpcServer.make, hcall]
      rfl
    constructor
    case opened =>
      rintro _ ⟨⟩
      rw [hos]
      exact hopened
    case held =>
      intro fd hneeds
      cases hneeds
    case claims =>
      rintro fd hclaims i other hi hother hclaims'
      obtain ⟨own', hopen', hkept, hfd⟩ := (hleaves i other hi hother).claimed
        hsound (List.mem_of_getElem? hother) hclaims'
      have hsame : own' = own := by
        apply files.distinct _ _ _ hkept (by rw [hos]; exact hopened)
        exact hfd.trans (Option.some.inj hclaims).symm
      exact hnew (hsame ▸ hopen')
    case uses =>
      intro fd huses
      cases huses
    case deletes =>
      intro fd hdelete
      cases hdelete
    case stays => exact fun _ _ => .inl ⟨own, rfl⟩
  · rw [hstage]
    constructor
    case opened =>
      intro own hown
      cases hown
    case held =>
      intro fd hneeds
      cases hneeds
    case claims =>
      intro fd hclaims
      cases hclaims
    case uses =>
      intro fd huses
      cases huses
    case deletes =>
      intro fd hdelete i other hi hother hclaims
      have hfd : running.call.closed? = some fd := by
        simp only [Running.toDelete, hcall, FileCall.fildes?] at hdelete
        rw [hcall]
        exact hdelete
      exact absurd (hsound.alone i index other running fd hother hindex
        hclaims (hcloses fd hfd).1) hi
    case stays =>
      intro fd hclaims
      cases hclaims
  · rw [hstage]
    exact RpcServer.admits_plain (by simp) rfl rfl rfl rfl

/-- A call that goes on with the number that it has claimed so far. -/
theorem RpcServer.Sound.admits_claims (hsound : server.Sound files)
    (hindex : server.calls[index]? = some running) {stage : Stage}
    (hopened : ∀ file, stage ≠ .opened file)
    (hdeletes : ({ running with stage := stage } : Running).toDelete = none)
    (hclaims : ({ running with stage := stage } : Running).claims package
        next.os = running.claims package server.os)
    (huses : ∀ fd,
      ({ running with stage := stage } : Running).uses = some fd →
      running.uses = some fd)
    (hheld : ∀ fd, ({ running with stage := stage } : Running).needs package
        next.os = some fd → ∃ file, next.Holds files fd file ∧
          stage.Knows file)
    (hstays : ∀ fd, running.claims package server.os = some fd →
      ∀ other ∈ server.calls, other.toDelete ≠ some fd) :
    server.Admits files next index running { running with stage := stage } := by
  constructor
  case opened => exact fun file hstage => absurd hstage (hopened file)
  case held => exact hheld
  case claims =>
    intro fd hfd i other hi hother hfd'
    rw [hclaims] at hfd
    exact hi (hsound.alone i index other running fd hother hindex hfd' hfd)
  case uses => exact huses
  case deletes => simp [hdeletes]
  case stays =>
    intro fd hfd
    rw [hclaims] at hfd
    exact .inr (hstays fd hfd)

theorem RpcServer.Sound.find (hsound : server.Sound files)
    (hindex : server.calls[index]? = some running)
    (hstage : running.stage = .started) {fildes : BitVec 64}
    (hfildes : running.call.fildes? = some fildes) :
    (server.setStage index running (.found (server.files fildes))).Sound
      files := by
  have hneeds : running.needs package server.os = some fildes := by
    rw [Running.needs, hstage]
    exact hfildes
  apply hsound.set hindex (by simp [hstage]) rfl
  · intro i other _ hother
    refine hsound.leaves_same ?_ ?_ (List.mem_of_getElem? hother) <;> rfl
  · apply hsound.admits_claims hindex (by simp) rfl
    · rw [Running.claims, Running.claims, hstage]
    · intro fd huses
      rw [Running.uses, hstage]
      exact huses
    · intro fd hfd
      have hsame : fildes = fd := Option.some.inj (hfildes.symm.trans hfd)
      subst hsame
      obtain ⟨file, hholds, _⟩ := hsound.held running
        (List.mem_of_getElem? hindex) fildes hneeds
      exact ⟨file, ⟨hholds.isOpen, hholds.number, hholds.entry⟩,
        hholds.entry⟩
    · intro fd hclaims
      rw [Running.claims, hstage] at hclaims
      have hsame : fildes = fd := Option.some.inj
        (hfildes.symm.trans (FileCall.fildes_of_closed hclaims))
      exact hsame ▸ hsound.not_toDelete hindex hneeds

theorem RpcServer.Sound.store (hsound : server.Sound files)
    (hindex : server.calls[index]? = some running) {file : ℕ}
    (hstage : running.stage = .opened file)
    (hdisciplined : server.Disciplined package (.advance index)) :
    ({ server.setStage index running (.stored file) with
      files := Function.update server.files (package.fd server.os file)
        (some file) } : RpcServer σ).Sound files := by
  have hlive : ∀ fd, running.stage ≠ .openReturned fd true := by
    simp [hstage]
  have hclaims : running.claims package server.os =
      some (package.fd server.os file) := by
    rw [Running.claims, hstage]
  apply hsound.set hindex hlive rfl
  · intro i other hi hother
    apply hsound.leaves_update (List.mem_of_getElem? hother)
    intro fd hneeds
    exact hsound.needs_ne hindex hlive hclaims hi hother hneeds
  · apply hsound.admits_claims hindex (by simp) rfl
    · rw [hclaims]
      rfl
    · intro fd huses
      cases huses
    · rintro fd ⟨⟩
      refine ⟨file, ⟨?_, rfl, Function.update_self _ _ _⟩, rfl⟩
      exact hsound.opened running (List.mem_of_getElem? hindex) file hstage
    · intro fd hfd other hother
      rw [hclaims, Option.some.injEq] at hfd
      subst hfd
      exact hdisciplined running hindex file (by rw [hstage]; rfl) other
        hother

theorem RpcServer.Sound.returnNumber (hsound : server.Sound files)
    (hindex : server.calls[index]? = some running) {file : ℕ}
    (hstage : running.stage = .stored file) :
    (server.respond index running
      (.openReturned (package.fd server.os file) true)
      (some (.number (package.fd server.os file)))).Sound files := by
  have hneeds : running.needs package server.os =
      some (package.fd server.os file) := by
    rw [Running.needs, hstage]
  apply hsound.set hindex (by simp [hstage]) rfl
  · intro i other _ hother
    refine hsound.leaves_same ?_ ?_ (List.mem_of_getElem? hother) <;> rfl
  · apply hsound.admits_claims hindex (by simp) rfl
    · rw [Running.claims, Running.claims, hstage]
      rfl
    · intro fd huses
      cases huses
    · rintro fd ⟨⟩
      obtain ⟨own, hholds, _⟩ := hsound.held running
        (List.mem_of_getElem? hindex) _ hneeds
      exact ⟨own, ⟨hholds.isOpen, hholds.number, hholds.entry⟩, trivial⟩
    · intro fd hclaims
      rw [Running.claims, hstage, Option.some.injEq] at hclaims
      exact hclaims ▸ hsound.not_toDelete hindex hneeds

theorem RpcServer.Sound.delete (hsound : server.Sound files)
    (hindex : server.calls[index]? = some running) {reply : Option Reply}
    (hstage : running.stage = .released reply) {fildes : BitVec 64}
    (hfildes : running.call.fildes? = some fildes) :
    ({ server.setStage index running (.executed reply) with
      files := Function.update server.files fildes none } :
        RpcServer σ).Sound files := by
  have hdelete : running.toDelete = some fildes := by
    rw [Running.toDelete, hstage]
    exact hfildes
  apply hsound.set hindex (by simp [hstage]) rfl
  · intro i other _ hother
    apply hsound.leaves_update (List.mem_of_getElem? hother)
    rintro fd hneeds rfl
    exact hsound.not_toDelete hother hneeds running
      (List.mem_of_getElem? hindex) hdelete
  · exact RpcServer.admits_plain (by simp) rfl rfl rfl rfl

theorem RpcServer.Sound.advance {heap : Heap} (hsound : server.Sound files)
    (hindex : server.calls[index]? = some running)
    (hdisciplined : server.Disciplined package (.advance index))
    (hadvances : server.Advances package heap index running next) :
    next.Sound files := by
  have hlive := hadvances.not_live
  cases hadvances with
  | call hstage hfildes =>
      exact hsound.make hindex hlive (RpcServer.closesOwn_none hfildes)
  | find hstage hfildes => exact hsound.find hindex hstage hfildes
  | callFound hstage hfildes =>
      exact hsound.make hindex hlive (hsound.closesOwn_found hindex hstage)
  | store hstage => exact hsound.store hindex hstage hdisciplined
  | returnNumber hstage => exact hsound.returnNumber hindex hstage
  | delete hstage hfildes => exact hsound.delete hindex hstage hfildes
  | respond hstage =>
      apply hsound.set hindex hlive rfl
      · intro i other _ hother
        refine hsound.leaves_same ?_ ?_ (List.mem_of_getElem? hother) <;> rfl
      · exact RpcServer.admits_plain (by simp) rfl rfl rfl rfl

end Steps

end Runs

end Go

end TestRpc
