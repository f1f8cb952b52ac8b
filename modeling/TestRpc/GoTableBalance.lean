import TestRpc.GoFileTable

/-!
# The file table of the Go server is exact

An entry of `files` and the open file behind it come and go in different steps
of `Open` and `Close`.  In the runs in which the table keeps its live files it
also keeps nothing else: a file that is open is in the table or about to be
stored, and an entry without an open file is about to be deleted.  So once all
calls have returned, the table holds exactly the open files, and none of them
can be out of reach of a `Close`.
-/

namespace TestRpc

open TransitionRuns

namespace Go

/-! ## The invariant -/

/-- `kept` and `stale` say how far the table and the open files may differ.
The other two are about a `Close` that is under way: whatever the table still
holds under its number is the file that it has found, and is closed once it
has closed that. -/
structure Server.Balanced (server : Server) : Prop where
  kept : ∀ file number, server.IsOpen file number →
    server.files number = some file ∨
      ∃ call ∈ server.calls, call.progress = .opened file
  stale : ∀ fildes file, server.files fildes = some file →
    server.IsOpen file fildes ∨
      ∃ call ∈ server.calls, call.progress.closes = some fildes
  looked : ∀ call ∈ server.calls, ∀ fildes found,
    call.progress = .closeFound fildes found →
    ∀ file, server.files fildes = some file → found = some file
  released : ∀ call ∈ server.calls, ∀ fildes,
    call.progress = .closeReleased fildes →
    ∀ file, server.files fildes = some file → ¬server.IsOpen file fildes

/-- What a call may have come to as far as the table is concerned. -/
structure Server.Accepts (server : Server) (progress : Progress) : Prop where
  looked : ∀ fildes found, progress = .closeFound fildes found →
    ∀ file, server.files fildes = some file → found = some file
  released : ∀ fildes, progress = .closeReleased fildes →
    ∀ file, server.files fildes = some file → ¬server.IsOpen file fildes

theorem Server.accepts_plain (server : Server) {progress : Progress}
    (hcloses : progress.closes = none) : server.Accepts progress := by
  constructor
  · intro fildes found hfound
    rw [hfound] at hcloses
    cases hcloses
  · intro fildes hreleased
    rw [hreleased] at hcloses
    cases hcloses

/-- The calls change: files that were to be stored still are, unless the table
has them by now, and a number that was being closed still is, unless the table
has no entry for it. -/
theorem Server.Balanced.withCalls {server : Server} (hinv : server.Balanced)
    {calls : List Call}
    (hopened : ∀ file, (∃ call ∈ server.calls,
        call.progress = .opened file) →
      (∃ call ∈ calls, call.progress = .opened file) ∨
        ∀ number, server.IsOpen file number →
          server.files number = some file)
    (hcloses : ∀ fildes, (∃ call ∈ server.calls,
        call.progress.closes = some fildes) →
      (∃ call ∈ calls, call.progress.closes = some fildes) ∨
        server.files fildes = none)
    (haccepts : ∀ call ∈ calls, server.Accepts call.progress) :
    ({ server with calls := calls } : Server).Balanced := by
  constructor
  case kept =>
    intro file number hopen
    rcases hinv.kept file number hopen with hfile | hcall
    · exact .inl hfile
    · rcases hopened file hcall with hcall | hfile
      · exact .inr hcall
      · exact .inl (hfile number hopen)
  case stale =>
    intro fildes file hfile
    rcases hinv.stale fildes file hfile with hopen | hcall
    · exact .inl hopen
    · rcases hcloses fildes hcall with hcall | hnone
      · exact .inr hcall
      · have hfile' : server.files fildes = some file := hfile
        rw [hnone] at hfile'
        cases hfile'
  case looked => exact fun call hcall => (haccepts call hcall).looked
  case released => exact fun call hcall => (haccepts call hcall).released

theorem Server.Balanced.accepts {server : Server} (hinv : server.Balanced)
    {call : Call} (hcall : call ∈ server.calls) :
    server.Accepts call.progress :=
  ⟨hinv.looked call hcall, hinv.released call hcall⟩

theorem Server.Balanced.proceed {server : Server} (hinv : server.Balanced)
    {index client : ℕ} {before : Progress}
    (hbefore : server.calls[index]? = some ⟨client, before⟩)
    {progress : Progress} (haccepts : server.Accepts progress)
    (hopened : ∀ file, before = .opened file →
      ∀ number, server.IsOpen file number → server.files number = some file)
    (hcloses : ∀ fildes, before.closes = some fildes →
      progress.closes = some fildes ∨ server.files fildes = none) :
    (server.proceed index client progress).Balanced := by
  have hlt := (List.getElem?_eq_some_iff.mp hbefore).1
  have hnew : (⟨client, progress⟩ : Call) ∈
      server.calls.set index ⟨client, progress⟩ :=
    List.mem_set hlt ⟨client, progress⟩
  have hstays : ∀ call ∈ server.calls, call ∈
      server.calls.set index ⟨client, progress⟩ ∨ call.progress = before := by
    intro call hcall
    obtain ⟨i, hi⟩ := List.getElem?_of_mem hcall
    by_cases hsame : index = i
    · subst hsame
      rw [hbefore, Option.some.injEq] at hi
      rw [← hi]
      exact .inr rfl
    · left
      apply List.mem_of_getElem?
      rw [List.getElem?_set_ne hsame]
      exact hi
  apply hinv.withCalls
  · rintro file ⟨call, hcall, hprogress⟩
    rcases hstays call hcall with hstill | hwas
    · exact .inl ⟨call, hstill, hprogress⟩
    · exact .inr (hopened file (hwas ▸ hprogress))
  · rintro fildes ⟨call, hcall, hprogress⟩
    rcases hstays call hcall with hstill | hwas
    · exact .inl ⟨call, hstill, hprogress⟩
    · rcases hcloses fildes (hwas ▸ hprogress) with hgoesOn | hnone
      · exact .inl ⟨_, hnew, hgoesOn⟩
      · exact .inr hnone
  · intro call hcall
    rcases List.mem_or_eq_of_mem_set hcall with hold | rfl
    · exact hinv.accepts hold
    · exact haccepts

theorem Server.Balanced.start {server : Server} (hinv : server.Balanced)
    (client : ℕ) {progress : Progress} (haccepts : server.Accepts progress) :
    (server.start client progress).Balanced := by
  apply hinv.withCalls
  · rintro file ⟨call, hcall, hprogress⟩
    exact .inl ⟨call, List.mem_append_left _ hcall, hprogress⟩
  · rintro fildes ⟨call, hcall, hprogress⟩
    exact .inl ⟨call, List.mem_append_left _ hcall, hprogress⟩
  · intro call hcall
    rcases List.mem_append.mp hcall with hold | hlast
    · exact hinv.accepts hold
    · rw [List.mem_singleton.mp hlast]
      exact haccepts

/-! ## Steps that touch the files or the table -/

theorem Call.progress_noteClose (fildes : ℕ) {call : Call}
    (hother : ∀ file fd closing,
      call.progress ≠ .openReturned file fd closing) :
    call.noteClose fildes = call := by
  obtain ⟨client, progress⟩ := call
  cases progress with
  | openReturned file fd closing => exact absurd rfl (hother file fd closing)
  | _ => rfl

theorem Server.Balanced.noteClose {server : Server} (hinv : server.Balanced)
    (fildes : ℕ) :
    ({ server with
      calls := server.calls.map (Call.noteClose fildes) } :
        Server).Balanced := by
  have hsame : ∀ call ∈ server.calls,
      (∀ file fd closing, call.progress ≠ .openReturned file fd closing) →
      call ∈ server.calls.map (Call.noteClose fildes) := by
    intro call hcall hother
    exact List.mem_map.mpr
      ⟨call, hcall, Call.progress_noteClose fildes hother⟩
  apply hinv.withCalls
  · rintro file ⟨call, hcall, hprogress⟩
    exact .inl ⟨call, hsame call hcall (by simp [hprogress]), hprogress⟩
  · rintro fildes' ⟨call, hcall, hprogress⟩
    refine .inl ⟨call, hsame call hcall ?_, hprogress⟩
    intro file fd closing hreturned
    rw [hreturned] at hprogress
    cases hprogress
  · intro call hcall
    obtain ⟨before, hbefore, rfl⟩ := List.mem_map.mp hcall
    rcases Call.noteClose_cases fildes before with ⟨hkept, _⟩ | ⟨file, hnew⟩
    · rw [hkept]
      exact hinv.accepts hbefore
    · rw [hnew]
      exact server.accepts_plain rfl

/-- The file is created by a call that is going to store it. -/
theorem Server.Balanced.create {server : Server} (hinv : server.Balanced)
    (hkeyed : ∀ fildes file, server.files fildes = some file →
      file < server.objects.length)
    (hcall : ∃ call ∈ server.calls,
      call.progress = .opened server.objects.length) (number : ℕ) :
    ({ server with objects := server.objects ++ [⟨number, true⟩] } :
      Server).Balanced := by
  constructor
  case kept =>
    intro file number' hopen
    rcases Server.isOpen_create.mp hopen with hold | ⟨rfl, _⟩
    · exact hinv.kept file number' hold
    · exact .inr hcall
  case stale =>
    intro fildes file hfile
    rcases hinv.stale fildes file hfile with hopen | hcloses
    · exact .inl (Server.isOpen_create.mpr (.inl hopen))
    · exact .inr hcloses
  case looked => exact hinv.looked
  case released =>
    intro call hcall fildes hprogress file hfile hopen
    rcases Server.isOpen_create.mp hopen with hold | ⟨rfl, _⟩
    · exact hinv.released call hcall fildes hprogress file hfile hold
    · exact absurd (hkeyed fildes _ hfile) (lt_irrefl _)

theorem Server.Balanced.store {server : Server} (hinv : server.Balanced)
    (hdistinct : ∀ left right number, server.IsOpen left number →
      server.IsOpen right number → left = right)
    {file number : ℕ} (hopen : server.IsOpen file number)
    (hnone : ∀ call ∈ server.calls, call.progress.closes ≠ some number) :
    ({ server with
      files := Function.update server.files number (some file) } :
        Server).Balanced := by
  have hother : ∀ key, key ≠ number →
      Function.update server.files number (some file) key =
        server.files key :=
    fun key hkey => Function.update_of_ne hkey _ _
  -- A `Close` that is under way is one of another number.
  have hapart : ∀ call ∈ server.calls, ∀ fildes,
      call.progress.closes = some fildes → fildes ≠ number := by
    rintro call hcall fildes hcloses rfl
    exact hnone call hcall hcloses
  constructor
  case kept =>
    intro file' number' hopen'
    by_cases hsame : number' = number
    · subst hsame
      rw [hdistinct file' file number' hopen' hopen]
      exact .inl (Function.update_self ..)
    · rcases hinv.kept file' number' hopen' with hfile | hcall
      · exact .inl ((hother number' hsame).trans hfile)
      · exact .inr hcall
  case stale =>
    intro fildes file' hfile
    rcases update_cases hfile with ⟨rfl, hsame⟩ | ⟨_, hold⟩
    · rw [← Option.some.inj hsame]
      exact .inl hopen
    · exact hinv.stale fildes file' hold
  case looked =>
    intro call hcall fildes found hprogress file' hfile
    have hdiffers := hapart call hcall fildes (by rw [hprogress]; rfl)
    exact hinv.looked call hcall fildes found hprogress file'
      ((hother fildes hdiffers).symm.trans hfile)
  case released =>
    intro call hcall fildes hprogress file' hfile
    have hdiffers := hapart call hcall fildes (by rw [hprogress]; rfl)
    exact hinv.released call hcall fildes hprogress file'
      ((hother fildes hdiffers).symm.trans hfile)

theorem Server.Balanced.closeFile {server : Server} (hinv : server.Balanced)
    (hsound : server.Sound) {call : Call} (hcall : call ∈ server.calls)
    {fildes : ℕ} {found : Option ℕ}
    (hfound : call.progress = .closeFound fildes found) :
    (server.closeFile found).Balanced := by
  cases found with
  | none => exact hinv
  | some closed =>
      have hnumber := hsound.found call hcall fildes closed hfound
      constructor
      case kept =>
        intro file number hopen
        exact hinv.kept file number (Server.isOpen_closeFile.mp hopen).1
      case stale =>
        intro fildes' file hfile
        by_cases hsame : file = closed
        · subst hsame
          have hkey := (hsound.keyed fildes' file hfile).unique hnumber
          exact .inr ⟨call, hcall, by rw [hfound, hkey]; rfl⟩
        · rcases hinv.stale fildes' file hfile with hopen | hcloses
          · exact .inl (Server.isOpen_closeFile.mpr ⟨hopen, hsame⟩)
          · exact .inr hcloses
      case looked => exact hinv.looked
      case released =>
        intro other hother fildes' hprogress file hfile hopen
        exact hinv.released other hother fildes' hprogress file hfile
          (Server.isOpen_closeFile.mp hopen).1

theorem Server.Balanced.delete {server : Server} (hinv : server.Balanced)
    {call : Call} (hcall : call ∈ server.calls) {fildes : ℕ}
    (hreleased : call.progress = .closeReleased fildes) :
    ({ server with
      files := Function.update server.files fildes none } :
        Server).Balanced := by
  have hfiles : ∀ key file,
      Function.update server.files fildes none key = some file →
      server.files key = some file := by
    intro key file hfile
    rcases update_cases hfile with ⟨_, hnone⟩ | ⟨_, hold⟩
    · cases hnone
    · exact hold
  constructor
  case kept =>
    intro file number hopen
    rcases hinv.kept file number hopen with hfile | hopened
    · left
      have hdiffers : number ≠ fildes := by
        rintro rfl
        exact hinv.released call hcall number hreleased file hfile hopen
      exact (Function.update_of_ne hdiffers _ _).trans hfile
    · exact .inr hopened
  case stale =>
    intro key file hfile
    exact hinv.stale key file (hfiles key file hfile)
  case looked =>
    intro other hother key found hprogress file hfile
    exact hinv.looked other hother key found hprogress file
      (hfiles key file hfile)
  case released =>
    intro other hother key hprogress file hfile
    exact hinv.released other hother key hprogress file
      (hfiles key file hfile)

/-! ## Every step -/

theorem Server.Balanced.openFile {server : Server} (hinv : server.Balanced)
    (hsound : server.Sound) {index client : ℕ}
    (hcall : server.calls[index]? = some ⟨client, .opening⟩) (number : ℕ) :
    ({ server.proceed index client (.opened server.objects.length) with
      objects := server.objects ++ [⟨number, true⟩] } :
        Server).Balanced := by
  have hopening : ∀ file, Progress.opening = .opened file →
      ∀ number, server.IsOpen file number →
        server.files number = some file := by
    intro file hopened
    cases hopened
  have hproceeds : (server.proceed index client
      (.opened server.objects.length)).Balanced :=
    hinv.proceed hcall (server.accepts_plain rfl) hopening
      (by simp [Progress.closes])
  apply hproceeds.create
  · intro fildes file hfile
    exact (hsound.keyed fildes file hfile).lt
  · refine ⟨⟨client, .opened server.objects.length⟩, ?_, rfl⟩
    exact List.mem_set (List.getElem?_eq_some_iff.mp hcall).1 _

theorem Server.Balanced.storeOpened {server : Server}
    (hinv : server.Balanced) (hsound : server.Sound)
    {index client file : ℕ} {object : OsFile}
    (hcall : server.calls[index]? = some ⟨client, .opened file⟩)
    (hobject : server.objects[file]? = some object) {granted : Option ℕ}
    (hallowed : server.NoOverlap (.advance index granted)) :
    ({ server.proceed index client (.stored file) with
      files := Function.update server.files object.fd (some file) } :
        Server).Balanced := by
  have hmem := List.mem_of_getElem? hcall
  obtain ⟨⟨number, hopen⟩, _, _⟩ := hsound.unshared _ hmem file rfl
  have hfd : object.fd = number := hopen.fd_eq hobject
  have hnone := hallowed _ hcall file rfl object hobject
  rw [hfd] at hnone ⊢
  have hstored := hinv.store hsound.distinct hopen hnone
  apply hstored.proceed hcall (Server.accepts_plain _ rfl)
  · rintro file' ⟨⟩ number' hopen'
    have hsame : number' = number :=
      Server.HasNumber.unique hopen'.hasNumber hopen.hasNumber
    rw [hsame]
    exact Function.update_self ..
  · simp [Progress.closes]

theorem Server.Balanced.releaseFound {server : Server}
    (hinv : server.Balanced) (hsound : server.Sound)
    {index client fildes : ℕ} {found : Option ℕ}
    (hcall : server.calls[index]? = some ⟨client, .closeFound fildes found⟩) :
    ((server.closeFile found).proceed index client
      (.closeReleased fildes)).Balanced := by
  have hmem := List.mem_of_getElem? hcall
  have hclosed := hinv.closeFile hsound hmem rfl
  have hcall' : (server.closeFile found).calls[index]? =
      some ⟨client, .closeFound fildes found⟩ := by
    rw [Server.calls_closeFile]
    exact hcall
  apply hclosed.proceed hcall' _ (by simp)
  · rintro fildes' ⟨⟩
    exact .inl rfl
  · constructor
    · intro fildes' found' hfound
      cases hfound
    · rintro fildes' ⟨⟩ file hfile hopen
      have hfiles : server.files fildes = some file := by
        cases found <;> exact hfile
      have hlooked := hinv.looked _ hmem fildes found rfl file hfiles
      subst hlooked
      exact (Server.isOpen_closeFile.mp hopen).2 rfl

theorem Server.Balanced.advance {server next : Server}
    (hinv : server.Balanced) (hsound : server.Sound) {index : ℕ}
    {granted : Option ℕ}
    (hallowed : server.NoOverlap (.advance index granted))
    (hstep : server.advance index granted = some next) :
    next.Balanced := by
  unfold Server.advance at hstep
  cases hcall : server.calls[index]? with
  | none =>
      rw [hcall] at hstep
      cases hstep
  | some call =>
      obtain ⟨client, progress⟩ := call
      have hmem : (⟨client, progress⟩ : Call) ∈ server.calls :=
        List.mem_of_getElem? hcall
      rw [hcall] at hstep
      cases progress with
      | opening =>
          simp only [Server.openFile] at hstep
          cases granted with
          | none =>
              cases hstep
              exact hinv.proceed hcall (server.accepts_plain rfl) (by simp)
                (by simp [Progress.closes])
          | some number =>
              simp only at hstep
              split at hstep
              · cases hstep
                exact hinv.openFile hsound hcall number
              · cases hstep
      | opened file =>
          simp only at hstep
          split at hstep
          · cases hstep
          · next object hobject =>
            cases hstep
            exact hinv.storeOpened hsound hcall hobject hallowed
      | stored file =>
          simp only at hstep
          split at hstep
          · cases hstep
          · cases hstep
            exact hinv.proceed hcall (server.accepts_plain rfl) (by simp)
              (by simp [Progress.closes])
      | closing fildes =>
          cases hstep
          apply hinv.proceed hcall _ (by simp)
          · rintro fildes' ⟨⟩
            exact .inl rfl
          · constructor
            · rintro fildes' found ⟨⟩ file hfile
              exact hfile
            · intro fildes' hreleased
              cases hreleased
      | closeFound fildes found =>
          cases hstep
          exact hinv.releaseFound hsound hcall
      | closeReleased fildes =>
          cases hstep
          apply (hinv.delete hmem rfl).proceed hcall
            (Server.accepts_plain _ rfl) (by simp)
          rintro fildes' ⟨⟩
          exact .inr (Function.update_self ..)
      | «using» operation fildes | usingFound operation file =>
          cases hstep
          exact hinv.proceed hcall (server.accepts_plain rfl) (by simp)
            (by simp [Progress.closes])
      | openReturned file fd closing | openFailed | closeReturned
      | usingReturned => cases hstep

theorem Server.Balanced.step {server next : Server} {event : Event}
    (hinv : server.Balanced) (hsound : server.Sound)
    (hallowed : server.NoOverlap event)
    (hstep : server.step event = some next) : next.Balanced := by
  cases event with
  | startOpen client =>
      cases hstep
      exact hinv.start client (server.accepts_plain rfl)
  | startClose client fildes =>
      cases hstep
      apply (hinv.noteClose fildes).start
      exact ⟨by simp, by simp⟩
  | startUse client operation fildes =>
      cases hstep
      exact hinv.start client (server.accepts_plain rfl)
  | advance index granted => exact hinv.advance hsound hallowed hstep

/-! ## Whole runs -/

/-- A call that is neither opening nor closing a file. -/
def Progress.Settled (progress : Progress) : Prop :=
  progress.closes = none ∧ ∀ file, progress ≠ .opened file

instance (progress : Progress) : Decidable progress.Settled :=
  match progress with
  | .opened file => isFalse fun hsettled => hsettled.2 file rfl
  | .closing _ | .closeFound _ _ | .closeReleased _ =>
      isFalse fun hsettled => by cases hsettled.1
  | .opening | .stored _ | .openReturned _ _ _ | .openFailed
  | .closeReturned | .using _ _ | .usingFound _ _ | .usingReturned =>
      isTrue ⟨rfl, by simp⟩

/-- The table lags behind the open files only by calls that are under way, and
agrees with them when there are none. -/
structure Server.TableExact (server : Server) : Prop where
  kept : ∀ file number, server.IsOpen file number →
    server.files number = some file ∨
      ∃ call ∈ server.calls, call.progress = .opened file
  stale : ∀ fildes file, server.files fildes = some file →
    server.IsOpen file fildes ∨
      ∃ call ∈ server.calls, call.progress.closes = some fildes
  settled : (∀ call ∈ server.calls, call.progress.Settled) →
    ∀ fildes file, server.files fildes = some file ↔
      server.IsOpen file fildes

theorem Server.Balanced.tableExact {server : Server}
    (hinv : server.Balanced) : server.TableExact := by
  refine ⟨hinv.kept, hinv.stale, fun hsettled fildes file => ?_⟩
  constructor
  · intro hfile
    rcases hinv.stale fildes file hfile with hopen | ⟨call, hcall, hcloses⟩
    · exact hopen
    · rw [(hsettled call hcall).1] at hcloses
      cases hcloses
  · intro hopen
    rcases hinv.kept file fildes hopen with hfile | ⟨call, hcall, hopened⟩
    · exact hfile
    · exact absurd hopened ((hsettled call hcall).2 file)

theorem Server.initial_balanced : Server.initial.Balanced := by
  constructor
  case kept =>
    rintro file number ⟨object, hobject, _⟩
    simp [Server.initial] at hobject
  case stale => simp [Server.initial]
  case looked => simp [Server.initial]
  case released => simp [Server.initial]

/-- While no `Close` overlaps the end of an `Open` of its number, no open file
is ever lost from the table but by the `Open` that has yet to store it, and no
entry outlives its file but until the `Close` under way deletes it. -/
theorem Server.run_tableExact (events : List Event) (server : Server)
    (hrun : Run Server.step Server.NoOverlap Server.initial events server) :
    server.TableExact := by
  obtain ⟨_, hbalanced⟩ : server.Sound ∧ server.Balanced := by
    apply hrun.invariant _ ⟨Server.initial_sound, Server.initial_balanced⟩
    rintro state event next ⟨hsound, hinv⟩ hallowed hstep
    exact ⟨hsound.step hallowed hstep, hinv.step hsound hallowed hstep⟩
  exact hbalanced.tableExact

theorem Server.run_tableExact_reusedAfterDelete :
    ∃ server,
      Run Server.step Server.NoOverlap Server.initial reusedAfterDelete
        server ∧
      (∀ call ∈ server.calls, call.progress.Settled) ∧
      server.objects = [⟨5, false⟩, ⟨5, true⟩] ∧ server.TableExact := by
  obtain ⟨server, hexec, hsettled, hobjects⟩ : ∃ server,
      execute Server.step Server.NoOverlap Server.initial
        reusedAfterDelete = some server ∧
      (∀ call ∈ server.calls, call.progress.Settled) ∧
      server.objects = [⟨5, false⟩, ⟨5, true⟩] := ⟨_, rfl, by decide, rfl⟩
  have hrun := run_of_execute hexec
  exact ⟨server, hrun, hsettled, hobjects,
    Server.run_tableExact reusedAfterDelete server hrun⟩

/-- In the run in which an `Open` stores its file while a `Close` of its
number is under way, an open file is in nobody's reach. -/
example : (execute Server.step Server.Disciplined Server.initial
    reusedBeforeDelete).map (fun server =>
      (server.objects, server.files 5,
        decide (∀ call ∈ server.calls, call.progress.Settled))) =
    some ([⟨5, false⟩, ⟨5, true⟩], none, true) := by
  decide +kernel

end Go

end TestRpc
