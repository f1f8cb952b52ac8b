import TestRpc.JavaHandles

/-!
# What a handle of the Java server reaches

Whatever handles clients send, stale, closed twice or never issued, a call on
a handle reaches one stream only: the one that has this hash code and was
created last.  Streams of another hash code, entries under another key and
files that this stream was not opened on stay as they are.  A stream that is
open can get out of the reach of `close` only by a later `open` whose stream
has the same hash code.
-/

namespace TestRpc

open TransitionRuns FileCursor

namespace Java

/-! ## Methods -/

/-- A method keeps the hash code of its stream, and changes no file but the
one of an open stream that may write to it. -/
structure Method.Confined {α : Type} (method : Method α) : Prop where
  hashCode : ∀ file disk,
    (method file disk).2.1.hashCode = file.hashCode
  keepsClosed : Method.KeepsClosed method
  disk : ∀ file disk node, (method file disk).2.2 node ≠ disk node →
    node = file.node ∧ file.isOpen = true ∧ file.writable = true

theorem Method.confined_of_disk_eq {α : Type} {method : Method α}
    (hclosed : Method.KeepsClosed method)
    (hsame : ∀ file disk,
      (method file disk).2.1.hashCode = file.hashCode ∧
        (method file disk).2.2 = disk) :
    Method.Confined method := by
  refine ⟨fun file disk => (hsame file disk).1, hclosed,
    fun file disk node hchanged => ?_⟩
  rw [(hsame file disk).2] at hchanged
  exact absurd rfl hchanged

theorem node_eq_of_update_ne {disk : Disk} {node changed : ℕ}
    {content : List UInt8}
    (hchanged : Function.update disk node content changed ≠ disk changed) :
    changed = node := by
  by_contra hother
  exact hchanged (Function.update_of_ne hother _ _)

theorem RandomAccessFile.close_confined (fault : Option Bool) :
    Method.Confined (RandomAccessFile.close fault) := by
  apply Method.confined_of_disk_eq
    (RandomAccessFile.close_keepsClosed fault)
  intro file disk
  unfold RandomAccessFile.close
  split
  · split <;> exact ⟨rfl, rfl⟩
  · exact ⟨rfl, rfl⟩

theorem RandomAccessFile.read_confined (ask : Ask) (fails : Bool) :
    Method.Confined (RandomAccessFile.read ask fails) := by
  apply Method.confined_of_disk_eq
    (RandomAccessFile.read_keepsClosed ask fails)
  intro file disk
  unfold RandomAccessFile.read
  split
  · split <;> exact ⟨rfl, rfl⟩
  · exact ⟨rfl, rfl⟩

theorem RandomAccessFile.write_confined (b : List UInt8) (off len : CInt)
    (fault : Option ℕ) :
    Method.Confined (RandomAccessFile.write b off len fault) := by
  refine ⟨fun file disk => ?_,
    RandomAccessFile.write_keepsClosed b off len fault,
    fun file disk node hchanged => ?_⟩
  · unfold RandomAccessFile.write
    split
    · rfl
    · split <;> rfl
  · unfold RandomAccessFile.write at hchanged
    split at hchanged
    · exact absurd rfl hchanged
    · split at hchanged
      · next hopen =>
        rw [Bool.and_eq_true] at hopen
        exact ⟨node_eq_of_update_ne hchanged, hopen⟩
      · exact absurd rfl hchanged

theorem RandomAccessFile.seek_confined (pos : BitVec 64) (fails : Bool) :
    Method.Confined (RandomAccessFile.seek pos fails) := by
  apply Method.confined_of_disk_eq
    (RandomAccessFile.seek_keepsClosed pos fails)
  intro file disk
  unfold RandomAccessFile.seek
  split
  · exact ⟨rfl, rfl⟩
  · split <;> exact ⟨rfl, rfl⟩

theorem RandomAccessFile.setLength_confined (newLength : BitVec 64)
    (fails : Bool) :
    Method.Confined (RandomAccessFile.setLength newLength fails) := by
  refine ⟨fun file disk => ?_,
    RandomAccessFile.setLength_keepsClosed newLength fails,
    fun file disk node hchanged => ?_⟩
  · unfold RandomAccessFile.setLength
    split
    · rfl
    · split <;> rfl
  · unfold RandomAccessFile.setLength at hchanged
    split at hchanged
    · exact absurd rfl hchanged
    · split at hchanged
      · next hopen =>
        rw [Bool.and_eq_true, Bool.and_eq_true] at hopen
        exact ⟨node_eq_of_update_ne hchanged, hopen.1⟩
      · exact absurd rfl hchanged

theorem RandomAccessFile.getFilePointer_confined (fails : Bool) :
    Method.Confined (RandomAccessFile.getFilePointer fails) := by
  apply Method.confined_of_disk_eq
    (RandomAccessFile.getFilePointer_keepsClosed fails)
  intro file disk
  unfold RandomAccessFile.getFilePointer
  split <;> exact ⟨rfl, rfl⟩

theorem RandomAccessFile.sync_confined (fails : Bool) :
    Method.Confined (RandomAccessFile.sync fails) := by
  apply Method.confined_of_disk_eq
    (RandomAccessFile.sync_keepsClosed fails)
  intro file disk
  unfold RandomAccessFile.sync
  split <;> exact ⟨rfl, rfl⟩

/-! ## The invariant -/

/-- Every entry leads to a stream of its hash code, and an open stream is
found under its hash code unless a later one has the same. -/
structure ServerState.Accounted (server : ServerState) : Prop where
  keyed : ∀ (fd : CInt) (file : ℕ), server.files fd = some file →
    ∃ object, server.objects[file]? = some object ∧ object.hashCode = fd
  reached : ∀ (file : ℕ) (object : RandomAccessFile),
    server.objects[file]? = some object →
    object.isOpen = true →
    server.files object.hashCode = some file ∨
      ∃ (later : ℕ) (other : RandomAccessFile), file < later ∧
        server.objects[later]? = some other ∧
        other.hashCode = object.hashCode

/-- What a call on a handle may change. -/
structure ServerState.ConfinedTo (server : ServerState) (fd : CInt)
    (next : ServerState) : Prop where
  entries : ∀ key, key ≠ fd → next.files key = server.files key
  streams : ∀ (file : ℕ) (object : RandomAccessFile),
    server.objects[file]? = some object →
    object.hashCode ≠ fd → next.objects[file]? = some object
  disk : ∀ node, next.disk node ≠ server.disk node →
    ∃ (file : ℕ) (object : RandomAccessFile),
      server.files fd = some file ∧
      server.objects[file]? = some object ∧ object.node = node ∧
      object.isOpen = true ∧ object.writable = true

/-- The streams are the same but for what their methods change. -/
structure ServerState.Continues (server next : ServerState) : Prop where
  files : next.files = server.files
  forwards : ∀ (file : ℕ) (object : RandomAccessFile),
    server.objects[file]? = some object →
    ∃ object', next.objects[file]? = some object' ∧
      object'.hashCode = object.hashCode
  backwards : ∀ (file : ℕ) (object' : RandomAccessFile),
    next.objects[file]? = some object' →
    ∃ object, server.objects[file]? = some object ∧
      object.hashCode = object'.hashCode ∧
      (object'.isOpen = true → object.isOpen = true)

theorem ServerState.Continues.refl (server : ServerState) :
    server.Continues server :=
  ⟨rfl, fun _ object hobject => ⟨object, hobject, rfl⟩,
    fun _ object hobject => ⟨object, hobject, rfl, id⟩⟩

theorem ServerState.ConfinedTo.refl (server : ServerState) (fd : CInt) :
    server.ConfinedTo fd server :=
  ⟨fun _ _ => rfl, fun _ _ hobject _ => hobject,
    fun _ hchanged => absurd rfl hchanged⟩

theorem ServerState.Accounted.continues {server next : ServerState}
    (haccounted : server.Accounted) (hcontinues : server.Continues next) :
    next.Accounted := by
  constructor
  case keyed =>
    intro fd file hfile
    rw [hcontinues.files] at hfile
    obtain ⟨object, hobject, rfl⟩ := haccounted.keyed fd file hfile
    exact hcontinues.forwards file object hobject
  case reached =>
    intro file object' hobject' hopen
    obtain ⟨object, hobject, hhash, hwasOpen⟩ :=
      hcontinues.backwards file object' hobject'
    rw [hcontinues.files, ← hhash]
    rcases haccounted.reached file object hobject (hwasOpen hopen) with
      hfile | ⟨later, other, hlater, hother, hsame⟩
    · exact .inl hfile
    · obtain ⟨other', hother', hkept⟩ :=
        hcontinues.forwards later other hother
      exact .inr ⟨later, other', hlater, hother', hkept.trans hsame⟩

theorem ServerState.invoke_continues {α : Type} (server : ServerState)
    (file : Option ℕ) {method : Method α}
    (hconfined : Method.Confined method) :
    server.Continues (server.invoke file method).2 := by
  cases file with
  | none => exact .refl server
  | some index =>
      cases hobject : server.objects[index]? with
      | none =>
          simp only [ServerState.invoke, hobject]
          exact .refl server
      | some object =>
          simp only [ServerState.invoke, hobject]
          have hlt := (List.getElem?_eq_some_iff.mp hobject).1
          refine ⟨rfl, fun file before hbefore => ?_,
            fun file after hafter => ?_⟩
          · by_cases hsame : index = file
            · subst hsame
              rw [hobject, Option.some.injEq] at hbefore
              subst hbefore
              exact ⟨_, List.getElem?_set_self hlt,
                hconfined.hashCode object server.disk⟩
            · exact ⟨before, (List.getElem?_set_ne hsame).trans hbefore, rfl⟩
          · rcases getElem?_set_cases hafter with ⟨rfl, rfl⟩ | ⟨_, hold⟩
            · exact ⟨object, hobject,
                (hconfined.hashCode object server.disk).symm,
                hconfined.keepsClosed object server.disk⟩
            · exact ⟨after, hold, rfl, id⟩

theorem ServerState.Accounted.invoke_confinedTo {α : Type}
    {server : ServerState} (haccounted : server.Accounted) (fd : CInt)
    {method : Method α} (hconfined : Method.Confined method) :
    server.ConfinedTo fd (server.invoke (server.files fd) method).2 := by
  cases hfile : server.files fd with
  | none => exact .refl server fd
  | some index =>
      obtain ⟨object, hobject, rfl⟩ := haccounted.keyed fd index hfile
      simp only [ServerState.invoke, hobject]
      refine ⟨fun _ _ => rfl, fun file other hother hdiffers => ?_,
        fun node hchanged => ?_⟩
      · rw [List.getElem?_set_ne]
        · exact hother
        · rintro rfl
          rw [hobject, Option.some.injEq] at hother
          exact hdiffers (congrArg RandomAccessFile.hashCode hother).symm
      · obtain ⟨rfl, hopen⟩ := hconfined.disk object server.disk node hchanged
        exact ⟨index, object, hfile, hobject, rfl, hopen⟩

/-! ## Calls -/

/-- A call other than `open` and `close` comes down to one method call on its
stream. -/
theorem ServerState.operate_cases (server : ServerState) (file : Option ℕ)
    (operation : Operation) :
    (server.operate file operation).2 = server ∨
      ∃ (α : Type) (method : Method α), Method.Confined method ∧
        (server.operate file operation).2 =
          (server.invoke file method).2 := by
  cases operation with
  | read call fails =>
      change (server.read file call fails).2 = server ∨ _
      by_cases hlen : call.len.toInt < 0
      · left
        rw [ServerState.read, if_pos hlen]
      · refine .inr ⟨_, RandomAccessFile.read call.ask fails,
          RandomAccessFile.read_confined call.ask fails, ?_⟩
        change (server.read file call fails).2 = _
        rw [ServerState.read, if_neg hlen]
        dsimp only
        split <;> (next hinvoke => rw [hinvoke])
  | write b off len fault =>
      exact .inr ⟨_, RandomAccessFile.write b off len fault,
        RandomAccessFile.write_confined b off len fault, rfl⟩
  | seek pos fails =>
      exact .inr ⟨_, RandomAccessFile.seek pos fails,
        RandomAccessFile.seek_confined pos fails, rfl⟩
  | ftruncate length fails =>
      exact .inr ⟨_, RandomAccessFile.setLength length fails,
        RandomAccessFile.setLength_confined length fails, rfl⟩
  | offset fails =>
      exact .inr ⟨_, RandomAccessFile.getFilePointer fails,
        RandomAccessFile.getFilePointer_confined fails, rfl⟩
  | fsync fails =>
      exact .inr ⟨_, RandomAccessFile.sync fails,
        RandomAccessFile.sync_confined fails, rfl⟩

theorem ServerState.Accounted.perform {server : ServerState}
    (haccounted : server.Accounted) (fd : CInt) (operation : Operation) :
    (server.perform fd operation).2.Accounted ∧
      server.ConfinedTo fd (server.perform fd operation).2 := by
  rw [ServerState.perform]
  rcases server.operate_cases (server.files fd) operation with
    hsame | ⟨α, method, hconfined, hinvoke⟩
  · rw [hsame]
    exact ⟨haccounted, .refl server fd⟩
  · rw [hinvoke]
    exact ⟨haccounted.continues (server.invoke_continues _ hconfined),
      haccounted.invoke_confinedTo fd hconfined⟩

/-- The entry of a stream that is closed is removed. -/
theorem ServerState.Accounted.remove {server : ServerState}
    (haccounted : server.Accounted) {fd : CInt}
    (hclosed : ∀ file, server.files fd = some file →
      ¬server.IsOpen file) :
    ({ server with
      files := Function.update server.files fd none } :
        ServerState).Accounted := by
  constructor
  case keyed =>
    intro key file hfile
    by_cases hsame : key = fd
    · subst hsame
      simp at hfile
    · simp only [Function.update_of_ne hsame] at hfile
      exact haccounted.keyed key file hfile
  case reached =>
    intro file object hobject hopen
    rcases haccounted.reached file object hobject hopen with hfile | hlater
    · left
      have hdiffers : object.hashCode ≠ fd := by
        intro hsame
        rw [hsame] at hfile
        exact hclosed file hfile ⟨object, hobject, hopen⟩
      exact (Function.update_of_ne hdiffers _ _).trans hfile
    · exact .inr hlater

theorem ServerState.Accounted.close {server : ServerState}
    (haccounted : server.Accounted) (fd : CInt) (fault : Option Bool) :
    (server.close fd fault).2.Accounted ∧
      server.ConfinedTo fd (server.close fd fault).2 := by
  have hconfined := RandomAccessFile.close_confined fault
  have hnext := haccounted.continues
    (server.invoke_continues (server.files fd) hconfined)
  have hto := haccounted.invoke_confinedTo fd hconfined
  have hfiles := (server.invoke_continues (server.files fd) hconfined).files
  cases hinvoke : server.invoke (server.files fd)
      (RandomAccessFile.close fault) with
  | mk result next =>
      rw [hinvoke] at hnext hto hfiles
      cases result with
      | error thrown =>
          simp only [ServerState.close, hinvoke]
          exact ⟨hnext, hto⟩
      | ok returned =>
          simp only [ServerState.close, hinvoke]
          constructor
          · apply hnext.remove
            rintro file hfile ⟨object, hobject, hopen⟩
            have hfound : server.files fd = some file := hfiles ▸ hfile
            rw [hfound] at hinvoke
            obtain ⟨before, hok, hafter⟩ := ServerState.invoke_ok hinvoke
            rw [hafter, Option.some.injEq] at hobject
            rw [← hobject,
              RandomAccessFile.not_isOpen_of_close_ok hok] at hopen
            cases hopen
          · refine ⟨fun key hkey => ?_, hto.streams, hto.disk⟩
            exact (Function.update_of_ne hkey _ _).trans
              (hto.entries key hkey)

theorem ServerState.Accounted.open {server : ServerState}
    (haccounted : server.Accounted) (mode : Mode)
    (found : Option (CInt × ℕ)) :
    (server.open mode found).2.Accounted := by
  cases hnew : RandomAccessFile.new mode found with
  | error thrown =>
      simp only [ServerState.open, hnew]
      exact haccounted
  | ok file =>
      simp only [ServerState.open, hnew]
      constructor
      case keyed =>
        intro key index hindex
        by_cases hsame : key = file.hashCode
        · subst hsame
          simp only [Function.update_self, Option.some.injEq] at hindex
          subst hindex
          exact ⟨file, List.getElem?_concat_length .., rfl⟩
        · simp only [Function.update_of_ne hsame] at hindex
          obtain ⟨object, hobject, hhash⟩ :=
            haccounted.keyed key index hindex
          exact ⟨object, getElem?_append_left_of_some hobject, hhash⟩
      case reached =>
        intro index object hobject hopen
        rcases getElem?_append_singleton hobject with hold | ⟨rfl, rfl⟩
        · by_cases hsame : object.hashCode = file.hashCode
          · refine .inr ⟨server.objects.length, file, ?_,
              List.getElem?_concat_length .., hsame.symm⟩
            exact (List.getElem?_eq_some_iff.mp hold).1
          · rcases haccounted.reached index object hold hopen with
              hfile | ⟨later, other, hlater, hother, hhash⟩
            · exact .inl ((Function.update_of_ne hsame _ _).trans hfile)
            · exact .inr ⟨later, other, hlater,
                getElem?_append_left_of_some hother, hhash⟩
        · exact .inl (Function.update_self ..)

/-! ## Whole runs -/

theorem Clients.serve_accounted {clients : Clients}
    (haccounted : clients.server.Accounted) (request : Request) :
    (clients.serve request).server.Accounted := by
  cases request with
  | «open» client mode found =>
      have hnext := haccounted.open mode found
      simp only [Clients.serve]
      split <;> (next hopen => rw [hopen] at hnext; exact hnext)
  | close client fd fault =>
      have hnext := (haccounted.close fd fault).1
      simp only [Clients.serve]
      split <;> (next hclose => rw [hclose] at hnext; exact hnext)
  | operate client fd operation =>
      exact (haccounted.perform fd operation).1

theorem ServerState.initial_accounted (disk : Disk) :
    (Clients.initial disk).server.Accounted := by
  constructor <;> simp [Clients.initial]

/-- After any requests, with any handles, an open stream is out of reach only
behind a later one of the same hash code, and every further call on a handle
is confined to the stream that the handle leads to and the file that this is
open on. -/
theorem Clients.run_handlesConfined {disk : Disk} {requests : List Request}
    {clients : Clients}
    (hrun : Run Clients.step anyEvent (Clients.initial disk) requests
      clients) :
    clients.server.Accounted ∧
      (∀ fd operation, clients.server.ConfinedTo fd
        (clients.server.perform fd operation).2) ∧
      ∀ fd fault, clients.server.ConfinedTo fd
        (clients.server.close fd fault).2 := by
  have haccounted := @Run.invariant _ _ _ _
    (fun clients : Clients => clients.server.Accounted)
    (fun _ request _ hinv _ hstep =>
      Option.some.inj hstep ▸ Clients.serve_accounted hinv request)
    _ _ _ hrun (ServerState.initial_accounted disk)
  exact ⟨haccounted,
    fun fd operation => (haccounted.perform fd operation).2,
    fun fd fault => (haccounted.close fd fault).2⟩

/-- A handle that is closed twice and used after, and one that was never
issued. -/
def strayHandles : List Request :=
  [.open 0 .rw (some (7, 0)), .open 1 .rw (some (9, 1)), .close 0 7 none,
    .close 0 7 none, .operate 0 7 (.write [0x68] 0 1 none),
    .operate 1 5 (.ftruncate 0 false),
    .operate 1 9 (.write [0x69] 0 1 none)]

theorem Clients.run_handlesConfined_strayHandles :
    ∃ clients,
      Run Clients.step anyEvent (Clients.initial fun _ => []) strayHandles
        clients ∧
      clients.server.objects = [⟨7, 0, 0, true, false⟩,
        ⟨9, 1, 1, true, true⟩] ∧
      (clients.server.disk 0, clients.server.disk 1) = ([], [0x69]) ∧
      clients.server.Accounted := by
  obtain ⟨clients, hexec, hobjects, hdisk⟩ : ∃ clients,
      execute Clients.step anyEvent (Clients.initial fun _ => [])
        strayHandles = some clients ∧
      clients.server.objects = [⟨7, 0, 0, true, false⟩,
        ⟨9, 1, 1, true, true⟩] ∧
      (clients.server.disk 0, clients.server.disk 1) = ([], [0x69]) :=
    ⟨_, rfl, rfl, rfl⟩
  have hrun := run_of_execute hexec
  exact ⟨clients, hrun, hobjects, hdisk, (Clients.run_handlesConfined hrun).1⟩

end Java

end TestRpc
