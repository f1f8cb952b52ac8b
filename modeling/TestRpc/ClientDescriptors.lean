import TestRpc.HandlerSafety
import TestRpc.ResponseDelivery

/-!
# The client's descriptors

The duty to close the connection moves from `connect_to_server` to `send_data`
and from there to `recv_data`.  `read` alone has an exit between the last two:
when `malloc` cannot serve its response, it returns with the connection open.
On every other path the stub closes the socket it opened, once, so that the
descriptors of the process are those from before; local calls then cannot tell
that remote calls were made between them.
-/

namespace TestRpc

open LittleEndian BlockCopies StreamReceive

/-! ## What a stub does with its socket -/

/-- `socket` fails and `sock` is `-1`; `socket` returns a descriptor; the
socket is closed by `real_close(sock)`. -/
inductive SocketAct
  | refused
  | opened (fildes : ℕ)
  | closed
  deriving DecidableEq

def SocketAct.perform (process : ClientProcess) : SocketAct → ClientProcess
  | .refused => { process with sock := -1 }
  | .opened fildes => ⟨fildes :: process.descriptors, fildes⟩
  | .closed => realClose process

def connectActs (net : Net) : List SocketAct :=
  match net.socket with
  | none => [.refused]
  | some fildes =>
      if net.setsockopt = false then
        [.opened fildes, .closed]
      else if net.connect = false then
        [.opened fildes, .closed]
      else
        [.opened fildes]

def Net.connects (net : Net) : Bool :=
  net.socket.isSome && net.setsockopt && net.connect

def sendActs (net : Net) : List SocketAct :=
  if net.connects then
    match net.send with
    | none => connectActs net ++ [.closed]
    | some _ => connectActs net
  else
    connectActs net

def Net.sends (net : Net) : Bool :=
  net.connects && net.send.isSome

/-- The acts of a remote call: none when its request cannot be allocated, and
after a request that was sent the `close` of `recv_data`, unless `read` cannot
allocate its response. -/
def remoteActs (net : Net) (call : LibCall) : List SocketAct :=
  match stubRequest call with
  | .error _ => []
  | .ok request =>
      if call.requestOnHeap &&
          !net.requestMalloc.serves request.bufSize.toNat then
        []
      else if net.sends = false then
        sendActs net
      else if call.responseOnHeap &&
          !net.responseMalloc.serves call.responseSize.toNat then
        sendActs net
      else
        sendActs net ++ [.closed]

theorem connectToServer_eq (net : Net) (process : ClientProcess) :
    connectToServer net process =
      (net.connects, (connectActs net).foldl SocketAct.perform process) := by
  unfold connectToServer connectActs Net.connects
  cases net.socket with
  | none => rfl
  | some fildes =>
      cases net.setsockopt with
      | false => rfl
      | true =>
          cases net.connect with
          | false => rfl
          | true => rfl

theorem sendData_eq (net : Net) (buf : List UInt8)
    (process : ClientProcess) :
    (sendData net buf process).1.isSome = net.sends ∧
      (sendData net buf process).2 =
        (sendActs net).foldl SocketAct.perform process := by
  unfold sendData sendActs Net.sends
  rw [connectToServer_eq]
  cases net.connects with
  | false => exact ⟨rfl, rfl⟩
  | true =>
      cases net.send with
      | none => exact ⟨rfl, by simp [SocketAct.perform]⟩
      | some count => exact ⟨rfl, rfl⟩

theorem recvData_process (net : Net) (stream : Stream) (buf : List UInt8)
    (process : ClientProcess) :
    (recvData net stream buf process).2 = realClose process := by
  unfold recvData
  split
  · rfl
  · split <;> rfl

/-- What a remote call does to the descriptors of its process is what its acts
do. -/
theorem remoteStub_process {κ : Type} {net : Net} {call : LibCall}
    {memory : List UInt8} {client : κ} {process : ClientProcess}
    {run : StubRun κ}
    (hrun : remoteStub net call memory client process = .ok run) :
    run.process =
      (remoteActs net call).foldl SocketAct.perform process := by
  obtain ⟨request, hrequest, hrun⟩ := bind_eq_ok.mp hrun
  simp only [remoteActs, hrequest]
  split at hrun
  · next hunserved =>
    cases hrun
    rw [if_pos hunserved]
    rfl
  · next hserved =>
    rw [if_neg hserved]
    obtain ⟨bytes, hbytes, hrun⟩ := bind_eq_ok.mp hrun
    obtain ⟨hsent, hprocess⟩ := sendData_eq net bytes process
    split at hrun
    · next process' hsend =>
      rw [hsend] at hsent hprocess
      have hunsent : net.sends = false := hsent.symm
      cases hrun
      rw [if_pos hunsent]
      exact hprocess
    · next sent process' hsend =>
      rw [hsend] at hsent hprocess
      have hsends : net.sends = true := hsent.symm
      rw [if_neg (by simp [hsends])]
      split at hrun
      · next hresponse =>
        cases hrun
        rw [if_pos hresponse]
        exact hprocess
      · next hresponse =>
        rw [if_neg hresponse, List.foldl_append, ← hprocess]
        have hrecv := recvData_process net (net.peer sent) (freshBlock
          net.responseMalloc.contents call.responseSize.toNat) process'
        split at hrun
        · next process'' hgot =>
          rw [hgot] at hrecv
          cases hrun
          exact hrecv
        · next response process'' hgot =>
          rw [hgot] at hrecv
          obtain ⟨outcome, _, hrun⟩ := bind_eq_ok.mp hrun
          cases hrun
          exact hrecv

/-! ## One remote call -/

/-- The exit of `read` between `send_data` and `recv_data`. -/
def Net.LosesSocket (net : Net) (call : LibCall) : Prop :=
  call.responseOnHeap = true ∧ net.sends = true ∧
    net.responseMalloc.serves call.responseSize.toNat = false

theorem sendActs_of_sends {net : Net} (hsends : net.sends = true) :
    ∃ fildes, net.socket = some fildes ∧
      sendActs net = [.opened fildes] := by
  simp only [Net.sends, Net.connects, Bool.and_eq_true] at hsends
  obtain ⟨⟨⟨hsocket, hsetsockopt⟩, hconnect⟩, hsend⟩ := hsends
  obtain ⟨fildes, hfildes⟩ := Option.isSome_iff_exists.mp hsocket
  obtain ⟨count, hcount⟩ := Option.isSome_iff_exists.mp hsend
  exact ⟨fildes, hfildes, by simp [sendActs, connectActs, Net.connects,
    hfildes, hsetsockopt, hconnect, hcount]⟩

theorem sendActs_of_not_sends {net : Net} (hsends : net.sends = false) :
    sendActs net = [.refused] ∨
      ∃ fildes, net.socket = some fildes ∧
        sendActs net = [.opened fildes, .closed] := by
  cases hsocket : net.socket with
  | none => simp [sendActs, connectActs, Net.connects, hsocket]
  | some fildes =>
      refine .inr ⟨fildes, rfl, ?_⟩
      cases hsetsockopt : net.setsockopt with
      | false =>
          simp [sendActs, connectActs, Net.connects, hsocket, hsetsockopt]
      | true =>
          cases hconnect : net.connect with
          | false =>
              simp [sendActs, connectActs, Net.connects, hsocket,
                hsetsockopt, hconnect]
          | true =>
              have hsend : net.send = none := by
                simpa [Net.sends, Net.connects, hsocket, hsetsockopt,
                  hconnect] using hsends
              simp [sendActs, connectActs, Net.connects, hsocket,
                hsetsockopt, hconnect, hsend]

theorem remoteActs_of_losesSocket {net : Net} {call : LibCall}
    (hloses : net.LosesSocket call) :
    ∃ fildes, net.socket = some fildes ∧
      remoteActs net call = [.opened fildes] := by
  obtain ⟨hheap, hsends, hserves⟩ := hloses
  obtain ⟨fildes, hsocket, hacts⟩ := sendActs_of_sends hsends
  refine ⟨fildes, hsocket, ?_⟩
  cases call with
  | read fildes' nbyte =>
      simp [remoteActs, stubRequest, LibCall.requestOnHeap, hheap, hsends,
        hserves, hacts]
  | _ => cases hheap

theorem remoteActs_of_not_losesSocket {net : Net} {call : LibCall}
    (hkeeps : ¬net.LosesSocket call) :
    remoteActs net call = [] ∨ remoteActs net call = [.refused] ∨
      ∃ fildes, net.socket = some fildes ∧
        remoteActs net call = [.opened fildes, .closed] := by
  unfold remoteActs
  cases stubRequest call with
  | error fault => exact .inl rfl
  | ok request =>
      simp only
      split
      · exact .inl rfl
      · right
        split
        · next hsends => exact sendActs_of_not_sends hsends
        · next hsends =>
          rw [Bool.not_eq_false] at hsends
          obtain ⟨fildes, hsocket, hacts⟩ := sendActs_of_sends hsends
          split
          · next hresponse =>
            rw [Bool.and_eq_true, Bool.not_eq_true'] at hresponse
            exact absurd ⟨hresponse.1, hsends, hresponse.2⟩ hkeeps
          · right
            exact ⟨fildes, hsocket, by rw [hacts]; rfl⟩

theorem perform_opened_closed {process : ClientProcess} {fildes : ℕ}
    (hfresh : fildes ∉ process.descriptors) :
    ([.opened fildes, .closed].foldl SocketAct.perform process).descriptors =
      process.descriptors := by
  simp only [List.foldl_cons, List.foldl_nil, SocketAct.perform, realClose]
  rw [List.filter_cons_of_neg (by simp), List.filter_eq_self]
  intro other hmem
  simp only [ne_eq, Nat.cast_inj, decide_eq_true_eq]
  rintro rfl
  exact hfresh hmem

theorem descriptors_eq_of_not_losesSocket {κ : Type} {net : Net}
    {call : LibCall} {memory : List UInt8} {client : κ}
    {process : ClientProcess}
    (hfresh : ∀ fildes, net.socket = some fildes →
      fildes ∉ process.descriptors)
    {run : StubRun κ}
    (hrun : remoteStub net call memory client process = .ok run)
    (hkeeps : ¬net.LosesSocket call) :
    run.process.descriptors = process.descriptors := by
  rw [remoteStub_process hrun]
  rcases remoteActs_of_not_losesSocket hkeeps with hacts | hacts |
    ⟨fildes, hsocket, hacts⟩
  · rw [hacts]
    rfl
  · rw [hacts]
    rfl
  · rw [hacts]
    exact perform_opened_closed (hfresh fildes hsocket)

/-- After the early exit of `read` the process has a descriptor more. -/
theorem mem_descriptors_of_losesSocket {κ : Type} {net : Net}
    {call : LibCall} {memory : List UInt8} {client : κ}
    {process : ClientProcess} {run : StubRun κ}
    (hrun : remoteStub net call memory client process = .ok run)
    (hloses : net.LosesSocket call) :
    ∃ fildes, net.socket = some fildes ∧
      fildes ∈ run.process.descriptors := by
  obtain ⟨fildes, hsocket, hacts⟩ := remoteActs_of_losesSocket hloses
  refine ⟨fildes, hsocket, ?_⟩
  rw [remoteStub_process hrun, hacts]
  simp [SocketAct.perform]

/-- The socket, if one was opened, is closed and that once. -/
def ClosedOnce (acts : List SocketAct) : Prop :=
  ∀ fildes, .opened fildes ∈ acts → acts = [.opened fildes, .closed]

theorem closedOnce_iff (net : Net) (call : LibCall) :
    ClosedOnce (remoteActs net call) ↔ ¬net.LosesSocket call := by
  constructor
  · intro honce hloses
    obtain ⟨fildes, _, hacts⟩ := remoteActs_of_losesSocket hloses
    have hclosed := honce fildes (by simp [hacts])
    rw [hacts] at hclosed
    cases hclosed
  · intro hkeeps fildes hmem
    rcases remoteActs_of_not_losesSocket hkeeps with hacts | hacts |
      ⟨opened, _, hacts⟩
    · rw [hacts] at hmem
      cases hmem
    · simp [hacts] at hmem
    · have hsame : fildes = opened := by simpa [hacts] using hmem
      rw [hsame, hacts]

/-! ## Mixed calls -/

/-- The lowest number that is not in use. -/
def lowestFree (descriptors : List ℕ) : ℕ :=
  ((List.range (descriptors.length + 1)).find? fun fildes =>
    decide (fildes ∉ descriptors)).getD 0

theorem lowestFree_spec (descriptors : List ℕ) :
    lowestFree descriptors ∉ descriptors ∧
      ∀ fildes < lowestFree descriptors, fildes ∈ descriptors := by
  unfold lowestFree
  cases hfind : (List.range (descriptors.length + 1)).find? fun fildes =>
      decide (fildes ∉ descriptors) with
  | none =>
      rw [List.find?_eq_none] at hfind
      have hsubset : List.range (descriptors.length + 1) ⊆ descriptors := by
        intro fildes hmem
        simpa using hfind fildes hmem
      have hle := (List.nodup_range.subperm hsubset).length_le
      rw [List.length_range] at hle
      omega
  | some fildes =>
      rw [List.find?_range_eq_some] at hfind
      refine ⟨by simpa using hfind.1, fun other hlt => ?_⟩
      simpa using hfind.2.2 other hlt

/-- The kernel of the client's machine: `open` returns the lowest free number
wherever the file system lets it succeed. -/
def kernelOs {κ : Type} (files : Os κ) : Os (κ × List ℕ) where
  exec := fun state call =>
    match call with
    | .openCall path oflag mode =>
        let answer := files.exec state.1 (.openCall path oflag mode)
        let opened : CInt := answer.1
        if 0 ≤ opened.toInt then
          ((BitVec.ofNat 32 (lowestFree state.2) : CInt),
            answer.2, lowestFree state.2 :: state.2)
        else
          ((-1 : CInt), answer.2, state.2)
    | .close fildes =>
        if fildes.toNat ∈ state.2 then
          ((0 : CInt), state.1,
            state.2.filter fun other => other ≠ fildes.toNat)
        else
          ((-1 : CInt), state)
    | call => ((files.exec state.1 call).1, (files.exec state.1 call).2,
        state.2)

/-- A call with its caller's memory and what it meets if it is remote. -/
structure MixedCall where
  call : LibCall
  memory : List UInt8
  net : Net

/-- `socket` too returns the lowest free number. -/
def Net.lowest (net : Net) (descriptors : List ℕ) : Net :=
  { net with socket := net.socket.map fun _ => lowestFree descriptors }

section Process

variable {κ : Type} (files : Os κ)

/-- A call in a process whose local files and connections share one table of
descriptors. -/
def mixedStep (mixed : MixedCall) (client : κ) (process : ClientProcess) :
    Except Fault (Outcome × κ × ClientProcess) := do
  let run ← stub (kernelOs files) (mixed.net.lowest process.descriptors)
    mixed.call mixed.memory (client, process.descriptors) process
  if mixed.call.isRemote then
    return (run.outcome, client, run.process)
  else
    return (run.outcome, run.client.1,
      { run.process with descriptors := run.client.2 })

def mixedRun : List MixedCall → κ → ClientProcess →
    Except Fault (List (MixedCall × Outcome) × κ × ClientProcess)
  | [], client, process => .ok ([], client, process)
  | mixed :: rest, client, process => do
      let (outcome, client, process) ← mixedStep files mixed client process
      let (outcomes, client, process) ← mixedRun rest client process
      return ((mixed, outcome) :: outcomes, client, process)

variable {files}

theorem Net.lowest_losesSocket (net : Net) (descriptors : List ℕ)
    (call : LibCall) :
    (net.lowest descriptors).LosesSocket call ↔ net.LosesSocket call := by
  simp [Net.LosesSocket, Net.sends, Net.connects, Net.lowest]

theorem Net.lowest_fresh {net : Net} {descriptors : List ℕ} {fildes : ℕ}
    (hsocket : (net.lowest descriptors).socket = some fildes) :
    fildes ∉ descriptors := by
  obtain ⟨_, _, rfl⟩ := Option.map_eq_some_iff.mp hsocket
  exact (lowestFree_spec descriptors).1

theorem mixedStep_remote {mixed : MixedCall} {client client' : κ}
    {process process' : ClientProcess} {outcome : Outcome}
    (hremote : mixed.call.isRemote = true)
    (hkeeps : ¬mixed.net.LosesSocket mixed.call)
    (hstep : mixedStep files mixed client process =
      .ok (outcome, client', process')) :
    client' = client ∧ process'.descriptors = process.descriptors := by
  obtain ⟨run, hrun, hstep⟩ := bind_eq_ok.mp hstep
  rw [if_pos hremote] at hstep
  cases hstep
  rw [stub, if_pos hremote] at hrun
  rw [← Net.lowest_losesSocket mixed.net process.descriptors] at hkeeps
  exact ⟨rfl, descriptors_eq_of_not_losesSocket
    (fun _ hsocket => Net.lowest_fresh hsocket) hrun hkeeps⟩

/-- A local call does not see which socket the process used last. -/
theorem mixedStep_local {mixed : MixedCall} {client client' : κ}
    {process other process' : ClientProcess} {outcome : Outcome}
    (hlocal : mixed.call.isRemote = false)
    (hsame : other.descriptors = process.descriptors)
    (hstep : mixedStep files mixed client process =
      .ok (outcome, client', process')) :
    ∃ other', mixedStep files mixed client other =
        .ok (outcome, client', other') ∧
      other'.descriptors = process'.descriptors := by
  simp only [mixedStep, stub, hlocal, Bool.false_eq_true, if_false,
    localStub, hsame] at hstep ⊢
  cases hreal : realCall mixed.call with
  | error fault =>
      rw [hreal] at hstep
      cases hstep
  | ok real =>
      rw [hreal] at hstep
      cases hstep
      exact ⟨_, rfl, rfl⟩

/-- Local calls have the same outcomes, and the process ends with the same
descriptors, as if the remote calls between them had not been made. -/
theorem mixedRun_local {calls : List MixedCall} {client client' : κ}
    {process other process' : ClientProcess}
    {outcomes : List (MixedCall × Outcome)}
    (hkeeps : ∀ mixed ∈ calls, mixed.call.isRemote = true →
      ¬mixed.net.LosesSocket mixed.call)
    (hsame : other.descriptors = process.descriptors)
    (hrun : mixedRun files calls client process =
      .ok (outcomes, client', process')) :
    ∃ other', mixedRun files
        (calls.filter fun mixed => !mixed.call.isRemote) client other =
          .ok (outcomes.filter fun made => !made.1.call.isRemote, client',
            other') ∧
      other'.descriptors = process'.descriptors := by
  induction calls generalizing client process other outcomes with
  | nil =>
      cases hrun
      exact ⟨other, rfl, hsame⟩
  | cons mixed rest ih =>
      obtain ⟨⟨outcome, client₁, process₁⟩, hstep, hrun⟩ :=
        bind_eq_ok.mp hrun
      obtain ⟨⟨outcomes₁, client₂, process₂⟩, hrest, hrun⟩ :=
        bind_eq_ok.mp hrun
      cases hrun
      have hkeepsRest : ∀ mixed ∈ rest, mixed.call.isRemote = true →
          ¬mixed.net.LosesSocket mixed.call :=
        fun mixed hmem => hkeeps mixed (List.mem_cons_of_mem _ hmem)
      cases hroute : mixed.call.isRemote with
      | true =>
          obtain ⟨rfl, hdescriptors⟩ := mixedStep_remote hroute
            (hkeeps mixed (List.mem_cons_self ..) hroute) hstep
          obtain ⟨other', hother, hfinal⟩ :=
            ih hkeepsRest (hsame.trans hdescriptors.symm) hrest
          refine ⟨other', ?_, hfinal⟩
          rw [List.filter_cons_of_neg (by simp [hroute]),
            List.filter_cons_of_neg (by simp [hroute])]
          exact hother
      | false =>
          obtain ⟨other₁, hotherStep, hdescriptors⟩ :=
            mixedStep_local hroute hsame hstep
          obtain ⟨other', hother, hfinal⟩ :=
            ih hkeepsRest hdescriptors hrest
          refine ⟨other', ?_, hfinal⟩
          rw [List.filter_cons_of_pos (by simp [hroute]),
            List.filter_cons_of_pos (by simp [hroute]), mixedRun, hotherStep]
          simp only [bind, Except.bind, hother, pure, Except.pure]

end Process

/-- A remote call leaves the set of descriptors as it was, and closes once
what it opened, exactly unless it is a `read` whose request was sent and whose
response cannot be allocated; and around remote calls that do, local calls
return the same numbers as without them. -/
theorem remote_calls_keep_descriptors {κ : Type} (os files : Os κ)
    (client : κ) (process : ClientProcess) :
    (∀ (net : Net) (call : LibCall) (memory : List UInt8) (run : StubRun κ),
        call.isRemote = true →
        (∀ fildes, net.socket = some fildes →
          fildes ∉ process.descriptors) →
        stub os net call memory client process = .ok run →
        ((∀ fildes, fildes ∈ run.process.descriptors ↔
            fildes ∈ process.descriptors) ↔ ¬net.LosesSocket call) ∧
          run.process =
            (remoteActs net call).foldl SocketAct.perform process ∧
          (ClosedOnce (remoteActs net call) ↔ ¬net.LosesSocket call)) ∧
      ∀ (calls : List MixedCall) (client' : κ) (process' : ClientProcess)
        (outcomes : List (MixedCall × Outcome)),
        (∀ mixed ∈ calls, mixed.call.isRemote = true →
          ¬mixed.net.LosesSocket mixed.call) →
        mixedRun files calls client process =
          .ok (outcomes, client', process') →
        ∃ other', mixedRun files
            (calls.filter fun mixed => !mixed.call.isRemote) client process =
              .ok (outcomes.filter fun made => !made.1.call.isRemote,
                client', other') ∧
          other'.descriptors = process'.descriptors := by
  refine ⟨?_, ?_⟩
  · intro net call memory run hremote hfresh hrun
    rw [stub, if_pos hremote] at hrun
    refine ⟨⟨fun hsame hloses => ?_, fun hkeeps fildes => ?_⟩,
      remoteStub_process hrun, closedOnce_iff net call⟩
    · obtain ⟨fildes, hsocket, hmem⟩ :=
        mem_descriptors_of_losesSocket hrun hloses
      exact hfresh fildes hsocket ((hsame fildes).mp hmem)
    · rw [descriptors_eq_of_not_losesSocket hfresh hrun hkeeps]
  · intro calls client' process' outcomes hkeeps hrun
    exact mixedRun_local hkeeps rfl hrun

/-- A file system that lets every `open` succeed. -/
def openingFiles : Os Unit where
  exec := fun state call =>
    match call with
    | .openCall _ _ _ => ((0 : CInt), state)
    | call => failingOs.exec state call

def localOpen : MixedCall :=
  ⟨.openCall remoteA.strip 0 none, [], answeringNet ⟨[], .closed⟩ 4⟩

def answeredClose : MixedCall :=
  ⟨.close 0x7ffffffc, [], answeringNet ⟨[0, 0, 0, 0], .closed⟩ 4⟩

/-- A `read` of one byte whose response cannot be allocated. -/
def starvedRead : MixedCall where
  call := .read 0x7ffffffc 1
  memory := [0]
  net :=
    { answeringNet ⟨[1, 0, 0, 0, 0, 0, 0, 0, 0x61], .closed⟩ 9 with
      responseMalloc := ⟨fun _ => false, by simp, fun _ => 0⟩ }

theorem descriptors_kept_around_close :
    ∃ made final, mixedRun openingFiles [localOpen, answeredClose, localOpen]
        () ⟨[0, 1, 2], -1⟩ = .ok (made, (), final) ∧
      ∃ other, mixedRun openingFiles [localOpen, localOpen] ()
          ⟨[0, 1, 2], -1⟩ =
            .ok ([(localOpen, ⟨3, []⟩), (localOpen, ⟨4, []⟩)], (), other) ∧
        other.descriptors = final.descriptors := by
  have hrun : mixedRun openingFiles [localOpen, answeredClose, localOpen] ()
      ⟨[0, 1, 2], -1⟩ = .ok ([(localOpen, ⟨3, []⟩),
        (answeredClose, ⟨0, []⟩), (localOpen, ⟨4, []⟩)], (),
          ⟨[4, 3, 0, 1, 2], 4⟩) := by
    rfl
  have hkeeps : ∀ mixed ∈ [localOpen, answeredClose, localOpen],
      mixed.call.isRemote = true → ¬mixed.net.LosesSocket mixed.call := by
    intro mixed hmem _ hloses
    simp only [List.mem_cons, List.not_mem_nil, or_false] at hmem
    rcases hmem with rfl | rfl | rfl
    · cases hloses.1
    · cases hloses.1
    · cases hloses.1
  obtain ⟨other, hlocal, hsame⟩ := (remote_calls_keep_descriptors
    openingFiles openingFiles () ⟨[0, 1, 2], -1⟩).2 _ _ _ _ hkeeps hrun
  exact ⟨_, _, hrun, other, hlocal, hsame⟩

/-- The starved `read` leaves descriptor 3 open, and the local `open` after it
returns 4 where it would have returned 3. -/
theorem descriptor_leaked_starved_read :
    starvedRead.call.isRemote = true ∧
      (∃ final, mixedRun openingFiles [starvedRead, localOpen] ()
          ⟨[0, 1, 2], -1⟩ =
            .ok ([(starvedRead, ⟨-1, [0]⟩), (localOpen, ⟨4, []⟩)], (),
              final) ∧
        final.descriptors = [4, 3, 0, 1, 2]) ∧
      ∃ final, mixedRun openingFiles [localOpen] () ⟨[0, 1, 2], -1⟩ =
          .ok ([(localOpen, ⟨3, []⟩)], (), final) ∧
        final.descriptors = [3, 0, 1, 2] := by
  refine ⟨rfl, ⟨⟨[4, 3, 0, 1, 2], 3⟩, ?_, rfl⟩, ⟨[3, 0, 1, 2], -1⟩, ?_, rfl⟩
  · rfl
  · rfl

end TestRpc
