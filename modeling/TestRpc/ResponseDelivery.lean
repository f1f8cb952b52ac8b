import TestRpc.StubCalls

/-!
# What a stub makes of its response

`recv_data` asks once for the whole response and takes whatever one `recv`
returns for all of it.  This module finds the deliveries for which a stub
reports what the server answered: those that arrive in one piece, and those
that fail before the first byte.  On every other delivery the result depends
on what `response_payload` held before.
-/

namespace TestRpc

open LittleEndian BlockCopies StreamReceive

/-! ## Responses are told apart by what is decoded from them -/

theorem LibCall.responseSize_read {nbyte : SizeT}
    (hcount : nbyte.toNat ≤ SSIZE_MAX) :
    (8 + nbyte : SizeT).toNat = 8 + nbyte.toNat := by
  unfold SSIZE_MAX at hcount
  apply toNat_add_of_lt
  rw [show (8 : SizeT).toNat = 8 from rfl]
  omega

theorem decodeInt_injective {left right memory : List UInt8}
    (hleft : left.length = 4) (hright : right.length = 4)
    (hsame : decodeInt left memory = decodeInt right memory) :
    left = right := by
  rw [decodeInt_eq hleft, decodeInt_eq hright, Except.ok.injEq, intOutcome,
    intOutcome, Outcome.mk.injEq] at hsame
  exact wordOf_injective rfl hleft hright (BitVec.toInt_inj.mp hsame.1)

theorem decodeLong_injective {left right memory : List UInt8}
    (hleft : left.length = 8) (hright : right.length = 8)
    (hsame : decodeLong left memory = decodeLong right memory) :
    left = right := by
  rw [decodeLong_eq hleft, decodeLong_eq hright, Except.ok.injEq, longOutcome,
    longOutcome, Outcome.mk.injEq] at hsame
  exact wordOf_injective rfl hleft hright (BitVec.toInt_inj.mp hsame.1)

theorem eq_of_take_drop_eq {left right : List UInt8} (offset : ℕ)
    (htake : left.take offset = right.take offset)
    (hdrop : left.drop offset = right.drop offset) :
    left = right := by
  rw [← List.take_append_drop offset left, htake, hdrop,
    List.take_append_drop]

theorem decodeReadResponse_injective {nbyte : SizeT}
    {left right memory : List UInt8}
    (hleft : left.length = 8 + nbyte.toNat)
    (hright : right.length = 8 + nbyte.toNat)
    (hmemory : memory.length = nbyte.toNat)
    (hsame : decodeReadResponse nbyte left memory =
      decodeReadResponse nbyte right memory) :
    left = right := by
  rw [decodeReadResponse_eq hleft hmemory,
    decodeReadResponse_eq hright hmemory, Except.ok.injEq, longOutcome,
    longOutcome, Outcome.mk.injEq] at hsame
  refine eq_of_take_drop_eq 8 ?_ hsame.2
  exact wordOf_injective rfl (by simp [hleft]) (by simp [hright])
    (BitVec.toInt_inj.mp hsame.1)

theorem decodeStatResponse_injective {left right memory : List UInt8}
    (hleft : left.length = 4 + sizeofStat)
    (hright : right.length = 4 + sizeofStat)
    (hmemory : memory.length = sizeofStat)
    (hsame : decodeStatResponse left memory =
      decodeStatResponse right memory) :
    left = right := by
  rw [decodeStatResponse_eq hleft hmemory,
    decodeStatResponse_eq hright hmemory, Except.ok.injEq, intOutcome,
    intOutcome, Outcome.mk.injEq] at hsame
  refine eq_of_take_drop_eq 4 ?_ hsame.2
  exact wordOf_injective rfl (by simp [hleft]) (by simp [hright])
    (BitVec.toInt_inj.mp hsame.1)

theorem decodeResponse_succeeds {call : LibCall} (hsend : call.Sendable)
    {response memory : List UInt8}
    (hresponse : response.length = call.responseSize.toNat)
    (hmemory : memory.length = call.memorySize) :
    ∃ outcome, decodeResponse call response memory = .ok outcome := by
  cases call with
  | read fildes nbyte =>
      have hsize := LibCall.responseSize_read hsend.2
      exact ⟨_, decodeReadResponse_eq (hresponse.trans hsize) hmemory⟩
  | write fildes buf => exact ⟨_, decodeLong_eq hresponse memory⟩
  | lseek fildes offset whence => exact ⟨_, decodeLong_eq hresponse memory⟩
  | stat path => exact ⟨_, decodeStatResponse_eq hresponse hmemory⟩
  | fstat fildes => exact ⟨_, decodeStatResponse_eq hresponse hmemory⟩
  | _ => exact ⟨_, decodeInt_eq hresponse memory⟩

theorem decodeResponse_injective {call : LibCall} (hsend : call.Sendable)
    {left right memory : List UInt8}
    (hleft : left.length = call.responseSize.toNat)
    (hright : right.length = call.responseSize.toNat)
    (hmemory : memory.length = call.memorySize)
    (hsame : decodeResponse call left memory =
      decodeResponse call right memory) :
    left = right := by
  cases call with
  | read fildes nbyte =>
      have hsize := LibCall.responseSize_read hsend.2
      exact decodeReadResponse_injective (hleft.trans hsize)
        (hright.trans hsize) hmemory hsame
  | write fildes buf => exact decodeLong_injective hleft hright hsame
  | lseek fildes offset whence =>
      exact decodeLong_injective hleft hright hsame
  | stat path =>
      exact decodeStatResponse_injective hleft hright hmemory hsame
  | fstat fildes =>
      exact decodeStatResponse_injective hleft hright hmemory hsame
  | _ => exact decodeInt_injective hleft hright hsame

/-! ## Calls whose request is sent -/

/-- The surroundings let a call send its request: the allocation, `socket`,
`setsockopt` and `connect` succeed and `send` takes the whole request. -/
structure Net.Reaches (net : Net) (call : LibCall) : Prop where
  allocates : call.requestOnHeap = true →
    net.requestMalloc.serves (8 + call.transmitted.payload.length) = true
  socket : ∃ fildes, net.socket = some fildes
  setsockopt : net.setsockopt = true
  connect : net.connect = true
  send : ∃ count, net.send = some count ∧
    8 + call.transmitted.payload.length ≤ count

/-- Whether the client can take a response: `response_payload` is there and
the final `close` succeeds. -/
def Net.collects (net : Net) (call : LibCall) : Bool :=
  (!call.responseOnHeap ||
    net.responseMalloc.serves call.responseSize.toNat) && net.close

def Net.answer (net : Net) (call : LibCall) : Stream :=
  net.peer (requestBytes call.transmitted.payload)

def Net.withContents (net : Net) (contents : ℕ → UInt8) : Net :=
  { net with
    responseMalloc := { net.responseMalloc with contents := contents } }

theorem Net.Reaches.withContents {net : Net} {call : LibCall}
    (hnet : net.Reaches call) (contents : ℕ → UInt8) :
    (net.withContents contents).Reaches call :=
  ⟨hnet.allocates, hnet.socket, hnet.setsockopt, hnet.connect, hnet.send⟩

theorem LibCall.Sendable.isRemote {call : LibCall} (hsend : call.Sendable) :
    call.isRemote = true := by
  cases call with
  | rename old new => exact hsend.1.1
  | openCall path _ _ | read fildes _ | write fildes _ | truncate path _
  | stat path | unlink path => exact hsend.1
  | close fildes | lseek fildes _ _ | ftruncate fildes _ | fstat fildes
  | fsync fildes => exact hsend

theorem stubRequest_of_reaches {net : Net} {call : LibCall}
    (hsend : call.Sendable) (hnet : net.Reaches call) :
    ∃ request, stubRequest call = .ok request ∧
      (call.requestOnHeap &&
        !net.requestMalloc.serves request.bufSize.toNat) = false ∧
      request.sent net.requestMalloc.contents =
        .ok (requestBytes call.transmitted.payload) := by
  obtain ⟨request, hrequest, hencodes⟩ := stubRequest_encodes hsend
  refine ⟨request, hrequest, ?_, hencodes.sent_requestBytes _⟩
  rw [hencodes.bufSize]
  cases honHeap : call.requestOnHeap with
  | false => rfl
  | true => simp [hnet.allocates honHeap]

theorem sendData_of_reaches {net : Net} {call : LibCall}
    (hnet : net.Reaches call) (process : ClientProcess) :
    ∃ next, sendData net (requestBytes call.transmitted.payload) process =
      (some (requestBytes call.transmitted.payload), next) := by
  obtain ⟨fildes, hsocket⟩ := hnet.socket
  obtain ⟨count, hcount, hwhole⟩ := hnet.send
  have hconnected : connectToServer net process =
      (true, ⟨fildes :: process.descriptors, fildes⟩) := by
    simp [connectToServer, hsocket, hnet.setsockopt, hnet.connect]
  have htake : (requestBytes call.transmitted.payload).take count =
      requestBytes call.transmitted.payload := by
    apply List.take_of_length_le
    simpa [requestBytes] using hwhole
  exact ⟨⟨fildes :: process.descriptors, fildes⟩,
    by simp [sendData, hconnected, hcount, htake]⟩

/-- A stub whose request is sent and that can take the response ends as its
one `recv` decides. -/
theorem stub_eq_of_collects {κ : Type} (os : Os κ) {net : Net}
    {call : LibCall} (hsend : call.Sendable) (hnet : net.Reaches call)
    (hcollects : net.collects call = true)
    (memory : List UInt8) (client : κ) (process : ClientProcess) :
    ∃ next, stub os net call memory client process =
      match recv (net.answer call) call.responseSize.toNat net.cut with
      | none => .ok ⟨gaveUp memory,
          some (requestBytes call.transmitted.payload), client, next⟩
      | some (got, _) =>
          (decodeResponse call (fillFront (freshBlock
              net.responseMalloc.contents call.responseSize.toNat) got)
            memory).map fun outcome => ⟨outcome,
              some (requestBytes call.transmitted.payload), client, next⟩ := by
  obtain ⟨request, hrequest, hheap, hsent⟩ :=
    stubRequest_of_reaches hsend hnet
  obtain ⟨connected, hsendData⟩ := sendData_of_reaches hnet process
  simp only [Net.collects, Bool.and_eq_true] at hcollects
  have hresponseHeap : (call.responseOnHeap &&
      !net.responseMalloc.serves call.responseSize.toNat) = false := by
    rw [← Bool.not_eq_true', Bool.not_and, Bool.not_not]
    exact hcollects.1
  refine ⟨realClose connected, ?_⟩
  rw [stub, if_pos hsend.isRemote, remoteStub]
  simp only [hrequest, hheap, hsent, hsendData, hresponseHeap, recvData,
    freshBlock_length, hcollects.2, bind, Except.bind, pure, Except.pure,
    if_true, Bool.false_eq_true, if_false, Net.answer]
  cases recv (net.peer (requestBytes call.transmitted.payload))
      call.responseSize.toNat net.cut with
  | none => rfl
  | some result =>
      simp only
      cases decodeResponse call (fillFront (freshBlock
          net.responseMalloc.contents call.responseSize.toNat) result.1)
          memory with
      | error fault => rfl
      | ok outcome => rfl

theorem stub_eq_of_not_collects {κ : Type} (os : Os κ) {net : Net}
    {call : LibCall} (hsend : call.Sendable) (hnet : net.Reaches call)
    (hcollects : net.collects call = false)
    (memory : List UInt8) (client : κ) (process : ClientProcess) :
    ∃ next, stub os net call memory client process =
      .ok ⟨gaveUp memory, some (requestBytes call.transmitted.payload),
        client, next⟩ := by
  obtain ⟨request, hrequest, hheap, hsent⟩ :=
    stubRequest_of_reaches hsend hnet
  obtain ⟨connected, hsendData⟩ := sendData_of_reaches hnet process
  rw [stub, if_pos hsend.isRemote, remoteStub]
  simp only [hrequest, hheap, hsent, hsendData, bind, Except.bind, pure,
    Except.pure, Bool.false_eq_true, if_false]
  cases hresponseHeap : call.responseOnHeap &&
      !net.responseMalloc.serves call.responseSize.toNat with
  | true => exact ⟨connected, by simp⟩
  | false =>
      have hclose : net.close = false := by
        rw [← Bool.not_eq_true', Bool.not_and, Bool.not_not] at hresponseHeap
        simpa [Net.collects, hresponseHeap] using hcollects
      refine ⟨realClose connected, ?_⟩
      simp only [recvData, hclose, Bool.false_eq_true, if_false]
      cases recv (net.peer (requestBytes call.transmitted.payload))
          (freshBlock net.responseMalloc.contents
            call.responseSize.toNat).length net.cut with
      | none => rfl
      | some result => rfl

/-! ## Deliveries -/

/-- A stub reports what a server answered, of which the connection delivers
the pending bytes: the answer when all of it arrives, and otherwise `-1` with
the caller's memory left alone, whatever `response_payload` held before. -/
def Reports {κ : Type} (os : Os κ) (net : Net) (call : LibCall)
    (memory : List UInt8) (client : κ) (process : ClientProcess)
    (response : List UInt8) : Prop :=
  ∀ contents, ∃ run,
    stub os (net.withContents contents) call memory client process = .ok run ∧
      if (net.answer call).pending = response then
        decodeResponse call response memory = .ok run.outcome
      else
        run.outcome = gaveUp memory

/-- The deliveries of a response that a stub reports.  Of a complete response
one `recv` must return everything, and of an incomplete one it must fail
before the first byte.  A stub that cannot take a response reports the
incomplete ones and those that say what giving up says. -/
def Delivered (net : Net) (call : LibCall) (memory response : List UInt8) :
    Prop :=
  if (net.answer call).pending = response then
    if net.collects call = true then
      response.length ≤ max 1 net.cut
    else
      decodeResponse call response memory = .ok (gaveUp memory)
  else
    net.collects call = true →
      (net.answer call).pending = [] ∧ (net.answer call).ending = .failed

theorem LibCall.Sendable.responseSize_pos {call : LibCall}
    (hsend : call.Sendable) :
    0 < call.responseSize.toNat := by
  cases call with
  | read fildes nbyte =>
      rw [LibCall.responseSize, LibCall.responseSize_read hsend.2]
      omega
  | _ => simp [LibCall.responseSize, sizeofStat]

/-- A `recv` that stops short leaves the rest of the buffer as it was, so no
single outcome is decoded from it for all previous contents. -/
theorem decodeResponse_fillFront_depends {call : LibCall}
    (hsend : call.Sendable) {got memory : List UInt8}
    (hshort : got.length < call.responseSize.toNat)
    (hmemory : memory.length = call.memorySize) (outcome : Outcome) :
    ∃ contents, decodeResponse call (fillFront (freshBlock contents
      call.responseSize.toNat) got) memory ≠ .ok outcome := by
  by_contra hall
  push Not at hall
  have hlength : ∀ contents, (fillFront (freshBlock contents
      call.responseSize.toNat) got).length = call.responseSize.toNat := by
    intro contents
    rw [fillFront_length, freshBlock_length]
    rw [freshBlock_length]
    omega
  have hsame := decodeResponse_injective hsend (hlength fun _ => 0)
    (hlength fun _ => 1) hmemory ((hall _).trans (hall _).symm)
  have hlast : ∀ byte : UInt8, (fillFront (freshBlock (fun _ => byte)
      call.responseSize.toNat) got).getLast? = some byte := by
    intro byte
    rw [fillFront_getLast? (by rw [freshBlock_length]; exact hshort)]
    have hpos := hsend.responseSize_pos
    obtain ⟨size, hsize⟩ := Nat.exists_eq_succ_of_ne_zero hpos.ne'
    rw [hsize]
    simp [freshBlock, List.getLast?_replicate]
  have hbytes := (hlast 0).symm.trans (hsame ▸ hlast 1)
  exact absurd hbytes (by decide)

theorem reports_iff_of_not_collects {κ : Type} (os : Os κ) {net : Net}
    {call : LibCall} (hsend : call.Sendable) (hnet : net.Reaches call)
    (hcollects : net.collects call = false)
    (memory : List UInt8) (client : κ) (process : ClientProcess)
    (response : List UInt8) :
    Reports os net call memory client process response ↔
      ((net.answer call).pending = response →
        decodeResponse call response memory = .ok (gaveUp memory)) := by
  have hstub : ∀ contents, ∃ next,
      stub os (net.withContents contents) call memory client process =
        .ok ⟨gaveUp memory, some (requestBytes call.transmitted.payload),
          client, next⟩ := fun contents =>
    stub_eq_of_not_collects os hsend (hnet.withContents contents) hcollects
      memory client process
  constructor
  · intro hreports hcomplete
    obtain ⟨run, hrun, hdecode⟩ := hreports fun _ => 0
    obtain ⟨next, hnext⟩ := hstub fun _ => 0
    rw [hnext, Except.ok.injEq] at hrun
    rw [if_pos hcomplete, ← hrun] at hdecode
    exact hdecode
  · intro hgaveUp contents
    obtain ⟨next, hnext⟩ := hstub contents
    refine ⟨_, hnext, ?_⟩
    split
    · exact hgaveUp ‹_›
    · rfl

theorem not_reports_of_short {κ : Type} (os : Os κ) {net : Net}
    {call : LibCall} (hsend : call.Sendable) (hnet : net.Reaches call)
    (hcollects : net.collects call = true)
    {memory : List UInt8} (hmemory : memory.length = call.memorySize)
    (client : κ) (process : ClientProcess) {response got : List UInt8}
    (hresponse : response.length = call.responseSize.toNat) {next : Stream}
    (hrecv : recv (net.answer call) call.responseSize.toNat net.cut =
      some (got, next))
    (hshort : got.length < call.responseSize.toNat) :
    ¬ Reports os net call memory client process response := by
  intro hreports
  obtain ⟨answered, hanswered⟩ :=
    decodeResponse_succeeds hsend hresponse hmemory
  -- Reported or not, the outcome the caller expects is one and the same.
  obtain ⟨outcome, hexpected⟩ : ∃ outcome, ∀ contents, ∃ run,
      stub os (net.withContents contents) call memory client process =
        .ok run ∧ run.outcome = outcome := by
    by_cases hcomplete : (net.answer call).pending = response
    · refine ⟨answered, fun contents => ?_⟩
      obtain ⟨run, hrun, hdecode⟩ := hreports contents
      rw [if_pos hcomplete, hanswered, Except.ok.injEq] at hdecode
      exact ⟨run, hrun, hdecode.symm⟩
    · refine ⟨gaveUp memory, fun contents => ?_⟩
      obtain ⟨run, hrun, hdecode⟩ := hreports contents
      rw [if_neg hcomplete] at hdecode
      exact ⟨run, hrun, hdecode⟩
  obtain ⟨contents, hdiffers⟩ :=
    decodeResponse_fillFront_depends hsend hshort hmemory outcome
  obtain ⟨run, hrun, rfl⟩ := hexpected contents
  obtain ⟨process', hstub⟩ := stub_eq_of_collects os hsend
    (hnet.withContents contents) hcollects memory client process
  have hrecv' : recv ((net.withContents contents).answer call)
      call.responseSize.toNat (net.withContents contents).cut =
        some (got, next) := hrecv
  rw [hstub, hrecv'] at hrun
  apply hdiffers
  cases hdecode : decodeResponse call (fillFront (freshBlock contents
      call.responseSize.toNat) got) memory with
  | error fault =>
      simp [Net.withContents, hdecode, Except.map] at hrun
  | ok outcome =>
      simp only [Net.withContents, hdecode, Except.map,
        Except.ok.injEq] at hrun
      rw [← hrun]

/-- A `recv` that returns as many bytes as asked for has received the whole
response. -/
theorem complete_of_recv_full {stream next : Stream}
    {response got : List UInt8} {length cut : ℕ}
    (hresponse : response.length = length)
    (harrives : stream.pending <+: response)
    (hrecv : recv stream length cut = some (got, next))
    (hfull : length ≤ got.length) :
    got = response ∧ stream.pending = response := by
  obtain ⟨hpending, _, _, _⟩ := recv_some hrecv
  have hgot : got <+: response :=
    (hpending ▸ List.prefix_append got next.pending).trans harrives
  have heq : got = response := hgot.eq_of_length_le (hresponse ▸ hfull)
  refine ⟨heq, harrives.eq_of_length_le ?_⟩
  rw [hpending, List.length_append]
  omega

theorem not_delivered_of_short {net : Net} {call : LibCall}
    (hcollects : net.collects call = true)
    {memory response got : List UInt8}
    (hresponse : response.length = call.responseSize.toNat)
    (hpos : 0 < call.responseSize.toNat) {next : Stream}
    (hrecv : recv (net.answer call) call.responseSize.toNat net.cut =
      some (got, next))
    (hshort : got.length < call.responseSize.toNat) :
    ¬ Delivered net call memory response := by
  intro hdelivered
  by_cases hcomplete : (net.answer call).pending = response
  · rw [Delivered, if_pos hcomplete, if_pos hcollects] at hdelivered
    have hne : response ≠ [] := List.ne_nil_of_length_pos (by omega)
    have hwhole := @recv_whole (net.answer call).ending response [] net.cut
      hdelivered hne
    rw [List.append_nil, hresponse] at hwhole
    have hstream : (⟨response, (net.answer call).ending⟩ : Stream) =
        net.answer call := by
      rw [← hcomplete]
    rw [hstream, hrecv, Option.some.injEq, Prod.mk.injEq] at hwhole
    rw [hwhole.1] at hshort
    omega
  · rw [Delivered, if_neg hcomplete] at hdelivered
    rw [recv_eq_none_iff.mpr (hdelivered hcollects)] at hrecv
    cases hrecv

/-- A stub reports the server's answer, whatever its response buffer held
before, on exactly the deliveries that one `recv` returns whole and on those
that fail before the first byte (and, where the client cannot take the
response at all, on those whose loss giving up reports rightly). -/
theorem reports_iff_delivered {κ : Type} (os : Os κ) {net : Net}
    {call : LibCall} (hsend : call.Sendable) (hnet : net.Reaches call)
    {memory : List UInt8} (hmemory : memory.length = call.memorySize)
    (client : κ) (process : ClientProcess) {response : List UInt8}
    (hresponse : response.length = call.responseSize.toNat)
    (harrives : (net.answer call).pending <+: response) :
    Reports os net call memory client process response ↔
      Delivered net call memory response := by
  cases hcollects : net.collects call with
  | false =>
      rw [reports_iff_of_not_collects os hsend hnet hcollects, Delivered,
        hcollects]
      simp
  | true =>
      have hpos := hsend.responseSize_pos
      have hstub := fun contents => stub_eq_of_collects os hsend
        (hnet.withContents contents) hcollects memory client process
      cases hrecv : recv (net.answer call) call.responseSize.toNat net.cut with
      | none =>
          -- The stub gives up, and the response was not complete.
          obtain ⟨hempty, hfailed⟩ := recv_eq_none_iff.mp hrecv
          have hincomplete : (net.answer call).pending ≠ response := by
            intro heq
            rw [← hresponse, ← heq, hempty] at hpos
            exact absurd hpos (by decide)
          have hdelivered : Delivered net call memory response := by
            rw [Delivered, if_neg hincomplete]
            exact fun _ => ⟨hempty, hfailed⟩
          refine iff_of_true (fun contents => ?_) hdelivered
          obtain ⟨next, hnext⟩ := hstub contents
          have hrecv' : recv ((net.withContents contents).answer call)
              call.responseSize.toNat (net.withContents contents).cut =
                none := hrecv
          rw [hrecv'] at hnext
          exact ⟨_, hnext, by rw [if_neg hincomplete]⟩
      | some result =>
          obtain ⟨got, rest⟩ := result
          rcases Nat.lt_or_ge got.length call.responseSize.toNat with
            hshort | hfull
          · refine iff_of_false (not_reports_of_short os hsend hnet hcollects
              hmemory client process hresponse hrecv hshort) ?_
            exact not_delivered_of_short hcollects hresponse hpos hrecv hshort
          · obtain ⟨rfl, hcomplete⟩ :=
              complete_of_recv_full hresponse harrives hrecv hfull
            have hdelivered : Delivered net call memory got := by
              rw [Delivered, if_pos hcomplete, if_pos hcollects]
              exact recv_length_le_cut hrecv
            refine iff_of_true (fun contents => ?_) hdelivered
            obtain ⟨next, hnext⟩ := hstub contents
            obtain ⟨outcome, houtcome⟩ :=
              decodeResponse_succeeds hsend hresponse hmemory
            have hrecv' : recv ((net.withContents contents).answer call)
                call.responseSize.toNat (net.withContents contents).cut =
                  some (got, rest) := hrecv
            rw [hrecv'] at hnext
            simp only [fillFront_whole ((freshBlock_length _ _).trans
              hresponse.symm), houtcome, Except.map] at hnext
            exact ⟨_, hnext, by rw [if_pos hcomplete]; exact houtcome⟩

/-- Surroundings in which everything succeeds and the peer answers with a
given stream, returned in pieces of at most `cut` bytes. -/
def answeringNet (answer : Stream) (cut : ℕ) : Net where
  requestMalloc := amplestMalloc
  socket := some 3
  setsockopt := true
  connect := true
  send := some 4096
  responseMalloc := amplestMalloc
  peer := fun _ => answer
  cut := cut
  close := true

theorem answeringNet_reaches_close (answer : Stream) (cut : ℕ) :
    (answeringNet answer cut).Reaches (.close 0x7ffffffc) :=
  ⟨fun hheap => absurd hheap (by decide), ⟨3, rfl⟩, rfl, rfl,
    ⟨4096, rfl, by decide⟩⟩

theorem reports_close_answered_whole :
    Reports failingOs (answeringNet ⟨[0, 0, 0, 0], .closed⟩ 4)
      (.close 0x7ffffffc) [] () ⟨[], -1⟩ [0, 0, 0, 0] := by
  have hsend : (LibCall.close 0x7ffffffc).Sendable :=
    show isRemoteFildes 0x7ffffffc = true by decide
  refine (reports_iff_delivered failingOs hsend
    (answeringNet_reaches_close _ _) rfl () ⟨[], -1⟩ rfl ?_).mpr ?_
  · exact List.prefix_refl _
  · show 4 ≤ max 1 4
    decide

/-- A connection that ends before the first byte of the response: `close`
returns what `response_payload` held before, here `0`. -/
theorem not_reports_close_unanswered :
    (LibCall.close 0x7ffffffc).Sendable ∧
      (answeringNet ⟨[], .closed⟩ 4).Reaches (.close 0x7ffffffc) ∧
      ¬ Reports failingOs (answeringNet ⟨[], .closed⟩ 4) (.close 0x7ffffffc)
        [] () ⟨[], -1⟩ [0, 0, 0, 0] := by
  refine ⟨show isRemoteFildes 0x7ffffffc = true by decide,
    answeringNet_reaches_close _ _, fun hreports => ?_⟩
  obtain ⟨run, hrun, houtcome⟩ := hreports fun _ => 0
  have hstub : stub failingOs
      ((answeringNet ⟨[], .closed⟩ 4).withContents fun _ => 0)
      (.close 0x7ffffffc) [] () ⟨[], -1⟩ =
        .ok ⟨⟨0, []⟩, some (requestBytes [1, 0xfc, 0xff, 0xff, 0x7f]), (),
          ⟨[], 3⟩⟩ := by
    rfl
  rw [hstub, Except.ok.injEq] at hrun
  rw [if_neg (by decide), ← hrun] at houtcome
  exact absurd houtcome (by decide)

end TestRpc
