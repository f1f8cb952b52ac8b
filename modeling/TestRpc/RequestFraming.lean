import TestRpc.RequestRoundTrip

/-!
# Receiving a request

The part of `main`'s accept loop that reads a request from a new connection:
one `recv` for the eight bytes of the size, `malloc`, and one `recv` for the
payload.  Neither `recv` is asked again when it returns less than it was asked
for, and `payload_size_buf` keeps what an earlier connection left in it.  The
module finds the deliveries for which the handler gets what was sent.
-/

namespace TestRpc

open LittleEndian BlockCopies StreamReceive

/-- `struct thread_arg` -/
structure ThreadArg where
  payload : List UInt8
  size : SizeT
  clientSocket : ℕ
  deriving DecidableEq

/-- An accepted connection: its socket, the bytes its peer sends, how much of
them each of the two `recv`s returns, and the `malloc` of the payload. -/
structure Connection where
  clientSocket : ℕ
  stream : Stream
  sizeCut : ℕ
  payloadCut : ℕ
  malloc : Malloc

inductive Received
  | handed (argument : ThreadArg)
  | recvFailed
  | mallocFailed
  deriving DecidableEq

/-- Receiving one request, with the contents of `payload_size_buf` before and
after. -/
def receiveRequest (payloadSizeBuf : List UInt8) (connection : Connection) :
    Received × List UInt8 :=
  match recv connection.stream 8 connection.sizeCut with
  | none => (.recvFailed, payloadSizeBuf)
  | some (gotSize, stream) =>
      let payloadSizeBuf := fillFront payloadSizeBuf gotSize
      let payloadSize := wordOf 64 payloadSizeBuf
      if connection.malloc.serves payloadSize.toNat then
        let payload :=
          freshBlock connection.malloc.contents payloadSize.toNat
        match recv stream payloadSize.toNat connection.payloadCut with
        | none => (.recvFailed, payloadSizeBuf)
        | some (gotPayload, _) =>
            (.handed ⟨fillFront payload gotPayload, payloadSize,
              connection.clientSocket⟩, payloadSizeBuf)
      else
        (.mallocFailed, payloadSizeBuf)

/-- `payload_size_buf` after some connections, as long as `main` stayed in its
loop. -/
def sizeBufAfter : List UInt8 → List Connection → Option (List UInt8)
  | payloadSizeBuf, [] => some payloadSizeBuf
  | payloadSizeBuf, connection :: rest =>
      match receiveRequest payloadSizeBuf connection with
      | (.handed _, next) => sizeBufAfter next rest
      | _ => none

def Connection.withContents (connection : Connection)
    (contents : ℕ → UInt8) : Connection :=
  { connection with
    malloc := { connection.malloc with contents := contents } }

/-- The handler is handed what was sent, when all of it was sent, and nothing
otherwise. -/
def Framed (payload : List UInt8) (connection : Connection)
    (received : Received) : Prop :=
  if connection.stream.pending = requestBytes payload then
    received = .handed ⟨payload, BitVec.ofNat 64 payload.length,
      connection.clientSocket⟩
  else
    ∀ argument, received ≠ .handed argument

/-- The delivery is whole: the stream holds the complete request, and each
`recv` returns all that it was asked for. -/
def DeliveredWhole (payload : List UInt8) (connection : Connection) : Prop :=
  connection.stream.pending = requestBytes payload ∧
    8 ≤ connection.sizeCut ∧ payload.length ≤ max 1 connection.payloadCut

/-- What the first `recv` returns, on a stream that does not fail. -/
def Connection.gotSize (connection : Connection) : List UInt8 :=
  connection.stream.pending.take (min 8 (max 1 connection.sizeCut))

/-- The deliveries for which framing is right.  A complete request must be
delivered whole and be served by `malloc`.  Of an incomplete one nothing is
handed on only when `malloc` serves no size that begins with the bytes
received, and `main` leaves its loop. -/
def FramedDelivery (payload : List UInt8) (connection : Connection) : Prop :=
  DeliveredWhole payload connection ∧
      connection.malloc.serves payload.length = true ∨
    connection.stream.pending ≠ requestBytes payload ∧
      ∀ size : SizeT, connection.gotSize <+: bytesOf size →
        connection.malloc.serves size.toNat = false

/-- A connection that does not end the loop: neither `recv` fails, and
`malloc` serves the size that `payload_size_buf` holds after the first. -/
def Connection.Harmless (connection : Connection)
    (payloadSizeBuf : List UInt8) : Prop :=
  ∃ gotSize rest,
    recv connection.stream 8 connection.sizeCut = some (gotSize, rest) ∧
    connection.malloc.serves
      (wordOf 64 (fillFront payloadSizeBuf gotSize)).toNat = true ∧
    ¬(rest.pending = [] ∧ rest.ending = .failed)

/-! ## Steps of receiving -/

theorem wordOf_size {payload : List UInt8} (hsize : payload.length < 2 ^ 64) :
    (BitVec.ofNat 64 payload.length : SizeT).toNat = payload.length := by
  rw [BitVec.toNat_ofNat, Nat.mod_eq_of_lt hsize]

/-- Once the size is right, the payload is handed with what the second `recv`
returned in front of what `malloc` returned. -/
theorem receiveRequest_of_size
    {payloadSizeBuf gotSize : List UInt8} {connection : Connection}
    {stream next : Stream} {size : ℕ} {gotPayload : List UInt8}
    (hrecvSize : recv connection.stream 8 connection.sizeCut =
      some (gotSize, stream))
    (hword : (wordOf 64 (fillFront payloadSizeBuf gotSize)).toNat = size)
    (hserves : connection.malloc.serves size = true)
    (hrecvPayload : recv stream size connection.payloadCut =
      some (gotPayload, next)) :
    (receiveRequest payloadSizeBuf connection).1 =
      .handed ⟨fillFront (freshBlock connection.malloc.contents size)
          gotPayload,
        wordOf 64 (fillFront payloadSizeBuf gotSize),
        connection.clientSocket⟩ := by
  simp only [receiveRequest, hrecvSize, hword, hserves, if_true,
    hrecvPayload]

theorem receiveRequest_handed_size
    {payloadSizeBuf gotSize : List UInt8} {connection : Connection}
    {stream : Stream} {argument : ThreadArg}
    (hrecvSize : recv connection.stream 8 connection.sizeCut =
      some (gotSize, stream))
    (hhanded : (receiveRequest payloadSizeBuf connection).1 =
      .handed argument) :
    argument.size = wordOf 64 (fillFront payloadSizeBuf gotSize) := by
  simp only [receiveRequest, hrecvSize] at hhanded
  split at hhanded
  · split at hhanded
    · cases hhanded
    · cases hhanded
      rfl
  · cases hhanded

theorem receiveRequest_handed_socket {payloadSizeBuf : List UInt8}
    {connection : Connection} {argument : ThreadArg}
    (hhanded : (receiveRequest payloadSizeBuf connection).1 =
      .handed argument) :
    argument.clientSocket = connection.clientSocket := by
  unfold receiveRequest at hhanded
  split at hhanded
  · cases hhanded
  · dsimp only at hhanded
    split at hhanded
    · split at hhanded
      · cases hhanded
      · cases hhanded
        rfl
    · cases hhanded

/-- The harmless connections are exactly those whose request is handed to a
handler. -/
theorem Connection.harmless_iff (connection : Connection)
    (payloadSizeBuf : List UInt8) :
    connection.Harmless payloadSizeBuf ↔
      ∃ argument, (receiveRequest payloadSizeBuf connection).1 =
        .handed argument := by
  unfold Connection.Harmless receiveRequest
  cases hsize : recv connection.stream 8 connection.sizeCut with
  | none => simp
  | some result =>
      obtain ⟨gotSize, rest⟩ := result
      simp only [Option.some.injEq, Prod.mk.injEq]
      constructor
      · rintro ⟨_, _, ⟨rfl, rfl⟩, hserves, hstream⟩
        rw [if_pos hserves]
        cases hpayload : recv rest
            (wordOf 64 (fillFront payloadSizeBuf gotSize)).toNat
            connection.payloadCut with
        | none => exact absurd (recv_eq_none_iff.mp hpayload) hstream
        | some received => exact ⟨_, rfl⟩
      · rintro ⟨argument, hhanded⟩
        refine ⟨gotSize, rest, ⟨rfl, rfl⟩, ?_⟩
        split at hhanded
        · next hserves =>
          refine ⟨hserves, fun hfailed => ?_⟩
          rw [recv_eq_none_iff.mpr hfailed] at hhanded
          cases hhanded
        · cases hhanded

/-- On a stream that does not fail, a request is handed on whenever `malloc`
serves the size in `payload_size_buf`. -/
theorem handed_iff_serves {connection : Connection}
    (hclosed : connection.stream.ending = .closed)
    (payloadSizeBuf : List UInt8) :
    (∃ argument, (receiveRequest payloadSizeBuf connection).1 =
        .handed argument) ↔
      connection.malloc.serves (wordOf 64
        (fillFront payloadSizeBuf connection.gotSize)).toNat = true := by
  obtain ⟨rest, hrecv⟩ := recv_of_closed hclosed 8 connection.sizeCut
  have hrest : ¬(rest.pending = [] ∧ rest.ending = .failed) := by
    rintro ⟨_, hfailed⟩
    rw [(recv_some hrecv).2.2.1, hclosed] at hfailed
    cases hfailed
  rw [← Connection.harmless_iff]
  constructor
  · rintro ⟨gotSize, next, hrecv', hserves, _⟩
    rw [hrecv, Option.some.injEq, Prod.mk.injEq] at hrecv'
    rw [Connection.gotSize, hrecv'.1]
    exact hserves
  · intro hserves
    exact ⟨connection.gotSize, rest, hrecv, hserves, hrest⟩

theorem receiveRequest_sizeBuf_length
    {payloadSizeBuf : List UInt8} (hlength : payloadSizeBuf.length = 8)
    (connection : Connection) :
    (receiveRequest payloadSizeBuf connection).2.length = 8 := by
  unfold receiveRequest
  cases hrecv : recv connection.stream 8 connection.sizeCut with
  | none => simpa using hlength
  | some result =>
      obtain ⟨gotSize, stream⟩ := result
      have hgot := (recv_some hrecv).2.1
      have hfill : (fillFront payloadSizeBuf gotSize).length = 8 := by
        rw [fillFront_length (by omega), hlength]
      simp only
      split
      · split <;> exact hfill
      · exact hfill

theorem sizeBufAfter_length
    {start final : List UInt8} {history : List Connection}
    (hstart : start.length = 8)
    (hafter : sizeBufAfter start history = some final) :
    final.length = 8 := by
  induction history generalizing start with
  | nil =>
      simp only [sizeBufAfter, Option.some.injEq] at hafter
      rw [← hafter, hstart]
  | cons connection rest ih =>
      have hnext := receiveRequest_sizeBuf_length hstart connection
      simp only [sizeBufAfter] at hafter
      split at hafter
      · rename_i argument next hreceive
        rw [hreceive] at hnext
        exact ih hnext hafter
      · cases hafter

/-! ## Whole deliveries -/

theorem recv_whole_size
    {payload : List UInt8} {connection : Connection}
    (hpending : connection.stream.pending = requestBytes payload)
    (hclosed : connection.stream.ending = .closed)
    (hsizeCut : 8 ≤ connection.sizeCut) :
    recv connection.stream 8 connection.sizeCut =
      some (bytesOf (BitVec.ofNat 64 payload.length : SizeT),
        ⟨payload, .closed⟩) := by
  have hbytes : (bytesOf (BitVec.ofNat 64 payload.length : SizeT)).length =
      8 := bytesOf_length _
  have hstream : connection.stream = ⟨requestBytes payload, .closed⟩ := by
    rw [← hpending, ← hclosed]
  have hnonempty : bytesOf (BitVec.ofNat 64 payload.length : SizeT) ≠ [] := by
    intro hnil
    rw [hnil] at hbytes
    simp at hbytes
  have hrecv := @recv_whole .closed
    (bytesOf (BitVec.ofNat 64 payload.length : SizeT)) payload
    connection.sizeCut (by omega) hnonempty
  rw [hbytes] at hrecv
  rw [hstream]
  exact hrecv

theorem wordOf_fillFront_size
    {payloadSizeBuf : List UInt8} (hlength : payloadSizeBuf.length = 8)
    (size : SizeT) :
    wordOf 64 (fillFront payloadSizeBuf (bytesOf size)) = size := by
  rw [fillFront_whole (by rw [hlength, bytesOf_length]), wordOf_bytesOf rfl]

theorem framed_of_deliveredWhole
    {payload payloadSizeBuf : List UInt8} {connection : Connection}
    (hsize : payload.length < 2 ^ 64)
    (hclosed : connection.stream.ending = .closed)
    (hserves : connection.malloc.serves payload.length = true)
    (hlength : payloadSizeBuf.length = 8)
    (hwhole : DeliveredWhole payload connection) :
    Framed payload connection
      (receiveRequest payloadSizeBuf connection).1 := by
  obtain ⟨hpending, hsizeCut, hpayloadCut⟩ := hwhole
  have hrecvSize := recv_whole_size hpending hclosed hsizeCut
  have hword := wordOf_fillFront_size hlength
    (BitVec.ofNat 64 payload.length)
  have hrecvPayload : ∃ next, recv ⟨payload, .closed⟩ payload.length
      connection.payloadCut = some (payload, next) := by
    by_cases hempty : payload = []
    · subst hempty
      exact ⟨_, rfl⟩
    · have hrecv := @recv_whole .closed payload [] _ hpayloadCut hempty
      rw [List.append_nil] at hrecv
      exact ⟨_, hrecv⟩
  obtain ⟨next, hnext⟩ := hrecvPayload
  rw [Framed, if_pos hpending,
    receiveRequest_of_size hrecvSize (by rw [hword, wordOf_size hsize])
      hserves hnext,
    hword, fillFront_whole (by simp)]

/-! ## Everything else -/

def sizeSender (bytes : List UInt8) : Connection where
  clientSocket := 4
  stream := ⟨bytes, .closed⟩
  sizeCut := 8
  payloadCut := 1
  malloc := amplestMalloc

theorem sizeBufAfter_sizeSender
    {start : List UInt8} (hstart : start.length = 8) {size : SizeT}
    (hsize : size.toNat < 2 ^ 63) :
    sizeBufAfter start [sizeSender (bytesOf size)] =
      some (bytesOf size) := by
  have hbytes : (bytesOf size).length = 8 := bytesOf_length size
  have hrecvSize : recv ⟨bytesOf size, .closed⟩ 8 8 =
      some (bytesOf size, ⟨[], .closed⟩) := by
    have hrecv := @recv_whole .closed (bytesOf size) [] 8 (by omega)
      (by intro hnil; rw [hnil] at hbytes; simp at hbytes)
    rwa [List.append_nil, hbytes] at hrecv
  have hfill : fillFront start (bytesOf size) = bytesOf size :=
    fillFront_whole (by rw [hstart, hbytes])
  have hserves : amplestMalloc.serves size.toNat = true := by
    simpa [amplestMalloc] using hsize
  have hrecvPayload : recv ⟨[], .closed⟩ size.toNat 1 =
      some ([], ⟨[], .closed⟩) := rfl
  simp only [sizeBufAfter, receiveRequest, sizeSender, hrecvSize, hfill,
    wordOf_bytesOf, hserves, hrecvPayload, if_true]

/-- A stream that ends early is handed to a handler all the same when an
earlier connection left behind a size that fits the bytes received. -/
theorem handed_of_left_behind {connection : Connection}
    (hclosed : connection.stream.ending = .closed) {size : SizeT}
    (hgot : connection.gotSize <+: bytesOf size)
    (hserves : connection.malloc.serves size.toNat = true) :
    ∃ argument, (receiveRequest (bytesOf size) connection).1 =
      .handed argument := by
  rw [handed_iff_serves hclosed, fillFront_eq_self hgot, wordOf_bytesOf rfl]
  exact hserves

theorem not_handed_of_unserved {connection : Connection}
    (hclosed : connection.stream.ending = .closed)
    {payloadSizeBuf : List UInt8} (hlength : payloadSizeBuf.length = 8)
    (hunserved : ∀ size : SizeT, connection.gotSize <+: bytesOf size →
      connection.malloc.serves size.toNat = false)
    (argument : ThreadArg) :
    (receiveRequest payloadSizeBuf connection).1 ≠ .handed argument := by
  intro hhanded
  have hserves := (handed_iff_serves hclosed _).mp ⟨argument, hhanded⟩
  have hshort : connection.gotSize.length ≤ 8 := by
    rw [Connection.gotSize, List.length_take]
    omega
  have hfill : (fillFront payloadSizeBuf connection.gotSize).length = 8 := by
    rw [fillFront_length (by omega), hlength]
  have hfront := prefix_fillFront payloadSizeBuf connection.gotSize
  rw [← bytesOf_wordOf (n := 64) rfl hfill] at hfront
  rw [hunserved _ hfront] at hserves
  cases hserves

theorem getLast?_bytesOf_zero_ne :
    (bytesOf (0 : SizeT)).getLast? ≠
      (bytesOf (0x100000000000000 : SizeT)).getLast? := by
  decide

/-- With a size read short, two histories give two sizes, of which only one
can be right. -/
theorem not_framed_of_short_size
    {payload : List UInt8} {connection : Connection}
    (hpending : connection.stream.pending = requestBytes payload)
    (hclosed : connection.stream.ending = .closed)
    (hshort : connection.sizeCut < 8) :
    ¬(Framed payload connection
          (receiveRequest (bytesOf (0 : SizeT)) connection).1 ∧
        Framed payload connection
          (receiveRequest (bytesOf (0x100000000000000 : SizeT))
            connection).1) := by
  rintro ⟨hzero, hlarge⟩
  rw [Framed, if_pos hpending] at hzero hlarge
  obtain ⟨stream, hrecv⟩ := recv_of_closed hclosed 8 connection.sizeCut
  have hgot : connection.gotSize.length < 8 := by
    have hcut := recv_length_le_cut hrecv
    rw [Connection.gotSize]
    omega
  have hword := (receiveRequest_handed_size hrecv hzero).symm.trans
    (receiveRequest_handed_size hrecv hlarge)
  have hbytes := wordOf_injective rfl
    (fillFront_length (le_of_lt hgot)) (fillFront_length (le_of_lt hgot))
    hword
  have hlast := congrArg List.getLast? hbytes
  rw [fillFront_getLast? hgot, fillFront_getLast? hgot] at hlast
  exact getLast?_bytesOf_zero_ne hlast

/-- With a payload read short, the last byte handed on is whatever `malloc`
returned there. -/
theorem not_framed_of_short_payload
    {payload payloadSizeBuf : List UInt8} {connection : Connection}
    (hsize : payload.length < 2 ^ 64)
    (hpending : connection.stream.pending = requestBytes payload)
    (hclosed : connection.stream.ending = .closed)
    (hserves : connection.malloc.serves payload.length = true)
    (hlength : payloadSizeBuf.length = 8)
    (hsizeCut : 8 ≤ connection.sizeCut)
    (hshort : max 1 connection.payloadCut < payload.length) :
    ∃ contents, ¬Framed payload (connection.withContents contents)
      (receiveRequest payloadSizeBuf (connection.withContents contents)).1 := by
  have hrecvSize := recv_whole_size hpending hclosed hsizeCut
  have hword := wordOf_fillFront_size hlength
    (BitVec.ofNat 64 payload.length)
  obtain ⟨next, hrecvPayload⟩ :=
    @recv_of_closed ⟨payload, .closed⟩ rfl payload.length
      connection.payloadCut
  have hgot := recv_length_le_cut hrecvPayload
  generalize payload.take (min payload.length
    (max 1 connection.payloadCut)) = gotPayload at hrecvPayload hgot
  have hgotShort : gotPayload.length < payload.length := by omega
  obtain ⟨last, hlast⟩ : ∃ last, payload.getLast? = some last := by
    cases hgetLast : payload.getLast? with
    | none =>
        rw [List.getLast?_eq_none_iff.mp hgetLast] at hgotShort
        simp at hgotShort
    | some last => exact ⟨last, rfl⟩
  -- Fresh memory that holds another last byte than the payload.
  refine ⟨fun _ => last + 1, ?_⟩
  intro hframed
  rw [Framed, if_pos (by exact hpending),
    receiveRequest_of_size (by exact hrecvSize)
      (by rw [hword, wordOf_size hsize]) (by exact hserves)
      (by exact hrecvPayload)] at hframed
  rw [Received.handed.injEq, ThreadArg.mk.injEq] at hframed
  have hpayload : fillFront (freshBlock (fun _ => last + 1) payload.length)
      gotPayload = payload := hframed.1
  have hfresh : (freshBlock (fun _ => last + 1) payload.length).getLast? =
      some (last + 1) := by
    have hne : payload.length ≠ 0 := by omega
    simp [freshBlock, List.getLast?_replicate, hne]
  have hend := congrArg List.getLast? hpayload
  rw [fillFront_getLast? (by simpa using hgotShort), hfresh, hlast] at hend
  have hbyte : last + 1 ≠ last := by
    simp
  exact hbyte (Option.some.inj hend)

theorem serves_of_framed
    {payload payloadSizeBuf : List UInt8} {connection : Connection}
    (hsize : payload.length < 2 ^ 64)
    (hpending : connection.stream.pending = requestBytes payload)
    (hclosed : connection.stream.ending = .closed)
    (hframed : Framed payload connection
      (receiveRequest payloadSizeBuf connection).1) :
    connection.malloc.serves payload.length = true := by
  rw [Framed, if_pos hpending] at hframed
  obtain ⟨rest, hrecv⟩ := recv_of_closed hclosed 8 connection.sizeCut
  have hword := receiveRequest_handed_size hrecv hframed
  have hserves := (handed_iff_serves hclosed payloadSizeBuf).mp ⟨_, hframed⟩
  rwa [Connection.gotSize, ← hword, wordOf_size hsize] at hserves

/-- Framing is right for every history of earlier connections and every
content of fresh memory on exactly these deliveries. -/
theorem framed_iff_framedDelivery
    {payload uninitialised : List UInt8} {connection : Connection}
    (hsize : payload.length < 2 ^ 64)
    (hclosed : connection.stream.ending = .closed)
    (huninitialised : uninitialised.length = 8) :
    (∀ history payloadSizeBuf contents,
        sizeBufAfter uninitialised history = some payloadSizeBuf →
        Framed payload (connection.withContents contents)
          (receiveRequest payloadSizeBuf
            (connection.withContents contents)).1) ↔
      FramedDelivery payload connection := by
  constructor
  · intro hall
    have hfixed : ∀ size : SizeT, size.toNat < 2 ^ 63 →
        Framed payload connection
          (receiveRequest (bytesOf size) connection).1 := by
      intro size hlt
      exact hall _ _ connection.malloc.contents
        (sizeBufAfter_sizeSender huninitialised hlt)
    by_cases hpending : connection.stream.pending = requestBytes payload
    · left
      have hserves := serves_of_framed hsize hpending hclosed
        (hfixed 0 (by decide))
      have hsizeCut : 8 ≤ connection.sizeCut := by
        by_contra hshort
        exact not_framed_of_short_size hpending hclosed (by omega)
          ⟨hfixed 0 (by decide), hfixed 0x100000000000000 (by decide)⟩
      refine ⟨⟨hpending, hsizeCut, ?_⟩, hserves⟩
      by_contra hshort
      obtain ⟨contents, hnot⟩ := not_framed_of_short_payload hsize hpending
        hclosed hserves huninitialised hsizeCut (by omega)
      exact hnot (hall [] uninitialised contents rfl)
    · right
      refine ⟨hpending, fun size hgot => ?_⟩
      by_contra hserved
      rw [Bool.not_eq_false] at hserved
      obtain ⟨argument, hhanded⟩ :=
        handed_of_left_behind hclosed hgot hserved
      have hframed := hfixed size (connection.malloc.serves_lt _ hserved)
      rw [Framed, if_neg hpending] at hframed
      exact hframed argument hhanded
  · intro hdelivery history payloadSizeBuf contents hafter
    have hlength := sizeBufAfter_length huninitialised hafter
    rcases hdelivery with ⟨hwhole, hserves⟩ | ⟨hpending, hunserved⟩
    · exact framed_of_deliveredWhole hsize hclosed hserves hlength hwhole
    · rw [Framed, if_neg (by exact hpending)]
      exact @not_handed_of_unserved (connection.withContents contents)
        hclosed _ hlength hunserved

def closeThree : List UInt8 := [1, 0xfc, 0xff, 0xff, 0x7f]

/-- A connection on which it arrives, with the second `recv` cut. -/
def closeThreeConnection (payloadCut : ℕ) : Connection where
  clientSocket := 4
  stream := ⟨requestBytes closeThree, .closed⟩
  sizeCut := 8
  payloadCut := payloadCut
  malloc := amplestMalloc

theorem framed_close_request :
    DeliveredWhole closeThree (closeThreeConnection 5) ∧
      Framed closeThree (closeThreeConnection 5)
        (receiveRequest (List.replicate 8 0) (closeThreeConnection 5)).1 := by
  have hwhole : DeliveredWhole closeThree (closeThreeConnection 5) :=
    ⟨rfl, by decide, by decide⟩
  exact ⟨hwhole, (framed_iff_framedDelivery (by decide) rfl
    (by decide)).mpr (.inl ⟨hwhole, by decide⟩) [] (List.replicate 8 0)
    amplestMalloc.contents rfl⟩

/-- The same request arriving with its payload cut behind the function code:
the handler gets a request to close the descriptor `INT_MAX - 0`. -/
theorem not_framed_cut_payload :
    (closeThreeConnection 1).stream.pending = requestBytes closeThree ∧
      (receiveRequest (List.replicate 8 0) (closeThreeConnection 1)).1 =
        .handed ⟨[1, 0, 0, 0, 0], 5, 4⟩ ∧
      ¬Framed closeThree (closeThreeConnection 1)
        (receiveRequest (List.replicate 8 0) (closeThreeConnection 1)).1 := by
  have hhanded :
      (receiveRequest (List.replicate 8 0) (closeThreeConnection 1)).1 =
        .handed ⟨[1, 0, 0, 0, 0], 5, 4⟩ := by
    rfl
  have hpending :
      (closeThreeConnection 1).stream.pending = requestBytes closeThree := rfl
  refine ⟨hpending, hhanded, ?_⟩
  rw [Framed, if_pos hpending, hhanded]
  decide

end TestRpc
