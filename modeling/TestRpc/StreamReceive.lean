import TestRpc.BlockCopies

/-!
# Receiving from a byte stream

The reading end of a stream connection: the bytes that will still arrive, and
what a read meets after them.  One read returns some non-empty prefix of the
bytes still to come, of at most the length asked for; how long a prefix is the
network's choice and is given as `cut`.  What a read stores replaces only the
front of the destination; the rest keeps what it held.
-/

namespace StreamReceive

open BlockCopies

/-- What a read meets once all bytes of the stream are consumed: an orderly
end, or an error. -/
inductive Ending
  | closed
  | failed
  deriving DecidableEq

structure Stream where
  pending : List UInt8
  ending : Ending
  deriving DecidableEq

/-- One read of at most `length` bytes: the bytes returned (none of them at an
orderly end) and the stream after it, or `none` for an error. -/
def recv (stream : Stream) (length cut : ℕ) : Option (List UInt8 × Stream) :=
  if stream.pending = [] then
    match stream.ending with
    | .closed => some ([], stream)
    | .failed => none
  else
    let count := min length (max 1 cut)
    some (stream.pending.take count,
      { stream with pending := stream.pending.drop count })

def fillFront (destination got : List UInt8) : List UInt8 :=
  store destination 0 got

theorem fillFront_eq (destination got : List UInt8) :
    fillFront destination got = got ++ destination.drop got.length := by
  simp [fillFront, store]

theorem fillFront_length {destination got : List UInt8}
    (hfits : got.length ≤ destination.length) :
    (fillFront destination got).length = destination.length :=
  store_length (by simpa using hfits)

theorem fillFront_whole {destination got : List UInt8}
    (hwhole : destination.length = got.length) :
    fillFront destination got = got := by
  rw [fillFront_eq, ← hwhole, List.drop_length, List.append_nil]

theorem fillFront_eq_self {destination got : List UInt8}
    (hfront : got <+: destination) :
    fillFront destination got = destination := by
  obtain ⟨rest, rfl⟩ := hfront
  rw [fillFront_eq, List.drop_left]

theorem prefix_fillFront (destination got : List UInt8) :
    got <+: fillFront destination got := by
  rw [fillFront_eq]
  exact List.prefix_append _ _

theorem fillFront_getLast? {destination got : List UInt8}
    (hshort : got.length < destination.length) :
    (fillFront destination got).getLast? = destination.getLast? := by
  have hdrop : destination.drop got.length ≠ [] := by
    intro hnil
    rw [List.drop_eq_nil_iff] at hnil
    omega
  rw [fillFront_eq, List.getLast?_append_of_ne_nil _ hdrop,
    List.getLast?_drop, if_neg (by omega)]

/-- The bytes a read returns are a prefix of what was pending, no longer than
asked for, and empty only when nothing was pending or nothing was asked. -/
theorem recv_some
    {stream next : Stream} {length cut : ℕ} {got : List UInt8}
    (hrecv : recv stream length cut = some (got, next)) :
    stream.pending = got ++ next.pending ∧ got.length ≤ length ∧
      next.ending = stream.ending ∧
      (got = [] → stream.pending = [] ∨ length = 0) := by
  unfold recv at hrecv
  by_cases hempty : stream.pending = []
  · cases hending : stream.ending with
    | closed =>
        simp only [hempty, hending, if_true, Option.some.injEq,
          Prod.mk.injEq] at hrecv
        obtain ⟨rfl, rfl⟩ := hrecv
        simp [hempty, hending]
    | failed => simp [hempty, hending] at hrecv
  · simp only [hempty, if_false, Option.some.injEq, Prod.mk.injEq] at hrecv
    obtain ⟨rfl, rfl⟩ := hrecv
    refine ⟨(List.take_append_drop _ _).symm, ?_, rfl, ?_⟩
    · simp only [List.length_take]
      omega
    · intro hnone
      right
      rw [List.take_eq_nil_iff] at hnone
      have hcount := hnone.resolve_right hempty
      omega

theorem recv_length_le_cut
    {stream next : Stream} {length cut : ℕ} {got : List UInt8}
    (hrecv : recv stream length cut = some (got, next)) :
    got.length ≤ max 1 cut := by
  unfold recv at hrecv
  by_cases hempty : stream.pending = []
  · cases hending : stream.ending with
    | closed =>
        simp only [hempty, hending, if_true, Option.some.injEq,
          Prod.mk.injEq] at hrecv
        simp [← hrecv.1]
    | failed => simp [hempty, hending] at hrecv
  · simp only [hempty, if_false, Option.some.injEq, Prod.mk.injEq] at hrecv
    rw [← hrecv.1, List.length_take]
    omega

theorem recv_whole
    {ending : Ending} {wanted rest : List UInt8} {cut : ℕ}
    (hcut : wanted.length ≤ max 1 cut) (hwanted : wanted ≠ []) :
    recv ⟨wanted ++ rest, ending⟩ wanted.length cut =
      some (wanted, ⟨rest, ending⟩) := by
  have hpos : 0 < wanted.length := List.length_pos_of_ne_nil hwanted
  have hcount : min wanted.length (max 1 cut) = wanted.length := by omega
  simp [recv, hwanted, hcount]

theorem recv_of_closed {stream : Stream} (hclosed : stream.ending = .closed)
    (length cut : ℕ) :
    ∃ next, recv stream length cut =
      some (stream.pending.take (min length (max 1 cut)), next) := by
  unfold recv
  by_cases hempty : stream.pending = []
  · exact ⟨stream, by simp [hempty, hclosed]⟩
  · simp [hempty]

/-- A read fails exactly when nothing is pending on a failed stream. -/
theorem recv_eq_none_iff {stream : Stream} {length cut : ℕ} :
    recv stream length cut = none ↔
      stream.pending = [] ∧ stream.ending = .failed := by
  unfold recv
  by_cases hempty : stream.pending = []
  · cases hending : stream.ending <;> simp [hempty]
  · simp [hempty]

end StreamReceive
