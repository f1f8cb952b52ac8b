import Mathlib.Data.List.ReduceOption
import Mathlib.Tactic

/-!
# Reading a file through a cursor

A file is its contents and a position.  A reader asks for a number of cells,
gets some of those that are left, and hands them on in a buffer of the length
it asked for, filled up with padding.  Over a whole sequence of reads the
buffers put together are the stretch of the file that was passed exactly when
every read that returned anything filled its buffer.
-/

namespace FileCursor

variable {α : Type}

structure Cursor (α : Type) where
  content : List α
  position : ℕ
  deriving DecidableEq

def Cursor.rest (cursor : Cursor α) : List α :=
  cursor.content.drop cursor.position

def Cursor.atEnd (cursor : Cursor α) : Bool :=
  decide (cursor.content.length ≤ cursor.position)

def Cursor.advance (cursor : Cursor α) (count : ℕ) : Cursor α :=
  { cursor with position := cursor.position + count }

/-- The cells between the position and a later one. -/
def Cursor.stretch (cursor : Cursor α) (stop : ℕ) : List α :=
  cursor.rest.take (stop - cursor.position)

/-- One request for `length` cells, of which at most `cut` are returned. -/
structure Ask where
  length : ℕ
  cut : ℕ
  deriving DecidableEq

/-- The cells returned, and the cursor behind them; `none` at the end of the
file, unless nothing was asked for. -/
def Cursor.read (cursor : Cursor α) (ask : Ask) :
    Option (List α × Cursor α) :=
  if 0 < ask.length ∧ cursor.atEnd = true then
    none
  else
    let data := cursor.rest.take (min ask.cut ask.length)
    some (data, cursor.advance data.length)

def padded (pad : α) (length : ℕ) (data : List α) : List α :=
  data ++ List.replicate (length - data.length) pad

/-- A sequence of reads, each into a padded buffer of the length asked for. -/
def readAll (pad : α) : List Ask → Cursor α →
    List (Option (List α)) × Cursor α
  | [], cursor => ([], cursor)
  | ask :: more, cursor =>
      match cursor.read ask with
      | none => (none :: (readAll pad more cursor).1,
          (readAll pad more cursor).2)
      | some (data, next) =>
          (some (padded pad ask.length data) :: (readAll pad more next).1,
            (readAll pad more next).2)

/-- Every read that is not at the end of the file can return all that it asks
for, and does. -/
def FullReads : List Ask → Cursor α → Prop
  | [], _ => True
  | ask :: more, cursor =>
      if 0 < ask.length ∧ cursor.atEnd = true then
        FullReads more cursor
      else
        ask.length ≤ ask.cut ∧ ask.length ≤ cursor.rest.length ∧
          FullReads more (cursor.advance ask.length)

theorem Cursor.read_eq_none_iff {cursor : Cursor α} {ask : Ask} :
    cursor.read ask = none ↔ 0 < ask.length ∧ cursor.atEnd = true := by
  unfold Cursor.read
  split <;> simp_all

theorem Cursor.read_eq_some {cursor next : Cursor α} {ask : Ask}
    {data : List α} (hread : cursor.read ask = some (data, next)) :
    ¬(0 < ask.length ∧ cursor.atEnd = true) ∧
      data = cursor.rest.take (min ask.cut ask.length) ∧
      next = cursor.advance data.length := by
  unfold Cursor.read at hread
  split at hread
  · cases hread
  · next hleft =>
    cases hread
    exact ⟨hleft, rfl, rfl⟩

theorem Cursor.atEnd_iff {cursor : Cursor α} :
    cursor.atEnd = true ↔ cursor.rest = [] := by
  rw [Cursor.atEnd, decide_eq_true_eq, Cursor.rest, List.drop_eq_nil_iff]

/-- Behind what was read starts the rest of the stretch. -/
theorem Cursor.stretch_eq_append {cursor next : Cursor α} {ask : Ask}
    {data : List α} (hread : cursor.read ask = some (data, next))
    {stop : ℕ} (hstop : next.position ≤ stop) :
    cursor.stretch stop = data ++ next.stretch stop := by
  obtain ⟨_, hdata, rfl⟩ := Cursor.read_eq_some hread
  have hfront : data = cursor.rest.take data.length := by
    rw [hdata, List.take_eq_take_iff, List.length_take]
    omega
  have hsplit : stop - cursor.position =
      data.length + (stop - (cursor.advance data.length).position) := by
    simp only [Cursor.advance] at hstop ⊢
    omega
  have hrest : (cursor.advance data.length).rest =
      cursor.rest.drop data.length := by
    simp only [Cursor.rest, Cursor.advance, List.drop_drop]
  rw [Cursor.stretch, Cursor.stretch, hsplit, hrest, List.take_add, ← hfront]

theorem position_le_readAll (pad : α) (asks : List Ask)
    (cursor : Cursor α) :
    cursor.position ≤ (readAll pad asks cursor).2.position := by
  induction asks generalizing cursor with
  | nil => exact le_refl _
  | cons ask more ih =>
      rw [readAll]
      cases hread : cursor.read ask with
      | none => exact ih cursor
      | some result =>
          obtain ⟨data, next⟩ := result
          obtain ⟨_, _, rfl⟩ := Cursor.read_eq_some hread
          refine le_trans ?_ (ih _)
          exact Nat.le_add_right _ _

/-- The buffers together are at least as long as what was passed. -/
theorem readAll_position_le (pad : α) (asks : List Ask)
    (cursor : Cursor α) :
    (readAll pad asks cursor).2.position ≤
      cursor.position +
        (readAll pad asks cursor).1.reduceOption.flatten.length := by
  induction asks generalizing cursor with
  | nil => exact Nat.le_add_right _ _
  | cons ask more ih =>
      rw [readAll]
      cases hread : cursor.read ask with
      | none =>
          simp only [List.reduceOption_cons_of_none]
          exact ih cursor
      | some result =>
          obtain ⟨data, next⟩ := result
          obtain ⟨_, _, rfl⟩ := Cursor.read_eq_some hread
          have hmore := ih (cursor.advance data.length)
          simp only [List.reduceOption_cons_of_some, List.flatten_cons,
            List.length_append, padded]
          simp only [Cursor.advance] at hmore ⊢
          omega

theorem length_le_take_iff {cursor : Cursor α} {ask : Ask} :
    ask.length ≤ (cursor.rest.take (min ask.cut ask.length)).length ↔
      ask.length ≤ ask.cut ∧ ask.length ≤ cursor.rest.length := by
  rw [List.length_take]
  omega

/-- The buffers of the reads that returned anything are the stretch of the
file that was passed exactly when each of them was filled. -/
theorem readAll_eq_stretch_iff (pad : α) (asks : List Ask)
    (cursor : Cursor α) :
    (readAll pad asks cursor).1.reduceOption.flatten =
        cursor.stretch (readAll pad asks cursor).2.position ↔
      FullReads asks cursor := by
  induction asks generalizing cursor with
  | nil => simp [readAll, FullReads, Cursor.stretch]
  | cons ask more ih =>
      rw [readAll, FullReads]
      cases hread : cursor.read ask with
      | none =>
          rw [if_pos (Cursor.read_eq_none_iff.mp hread)]
          simp only [List.reduceOption_cons_of_none]
          exact ih cursor
      | some result =>
          obtain ⟨data, next⟩ := result
          obtain ⟨hleft, hdata, hnext⟩ := Cursor.read_eq_some hread
          have hstretch := Cursor.stretch_eq_append hread
            (position_le_readAll pad more next)
          simp only [List.reduceOption_cons_of_some, List.flatten_cons,
            padded, hstretch]
          have hle : data.length ≤ ask.length := by
            rw [hdata, List.length_take]
            omega
          rw [if_neg hleft, List.append_assoc, List.append_cancel_left_eq,
            ← and_assoc, ← length_le_take_iff, ← hdata]
          constructor
          · intro hsame
            -- The padding and what follows are not longer than what was
            -- passed behind this read, so there is no padding.
            have hlength := congrArg List.length hsame
            have hpassed := readAll_position_le pad more next
            rw [List.length_append, List.length_replicate, Cursor.stretch,
              List.length_take] at hlength
            have hfilled : data.length = ask.length := by omega
            rw [hfilled, Nat.sub_self, List.replicate_zero, List.nil_append,
              ih, hnext, hfilled] at hsame
            exact ⟨le_of_eq hfilled.symm, hsame⟩
          · rintro ⟨hlong, hfull⟩
            have hfilled : data.length = ask.length := by omega
            rw [hfilled, Nat.sub_self, List.replicate_zero, List.nil_append,
              ih, hnext, hfilled]
            exact hfull

end FileCursor
