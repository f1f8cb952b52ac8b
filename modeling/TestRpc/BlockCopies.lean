import Mathlib.Tactic

/-!
# Filling a block by copies

A buffer is often filled by a sequence of block copies at hand-computed
offsets.  A copy is faulty when it reads past the end of its source or writes
past the end of the buffer.  When each copy starts where the previous one
ended, every cell is written exactly once and the buffer ends up holding the
concatenation of the copied pieces; this module proves that once, so that a
concrete layout only has to exhibit the abutting offsets.
-/

namespace BlockCopies

/-- One block copy: `count` cells from the front of `source` (everything from
the source pointer to the end of its object) to offset `target`. -/
structure Copy (α : Type) where
  target : ℕ
  source : List α
  count : ℕ

variable {α : Type}

def Copy.piece (copy : Copy α) : List α :=
  copy.source.take copy.count

def Copy.covers (offset : ℕ) (copy : Copy α) : Bool :=
  decide (copy.target ≤ offset ∧ offset < copy.target + copy.count)

/-- Neither side of the copy leaves its object. -/
def Copy.InBounds (size : ℕ) (copy : Copy α) : Prop :=
  copy.count ≤ copy.source.length ∧ copy.target + copy.count ≤ size

instance (size : ℕ) (copy : Copy α) : Decidable (copy.InBounds size) :=
  inferInstanceAs (Decidable (_ ∧ _))

def store (buffer : List α) (offset : ℕ) (piece : List α) : List α :=
  buffer.take offset ++ piece ++ buffer.drop (offset + piece.length)

/-- One copy into a buffer; `none` when it leaves an object. -/
def Copy.apply (copy : Copy α) (buffer : List α) : Option (List α) :=
  if copy.InBounds buffer.length then
    some (store buffer copy.target copy.piece)
  else
    none

def applyAll : List (Copy α) → List α → Option (List α)
  | [], buffer => some buffer
  | copy :: rest, buffer =>
      match copy.apply buffer with
      | none => none
      | some next => applyAll rest next

def pieces (copies : List (Copy α)) : List α :=
  copies.flatMap Copy.piece

/-- Each copy starts where the previous one stopped, and none reads past the
end of its source. -/
def Abutting : ℕ → List (Copy α) → ℕ → Prop
  | start, [], stop => start = stop
  | start, copy :: rest, stop =>
      copy.target = start ∧ copy.count ≤ copy.source.length ∧
        Abutting (start + copy.count) rest stop

theorem Copy.piece_length {copy : Copy α}
    (hsource : copy.count ≤ copy.source.length) :
    copy.piece.length = copy.count := by
  simp [Copy.piece, hsource]

theorem Abutting.le {start stop : ℕ} {copies : List (Copy α)}
    (habut : Abutting start copies stop) :
    start ≤ stop := by
  induction copies generalizing start with
  | nil => exact le_of_eq habut
  | cons copy rest ih =>
      have hrest := ih habut.2.2
      omega

theorem Abutting.pieces_length {start stop : ℕ} {copies : List (Copy α)}
    (habut : Abutting start copies stop) :
    start + (pieces copies).length = stop := by
  induction copies generalizing start with
  | nil =>
      have hempty : start = stop := habut
      simp [pieces, hempty]
  | cons copy rest ih =>
      obtain ⟨_, hsource, hrest⟩ := habut
      have htail := ih hrest
      have hpiece := Copy.piece_length hsource
      simp only [pieces, List.flatMap_cons, List.length_append] at htail ⊢
      omega

theorem Abutting.inBounds {start stop : ℕ} {copies : List (Copy α)}
    (habut : Abutting start copies stop) :
    ∀ copy ∈ copies, copy.InBounds stop := by
  induction copies generalizing start with
  | nil => simp
  | cons first rest ih =>
      obtain ⟨htarget, hsource, hrest⟩ := habut
      have hstop := hrest.le
      intro copy hcopy
      rcases List.mem_cons.mp hcopy with rfl | hmem
      · exact ⟨hsource, by omega⟩
      · exact ih hrest copy hmem

/-- Abutting copies write every cell of their range exactly once and no other
cell at all. -/
theorem Abutting.countP_covers {start stop : ℕ} {copies : List (Copy α)}
    (habut : Abutting start copies stop) (offset : ℕ) :
    copies.countP (Copy.covers offset) =
      if start ≤ offset ∧ offset < stop then 1 else 0 := by
  induction copies generalizing start with
  | nil =>
      have hempty : start = stop := habut
      have hnot : ¬(start ≤ offset ∧ offset < stop) := by omega
      simp [hnot]
  | cons copy rest ih =>
      obtain ⟨htarget, _, hrest⟩ := habut
      have hstop := hrest.le
      rw [List.countP_cons, ih hrest]
      simp only [Copy.covers, decide_eq_true_eq, htarget]
      by_cases hhere : start ≤ offset ∧ offset < start + copy.count
      · have hlater : ¬(start + copy.count ≤ offset ∧ offset < stop) := by omega
        have hrange : start ≤ offset ∧ offset < stop := by omega
        simp [hhere, hrange]
      · by_cases hlater : start + copy.count ≤ offset ∧ offset < stop
        · have hrange : start ≤ offset ∧ offset < stop := by omega
          simp [hlater, hrange]
        · have hrange : ¬(start ≤ offset ∧ offset < stop) := by omega
          simp [hhere, hlater, hrange]

/-- A list with a copy that reads past the end of its source goes wrong. -/
theorem applyAll_eq_none {copies : List (Copy α)} {copy : Copy α}
    (hmem : copy ∈ copies) (hshort : copy.source.length < copy.count)
    (buffer : List α) :
    applyAll copies buffer = none := by
  have happly : ∀ buffer : List α, copy.apply buffer = none := by
    intro buffer
    exact if_neg fun hbounds => absurd hbounds.1 (not_le.mpr hshort)
  induction copies generalizing buffer with
  | nil => cases hmem
  | cons head rest ih =>
      rcases List.mem_cons.mp hmem with rfl | hrest
      · simp only [applyAll, happly]
      · rw [applyAll]
        cases head.apply buffer with
        | none => rfl
        | some next => exact ih hrest next

theorem store_length {buffer piece : List α} {offset : ℕ}
    (hfits : offset + piece.length ≤ buffer.length) :
    (store buffer offset piece).length = buffer.length := by
  simp only [store, List.length_append, List.length_take, List.length_drop]
  omega

theorem store_store {buffer first second : List α} {offset : ℕ}
    (hfits : offset + first.length ≤ buffer.length) :
    store (store buffer offset first) (offset + first.length) second =
      store buffer offset (first ++ second) := by
  have harrives : (buffer.take offset ++ first).length =
      offset + first.length := by
    rw [List.length_append, List.length_take]
    omega
  have hfront : (store buffer offset first).take (offset + first.length) =
      buffer.take offset ++ first :=
    List.take_left' harrives
  have hback :
      (store buffer offset first).drop
          (offset + first.length + second.length) =
        buffer.drop (offset + (first ++ second).length) := by
    rw [← List.drop_drop, store, List.drop_left' harrives, List.drop_drop]
    simp [Nat.add_assoc]
  conv_lhs => rw [store]
  rw [hfront, hback]
  simp [store]

/-- The buffer after abutting copies: untouched before and after the range,
the concatenated pieces inside it. -/
theorem Abutting.applyAll_eq {start stop : ℕ} {copies : List (Copy α)}
    (habut : Abutting start copies stop)
    {buffer : List α} (hbuffer : stop ≤ buffer.length) :
    applyAll copies buffer = some (store buffer start (pieces copies)) := by
  induction copies generalizing start buffer with
  | nil => simp [applyAll, store, pieces]
  | cons copy rest ih =>
      have hlength := habut.pieces_length
      obtain ⟨htarget, hsource, hrest⟩ := habut
      have hstop := hrest.le
      have hpiece := Copy.piece_length hsource
      have hbounds : copy.InBounds buffer.length := ⟨hsource, by omega⟩
      have hfits : start + copy.piece.length ≤ buffer.length := by omega
      have htail := ih hrest (by rw [store_length hfits]; exact hbuffer)
      simp only [applyAll, Copy.apply, if_pos hbounds, htarget, htail]
      rw [← hpiece, store_store hfits]
      rfl

theorem Abutting.applyAll_fill {copies : List (Copy α)} {buffer : List α}
    (habut : Abutting 0 copies buffer.length) :
    applyAll copies buffer = some (pieces copies) := by
  have hlength := habut.pieces_length
  rw [habut.applyAll_eq le_rfl]
  simp only [store, List.take_zero, List.nil_append]
  rw [hlength, List.drop_length, List.append_nil]

end BlockCopies
