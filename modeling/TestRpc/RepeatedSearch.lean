import Mathlib.Tactic

/-!
# Searching again and again

A table of cells is searched in order for the first cell whose value passes a
test, and this value is replaced by one that fails it.  Repeated, this replaces
the first matches of the original table, one after the other: what was replaced
is passed over, and nothing that did not match before matches later.
-/

namespace RepeatedSearch

variable {ι α : Type} [DecidableEq ι]

/-- The cells whose values pass the test, in the order of the table. -/
def matching (cells : List ι) (test : α → Bool) (values : ι → α) : List ι :=
  cells.filter fun cell => test (values cell)

def replaceFirst (cells : List ι) (test : α → Bool) (new : α)
    (values : ι → α) : ι → α :=
  match cells.find? fun cell => test (values cell) with
  | none => values
  | some cell => Function.update values cell new

/-- The values with those of the given cells replaced. -/
def replaceIn (new : α) (values : ι → α) (cells : List ι) : ι → α :=
  fun cell => if cell ∈ cells then new else values cell

section Rounds

variable {cells : List ι} {test : α → Bool} {new : α}

theorem matching_replaceIn (hnew : test new = false) (values : ι → α)
    (done : List ι) :
    matching cells test (replaceIn new values done) =
      (matching cells test values).filter fun cell => cell ∉ done := by
  rw [matching, matching, List.filter_filter]
  apply List.filter_congr
  intro cell _
  by_cases hmem : cell ∈ done
  · simp [replaceIn, hmem, hnew]
  · simp [replaceIn, hmem]

theorem filter_notMem_take {list : List ι} (hnodup : list.Nodup) (k : ℕ) :
    (list.filter fun cell => cell ∉ list.take k) = list.drop k := by
  have hdisjoint := List.disjoint_take_drop hnodup (le_refl k)
  have htake : ((list.take k).filter fun cell =>
      cell ∉ list.take k) = [] := by
    rw [List.filter_eq_nil_iff]
    intro cell hmem
    simp [hmem]
  have hdrop : ((list.drop k).filter fun cell => cell ∉ list.take k) =
      list.drop k := by
    rw [List.filter_eq_self]
    intro cell hmem
    simpa using fun htaken => hdisjoint htaken hmem
  calc
    (list.filter fun cell => cell ∉ list.take k) =
        (list.take k ++ list.drop k).filter fun cell =>
          cell ∉ list.take k := by
          rw [List.take_append_drop]
    _ = list.drop k := by
          rw [List.filter_append, htake, hdrop, List.nil_append]

/-- After `k` rounds the first match is the match number `k` of the original
table. -/
theorem find?_replaceIn_take (hnodup : cells.Nodup) (hnew : test new = false)
    (values : ι → α) (k : ℕ) :
    (cells.find? fun cell => test (replaceIn new values
        ((matching cells test values).take k) cell)) =
      (matching cells test values)[k]? := by
  have hmatching : (matching cells test values).Nodup := hnodup.filter _
  have hrest := filter_notMem_take hmatching k
  rw [← matching_replaceIn hnew values] at hrest
  rw [← List.head?_filter, ← List.head?_drop, ← hrest]
  rfl

/-- One more round replaces one more of the original matches. -/
theorem replaceFirst_replaceIn_take (hnodup : cells.Nodup)
    (hnew : test new = false) (values : ι → α) (k : ℕ) :
    replaceFirst cells test new
        (replaceIn new values ((matching cells test values).take k)) =
      replaceIn new values ((matching cells test values).take (k + 1)) := by
  rw [replaceFirst, find?_replaceIn_take hnodup hnew values k,
    List.take_add_one]
  cases hcell : (matching cells test values)[k]? with
  | none => simp
  | some cell =>
      funext other
      by_cases hsame : other = cell
      · simp [replaceIn, hsame]
      · simp [replaceIn, hsame]

end Rounds

end RepeatedSearch
