import Mathlib.Tactic

/-!
# Blocks of a heap and who holds them

A heap is the finite set of the addresses that `malloc` has returned and that
have not been freed.  A program that touches or frees an address outside this
set has damaged it.  As long as the pointers of a program, counted with
multiplicity, are exactly the live blocks, no block has two holders and none
is without one; `malloc` and `free` keep this when the program adds and drops
the pointer they are about.
-/

namespace HeapBlocks

structure Heap where
  live : Finset ℕ
  damaged : Bool

def Heap.empty : Heap := ⟨∅, false⟩

/-- `malloc` returns an address that is not in use. -/
def Heap.malloc (heap : Heap) (address : ℕ) : Option Heap :=
  if address ∈ heap.live then none
  else some { heap with live := insert address heap.live }

/-- An access to a block; to none when the pointer is not set. -/
def Heap.touch (heap : Heap) : Option ℕ → Heap
  | none => heap
  | some address =>
      if address ∈ heap.live then heap else { heap with damaged := true }

def Heap.free (heap : Heap) : Option ℕ → Heap
  | none => heap
  | some address =>
      if address ∈ heap.live then
        { heap with live := heap.live.erase address }
      else
        { heap with damaged := true }

/-- The block behind a pointer, which may be `NULL`. -/
def pointee : Option ℕ → Multiset ℕ
  | none => 0
  | some address => {address}

def pointees (pointers : List (Option ℕ)) : Multiset ℕ :=
  (pointers.map pointee).sum

/-- The pointers of the program are the live blocks. -/
structure Heap.HeldBy (heap : Heap) (blocks : Multiset ℕ) : Prop where
  undamaged : heap.damaged = false
  live : heap.live.val = blocks

theorem Heap.empty_heldBy : Heap.empty.HeldBy 0 := ⟨rfl, rfl⟩

theorem pointees_cons (pointer : Option ℕ) (rest : List (Option ℕ)) :
    pointees (pointer :: rest) = pointee pointer + pointees rest := by
  rw [pointees, pointees, List.map_cons, List.sum_cons]

theorem card_pointee_le (pointer : Option ℕ) : (pointee pointer).card ≤ 1 := by
  cases pointer with
  | none => exact Nat.zero_le 1
  | some address => exact (Multiset.card_singleton address).le

theorem Heap.HeldBy.malloc {heap next : Heap} {blocks : Multiset ℕ}
    {address : ℕ} (hheld : heap.HeldBy blocks)
    (hmalloc : heap.malloc address = some next) :
    next.HeldBy ({address} + blocks) := by
  unfold Heap.malloc at hmalloc
  split at hmalloc
  · cases hmalloc
  · next hnew =>
    cases hmalloc
    refine ⟨hheld.undamaged, ?_⟩
    rw [Finset.insert_val_of_notMem hnew, hheld.live,
      Multiset.singleton_add]

theorem Heap.HeldBy.mem_live {heap : Heap} {blocks : Multiset ℕ}
    {address : ℕ} (hheld : heap.HeldBy blocks) (hmem : address ∈ blocks) :
    address ∈ heap.live := by
  rw [← Finset.mem_val, hheld.live]
  exact hmem

theorem Heap.HeldBy.touch {heap : Heap} {blocks : Multiset ℕ}
    {pointer : Option ℕ} (hheld : heap.HeldBy blocks)
    (hpointer : pointee pointer ≤ blocks) : heap.touch pointer = heap := by
  cases pointer with
  | none => rfl
  | some address =>
      rw [Heap.touch, if_pos]
      exact hheld.mem_live (Multiset.singleton_le.mp hpointer)

theorem Heap.HeldBy.free {heap : Heap} {pointer : Option ℕ}
    {blocks : Multiset ℕ} (hheld : heap.HeldBy (pointee pointer + blocks)) :
    (heap.free pointer).HeldBy blocks := by
  cases pointer with
  | none => simpa [pointee, Heap.free] using hheld
  | some address =>
      have hmem : address ∈ heap.live :=
        hheld.mem_live (by simp [pointee])
      rw [Heap.free, if_pos hmem]
      refine ⟨hheld.undamaged, ?_⟩
      rw [Finset.erase_val, hheld.live, pointee, Multiset.singleton_add,
        Multiset.erase_cons_head]

end HeapBlocks
