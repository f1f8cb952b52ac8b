import TestRpc.LittleEndian

/-!
# Byte-addressed memory

Memory is a byte at every address; words are loaded and stored in
little-endian order, and strings end with a zero byte.  A store changes the
bytes it is made to and no others, so that a load sees it only where the two
overlap.
-/

namespace ByteMemory

open LittleEndian

abbrev Memory := ℕ → UInt8

def bytesAt (memory : Memory) (address size : ℕ) : List UInt8 :=
  (List.range size).map fun offset => memory (address + offset)

def load (n : ℕ) (memory : Memory) (address : ℕ) : BitVec n :=
  wordOf n (bytesAt memory address (n / 8))

def storeBytes (memory : Memory) (address : ℕ) (data : List UInt8) : Memory :=
  fun place =>
    if address ≤ place ∧ place < address + data.length then
      data.getD (place - address) 0
    else
      memory place

def store {n : ℕ} (memory : Memory) (address : ℕ) (word : BitVec n) :
    Memory :=
  storeBytes memory address (bytesOf word)

/-- Two ranges of bytes, each given by its first address and its size, have no
address in common. -/
def Apart (left leftSize right rightSize : ℕ) : Prop :=
  left + leftSize ≤ right ∨ right + rightSize ≤ left

/-! ## Loads and stores -/

theorem bytesAt_congr {memory memory' : Memory} {address size : ℕ}
    (hsame : ∀ place, address ≤ place → place < address + size →
      memory place = memory' place) :
    bytesAt memory address size = bytesAt memory' address size := by
  apply List.map_congr_left
  intro offset hmem
  rw [List.mem_range] at hmem
  exact hsame (address + offset) (by omega) (by omega)

theorem store_of_outside {n : ℕ} {memory : Memory} {address place : ℕ}
    (word : BitVec n) (houtside : place < address ∨ address + n / 8 ≤ place) :
    store memory address word place = memory place := by
  rw [store, storeBytes, bytesOf_length, if_neg]
  omega

theorem bytesAt_storeBytes (memory : Memory) (address : ℕ)
    (data : List UInt8) :
    bytesAt (storeBytes memory address data) address data.length = data := by
  apply List.ext_getElem
  · simp [bytesAt]
  · intro offset _ hoffset
    simp [bytesAt, storeBytes, hoffset]

theorem bytesAt_store_of_apart {n : ℕ} {memory : Memory}
    {address other size : ℕ} (word : BitVec n)
    (hapart : Apart address (n / 8) other size) :
    bytesAt (store memory address word) other size =
      bytesAt memory other size := by
  apply bytesAt_congr
  intro place hle hlt
  apply store_of_outside
  unfold Apart at hapart
  omega

theorem load_store_of_apart {n m : ℕ} {memory : Memory}
    {address other : ℕ} (word : BitVec n)
    (hapart : Apart address (n / 8) other (m / 8)) :
    load m (store memory address word) other = load m memory other := by
  rw [load, load, bytesAt_store_of_apart word hapart]

theorem load_store {n : ℕ} (hbytes : 8 * (n / 8) = n) (memory : Memory)
    (address : ℕ) (word : BitVec n) :
    load n (store memory address word) address = word := by
  have hdata := bytesAt_storeBytes memory address (bytesOf word)
  rw [bytesOf_length] at hdata
  rw [load, store, hdata, wordOf_bytesOf hbytes]

/-! ## Strings -/

/-- `strcmp` of the string at an address and one that has no zero byte. -/
def strcmp (memory : Memory) (address : ℕ) : List UInt8 → ℤ
  | [] => (memory address).toNat
  | char :: rest =>
      if memory address = char then
        strcmp memory (address + 1) rest
      else
        (memory address).toNat - char.toNat

theorem bytesAt_succ (memory : Memory) (address size : ℕ) :
    bytesAt memory address (size + 1) =
      memory address :: bytesAt memory (address + 1) size := by
  rw [bytesAt, List.range_succ_eq_map, List.map_cons, List.map_map, bytesAt]
  congr 1
  apply List.map_congr_left
  intro offset _
  simp only [Function.comp_apply, Nat.succ_eq_add_one]
  rw [Nat.add_right_comm, Nat.add_assoc]

theorem toNat_sub_eq_zero_iff {left right : UInt8} :
    (left.toNat : ℤ) - right.toNat = 0 ↔ left = right := by
  rw [← UInt8.toNat_inj]
  omega

/-- Strings compare equal when they are equal. -/
theorem strcmp_eq_zero_iff {memory : Memory} {address : ℕ}
    {left right : List UInt8} (hleft : 0 ∉ left) (hright : 0 ∉ right)
    (hmemory : bytesAt memory address (left.length + 1) = left ++ [0]) :
    strcmp memory address right = 0 ↔ left = right := by
  induction right generalizing left address with
  | nil =>
      cases left with
      | nil =>
          rw [List.length_nil, bytesAt_succ, List.nil_append,
            List.cons.injEq] at hmemory
          simp [strcmp, hmemory.1]
      | cons first others =>
          rw [List.length_cons, bytesAt_succ, List.cons_append,
            List.cons.injEq] at hmemory
          have hfirst : first ≠ 0 := fun hzero =>
            hleft (hzero ▸ List.mem_cons_self ..)
          have hcompare := @toNat_sub_eq_zero_iff first 0
          simp only [UInt8.toNat_zero, Nat.cast_zero, sub_zero] at hcompare
          rw [strcmp, hmemory.1, hcompare]
          simp [hfirst]
  | cons char rest ih =>
      have hrest : 0 ∉ rest := fun hmem =>
        hright (List.mem_cons_of_mem _ hmem)
      cases left with
      | nil =>
          rw [List.length_nil, bytesAt_succ, List.nil_append,
            List.cons.injEq] at hmemory
          have hchar : 0 ≠ char := fun hzero =>
            hright (hzero ▸ List.mem_cons_self ..)
          rw [strcmp, hmemory.1, if_neg hchar, toNat_sub_eq_zero_iff]
          simp [hchar]
      | cons first others =>
          rw [List.length_cons, bytesAt_succ, List.cons_append,
            List.cons.injEq] at hmemory
          have hothers : 0 ∉ others := fun hmem =>
            hleft (List.mem_cons_of_mem _ hmem)
          rw [strcmp, hmemory.1]
          by_cases hsame : first = char
          · rw [if_pos hsame, ih hothers hrest hmemory.2, hsame]
            simp
          · rw [if_neg hsame, toNat_sub_eq_zero_iff]
            simp [hsame]

end ByteMemory
