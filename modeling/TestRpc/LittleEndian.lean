import Mathlib.Tactic

/-!
# Little-endian words

A machine word of `n` bits is stored as `n / 8` bytes, least significant byte
first, and is read back from them.  The two directions are inverse to each
other on words whose size is a whole number of bytes, which is all that a
`memcpy` from a variable and a later `memcpy` into one rely on.
-/

namespace LittleEndian

/-- The `width` low bytes of a number. -/
def digits : ℕ → ℕ → List UInt8
  | 0, _ => []
  | width + 1, value => UInt8.ofNat value :: digits width (value / 256)

def number : List UInt8 → ℕ
  | [] => 0
  | byte :: rest => byte.toNat + 256 * number rest

def bytesOf {n : ℕ} (word : BitVec n) : List UInt8 :=
  digits (n / 8) word.toNat

def wordOf (n : ℕ) (bytes : List UInt8) : BitVec n :=
  BitVec.ofNat n (number bytes)

@[simp] theorem digits_length (width value : ℕ) :
    (digits width value).length = width := by
  induction width generalizing value with
  | zero => rfl
  | succ width ih => simp [digits, ih]

@[simp] theorem bytesOf_length {n : ℕ} (word : BitVec n) :
    (bytesOf word).length = n / 8 := by
  simp [bytesOf]

theorem number_digits (width value : ℕ) :
    number (digits width value) = value % 256 ^ width := by
  induction width generalizing value with
  | zero => simp [digits, number, Nat.mod_one]
  | succ width ih =>
      have hbyte : (UInt8.ofNat value).toNat = value % 256 := by
        simp [UInt8.toNat_ofNat']
      simp only [digits, number, hbyte, ih]
      rw [pow_succ', Nat.mod_mul]

theorem number_lt (bytes : List UInt8) :
    number bytes < 256 ^ bytes.length := by
  induction bytes with
  | nil => simp [number]
  | cons byte rest ih =>
      have hbyte : byte.toNat < 256 := byte.toNat_lt
      rw [List.length_cons, pow_succ', number]
      omega

theorem number_injective_of_length_eq :
    ∀ {left right : List UInt8}, left.length = right.length →
      number left = number right → left = right
  | [], [], _, _ => rfl
  | [], _ :: _, hlength, _ => by simp at hlength
  | _ :: _, [], hlength, _ => by simp at hlength
  | a :: left, b :: right, hlength, hnumber => by
      have ha : a.toNat < 256 := a.toNat_lt
      have hb : b.toNat < 256 := b.toNat_lt
      simp only [number] at hnumber
      have hhead : a.toNat = b.toNat := by omega
      have htail : number left = number right := by omega
      rw [UInt8.toNat_inj.mp hhead,
        number_injective_of_length_eq (by simpa using hlength) htail]

@[simp] theorem wordOf_bytesOf {n : ℕ} (hbytes : 8 * (n / 8) = n)
    (word : BitVec n) :
    wordOf n (bytesOf word) = word := by
  have hsize : 256 ^ (n / 8) = 2 ^ n := by
    rw [show 256 = 2 ^ 8 by norm_num, ← pow_mul, hbytes]
  unfold wordOf bytesOf
  rw [number_digits, hsize, Nat.mod_eq_of_lt word.isLt]
  simp

/-- Different byte strings of a word's size hold different words. -/
theorem wordOf_injective {n : ℕ} (hbytes : 8 * (n / 8) = n)
    {left right : List UInt8}
    (hleft : left.length = n / 8) (hright : right.length = n / 8)
    (hword : wordOf n left = wordOf n right) :
    left = right := by
  have hsize : 256 ^ (n / 8) = 2 ^ n := by
    rw [show 256 = 2 ^ 8 by norm_num, ← pow_mul, hbytes]
  have hleftLt := number_lt left
  have hrightLt := number_lt right
  rw [hleft, hsize] at hleftLt
  rw [hright, hsize] at hrightLt
  apply number_injective_of_length_eq (hleft.trans hright.symm)
  have hnat := congrArg BitVec.toNat hword
  simpa [wordOf, Nat.mod_eq_of_lt hleftLt, Nat.mod_eq_of_lt hrightLt] using hnat

theorem bytesOf_wordOf {n : ℕ} (hbytes : 8 * (n / 8) = n)
    {bytes : List UInt8} (hlength : bytes.length = n / 8) :
    bytesOf (wordOf n bytes) = bytes :=
  wordOf_injective hbytes (bytesOf_length _) hlength (wordOf_bytesOf hbytes _)

end LittleEndian
