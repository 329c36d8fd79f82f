import Mathlib

set_option autoImplicit false

/- `size_t` arithmetic on a 64-bit machine and little-endian 32-bit words. -/
namespace Words

def sizeRange : Nat := 2 ^ 64

/-- `a + b` on `size_t`. -/
def addSize (a b : Nat) : Nat := (a + b) % sizeRange

/-- `a - b` on `size_t`; it wraps below zero. -/
def subSize (a b : Nat) : Nat := (a + sizeRange - b) % sizeRange

theorem addSize_eq {a b : Nat} (fits : a + b < sizeRange) : addSize a b = a + b :=
  Nat.mod_eq_of_lt fits

theorem subSize_eq {a b : Nat} (ordered : b ≤ a) (fits : a < sizeRange) :
    subSize a b = a - b := by
  unfold subSize
  rw [show a + sizeRange - b = (a - b) + sizeRange by omega, Nat.add_mod_right]
  exact Nat.mod_eq_of_lt (by omega)

/-- `static_cast<int>` of a non-negative count. -/
def toInt32 (n : Nat) : Int := Int.bmod n (2 ^ 32)

theorem toInt32_eq {n : Nat} (fits : n < 2 ^ 31) : toInt32 n = n := by
  unfold toInt32
  exact Int.bmod_eq_of_le (by omega) (by omega)

/-- The four bytes of a 32-bit word, lowest first. -/
def bytesLE (word : Nat) : List UInt8 :=
  [UInt8.ofNat word, UInt8.ofNat (word >>> 8), UInt8.ofNat (word >>> 16), UInt8.ofNat (word >>> 24)]

/-- The word whose bytes these are, lowest first. -/
def wordLE (b0 b1 b2 b3 : UInt8) : Nat :=
  b0.toNat ||| b1.toNat <<< 8 ||| b2.toNat <<< 16 ||| b3.toNat <<< 24

@[simp] theorem bytesLE_length (word : Nat) : (bytesLE word).length = 4 := rfl

private theorem or_shiftLeft (low high width : Nat) (small : low < 2 ^ width) :
    low ||| high <<< width = low + high * 2 ^ width := by
  rw [Nat.or_comm, ← Nat.shiftLeft_add_eq_or_of_lt small, Nat.shiftLeft_eq, Nat.add_comm]

theorem wordLE_eq (b0 b1 b2 b3 : UInt8) :
    wordLE b0 b1 b2 b3 =
      b0.toNat + b1.toNat * 2 ^ 8 + b2.toNat * 2 ^ 16 + b3.toNat * 2 ^ 24 := by
  have h0 := b0.toNat_lt
  have h1 := b1.toNat_lt
  have h2 := b2.toNat_lt
  unfold wordLE
  rw [or_shiftLeft _ _ 8 (by omega), or_shiftLeft _ _ 16 (by omega),
    or_shiftLeft _ _ 24 (by omega)]

theorem bytesLE_wordLE (b0 b1 b2 b3 : UInt8) :
    bytesLE (wordLE b0 b1 b2 b3) = [b0, b1, b2, b3] := by
  have h0 := b0.toNat_lt
  have h1 := b1.toNat_lt
  have h2 := b2.toNat_lt
  have h3 := b3.toNat_lt
  simp only [bytesLE, wordLE_eq, Nat.shiftRight_eq_div_pow, List.cons.injEq, and_true]
  refine ⟨?_, ?_, ?_, ?_⟩ <;> apply UInt8.toNat_inj.mp <;> simp only [UInt8.toNat_ofNat'] <;> omega

theorem wordLE_bytesLE (word : Nat) (fits : word < 2 ^ 32) :
    wordLE (UInt8.ofNat word) (UInt8.ofNat (word >>> 8)) (UInt8.ofNat (word >>> 16))
      (UInt8.ofNat (word >>> 24)) = word := by
  rw [wordLE_eq]
  simp only [UInt8.toNat_ofNat', Nat.shiftRight_eq_div_pow]
  omega

end Words
