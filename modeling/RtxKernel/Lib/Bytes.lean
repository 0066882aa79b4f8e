import Mathlib.Logic.Function.Basic

/-!
# Byte-addressed memory

A memory is a map from addresses to bytes; 32-bit words are stored big-endian in four consecutive
bytes. A word that was written is read back (`read32_write32`), and a write changes nothing outside
the bytes it covers (`write32_frame`, `fill_frame`).
-/

namespace RtxKernel

abbrev Memory := Nat → UInt8

/-- The word in the four bytes from `a` on. -/
def read32 (m : Memory) (a : Nat) : UInt32 :=
  UInt32.ofNat ((m a).toNat * 0x1000000 + (m (a + 1)).toNat * 0x10000 + (m (a + 2)).toNat * 0x100
    + (m (a + 3)).toNat)

/-- Store the word `w` in the four bytes from `a` on. -/
def write32 (m : Memory) (a : Nat) (w : UInt32) : Memory := fun x =>
  if x = a then UInt8.ofNat (w.toNat / 0x1000000)
  else if x = a + 1 then UInt8.ofNat (w.toNat / 0x10000)
  else if x = a + 2 then UInt8.ofNat (w.toNat / 0x100)
  else if x = a + 3 then UInt8.ofNat w.toNat
  else m x

/-- `for (i = 0; i < n; i++) *(BYTE *)(a + i) = v;` -/
def fill (m : Memory) (a : Nat) (n : Nat) (v : UInt8) : Memory := fun x =>
  if a ≤ x ∧ x < a + n then v else m x

variable {m m' : Memory} {a b x n : Nat} {v : UInt8} {w : UInt32}

@[simp] theorem read32_write32 : read32 (write32 m a w) a = w := by
  have hw := w.toNat_lt
  rw [← UInt32.toNat_inj]
  simp [read32, write32]
  omega

lemma read32_congr (h : ∀ x, a ≤ x → x < a + 4 → m x = m' x) : read32 m a = read32 m' a := by
  simp only [read32, h a (by omega) (by omega), h (a + 1) (by omega) (by omega),
    h (a + 2) (by omega) (by omega), h (a + 3) (by omega) (by omega)]

lemma write32_frame (h : x < a ∨ a + 4 ≤ x) : write32 m a w x = m x := by
  simp only [write32, show x ≠ a by omega, show x ≠ a + 1 by omega, show x ≠ a + 2 by omega,
    show x ≠ a + 3 by omega, if_false]

lemma fill_frame (h : x < a ∨ a + n ≤ x) : fill m a n v x = m x := by
  rw [fill, if_neg (by omega)]

lemma fill_self (h : a ≤ x) (h' : x < a + n) : fill m a n v x = v := by
  rw [fill, if_pos ⟨h, h'⟩]

/-- A word in a zeroed area. -/
lemma read32_fill_zero (h : a ≤ b) (h' : b + 4 ≤ a + n) : read32 (fill m a n 0) b = 0 := by
  simp only [read32, fill_self (show a ≤ b by omega) (show b < a + n by omega),
    fill_self (show a ≤ b + 1 by omega) (show b + 1 < a + n by omega),
    fill_self (show a ≤ b + 2 by omega) (show b + 2 < a + n by omega),
    fill_self (show a ≤ b + 3 by omega) (show b + 3 < a + n by omega)]
  rfl

/-- A write elsewhere does not change a word. -/
lemma read32_write32_of_disjoint (h : b + 4 ≤ a ∨ a + 4 ≤ b) :
    read32 (write32 m a w) b = read32 m b :=
  read32_congr fun _ _ _ => write32_frame (by omega)

lemma read32_update_of_disjoint (h : x < b ∨ b + 4 ≤ x) :
    read32 (Function.update m x v) b = read32 m b :=
  read32_congr fun _ _ _ => Function.update_of_ne (by omega) _ _

end RtxKernel
