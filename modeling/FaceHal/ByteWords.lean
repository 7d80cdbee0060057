import Mathlib.Algebra.Group.Nat.Defs
import Mathlib.Data.List.Basic
import Mathlib.Tactic.Common

/-!
# Little-endian words in byte buffers

`memcpy` of a 32-bit field into or out of a `std::vector<uint8_t>`, on the
little-endian targets of the service.
-/
namespace FaceHal

abbrev Bytes := List UInt8

/-- The four bytes of a word, least significant first. -/
def wordBytes (w : UInt32) : Bytes :=
  [UInt8.ofNat w.toNat, UInt8.ofNat (w.toNat / 2 ^ 8), UInt8.ofNat (w.toNat / 2 ^ 16),
    UInt8.ofNat (w.toNat / 2 ^ 24)]

/-- The word in the four bytes at an offset. -/
def readWord (data : Bytes) (offset : ℕ) : UInt32 :=
  let byte (i : ℕ) : ℕ := (data.getD (offset + i) 0).toNat
  UInt32.ofNat (byte 0 + 2 ^ 8 * byte 1 + 2 ^ 16 * byte 2 + 2 ^ 24 * byte 3)

@[simp] theorem length_wordBytes (w : UInt32) : (wordBytes w).length = 4 := rfl

/-- Reading past a prefix is reading the rest from its start. -/
theorem readWord_append_left (pre data : Bytes) (k : ℕ) :
    readWord (pre ++ data) (pre.length + k) = readWord data k := by
  simp only [readWord, List.getD_eq_getElem?_getD, Nat.add_assoc,
    List.getElem?_append_right (Nat.le_add_right _ _), Nat.add_sub_cancel_left]

theorem readWord_skip (w : UInt32) (data : Bytes) (k : ℕ) :
    readWord (wordBytes w ++ data) (k + 4) = readWord data k := by
  rw [Nat.add_comm]
  exact readWord_append_left (wordBytes w) data k

theorem readWord_wordBytes (w : UInt32) (rest : Bytes) : readWord (wordBytes w ++ rest) 0 = w := by
  have hw := w.toNat_lt
  apply UInt32.toNat_inj.mp
  simp only [readWord, wordBytes, List.cons_append, List.nil_append, List.getD_cons_zero,
    List.getD_cons_succ, Nat.zero_add, UInt8.toNat_ofNat', UInt32.toNat_ofNat']
  omega

/-- A word is determined by, and determines, the bytes it is read from. -/
theorem wordBytes_readWord (data : Bytes) (offset : ℕ) (h : offset + 4 ≤ data.length) :
    wordBytes (readWord data offset) = (data.drop offset).take 4 := by
  obtain ⟨b₀, b₁, b₂, b₃, rest, hd⟩ : ∃ b₀ b₁ b₂ b₃ rest,
      data.drop offset = b₀ :: b₁ :: b₂ :: b₃ :: rest := by
    have hl : 4 ≤ (data.drop offset).length := by simp only [List.length_drop]; omega
    match data.drop offset, hl with
    | b₀ :: b₁ :: b₂ :: b₃ :: rest, _ => exact ⟨b₀, b₁, b₂, b₃, rest, rfl⟩
  have hr : readWord data offset = readWord (data.drop offset) 0 := by
    simp only [readWord, List.getD_eq_getElem?_getD, List.getElem?_drop, Nat.zero_add]
  rw [hr, hd]
  have h₀ := b₀.toNat_lt
  have h₁ := b₁.toNat_lt
  have h₂ := b₂.toNat_lt
  have h₃ := b₃.toNat_lt
  simp only [readWord, wordBytes, List.getD_cons_zero, List.getD_cons_succ, Nat.zero_add,
    UInt32.toNat_ofNat', List.take_succ_cons, List.take_zero, List.cons.injEq, and_true]
  refine ⟨?_, ?_, ?_, ?_⟩ <;>
  · apply UInt8.toNat_inj.mp
    rw [UInt8.toNat_ofNat']
    omega

end FaceHal
