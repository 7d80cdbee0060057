import Mathlib.Algebra.Group.Int.Defs
import Mathlib.Data.List.Infix
import Mathlib.Tactic.Common

/-!
# Decimal text of 32-bit integers

`std::to_string` prints an `int32_t` in decimal and `sscanf` reads one back with
`%d`. File names are lists of characters here. The scanner follows the C
library: it skips white space, takes an optional sign and then the longest run of
digits; characters after the conversion do not change the value it assigned.
-/
namespace FaceHal

abbrev Text := List Char

/-- `std::to_string` of an `int32_t`. -/
def toDecimal (i : Int32) : Text :=
  match i.toInt with
  | .ofNat n => Nat.toDigits 10 n
  | .negSucc n => '-' :: Nat.toDigits 10 (n + 1)

/-- `isspace` in the C locale. -/
def isSpace (c : Char) : Bool :=
  c == ' ' || c == '\t' || c == '\n' || c == '\r' || c.toNat == 11 || c.toNat == 12

def scanDigits (s : Text) : Option Nat :=
  match s.takeWhile Char.isDigit with
  | [] => none
  | digits => some (Nat.ofDigitChars 10 digits 0)

/-- The integer that `%d` converts at the start of the text, if there is one. -/
def scanInt (s : Text) : Option Int :=
  match s.dropWhile isSpace with
  | '-' :: rest => (scanDigits rest).map fun n => -(n : Int)
  | '+' :: rest => (scanDigits rest).map fun n => (n : Int)
  | rest => (scanDigits rest).map fun n => (n : Int)

/-- A format with one `%d`: the text before the conversion and the text after. -/
structure IntFormat where
  before : Text
  after : Text

/-- `sscanf` with one `%d`: what it stores through the pointer. The digits are
read as an `intmax_t`, which saturates, and then stored as an `int`. The text
after the conversion is compared only when the value is already stored. -/
def sscanf (s : Text) (fmt : IntFormat) : Option Int32 :=
  if fmt.before.isPrefixOf s then
    (scanInt (s.drop fmt.before.length)).map fun v =>
      Int32.ofInt (max (-2 ^ 63) (min v (2 ^ 63 - 1)))
  else none

theorem scanDigits_toDigits (n : Nat) {rest : Text}
    (h : ∀ c ∈ rest.head?, c.isDigit = false) :
    scanDigits (Nat.toDigits 10 n ++ rest) = some n := by
  have hd : ∀ c ∈ Nat.toDigits 10 n, c.isDigit = true :=
    fun c hc => Nat.isDigit_of_mem_toDigits (by decide) (by decide) hc
  have hr : rest.takeWhile Char.isDigit = [] := by
    cases rest with
    | nil => rfl
    | cons c cs => simp [h c (by simp)]
  unfold scanDigits
  rw [List.takeWhile_append_of_pos hd, hr, List.append_nil]
  cases hx : Nat.toDigits 10 n with
  | nil => exact absurd hx Nat.toDigits_ne_nil
  | cons c cs =>
      simp only [Option.some.injEq]
      rw [← hx, Nat.ofDigitChars_ten_toDigits]

theorem scanInt_of_digit {c : Char} {cs : Text} (h : c.isDigit = true) :
    scanInt (c :: cs) = (scanDigits (c :: cs)).map fun n => (n : Int) := by
  have hs : isSpace c = false := by
    have hc : 48 ≤ c.toNat ∧ c.toNat ≤ 57 := Char.isDigit_iff_toNat.mp h
    simp only [isSpace, Bool.or_eq_false_iff, beq_eq_false_iff_ne, ne_eq]
    refine ⟨⟨⟨⟨⟨?_, ?_⟩, ?_⟩, ?_⟩, by omega⟩, by omega⟩ <;>
    · rintro rfl
      simp at h
  unfold scanInt
  rw [List.dropWhile_cons, hs]
  simp only [Bool.false_eq_true, ↓reduceIte]
  split
  · next hc =>
      obtain ⟨rfl, -⟩ := List.cons.inj hc
      simp at h
  · next hc =>
      obtain ⟨rfl, -⟩ := List.cons.inj hc
      simp at h
  · rfl

/-- Scanning what was printed gives the number back, whatever follows it that is
not a digit. -/
theorem scanInt_toDecimal (i : Int32) {rest : Text}
    (h : ∀ c ∈ rest.head?, c.isDigit = false) :
    scanInt (toDecimal i ++ rest) = some i.toInt := by
  unfold toDecimal
  split
  · next n hn =>
      obtain ⟨c, cs, hc⟩ := List.exists_cons_of_ne_nil (Nat.toDigits_ne_nil (n := n) (b := 10))
      have hd : c.isDigit = true :=
        Nat.isDigit_of_mem_toDigits (by decide) (by decide)
          (show c ∈ Nat.toDigits 10 n by simp [hc])
      have hs := scanDigits_toDigits n h
      rw [hc, List.cons_append] at hs ⊢
      rw [scanInt_of_digit hd, hs, hn]
      rfl
  · next n hn =>
      have hs := scanDigits_toDigits (n + 1) h
      rw [hn, List.cons_append]
      simp only [scanInt, List.dropWhile_cons, show isSpace '-' = false from rfl,
        Bool.false_eq_true, ↓reduceIte, hs]
      rfl

theorem sscanf_toDecimal (i : Int32) (before after : Text) {rest : Text}
    (h : ∀ c ∈ rest.head?, c.isDigit = false) :
    sscanf (before ++ (toDecimal i ++ rest)) ⟨before, after⟩ = some i := by
  have hlo := i.le_toInt
  have hhi := i.toInt_lt
  have hc : max (-2 ^ 63) (min i.toInt (2 ^ 63 - 1)) = i.toInt := by omega
  have hp : before.isPrefixOf (before ++ (toDecimal i ++ rest)) = true := by simp
  unfold sscanf
  rw [if_pos hp, List.drop_left, scanInt_toDecimal i h, Option.map_some, hc, Int32.ofInt_toInt]

/-- Printed numbers are told apart by what they print. -/
theorem toDecimal_append_inj {i j : Int32} {r s : Text}
    (hr : ∀ c ∈ r.head?, c.isDigit = false) (hs : ∀ c ∈ s.head?, c.isDigit = false)
    (h : toDecimal i ++ r = toDecimal j ++ s) : i = j ∧ r = s := by
  have hi := scanInt_toDecimal i hr
  rw [h, scanInt_toDecimal j hs, Option.some.injEq, Int32.toInt_inj] at hi
  subst hi
  exact ⟨rfl, List.append_cancel_left h⟩

example : sscanf "face_-12.dat".toList ⟨"face_".toList, ".dat".toList⟩ = some (-12) := by decide

end FaceHal
