import FaceHal.TemplateDecoding
import Mathlib.Data.List.Basic
import Mathlib.Data.UInt

/-!
# What the checksum detects by itself

One step of FNV-1a is injective in the hash, because the multiplier is odd, and in
the byte. So a difference in one byte is carried through the rest of the bytes
whatever they are. For a serialized template this leaves the bytes that decide how
much is summed: those of the version and of the size field, which the parser
compares with something else.
-/
namespace FaceHal

section fold
variable {α β : Type} {f : α → β → α}

/-- Steps that are injective in the accumulator lose no difference. -/
theorem foldl_injective (hf : ∀ b, Function.Injective fun a => f a b) (l : List β) :
    Function.Injective fun a => l.foldl f a := by
  induction l with
  | nil => exact Function.injective_id
  | cons b rest ih => exact ih.comp (hf b)

/-- If they are injective in the element too, one other element changes the result. -/
theorem foldl_set_ne (hacc : ∀ b, Function.Injective fun a => f a b)
    (helem : ∀ a, Function.Injective (f a)) {l : List β} {i : ℕ} {x y : β} (hi : l[i]? = some x)
    (hne : y ≠ x) (a : α) : (l.set i y).foldl f a ≠ l.foldl f a := by
  induction l generalizing i a with
  | nil => cases hi
  | cons b rest ih =>
      cases i with
      | zero =>
          obtain rfl : b = x := Option.some.inj hi
          intro h
          exact hne (helem a (foldl_injective hacc rest h))
      | succ i => exact ih hi (f a b)

theorem eq_set_of_existsUnique {l m : List β} (hlen : l.length = m.length)
    (h : ∃! i : ℕ, l[i]? ≠ m[i]?) :
    ∃ i x y, l[i]? = some x ∧ y ≠ x ∧ m = l.set i y := by
  obtain ⟨i, hi, honly⟩ := h
  have hlt : i < l.length := by
    by_contra hge
    rw [not_lt] at hge
    refine hi ?_
    rw [List.getElem?_eq_none hge, List.getElem?_eq_none (by omega)]
  have hlt' : i < m.length := by omega
  refine ⟨i, l[i], m[i], List.getElem?_eq_getElem hlt, ?_, ?_⟩
  · intro heq
    rw [List.getElem?_eq_getElem hlt, List.getElem?_eq_getElem hlt', heq] at hi
    exact hi rfl
  · refine List.ext_getElem? fun j => ?_
    by_cases hj : i = j
    · subst hj
      rw [List.getElem?_set_self hlt, List.getElem?_eq_getElem hlt']
    · rw [List.getElem?_set_ne hj]
      by_contra hdiff
      exact hj (honly j fun heq => hdiff heq.symm).symm

end fold

section words
variable {data : Bytes} {i offset : ℕ} {b x : UInt8}

theorem readWord_set_of_outside (h : i < offset ∨ offset + 4 ≤ i) :
    readWord (data.set i b) offset = readWord data offset := by
  have hget : ∀ j, j < 4 → (data.set i b).getD (offset + j) 0 = data.getD (offset + j) 0 := by
    intro j hj
    simp only [List.getD_eq_getElem?_getD]
    rw [List.getElem?_set_ne (by omega)]
  simp only [readWord]
  rw [hget 0 (by omega), hget 1 (by omega), hget 2 (by omega), hget 3 (by omega)]

theorem readWord_set_of_inside (hi : data[i]? = some x) (hb : b ≠ x) (hle : offset ≤ i)
    (hlt : i < offset + 4) (hend : offset + 4 ≤ data.length) :
    readWord (data.set i b) offset ≠ readWord data offset := by
  intro h
  have hbytes : ((data.set i b).drop offset).take 4 = (data.drop offset).take 4 := by
    rw [← wordBytes_readWord data offset hend, ← h,
      wordBytes_readWord _ offset (by rw [List.length_set]; exact hend)]
  have hlen : i < data.length := (List.getElem?_eq_some_iff.mp hi).choose
  have hget := congrArg (fun l : Bytes => l[i - offset]?) hbytes
  simp only [List.getElem?_take_of_lt (show i - offset < 4 by omega), List.getElem?_drop,
    Nat.add_sub_cancel' hle, List.getElem?_set_self hlen, hi] at hget
  exact hb (Option.some.inj hget)

end words

namespace FaceTemplateSerializer
open Program

/-- Multiplication by the FNV prime, which is odd, can be undone. -/
theorem mulPrime_injective : Function.Injective fun x : UInt32 => x * 16777619 := by
  have hinverse : ∀ x : UInt32, x * 16777619 * 899433627 = x := by
    intro x
    rw [UInt32.mul_assoc, show (16777619 : UInt32) * 899433627 = 1 by decide, UInt32.mul_one]
  intro a b h
  rw [← hinverse a, ← hinverse b]
  exact congrArg (· * 899433627) h

theorem checksumStep_injective (byte : UInt8) :
    Function.Injective fun hash : UInt32 => (hash ^^^ byte.toUInt32) * 16777619 := by
  intro a b h
  exact (UInt32.xor_left_inj byte.toUInt32).mp (mulPrime_injective h)

theorem checksumStep_injective_byte (hash : UInt32) :
    Function.Injective fun byte : UInt8 => (hash ^^^ byte.toUInt32) * 16777619 := by
  intro a b h
  exact UInt8.toUInt32_inj.mp ((UInt32.xor_right_inj hash).mp (mulPrime_injective h))

theorem calculateChecksum_set_ne {data : Bytes} {i : ℕ} {b x : UInt8} (hi : data[i]? = some x)
    (hb : b ≠ x) : calculateChecksum (data.set i b) ≠ calculateChecksum data :=
  foldl_set_ne checksumStep_injective checksumStep_injective_byte hi hb 2166136261

/-- Sequences of one length that differ in one byte have different checksums. -/
theorem calculateChecksum_ne {a b : Bytes} (hlen : a.length = b.length)
    (h : ∃! i : ℕ, a[i]? ≠ b[i]?) : calculateChecksum a ≠ calculateChecksum b := by
  obtain ⟨i, x, y, hi, hne, rfl⟩ := eq_set_of_existsUnique hlen h
  exact (calculateChecksum_set_ne hi hne).symm

section corrupted
variable {t : FaceTemplate} {mac storedMac : Bytes} {i : ℕ} {b x : UInt8}

theorem readWord_checksum (t : FaceTemplate) (mac : Bytes) :
    readWord (payload t ++ mac) (header t).length = calculateChecksum (header t) := by
  rw [payload, List.append_assoc, ← Nat.add_zero (header t).length, readWord_append_left]
  exact readWord_wordBytes _ _

/-- With a byte before the MAC changed, no template is read. -/
theorem decodeFields_corrupted (hmac : mac.length = macSize)
    (hi : (payload t ++ mac)[i]? = some x) (hlt : i < (payload t).length) (hb : b ≠ x) :
    decodeFields t.version ((payload t ++ mac).set i b) storedMac = none := by
  obtain ⟨hversion, -, -, hsize⟩ := readWord_payload t mac
  have hheader := length_header t
  have hpayload := length_payload t
  have hlength : (payload t ++ mac).length =
      52 + (UInt32.ofNat t.templateData.length).toNat := by
    rw [List.length_append, hpayload, hmac]
    simp only [macSize]
    omega
  unfold decodeFields
  refine if_neg ?_
  rintro ⟨hv, hl, hc⟩
  by_cases hver : i < 4
  · -- another version
    rw [← hversion] at hv
    exact readWord_set_of_inside hi hb (Nat.zero_le _) (by omega) (by omega) hv
  by_cases hlen : 12 ≤ i ∧ i < 16
  · -- another size, which the length of the input contradicts
    rw [List.length_set, hlength] at hl
    simp only [minSize, macSize] at hl
    refine readWord_set_of_inside hi hb hlen.1 (by omega) (by omega) ?_
    rw [hsize]
    exact UInt32.toNat_inj.mp (by omega)
  have hkept : readWord ((payload t ++ mac).set i b) 12 =
      UInt32.ofNat t.templateData.length := by
    rw [readWord_set_of_outside (by omega), hsize]
  have hsummed : (payload t ++ mac).take (header t).length = header t := by
    rw [payload, List.append_assoc, List.take_left]
  rw [hkept, ← hheader, List.take_set, hsummed] at hc
  by_cases hsum : i < (header t).length
  · -- another byte under the same checksum
    rw [readWord_set_of_outside (.inl hsum), readWord_checksum] at hc
    refine calculateChecksum_set_ne ?_ hb hc.symm
    rw [← hsummed, List.getElem?_take_of_lt hsum]
    exact hi
  · -- another checksum
    rw [List.set_eq_of_length_le (not_lt.mp hsum), ← readWord_checksum t mac] at hc
    exact readWord_set_of_inside hi hb (not_lt.mp hsum) (by omega) (by omega) hc

end corrupted

/-- Keystore may give any MAC of 256 bits or none, and verification may accept or
reject anything. -/
def anyVerdict (currentVersion : UInt32) : Environment StorageI Unit
  | .generateMac _, _, r, _ => r = [] ∨ r.length = macSize
  | .currentVersion, _, r, _ => r = currentVersion
  | _, _, _, _ => True

theorem anyVerdict_total (v : UInt32) (c : StorageCall) (s : Unit) :
    ∃ r t, anyVerdict v c s r t := by
  refine ⟨(answer { toyCrypto.toCrypto with currentVersion := v } 0 c .empty).1, (), ?_⟩
  cases c with
  | generateMac d =>
      by_cases hd : d = []
      · exact .inl (if_pos hd)
      · exact .inr ((congrArg List.length (if_neg hd)).trans (toyCrypto.length_mac d))
  | currentVersion => rfl
  | _ => trivial

/-- Whatever the verdict on the MAC is, the parser rejects what it cannot decode. -/
theorem wp_deserialize_anyVerdict {v : UInt32} {data : Bytes} {out : FaceTemplate}
    (h : ∀ storedMac, decodeFields v data storedMac = none) :
    (deserialize data out).wp (anyVerdict v) (fun r _ => r.1 = false) () := by
  unfold deserialize
  split_ifs
  · exact rfl
  · intro verified _ _
    cases verified with
    | false => exact rfl
    | true =>
        rintro version _ rfl
        have hnone := outcome_readFields version data (data.drop (data.length - macSize)) out
        rw [h] at hnone
        change (readFields version data (data.drop (data.length - macSize)) out).1 = false
        by_contra hok
        rw [Bool.not_eq_false] at hok
        simp [outcome, hok] at hnone

theorem wp_serialize_anyVerdict {v : UInt32} {t : FaceTemplate} {Q : Bytes → Prop} (hnil : Q [])
    (hpayload : ∀ mac : Bytes, mac.length = macSize → Q (payload t ++ mac)) :
    (serialize t).wp (anyVerdict v) (fun d _ => Q d) () := by
  unfold serialize
  dsimp only
  rw [invoke_bind]
  rintro mac _ (rfl | hmac)
  · exact hnil
  · have hne : mac ≠ [] := by
      rintro rfl
      cases hmac
    dsimp only
    rw [if_neg hne]
    exact hpayload mac hmac

/-- One changed byte changes the checksum. So in what is serialized for a template of
the current version no byte before the MAC can change without the parser noticing,
however the verification of the MAC ends. -/
theorem corruption_detected :
    (∀ a b : Bytes, a.length = b.length → (∃! i : ℕ, a[i]? ≠ b[i]?) →
      calculateChecksum a ≠ calculateChecksum b) ∧
    ∀ t : FaceTemplate, (serialize t).returns (anyVerdict t.version) (fun d _ =>
      ∀ (i : ℕ) (x b : UInt8), i < d.length - macSize → d[i]? = some x → b ≠ x → ∀ out,
        (deserialize (d.set i b) out).returns (anyVerdict t.version) (fun r _ => r.1 = false) ())
      () := by
  refine ⟨fun a b hlen h => calculateChecksum_ne hlen h, fun t => ?_⟩
  refine ⟨exists_run (anyVerdict_total t.version) _ _, wp_serialize_anyVerdict ?_ ?_⟩
  · intro i x b hi
    cases hi
  · intro mac hmac i x b hlt hi hb out
    rw [List.length_append, hmac, Nat.add_sub_cancel] at hlt
    exact ⟨exists_run (anyVerdict_total t.version) _ _,
      wp_deserialize_anyVerdict fun _ => decodeFields_corrupted hmac hi hlt hb⟩

/-- A template of five bytes. -/
def fiveBytes : FaceTemplate := ⟨1, 2, 0, [10, 20, 30, 40, 50], 0, []⟩

/-- One byte of several, and then one inside a serialized template: the third of the data. -/
theorem corruption_detected_inside :
    calculateChecksum [10, 20, 30, 40, 50] ≠ calculateChecksum [10, 20, 31, 40, 50] ∧
    ∃ d, Run (anyVerdict 1) (serialize fiveBytes) () d () ∧ d[18]? = some 30 ∧
      ∀ out, (deserialize (d.set 18 31) out).returns (anyVerdict 1) (fun r _ => r.1 = false) () := by
  refine ⟨corruption_detected.1 _ _ rfl ⟨2, by decide, fun i hi => ?_⟩, ?_⟩
  · match i with
    | 2 => rfl
    | 0 | 1 | 3 | 4 | i + 5 => exact absurd rfl hi
  · have hrun : Run (anyVerdict 1) (serialize fiveBytes) ()
        (payload fiveBytes ++ List.replicate macSize 0) () :=
      .call (r := List.replicate macSize 0) (.inr rfl) (.done _ _)
    exact ⟨_, hrun, by decide,
      hrun.wp (corruption_detected.2 fiveBytes).2 18 30 31 (by decide) (by decide) (by decide)⟩

end FaceTemplateSerializer
end FaceHal
