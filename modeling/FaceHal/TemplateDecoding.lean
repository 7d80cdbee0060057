import FaceHal.FaceStorageManager

/-!
# What the template parser accepts

`readFields` writes into an output template, but whatever it accepts does not
depend on what that template held before. `decode` is the parser as a partial
function of the bytes alone; the template it returns carries the fields of the
one that was serialized.
-/
namespace FaceHal

/-- The part of a template that the store is asked to keep. -/
structure TemplateRecord where
  version : UInt32
  faceId : Int32
  userId : Int32
  templateData : Bytes
deriving DecidableEq, Repr

def FaceTemplate.record (t : FaceTemplate) : TemplateRecord :=
  ⟨t.version, t.faceId, t.userId, t.templateData⟩

/-- The answer of a function that fills an output template and returns a flag. -/
def outcome (r : Bool × FaceTemplate) : Option FaceTemplate := if r.1 then some r.2 else none

@[simp] theorem outcome_true (t : FaceTemplate) : outcome (true, t) = some t := rfl
@[simp] theorem outcome_false (t : FaceTemplate) : outcome (false, t) = none := rfl

namespace FaceTemplateSerializer

/-- The template that `data` describes, if it is well formed for the version. -/
def decodeFields (currentVersion : UInt32) (data storedMac : Bytes) : Option FaceTemplate :=
  let templateSize := (readWord data 12).toNat
  if readWord data 0 = currentVersion ∧ data.length = minSize + templateSize ∧
      readWord data (16 + templateSize) = calculateChecksum (data.take (16 + templateSize)) then
    some ⟨readWord data 0, (readWord data 4).toInt32, (readWord data 8).toInt32,
      (data.drop 16).take templateSize, readWord data (16 + templateSize), storedMac⟩
  else none

theorem outcome_readFields (currentVersion : UInt32) (data storedMac : Bytes) (out : FaceTemplate) :
    outcome (readFields currentVersion data storedMac out) =
      decodeFields currentVersion data storedMac := by
  unfold readFields decodeFields
  by_cases hv : readWord data 0 = currentVersion
  · by_cases hl : data.length = minSize + (readWord data 12).toNat
    · by_cases hc : readWord data (16 + (readWord data 12).toNat) =
          calculateChecksum (data.take (16 + (readWord data 12).toNat))
      · simp [hv, hl, hc]
      · simp [hv, hl, hc]
    · simp [hv, hl]
  · simp [hv]

/-- The parser with a Keystore that answers. -/
def decode (C : Crypto) (data : Bytes) : Option FaceTemplate :=
  if data.length < minSize then none
  else if C.verifies (data.take (data.length - macSize)) (data.drop (data.length - macSize)) then
    decodeFields C.currentVersion data (data.drop (data.length - macSize))
  else none

@[simp] theorem decode_nil (C : Crypto) : decode C [] = none := by
  simp [decode, minSize]

theorem version_of_decode {C : Crypto} {data : Bytes} {t : FaceTemplate}
    (h : decode C data = some t) : t.version = C.currentVersion := by
  simp only [decode, decodeFields] at h
  split_ifs at h with hlen hver hfields
  obtain rfl := Option.some.inj h
  exact hfields.1

theorem length_header (t : FaceTemplate) :
    (header t).length = 16 + (UInt32.ofNat t.templateData.length).toNat := by
  have h : (UInt32.ofNat t.templateData.length).toNat ≤ t.templateData.length := by
    rw [UInt32.toNat_ofNat']
    exact Nat.mod_le _ _
  simp only [header, List.length_append, length_wordBytes, List.length_take]
  omega

theorem length_payload (t : FaceTemplate) :
    (payload t).length = 20 + (UInt32.ofNat t.templateData.length).toNat := by
  simp only [payload, List.length_append, length_header, length_wordBytes]
  omega

theorem payload_ne_nil (t : FaceTemplate) : payload t ≠ [] := by
  intro h
  have hl := length_payload t
  rw [h, List.length_nil] at hl
  omega

theorem toNat_size {t : FaceTemplate} (h : t.templateData.length < 2 ^ 32) :
    (UInt32.ofNat t.templateData.length).toNat = t.templateData.length := by
  rw [UInt32.toNat_ofNat']
  exact Nat.mod_eq_of_lt h

/-- The template as far as the size field reaches. -/
def truncated (t : FaceTemplate) : FaceTemplate :=
  { t with templateData := t.templateData.take (UInt32.ofNat t.templateData.length).toNat }

theorem length_truncated (t : FaceTemplate) : (truncated t).templateData.length =
    (UInt32.ofNat t.templateData.length).toNat := by
  refine List.length_take_of_le ?_
  rw [UInt32.toNat_ofNat']
  exact Nat.mod_le _ _

theorem truncated_eq {t : FaceTemplate} (h : t.templateData.length < 2 ^ 32) : truncated t = t := by
  rw [truncated, toNat_size h, List.take_length]

theorem payload_truncated (t : FaceTemplate) : payload (truncated t) = payload t := by
  have hsize : UInt32.ofNat (truncated t).templateData.length =
      UInt32.ofNat t.templateData.length := by
    rw [length_truncated, UInt32.ofNat_toNat]
  have hheader : header (truncated t) = header t := by
    simp only [header, hsize]
    simp [truncated, List.take_take]
  rw [payload, payload, hheader]

/-- The header words of a serialized template are read back whatever follows it. -/
theorem readWord_payload (t : FaceTemplate) (rest : Bytes) :
    readWord (payload t ++ rest) 0 = t.version ∧
    readWord (payload t ++ rest) 4 = t.faceId.toUInt32 ∧
    readWord (payload t ++ rest) 8 = t.userId.toUInt32 ∧
    readWord (payload t ++ rest) 12 = UInt32.ofNat t.templateData.length := by
  have hp : payload t ++ rest = wordBytes t.version ++ (wordBytes t.faceId.toUInt32 ++
      (wordBytes t.userId.toUInt32 ++ (wordBytes (UInt32.ofNat t.templateData.length) ++
        (t.templateData.take (UInt32.ofNat t.templateData.length).toNat ++
          (wordBytes (calculateChecksum (header t)) ++ rest))))) := by
    simp only [payload, header, List.append_assoc]
  rw [hp]
  refine ⟨readWord_wordBytes _ _, ?_, ?_, ?_⟩
  · exact (readWord_skip _ _ 0).trans (readWord_wordBytes _ _)
  · exact (readWord_skip _ _ 4).trans ((readWord_skip _ _ 0).trans (readWord_wordBytes _ _))
  · exact (readWord_skip _ _ 8).trans ((readWord_skip _ _ 4).trans
      ((readWord_skip _ _ 0).trans (readWord_wordBytes _ _)))

/-- Parsing a payload gives the fields back. The hypothesis on the length is the
one under which the size field keeps it. -/
theorem decodeFields_payload (t : FaceTemplate) {mac : Bytes} (hm : mac.length = macSize)
    (hs : t.templateData.length < 2 ^ 32) :
    decodeFields t.version (payload t ++ mac) mac =
      some { t with checksum := calculateChecksum (header t), mac := mac } := by
  obtain ⟨h₀, h₄, h₈, h₁₂⟩ := readWord_payload t mac
  have hh : (header t).length = 16 + t.templateData.length := by rw [length_header, toNat_size hs]
  have htake : (payload t ++ mac).take (16 + t.templateData.length) = header t := by
    rw [payload, List.append_assoc, List.take_left' hh]
  have hsum : readWord (payload t ++ mac) (16 + t.templateData.length) =
      calculateChecksum (header t) := by
    rw [payload, List.append_assoc, ← hh, ← Nat.add_zero (header t).length, readWord_append_left]
    exact readWord_wordBytes _ _
  have hdata : ((payload t ++ mac).drop 16).take t.templateData.length = t.templateData := by
    have hp : payload t ++ mac = (wordBytes t.version ++ wordBytes t.faceId.toUInt32 ++
        wordBytes t.userId.toUInt32 ++ wordBytes (UInt32.ofNat t.templateData.length)) ++
        (t.templateData ++ (wordBytes (calculateChecksum (header t)) ++ mac)) := by
      simp only [payload, header, List.append_assoc, toNat_size hs, List.take_length]
    rw [hp, List.drop_left' (by simp), List.take_left' rfl]
  have hlen : (payload t ++ mac).length = minSize + t.templateData.length := by
    rw [List.length_append, length_payload, hm, toNat_size hs]
    simp only [minSize, macSize]
    omega
  unfold decodeFields
  simp only [h₀, h₄, h₈, h₁₂, toNat_size hs, hlen, hsum, htake, hdata, true_and, if_true]
  rfl

theorem version_of_decodeFields {v : UInt32} {t x : FaceTemplate} {mac rest : Bytes}
    (h : decodeFields v (payload t ++ rest) mac = some x) : t.version = v := by
  simp only [decodeFields] at h
  split_ifs at h with hc
  rw [← hc.1, (readWord_payload t rest).1]

/-- The parser accepts what `serialize` produced for the current version, with
the fields it was given as far as the size field reaches. -/
theorem decode_serialized (C : LawfulCrypto) (t : FaceTemplate)
    (hv : t.version = C.currentVersion) :
    decode C.toCrypto (payload t ++ C.mac (payload t)) = some { truncated t with
      checksum := calculateChecksum (header (truncated t)), mac := C.mac (payload t) } := by
  have hm : (C.mac (payload t)).length = macSize := C.length_mac _
  have hl : (payload t ++ C.mac (payload t)).length - macSize = (payload t).length := by
    rw [List.length_append, hm, Nat.add_sub_cancel]
  have hver : C.verifies (payload t) (C.mac (payload t)) = true := by
    have hne : C.mac (payload t) ≠ [] := by
      intro h
      rw [h] at hm
      cases hm
    simp [Crypto.verifies, hne]
  have hmin : ¬ (payload t ++ C.mac (payload t)).length < minSize := by
    rw [List.length_append, hm, length_payload]
    simp only [minSize, macSize]
    omega
  have hsize : (truncated t).templateData.length < 2 ^ 32 := by
    rw [length_truncated]
    exact UInt32.toNat_lt _
  unfold decode
  rw [if_neg hmin, hl, List.take_left' rfl, List.drop_left' rfl, if_pos hver, ← hv]
  have hfields := decodeFields_payload (truncated t) hm hsize
  rw [payload_truncated] at hfields
  exact hfields

/-- A proper prefix of serialized bytes is rejected: the size field no longer
accounts for the length. -/
theorem decode_take (C : Crypto) (t : FaceTemplate) {mac : Bytes} (hm : mac.length = macSize)
    {n : ℕ} (hn : n < (payload t ++ mac).length) : decode C ((payload t ++ mac).take n) = none := by
  unfold decode
  split_ifs with hmin hver
  · rfl
  · have hln : ((payload t ++ mac).take n).length = n := List.length_take_of_le hn.le
    rw [hln] at hmin
    have hhead : 16 ≤ n := by
      simp only [minSize] at hmin
      omega
    have hsize : readWord ((payload t ++ mac).take n) 12 = readWord (payload t ++ mac) 12 := by
      have hget : ∀ i, i < 16 → ((payload t ++ mac).take n).getD i 0 =
          (payload t ++ mac).getD i 0 := by
        intro i hi
        simp only [List.getD_eq_getElem?_getD]
        rw [List.getElem?_take_of_lt (by omega)]
      simp only [readWord]
      rw [hget _ (by omega), hget _ (by omega), hget _ (by omega), hget _ (by omega)]
    unfold decodeFields
    rw [if_neg]
    rintro ⟨-, hlen, -⟩
    rw [hln, hsize, (readWord_payload t mac).2.2.2] at hlen
    rw [List.length_append, length_payload, hm] at hn
    simp only [minSize, macSize] at hlen hn
    omega
  · rfl

end FaceTemplateSerializer
end FaceHal
