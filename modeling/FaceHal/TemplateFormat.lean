import FaceHal.TemplateSaving

/-!
# The template format is canonical

The parser accepts exactly the bytes that `serialize` writes for the template it
returns: every header word is the four bytes it was read from, the size field
accounts for the whole length, and the MAC is the one of what precedes it.

`deserialize` computes with natural numbers and cuts its input with `take` and
`drop`, which never leave it. `deserializeIn` is the same function over a
`size_t` of a given width in which every copy out of the input is checked; the
two agree, so no sum wraps into acceptance and no copy leaves the input.
-/
namespace FaceHal

/-- Addition of two `size_t` values of `w` bits. -/
def sizeAdd (w a b : ℕ) : ℕ := (a + b) % 2 ^ w

/-- The bytes from an offset on, or `none` if one of them lies outside. -/
def copyBytes (data : Bytes) (offset n : ℕ) : Option Bytes :=
  if offset + n ≤ data.length then some ((data.drop offset).take n) else none

/-- `memcpy` of four bytes into a word. -/
def copyWord (data : Bytes) (offset : ℕ) : Option UInt32 :=
  (copyBytes data offset 4).map fun bytes => readWord bytes 0

theorem sizeAdd_eq {w a b : ℕ} (h : a + b < 2 ^ w) : sizeAdd w a b = a + b := Nat.mod_eq_of_lt h

theorem sizeAdd_cases {w a b : ℕ} (ha : a < 2 ^ w) (hb : b < 2 ^ w) :
    sizeAdd w a b = a + b ∨ sizeAdd w a b < a := by
  unfold sizeAdd
  rcases Nat.lt_or_ge (a + b) (2 ^ w) with h | h
  · exact .inl (Nat.mod_eq_of_lt h)
  · right
    rw [Nat.mod_eq_sub_mod h, Nat.mod_eq_of_lt (by omega)]
    omega

theorem copyBytes_eq (data : Bytes) (offset n : ℕ) (h : offset + n ≤ data.length) :
    copyBytes data offset n = some ((data.drop offset).take n) := if_pos h

theorem readWord_take_drop (data : Bytes) (offset : ℕ) :
    readWord ((data.drop offset).take 4) 0 = readWord data offset := by
  have hget : ∀ i, i < 4 → ((data.drop offset).take 4).getD (0 + i) 0 =
      data.getD (offset + i) 0 := by
    intro i hi
    simp only [List.getD_eq_getElem?_getD, Nat.zero_add]
    rw [List.getElem?_take_of_lt hi, List.getElem?_drop]
  simp only [readWord]
  rw [hget 0 (by omega), hget 1 (by omega), hget 2 (by omega), hget 3 (by omega)]

theorem copyWord_eq (data : Bytes) (offset : ℕ) (h : offset + 4 ≤ data.length) :
    copyWord data offset = some (readWord data offset) := by
  rw [copyWord, copyBytes_eq _ _ _ h, Option.map_some, readWord_take_drop]

namespace FaceTemplateSerializer
open FaceStorageManager Program

/-- `readFields` over a `size_t` of `w` bits, `none` at a read outside the input. -/
def readFieldsIn (w : ℕ) (currentVersion : UInt32) (data storedMac : Bytes)
    (outTmpl : FaceTemplate) : Option (Bool × FaceTemplate) := do
  let outTmpl := { outTmpl with mac := storedMac }
  let offset := 0
  let version ← copyWord data offset
  let outTmpl := { outTmpl with version := version }
  let offset := sizeAdd w offset 4
  if outTmpl.version ≠ currentVersion then
    return (false, outTmpl)
  let faceId ← copyWord data offset
  let outTmpl := { outTmpl with faceId := faceId.toInt32 }
  let offset := sizeAdd w offset 4
  let userId ← copyWord data offset
  let outTmpl := { outTmpl with userId := userId.toInt32 }
  let offset := sizeAdd w offset 4
  let sizeField ← copyWord data offset
  let templateSize := sizeField.toNat
  let offset := sizeAdd w offset 4
  if data.length ≠ sizeAdd w minSize templateSize then
    return (false, outTmpl)
  let templateData ← copyBytes data offset templateSize
  let outTmpl := { outTmpl with templateData := templateData }
  let offset := sizeAdd w offset templateSize
  let storedChecksum ← copyWord data offset
  let dataToChecksum ← copyBytes data 0 offset
  if storedChecksum ≠ calculateChecksum dataToChecksum then
    return (false, outTmpl)
  return (true, { outTmpl with checksum := storedChecksum })

/-- `deserialize` over a `size_t` of `w` bits, `none` at a read outside the input. -/
def deserializeIn (w : ℕ) (data : Bytes) (outTmpl : FaceTemplate) :
    Program StorageI (Option (Bool × FaceTemplate)) := do
  if data.length < minSize then
    return some (false, outTmpl)
  match copyBytes data 0 (data.length - macSize),
      copyBytes data (data.length - macSize) macSize with
  | some actualData, some storedMac =>
      if !(← invoke (.verifyMac actualData storedMac)) then
        return some (false, outTmpl)
      let currentVersion ← invoke .currentVersion
      return readFieldsIn w currentVersion data storedMac outTmpl
  | _, _ => return none

theorem readFieldsIn_eq {w : ℕ} (hw : 32 ≤ w) (currentVersion : UInt32) {data : Bytes}
    (storedMac : Bytes) (out : FaceTemplate) (hmin : minSize ≤ data.length)
    (hmax : data.length < 2 ^ w) : readFieldsIn w currentVersion data storedMac out =
      some (readFields currentVersion data storedMac out) := by
  have hword : 2 ^ 32 ≤ 2 ^ w := Nat.pow_le_pow_right (by decide) hw
  have hhead : 52 ≤ data.length := hmin
  have hsize : (readWord data 12).toNat < 2 ^ w := (readWord data 12).toNat_lt.trans_le hword
  have hsum : data.length = sizeAdd w minSize (readWord data 12).toNat ↔
      data.length = minSize + (readWord data 12).toNat := by
    rcases sizeAdd_cases (a := minSize) (by simp only [minSize, macSize]; omega) hsize with h | h
    · rw [h]
    · -- a sum that wraps is below the least length, which the input reaches
      refine iff_of_false ?_ ?_
      · omega
      · intro heq
        rw [heq] at hmax
        rw [sizeAdd_eq hmax] at h
        omega
  have h₀ : sizeAdd w 0 4 = 4 := sizeAdd_eq (by omega)
  have h₄ : sizeAdd w 4 4 = 8 := sizeAdd_eq (by omega)
  have h₈ : sizeAdd w 8 4 = 12 := sizeAdd_eq (by omega)
  have h₁₂ : sizeAdd w 12 4 = 16 := sizeAdd_eq (by omega)
  simp only [readFieldsIn, readFields, h₀, h₄, h₈, h₁₂, hsum, copyWord_eq data 0 (by omega),
    copyWord_eq data 4 (by omega), copyWord_eq data 8 (by omega), copyWord_eq data 12 (by omega),
    Option.bind_eq_bind, Option.bind_some, Option.pure_def, ne_eq]
  by_cases hv : readWord data 0 = currentVersion
  · by_cases hl : data.length = minSize + (readWord data 12).toNat
    · have hfit : 16 + (readWord data 12).toNat + 4 ≤ data.length := by
        simp only [minSize, macSize] at hl
        omega
      have hoffset : sizeAdd w 16 (readWord data 12).toNat = 16 + (readWord data 12).toNat :=
        sizeAdd_eq (by omega)
      simp only [hoffset, copyWord_eq data _ hfit, copyBytes_eq data 16 (readWord data 12).toNat
        (by omega), copyBytes_eq data 0 (16 + (readWord data 12).toNat) (by omega), List.drop_zero,
        Option.bind_some, hv, hl, not_true_eq_false, if_false]
      split_ifs <;> rfl
    · simp [hv, hl]
  · simp [hv]

theorem deserializeIn_eq {w : ℕ} (hw : 32 ≤ w) {data : Bytes} (out : FaceTemplate)
    (hmax : data.length < 2 ^ w) : deserializeIn w data out = some <$> deserialize data out := by
  unfold deserializeIn deserialize
  split_ifs with hmin
  · rfl
  · have hle : minSize ≤ data.length := Nat.not_lt.mp hmin
    have hmac : macSize ≤ data.length := by
      simp only [minSize, macSize] at hle ⊢
      omega
    have htail : (data.drop (data.length - macSize)).take macSize =
        data.drop (data.length - macSize) :=
      List.take_of_length_le (by rw [List.length_drop]; omega)
    simp only [copyBytes_eq data 0 (data.length - macSize) (by omega),
      copyBytes_eq data (data.length - macSize) macSize (by omega), htail, List.drop_zero,
      readFieldsIn_eq hw _ _ out hle hmax]
    refine congrArg (Program.call _) ?_
    funext verified
    cases verified <;> rfl

/-- Copying out words that follow each other is copying out all of them. -/
theorem take_drop_append (data : Bytes) (offset m n : ℕ) :
    (data.drop offset).take m ++ (data.drop (offset + m)).take n =
      (data.drop offset).take (m + n) := by
  rw [← List.drop_drop, ← List.take_add]

/-- The header of an accepted template is the beginning of the input. -/
theorem header_of_decodeFields {v : UInt32} {data mac : Bytes} {t : FaceTemplate}
    (h : decodeFields v data mac = some t) : header t = data.take (16 + t.templateData.length) ∧
      data.length = minSize + t.templateData.length ∧
      wordBytes (calculateChecksum (header t)) =
        (data.drop (16 + t.templateData.length)).take 4 := by
  simp only [decodeFields] at h
  split_ifs at h with hc
  obtain ⟨-, hlen, hsum⟩ := hc
  obtain rfl := Option.some.inj h
  have hfit : 16 + (readWord data 12).toNat + 4 ≤ data.length := by
    simp only [minSize, macSize] at hlen
    omega
  have hsize : ((data.drop 16).take (readWord data 12).toNat).length =
      (readWord data 12).toNat := by
    rw [List.length_take, List.length_drop]
    omega
  have hheader : header ⟨readWord data 0, (readWord data 4).toInt32, (readWord data 8).toInt32,
      (data.drop 16).take (readWord data 12).toNat, readWord data (16 + (readWord data 12).toNat),
      mac⟩ = data.take (16 + (readWord data 12).toNat) := by
    simp only [header, hsize, UInt32.ofNat_toNat, UInt32.toUInt32_toInt32, List.take_take, min_self]
    rw [wordBytes_readWord data 0 (by omega), wordBytes_readWord data 4 (by omega),
      wordBytes_readWord data 8 (by omega), wordBytes_readWord data 12 (by omega),
      take_drop_append data 0 4 4, take_drop_append data 0 (4 + 4) 4,
      take_drop_append data 0 (4 + 4 + 4) 4,
      take_drop_append data 0 (4 + 4 + 4 + 4) (readWord data 12).toNat, List.drop_zero]
  refine ⟨?_, ?_, ?_⟩
  · rw [hheader, hsize]
  · rw [hlen, hsize]
  · rw [hheader, hsize, ← hsum, wordBytes_readWord data _ hfit]

theorem length_of_decode {C : Crypto} {data : Bytes} {t : FaceTemplate}
    (h : decode C data = some t) : t.templateData.length < 2 ^ 32 := by
  simp only [decode, decodeFields] at h
  split_ifs at h
  obtain rfl := Option.some.inj h
  exact (List.length_take_le _ _).trans_lt (UInt32.toNat_lt _)

/-- What is accepted is what serialization writes for the template read from it. -/
theorem serialized_of_decode {C : LawfulCrypto} {data : Bytes} {t : FaceTemplate}
    (h : decode C.toCrypto data = some t) : serialized C.toCrypto t = data := by
  simp only [decode] at h
  split_ifs at h with hmin hver
  obtain ⟨hheader, hlen, hsum⟩ := header_of_decodeFields h
  have hcut : 16 + t.templateData.length + 4 = data.length - macSize := by
    rw [hlen]
    simp only [minSize, macSize]
    omega
  have hpayload : payload t = data.take (data.length - macSize) := by
    have happend := take_drop_append data 0 (16 + t.templateData.length) 4
    rw [Nat.zero_add, List.drop_zero] at happend
    rw [payload, hsum, hheader, happend, hcut]
  have hmac : C.mac (data.take (data.length - macSize)) = data.drop (data.length - macSize) := by
    simp only [Crypto.verifies, Bool.and_eq_true, beq_iff_eq] at hver
    exact hver.2.symm
  rw [serialized, hpayload, hmac, List.take_append_drop]

/-- The calls of the serializer are answered; `deserialize` answers with what the
bytes denote. -/
theorem returns_deserialize (C : Crypto) (data : Bytes) (out : FaceTemplate) (s : FileSystem) :
    (deserialize data out).returns (storageEnv C encryptionMayFail)
      (fun r t => outcome r = decode C data ∧ t = s) s :=
  ⟨exists_run (storageEnv_total C encryptionMayFail_ne_always) _ _,
    wp_deserialize encryptionMayFail_of_loadsPlaintext fun _ hr => ⟨hr, rfl⟩⟩

theorem returns_serialize (C : LawfulCrypto) (tmpl : FaceTemplate) (s : FileSystem) :
    (serialize tmpl).returns (storageEnv C.toCrypto encryptionMayFail)
      (fun d t => d = serialized C.toCrypto tmpl ∧ t = s) s :=
  ⟨exists_run (storageEnv_total C.toCrypto encryptionMayFail_ne_always) _ _,
    wp_serialize.mpr ⟨rfl, rfl⟩⟩

/-- A template of the current version is read back from what is written for it,
only what is written for the template returned is read, and with a `size_t` of
32 or 64 bits all reads stay inside the bytes and change nothing. -/
theorem format_canonical (C : LawfulCrypto) (s : FileSystem) :
    (∀ t : FaceTemplate, t.version = C.currentVersion → t.templateData.length < 2 ^ 32 →
      (serialize t).returns (storageEnv C.toCrypto encryptionMayFail)
        (fun d x => ∀ out, (deserialize d out).returns (storageEnv C.toCrypto encryptionMayFail)
          (fun r _ => r.1 = true ∧ r.2.record = t.record) x) s) ∧
    (∀ d out, (deserialize d out).returns (storageEnv C.toCrypto encryptionMayFail)
      (fun r x => r.1 = true → (serialize r.2).returns (storageEnv C.toCrypto encryptionMayFail)
        (fun d' _ => d' = d) x) s) ∧
    ∀ w, w = 32 ∨ w = 64 → ∀ d out, d.length < 2 ^ w →
      deserializeIn w d out = some <$> deserialize d out := by
  refine ⟨?_, ?_, ?_⟩
  · intro t hv hlen
    refine returns_mono (returns_serialize C t s) ?_
    rintro d x ⟨rfl, rfl⟩ out
    refine returns_mono (returns_deserialize C.toCrypto _ out x) ?_
    rintro ⟨ok, t'⟩ y ⟨hr, -⟩
    rw [serialized, decode_serialized C t hv, truncated_eq hlen] at hr
    cases ok with
    | false => cases hr
    | true =>
        obtain rfl := Option.some.inj hr
        exact ⟨rfl, rfl⟩
  · intro d out
    refine returns_mono (returns_deserialize C.toCrypto d out s) ?_
    rintro ⟨ok, t⟩ x ⟨hr, rfl⟩ hok
    obtain rfl : ok = true := hok
    refine returns_mono (returns_serialize C t x) ?_
    rintro d' y ⟨rfl, -⟩
    exact serialized_of_decode hr.symm
  · rintro w hw d out hd
    exact deserializeIn_eq (by omega) out hd

/-- A template of 300 bytes whose face and user have negative numbers. -/
def longTemplate : FaceTemplate := ⟨1, -2, -10, List.replicate 300 200, 0, []⟩

/-- It is read back, and what was read is written as it was. -/
theorem format_canonical_long :
    (serialize longTemplate).returns (storageEnv toyCrypto.toCrypto encryptionMayFail)
      (fun d x => ∀ out, (deserialize d out).returns (storageEnv toyCrypto.toCrypto
        encryptionMayFail) (fun r y => (r.1 = true ∧ r.2.record = longTemplate.record) ∧
          (serialize r.2).returns (storageEnv toyCrypto.toCrypto encryptionMayFail)
            (fun d' _ => d' = d) y) x) .empty := by
  refine returns_mono ((format_canonical toyCrypto .empty).1 longTemplate rfl ?_) ?_
  · rw [longTemplate, List.length_replicate]
    decide
  · intro d x hd out
    have hagain := (format_canonical toyCrypto x).2.1 d out
    refine ⟨(hd out).1, wp_mono (wp_and (hd out).2 hagain.2) ?_⟩
    exact fun r y hr => ⟨hr.1, hr.2 hr.1.1⟩

end FaceTemplateSerializer
end FaceHal
