import FaceHal.EncryptionRoundTrip
import FaceHal.TemplateFormat

/-!
# The frame of an encrypted template

A payload is a version byte, the length of the nonce, the nonce and the ciphertext.
Framing refuses what the length byte or the parser could not tell apart, and the
parser accepts exactly what framing produces. `parseStoragePayloadIn` is the parser
in which each access of the payload is checked; none of them leaves it.
-/
namespace FaceHal
namespace CryptoClient

/-- What can be framed. -/
def Framable (nonce ciphertext : Bytes) : Prop :=
  1 ≤ nonce.length ∧ nonce.length ≤ kMaxNonceSize ∧ ciphertext ≠ []

theorem framable_iff {nonce ciphertext : Bytes} : Framable nonce ciphertext ↔
    ¬ (nonce = [] ∨ kMaxNonceSize < nonce.length ∨ ciphertext = []) := by
  rw [not_or, not_or, not_lt, Framable, Nat.one_le_iff_ne_zero, Ne, List.length_eq_zero_iff]

theorem serializeStoragePayload_of_framable {nonce ciphertext : Bytes}
    (h : Framable nonce ciphertext) : serializeStoragePayload nonce ciphertext =
      kStoragePayloadVersion :: UInt8.ofNat nonce.length :: (nonce ++ ciphertext) :=
  if_neg (framable_iff.mp h)

theorem serializeStoragePayload_ne_nil_iff {nonce ciphertext : Bytes} :
    serializeStoragePayload nonce ciphertext ≠ [] ↔ Framable nonce ciphertext := by
  constructor
  · intro h
    rw [framable_iff]
    intro hrefused
    exact h (if_pos hrefused)
  · intro h
    rw [serializeStoragePayload_of_framable h]
    exact List.cons_ne_nil _ _

theorem parse_of_framable {nonce ciphertext : Bytes} (h : Framable nonce ciphertext) :
    parseStoragePayload (serializeStoragePayload nonce ciphertext) = some (nonce, ciphertext) :=
  parse_serializeStoragePayload (List.length_pos_iff.mp h.1) h.2.1 h.2.2

/-- The first two bytes of an accepted payload, and what they leave. -/
theorem framed_of_parse {payload nonce ciphertext : Bytes}
    (h : parseStoragePayload payload = some (nonce, ciphertext)) :
    Framable nonce ciphertext ∧ payload = serializeStoragePayload nonce ciphertext := by
  have hne := ciphertext_ne_nil h
  unfold parseStoragePayload at h
  dsimp only at h
  split_ifs at h with hsmall hversion hnonce hmissing
  obtain ⟨rfl, rfl⟩ := Prod.mk.inj (Option.some.inj h)
  match payload, hsmall with
  | version :: lengthByte :: rest, hsmall =>
      simp only [List.getD_cons_zero, List.getD_cons_succ, List.length_cons, not_not]
        at hversion hnonce hmissing
      have hdrop : (version :: lengthByte :: rest).drop (2 + lengthByte.toNat) =
          rest.drop lengthByte.toNat := by
        rw [Nat.add_comm]
        rfl
      simp only [List.getD_cons_zero, List.getD_cons_succ, List.drop_succ_cons, List.drop_zero,
        hdrop] at hne ⊢
      have hlen : (rest.take lengthByte.toNat).length = lengthByte.toNat := by
        rw [List.length_take]
        omega
      have hframable : Framable (rest.take lengthByte.toNat) (rest.drop lengthByte.toNat) := by
        refine ⟨?_, ?_, hne⟩ <;> omega
      refine ⟨hframable, ?_⟩
      rw [serializeStoragePayload_of_framable hframable, hlen, List.take_append_drop, hversion,
        UInt8.ofNat_toNat]

theorem parse_eq_some_iff {payload nonce ciphertext : Bytes} :
    parseStoragePayload payload = some (nonce, ciphertext) ↔
      payload ≠ [] ∧ payload = serializeStoragePayload nonce ciphertext := by
  constructor
  · intro h
    obtain ⟨hframable, rfl⟩ := framed_of_parse h
    exact ⟨serializeStoragePayload_ne_nil_iff.mpr hframable, rfl⟩
  · rintro ⟨hne, rfl⟩
    exact parse_of_framable (serializeStoragePayload_ne_nil_iff.mp hne)

/-- The parser with checked accesses, `none` at one outside the payload. -/
def parseStoragePayloadIn (payload : Bytes) : Option (Option (Bytes × Bytes)) := do
  if payload.length < 3 then
    return none
  let version ← payload[0]?
  if version ≠ kStoragePayloadVersion then
    return none
  let lengthByte ← payload[1]?
  let nonceLen := lengthByte.toNat
  if nonceLen = 0 ∨ kMaxNonceSize < nonceLen then
    return none
  if payload.length ≤ 2 + nonceLen then
    return none
  let nonce ← copyBytes payload 2 nonceLen
  let ciphertext ← copyBytes payload (2 + nonceLen) (payload.length - (2 + nonceLen))
  return some (nonce, ciphertext)

theorem parseStoragePayloadIn_eq (payload : Bytes) :
    parseStoragePayloadIn payload = some (parseStoragePayload payload) := by
  unfold parseStoragePayloadIn parseStoragePayload
  by_cases hsmall : payload.length < 3
  · rw [if_pos hsmall, if_pos hsmall]
    rfl
  · have hget : ∀ i, i < 3 → payload[i]? = some (payload.getD i 0) := by
      intro i hi
      rw [List.getD_eq_getElem?_getD, List.getElem?_eq_getElem (by omega), Option.getD_some]
    simp only [if_neg hsmall, hget 0 (by omega), hget 1 (by omega), Option.bind_eq_bind,
      Option.bind_some, Option.pure_def]
    by_cases hmissing : payload.length ≤ 2 + (payload.getD 1 0).toNat
    · simp only [if_pos hmissing]
      split_ifs <;> rfl
    · have htail : (payload.drop (2 + (payload.getD 1 0).toNat)).take
          (payload.length - (2 + (payload.getD 1 0).toNat)) =
          payload.drop (2 + (payload.getD 1 0).toNat) := by
        refine List.take_of_length_le ?_
        rw [List.length_drop]
      rw [if_neg hmissing, if_neg hmissing, copyBytes_eq _ _ _ (by omega),
        copyBytes_eq _ _ _ (by omega), htail]
      split_ifs <;> rfl

/-- Framing gives a payload just for what can be framed, and it is parsed back; a
payload is accepted just if it is the frame of the two parts that are returned, and
no access leaves it. -/
theorem framing_bijection :
    (∀ nonce ciphertext : Bytes,
      (serializeStoragePayload nonce ciphertext ≠ [] ↔
        1 ≤ nonce.length ∧ nonce.length ≤ 32 ∧ ciphertext ≠ []) ∧
      (serializeStoragePayload nonce ciphertext ≠ [] →
        parseStoragePayloadIn (serializeStoragePayload nonce ciphertext) =
          some (some (nonce, ciphertext)))) ∧
    ∀ payload : Bytes, ∃ result, parseStoragePayloadIn payload = some result ∧
      ∀ nonce ciphertext, result = some (nonce, ciphertext) ↔
        payload ≠ [] ∧ payload = serializeStoragePayload nonce ciphertext := by
  refine ⟨fun nonce ciphertext => ⟨serializeStoragePayload_ne_nil_iff, fun h => ?_⟩,
    fun payload => ?_⟩
  · rw [parseStoragePayloadIn_eq, parse_of_framable (serializeStoragePayload_ne_nil_iff.mp h)]
  · exact ⟨parseStoragePayload payload, parseStoragePayloadIn_eq payload,
      fun _ _ => parse_eq_some_iff⟩

/-- A nonce of 96 bits is framed and read back, and a payload that is read is the frame of what
was read from it. -/
theorem framing_bijection_sample :
    parseStoragePayloadIn (serializeStoragePayload [1, 2, 3, 4, 5, 6, 7, 8, 9, 10, 11, 12]
      [40, 41, 42, 43]) = some (some ([1, 2, 3, 4, 5, 6, 7, 8, 9, 10, 11, 12], [40, 41, 42, 43])) ∧
    ([1, 2, 5, 6, 7, 8, 9] : Bytes) = serializeStoragePayload [5, 6] [7, 8, 9] := by
  refine ⟨(framing_bijection.1 _ [40, 41, 42, 43]).2 (by decide), ?_⟩
  obtain ⟨result, hparse, hresult⟩ := framing_bijection.2 [1, 2, 5, 6, 7, 8, 9]
  have hread : some ([5, 6], [7, 8, 9]) = result := Option.some.inj hparse
  exact ((hresult [5, 6] [7, 8, 9]).mp hread.symm).2

end CryptoClient
end FaceHal
