import FaceHal.CryptoRuns

/-!
# Decryption inverts encryption

With Keystore answering, `encrypt` frames the sealed data with the nonce that the
operation was created with, and `decrypt` opens what it finds in the frame. How
an operation spreads its output over the replies does not matter. The recorded
requests show what each chunk loop passed on: the pieces that the loop of the
source cuts off at its offsets, which are the input, each byte once and in order.
-/
namespace FaceHal

/-- A request that carries no input. -/
def KeystoreCall.Quiet : KeystoreCall → Prop
  | .update _ _ => False
  | _ => True

namespace CryptoClient
open Program

/-- The pieces of the loop of the source, which keeps an offset into the whole
input. -/
def chunksFrom (data : Bytes) (offset : ℕ) : List Bytes :=
  if offset < data.length then
    let chunk := min (data.length - offset) kChunkSize
    (data.drop offset).take chunk :: chunksFrom data (offset + chunk)
  else []
termination_by data.length - offset
decreasing_by
  simp only [kChunkSize]
  omega

theorem chunks_eq_chunksFrom {fuel offset : ℕ} {data : Bytes} (h : data.length - offset ≤ fuel) :
    chunks fuel (data.drop offset) = chunksFrom data offset := by
  induction fuel generalizing offset with
  | zero =>
      rw [chunksFrom, if_neg (by omega)]
      rfl
  | succ fuel ih =>
      rw [chunksFrom, chunks]
      by_cases hlt : offset < data.length
      · have hne : data.drop offset ≠ [] := by
          intro hnil
          have hlen := congrArg List.length hnil
          rw [List.length_drop, List.length_nil] at hlen
          omega
        have htake : (data.drop offset).take (min (data.length - offset) kChunkSize) =
            (data.drop offset).take kChunkSize := by
          rw [← List.length_drop, List.take_eq_take_iff]
          omega
        have hrest : data.drop (offset + kChunkSize) =
            data.drop (offset + min (data.length - offset) kChunkSize) := by
          rcases Nat.le_total (data.length - offset) kChunkSize with hle | hle
          · rw [Nat.min_eq_left hle, List.drop_of_length_le (by omega),
              List.drop_of_length_le (by omega)]
          · rw [Nat.min_eq_right hle]
        rw [if_neg hne, if_pos hlt, List.drop_drop, hrest]
        dsimp only
        rw [htake]
        refine congrArg _ (ih ?_)
        simp only [kChunkSize]
        omega
      · rw [if_neg hlt, if_pos (List.drop_of_length_le (by omega))]

/-- The pieces in their order are the data, and none is longer than a chunk. -/
def Cuts (pieces : List Bytes) (data : Bytes) : Prop :=
  pieces.flatten = data ∧ ∀ piece ∈ pieces, piece.length ≤ kChunkSize

theorem length_of_mem_chunks {fuel : ℕ} {data piece : Bytes} (h : piece ∈ chunks fuel data) :
    piece.length ≤ kChunkSize := by
  induction fuel generalizing data with
  | zero => cases h
  | succ fuel ih =>
      unfold chunks at h
      split_ifs at h with hd
      · cases h
      · rcases List.mem_cons.mp h with rfl | h
        · exact List.length_take_le _ _
        · exact ih h

theorem cuts_chunks (data : Bytes) : Cuts (chunks data.length data) data :=
  ⟨flatten_chunks le_rfl, fun _ hp => length_of_mem_chunks hp⟩

theorem chunksFrom_zero (data : Bytes) : chunksFrom data 0 = chunks data.length data :=
  (chunks_eq_chunksFrom (Nat.sub_le _ _)).symm

/-- The input that the recorded requests passed to operations, piece by piece. -/
def updateInputs (tr : List (Event KeystoreI)) : List Bytes :=
  tr.filterMap fun e =>
    match e.call with
    | .update _ input => some input
    | _ => none

@[simp] theorem updateInputs_append (tr tr' : List (Event KeystoreI)) :
    updateInputs (tr ++ tr') = updateInputs tr ++ updateInputs tr' := List.filterMap_append

theorem updateInputs_quiet {tr : List (Event KeystoreI)} (h : ∀ e ∈ tr, e.call.Quiet) :
    updateInputs tr = [] := by
  refine List.filterMap_eq_nil_iff.mpr ?_
  rintro ⟨c, r⟩ he
  have hc := h _ he
  cases c with
  | update _ _ => exact hc.elim
  | _ => rfl

section inputs
variable {E : Environment KeystoreI KeystoreState} {s : KeystoreState × List (Event KeystoreI)}

theorem wp_quiet {α : Type} {p : Program KeystoreI α} (h : p.Uses KeystoreCall.Quiet) :
    p.wp (traced E) (fun _ t => updateInputs t.2 = updateInputs s.2) s := by
  refine wp_iff_run.mpr ?_
  intro a t hrun
  obtain ⟨tr, htr, hquiet⟩ := hrun.events h
  rw [htr, updateInputs_append, updateInputs_quiet hquiet, List.append_nil]

theorem uses_getNonceFromResponse (response : CreateOperationResponse) :
    (getNonceFromResponse response).Uses KeystoreCall.Quiet := by
  unfold getNonceFromResponse
  split
  · exact ⟨trivial, fun r => r.elim⟩
  · trivial

theorem wp_feed_inputs (h : ℕ) (cs : List Bytes) (out : Bytes) :
    (feed h cs out).wp (traced E)
      (fun r t => r ≠ none → updateInputs t.2 = updateInputs s.2 ++ cs) s := by
  induction cs generalizing s out with
  | nil =>
      intro _
      rw [List.append_nil]
  | cons chunk rest ih =>
      unfold feed
      rw [wp_request]
      rintro reply t ⟨-, ht⟩
      split_ifs
      · rw [wp_request]
        intro _ _ _ hr
        exact absurd rfl hr
      · refine wp_mono (ih _) ?_
        intro r u hu hr
        rw [hu hr, ht, updateInputs_append]
        simp [updateInputs]

theorem wp_stream_inputs (h : ℕ) (data : Bytes) :
    (stream h data).wp (traced E)
      (fun r t => r ≠ none → updateInputs t.2 = updateInputs s.2 ++ chunksFrom data 0) s := by
  unfold stream
  rw [wp_bind]
  refine wp_mono (wp_feed_inputs h _ []) ?_
  intro r t ht
  cases r with
  | none =>
      intro hr
      exact absurd rfl hr
  | some out =>
      dsimp only
      rw [wp_request]
      rintro reply u ⟨-, hu⟩
      have hsame : updateInputs u.2 = updateInputs s.2 ++ chunksFrom data 0 := by
        rw [hu, updateInputs_append, ht (Option.some_ne_none out), chunksFrom_zero]
        simp [updateInputs]
      split_ifs
      · rw [wp_request]
        intro _ _ _ hr
        exact absurd rfl hr
      · intro _
        exact hsame

/-- An encryption that gives something passed its whole input on. -/
theorem wp_encrypt_inputs (u : Int32) (data : Bytes) :
    (encrypt u data).wp (traced E)
      (fun p t => p ≠ [] → updateInputs t.2 = updateInputs s.2 ++ chunksFrom data 0) s := by
  have hfail : ∀ t : KeystoreState × List (Event KeystoreI),
      (([] : Bytes) ≠ [] → updateInputs t.2 = updateInputs s.2 ++ chunksFrom data 0) :=
    fun _ h => absurd rfl h
  unfold encrypt
  rw [wp_request]
  rintro available t ⟨-, ht⟩
  have hquiet : updateInputs t.2 = updateInputs s.2 := by
    rw [ht, updateInputs_append]
    simp [updateInputs]
  split_ifs
  · exact hfail t
  · exact hfail t
  · rw [wp_bind]
    refine wp_mono (wp_quiet (uses_createOrGenerate trivial (uses_generateKey trivial trivial))) ?_
    intro result x hx
    cases result with
    | none => exact hfail x
    | some result =>
        dsimp only
        rw [wp_bind]
        refine wp_mono (wp_quiet (uses_getNonceFromResponse _)) ?_
        intro nonce y hy
        match nonce with
        | none | some [] =>
            dsimp only
            rw [wp_request]
            intro _ z _
            exact hfail z
        | some (b :: bs) =>
            dsimp only
            rw [wp_bind]
            refine wp_mono (wp_stream_inputs _ data) ?_
            intro ciphertext z hz
            cases ciphertext with
            | none => exact hfail z
            | some ciphertext =>
                intro _
                rw [hz (Option.some_ne_none _), hy, hx, hquiet]

theorem wp_decrypt_inputs (u : Int32) {payload nonce ciphertext : Bytes}
    (hparse : parseStoragePayload payload = some (nonce, ciphertext)) :
    (decrypt u payload).wp (traced E)
      (fun d t => d ≠ [] → updateInputs t.2 = updateInputs s.2 ++ chunksFrom ciphertext 0) s := by
  have hfail : ∀ t : KeystoreState × List (Event KeystoreI),
      (([] : Bytes) ≠ [] → updateInputs t.2 = updateInputs s.2 ++ chunksFrom ciphertext 0) :=
    fun _ h => absurd rfl h
  unfold decrypt
  rw [wp_request]
  rintro available t ⟨-, ht⟩
  split_ifs
  · exact hfail t
  · rw [hparse]
    dsimp only
    rw [wp_request]
    rintro ⟨status, result⟩ x ⟨-, hx⟩
    have hquiet : updateInputs x.2 = updateInputs s.2 := by
      rw [hx, ht, updateInputs_append, updateInputs_append]
      simp [updateInputs]
    dsimp only
    split_ifs
    · exact hfail x
    · rw [wp_bind]
      refine wp_mono (wp_stream_inputs _ ciphertext) ?_
      intro out z hz
      cases out with
      | none => exact hfail z
      | some out =>
          intro _
          rw [hz (Option.some_ne_none _), hquiet]

end inputs

theorem parse_serializeStoragePayload {nonce ciphertext : Bytes} (hn : nonce ≠ [])
    (hlen : nonce.length ≤ kMaxNonceSize) (hc : ciphertext ≠ []) :
    parseStoragePayload (serializeStoragePayload nonce ciphertext) = some (nonce, ciphertext) := by
  have hnpos : 0 < nonce.length := List.length_pos_iff.mpr hn
  have hcpos : 0 < ciphertext.length := List.length_pos_iff.mpr hc
  have hframe : serializeStoragePayload nonce ciphertext =
      kStoragePayloadVersion :: UInt8.ofNat nonce.length :: (nonce ++ ciphertext) := by
    refine if_neg ?_
    rintro (h | h | h)
    · exact hn h
    · omega
    · exact hc h
  have hbyte : (UInt8.ofNat nonce.length).toNat = nonce.length := by
    rw [UInt8.toNat_ofNat']
    simp only [kMaxNonceSize] at hlen
    omega
  rw [hframe]
  simp only [parseStoragePayload, List.length_cons, List.length_append, List.getD_cons_zero,
    List.getD_cons_succ, hbyte, List.drop_succ_cons, List.drop_zero, Nat.add_comm 2]
  rw [if_neg (by omega), if_neg (by simp), if_neg (by omega), if_neg (by omega), List.take_left,
    List.drop_left]

section values
variable {K : KeystoreFunctions} {o : KeystoreFaults} {s : KeystoreState} {u : Int32} {data : Bytes}

theorem wp_encrypt (hrel : o.Reliable (getStorageKeyDescriptor u) .encrypt) (hne : data ≠ [])
    {Q : Bytes → KeystoreState → Prop}
    (hQ : ∀ nonce t, nonce ≠ [] → nonce.length ≤ kMaxNonceSize →
      Q (serializeStoragePayload nonce (K.sealWith (getStorageKeyDescriptor u) nonce data)) t) :
    (encrypt u data).wp (keystoreEnv K o) Q s := by
  obtain ⟨hu, hcreate, hupdate, hfinish⟩ := hrel
  unfold encrypt
  rw [wp_request]
  rintro available t ⟨rfl, rfl⟩
  rw [if_neg (by simp [hu]), if_neg hne, wp_bind]
  refine wp_createOrGenerate .encrypt rfl ?_ ?_
  · intro result h nonce x hop hx hnonce
    obtain ⟨hparams, hn, hlen⟩ := hnonce rfl
    obtain ⟨params, hp, hfound⟩ := Option.bind_eq_some_iff.mp hparams
    obtain ⟨b, bs, rfl⟩ := List.exists_cons_of_ne_nil hn
    dsimp only
    rw [getNonceFromResponse, hp]
    simp only [hfound, pure_eq, done_bind]
    rw [hop, Option.getD_some, wp_bind]
    refine wp_stream ⟨getStorageKeyDescriptor u, .encrypt, b :: bs, [], []⟩ hx ?_ ?_
    · intro y
      exact hQ (b :: bs) y hn hlen
    · simp [hupdate, hfinish]
  · intro hfaulty
    rw [hcreate] at hfaulty
    cases hfaulty

theorem may_encrypt (hrel : o.Reliable (getStorageKeyDescriptor u) .encrypt) (hne : data ≠ [])
    {Q : Bytes → KeystoreState → Prop} {nonce : Bytes} (hn : nonce ≠ [])
    (hlen : nonce.length ≤ kMaxNonceSize)
    (hQ : ∀ t, Q (serializeStoragePayload nonce
      (K.sealWith (getStorageKeyDescriptor u) nonce data)) t) :
    (encrypt u data).may (keystoreEnv K o) Q s := by
  obtain ⟨b, bs, rfl⟩ := List.exists_cons_of_ne_nil hn
  unfold encrypt createOrGenerate
  rw [may_request]
  refine ⟨true, s, ⟨by rw [hrel.1]; rfl, rfl⟩, ?_⟩
  rw [if_neg (by simp), if_neg hne, may_bind, may_request]
  refine ⟨(.ok, ⟨some s.length, some [.nonce (b :: bs)]⟩),
    s ++ [⟨getStorageKeyDescriptor u, .encrypt, b :: bs, [], []⟩],
    ⟨.encrypt, rfl, .inl ⟨b :: bs, rfl, rfl, fun _ => ⟨rfl, hn, hlen⟩, nofun, rfl⟩⟩, ?_⟩
  dsimp only
  rw [if_pos (by simp [opens, Status.isOk])]
  simp only [pure_eq, may, getNonceFromResponse, nonceOf, List.findSome?_cons, done_bind,
    Option.getD_some]
  rw [may_bind]
  exact may_stream ⟨getStorageKeyDescriptor u, .encrypt, b :: bs, [], []⟩ (by simp) hQ

/-- Keystore answers for the storage key of the user, and opening inverts sealing
for the nonces that it hands out. -/
structure Answers (K : KeystoreFunctions) (o : KeystoreFaults) (u : Int32) : Prop where
  encrypts : o.Reliable (getStorageKeyDescriptor u) .encrypt
  decrypts : o.Reliable (getStorageKeyDescriptor u) .decrypt
  seal_ne_nil : ∀ nonce d, K.sealWith (getStorageKeyDescriptor u) nonce d ≠ []
  open_seal : ∀ nonce d, nonce ≠ [] → nonce.length ≤ kMaxNonceSize →
    K.openWith (getStorageKeyDescriptor u) nonce
      (K.sealWith (getStorageKeyDescriptor u) nonce d) = some d

theorem cuts_chunksFrom (data : Bytes) : Cuts (chunksFrom data 0) data := by
  rw [chunksFrom_zero]
  exact cuts_chunks data

/-- The frame of sealed data is opened, and its ciphertext is passed on whole. -/
theorem returns_decrypt (h : Answers K o u) (hne : data ≠ []) {nonce : Bytes} (hn : nonce ≠ [])
    (hlen : nonce.length ≤ kMaxNonceSize) (x : KeystoreState × List (Event KeystoreI)) :
    (decrypt u (serializeStoragePayload nonce
      (K.sealWith (getStorageKeyDescriptor u) nonce data))).returns (traced (keystoreEnv K o))
      (fun d y => d = data ∧ updateInputs y.2 = updateInputs x.2 ++
        chunksFrom (K.sealWith (getStorageKeyDescriptor u) nonce data) 0) x := by
  have hparse := parse_serializeStoragePayload hn hlen (h.seal_ne_nil nonce data)
  have hvalue : (cryptoOf K 0 fun _ => []).decrypt u (serializeStoragePayload nonce
      (K.sealWith (getStorageKeyDescriptor u) nonce data)) = data := by
    simp only [cryptoOf, hparse, h.open_seal nonce data hn hlen, Option.getD_some]
  refine ⟨?_, ?_⟩
  · have hmay : (decrypt u (serializeStoragePayload nonce
        (K.sealWith (getStorageKeyDescriptor u) nonce data))).may (keystoreEnv K o)
        (fun d _ => d = data) x.1 := may_decrypt h.decrypts fun _ => hvalue
    obtain ⟨d, t, hrun, -⟩ := may_iff_run.mp hmay
    obtain ⟨tr, htr⟩ := hrun.record x.2
    exact ⟨d, (t, tr), htr⟩
  · have hopened : (decrypt u (serializeStoragePayload nonce
        (K.sealWith (getStorageKeyDescriptor u) nonce data))).wp (keystoreEnv K o)
        (fun d _ => d = data) x.1 :=
      wp_decrypt (fun _ => hvalue) fun hno => absurd h.decrypts hno
    refine wp_mono (wp_and (wp_traced hopened) (wp_decrypt_inputs u hparse)) ?_
    rintro d y ⟨rfl, hinputs⟩
    exact ⟨rfl, hinputs hne⟩

/-- What `encrypt` returns decrypts to the data. Each of the two passes its input
on in the pieces of the chunk loop, which are the input in order. -/
theorem encryption_round_trip (h : Answers K o u) (hne : data ≠ []) (s : KeystoreState) :
    (encrypt u data).returns (traced (keystoreEnv K o)) (fun p x =>
      updateInputs x.2 = chunksFrom data 0 ∧ Cuts (chunksFrom data 0) data ∧
      (decrypt u p).returns (traced (keystoreEnv K o)) (fun d y => d = data ∧
        ∃ nonce ciphertext, parseStoragePayload p = some (nonce, ciphertext) ∧
          updateInputs y.2 = updateInputs x.2 ++ chunksFrom ciphertext 0 ∧
          Cuts (chunksFrom ciphertext 0) ciphertext) x) (s, []) := by
  refine ⟨?_, ?_⟩
  · obtain ⟨p, t, hrun, -⟩ := may_iff_run.mp (may_encrypt (K := K) (s := s) h.encrypts hne
      (Q := fun _ _ => True) (List.cons_ne_nil 0 []) (by decide) fun _ => trivial)
    obtain ⟨tr, htr⟩ := hrun.record []
    exact ⟨p, (t, tr), htr⟩
  · have hsealed : (encrypt u data).wp (keystoreEnv K o) (fun p _ => ∃ nonce : Bytes,
        nonce ≠ [] ∧ nonce.length ≤ kMaxNonceSize ∧ p = serializeStoragePayload nonce
          (K.sealWith (getStorageKeyDescriptor u) nonce data)) s :=
      wp_encrypt h.encrypts hne fun nonce _ hn hlen => ⟨nonce, hn, hlen, rfl⟩
    refine wp_mono (wp_and (wp_traced (s := (s, [])) hsealed) (wp_encrypt_inputs u data)) ?_
    rintro p x ⟨⟨nonce, hn, hlen, rfl⟩, hinputs⟩
    have hparse := parse_serializeStoragePayload hn hlen (h.seal_ne_nil nonce data)
    have hframe : serializeStoragePayload nonce
        (K.sealWith (getStorageKeyDescriptor u) nonce data) ≠ [] := by
      intro hnil
      rw [hnil] at hparse
      cases hparse
    refine ⟨hinputs hframe, cuts_chunksFrom data, ?_⟩
    refine returns_mono (returns_decrypt h hne hn hlen x) ?_
    rintro d y ⟨rfl, hfed⟩
    exact ⟨rfl, nonce, _, hparse, hfed, cuts_chunksFrom _⟩

/-- The functions of a Keystore that prepends a byte. -/
def prependingKeystore : KeystoreFunctions where
  sealWith _ _ d := 0 :: d
  openWith _ _ c := some c.tail
  hmac _ _ := []

def noFaults : KeystoreFaults where
  unavailable := false
  create _ _ := false
  update _ _ := false
  finish _ _ := false

/-- What the replies to updates and finishes gave out. -/
def outputs (tr : List (Event KeystoreI)) : List Bytes :=
  tr.filterMap fun
    | ⟨.update _ _, reply⟩ => reply.output
    | ⟨.finish _, reply⟩ => reply.output
    | _ => none

/-- One byte more than a chunk holds. -/
def longData : Bytes := List.replicate (kChunkSize + 1) 7

theorem chunksFrom_longData : chunksFrom longData 0 = [List.replicate kChunkSize 7, [7]] := by
  have hlength : longData.length = 4097 := List.length_replicate
  have hfirst : (longData.drop 0).take 4096 = List.replicate kChunkSize 7 :=
    List.take_replicate.trans rfl
  have hlast : (longData.drop 4096).take 1 = [7] := by
    rw [longData, List.drop_replicate]
    rfl
  have hend : chunksFrom longData 4097 = [] := by
    rw [chunksFrom, hlength, if_neg (by decide)]
  have hsecond : chunksFrom longData 4096 = [[7]] := by
    rw [chunksFrom, hlength, if_pos (by decide)]
    change (longData.drop 4096).take 1 :: chunksFrom longData 4097 = _
    rw [hlast, hend]
  rw [chunksFrom, hlength, if_pos (by decide)]
  change (longData.drop 0).take 4096 :: chunksFrom longData 4096 = _
  rw [hfirst, hsecond]

theorem may_traced {E : Environment KeystoreI KeystoreState} {c : KeystoreCall} {α : Type}
    {f : c.Reply → Program KeystoreI α} {Q : α → KeystoreState × List (Event KeystoreI) → Prop}
    {s t : KeystoreState} {tr : List (Event KeystoreI)} (r : c.Reply) (hcall : E c s r t)
    (h : (f r).may (traced E) Q (t, tr ++ [⟨c, r⟩])) :
    (request c >>= f).may (traced E) Q (s, tr) := ⟨r, _, ⟨hcall, rfl⟩, h⟩

/-- An encryption of two chunks. Keystore gives out the start of its output with the first of them
and the rest at the end. -/
theorem run_longData : ∃ p x, Run (traced (keystoreEnv prependingKeystore noFaults))
    (encrypt 10 longData) ([], []) p x ∧
      outputs x.2 = [[0, 7], [], List.replicate kChunkSize 7] := by
  refine may_iff_run.mp ?_
  unfold encrypt createOrGenerate
  refine may_traced true ⟨rfl, rfl⟩ ?_
  rw [if_neg (by simp), if_neg (by simp [longData]), may_bind]
  refine may_traced (.ok, ⟨some 0, some [.nonce [5]]⟩)
    ⟨.encrypt, rfl, .inl ⟨[5], rfl, rfl, fun _ => ⟨rfl, by decide, by decide⟩, nofun, rfl⟩⟩ ?_
  dsimp only
  rw [if_pos (by simp [opens, Status.isOk])]
  simp only [pure_eq, may, getNonceFromResponse, nonceOf, List.findSome?_cons, done_bind,
    Option.getD_some]
  unfold stream
  rw [← chunksFrom_zero, chunksFrom_longData, may_bind, may_bind]
  unfold feed
  refine may_traced ⟨.ok, some [0, 7]⟩ ⟨_, rfl, .inl ⟨rfl, rfl⟩⟩ ?_
  rw [if_neg (by simp [Status.isOk])]
  unfold feed
  refine may_traced ⟨.ok, some []⟩ ⟨_, rfl, .inl ⟨rfl, rfl⟩⟩ ?_
  rw [if_neg (by simp [Status.isOk])]
  unfold feed
  simp only [pure_eq, may]
  refine may_traced ⟨.ok, some (List.replicate kChunkSize 7)⟩ ⟨rfl, _, rfl, .inl ⟨rfl, ?_⟩⟩ ?_
  · have hsealed : (0 :: longData : Bytes) = [0, 7] ++ List.replicate kChunkSize 7 :=
      congrArg (List.cons 0) List.replicate_succ
    have hinput : List.replicate kChunkSize 7 ++ [7] = longData := List.replicate_succ'.symm
    change some (0 :: ([] ++ List.replicate kChunkSize 7 ++ [7])) = _
    rw [List.nil_append, hinput, hsealed]
    rfl
  · rw [if_neg (by simp [Status.isOk])]
    rfl

theorem encryption_round_trip_chunks : ∃ p x,
    Run (traced (keystoreEnv prependingKeystore noFaults)) (encrypt 10 longData) ([], []) p x ∧
      outputs x.2 = [[0, 7], [], List.replicate kChunkSize 7] ∧
      updateInputs x.2 = [List.replicate kChunkSize 7, [7]] ∧
      (decrypt 10 p).returns (traced (keystoreEnv prependingKeystore noFaults)) (fun d y =>
        d = longData ∧ ∃ nonce ciphertext, parseStoragePayload p = some (nonce, ciphertext) ∧
          updateInputs y.2 = updateInputs x.2 ++ chunksFrom ciphertext 0 ∧
          Cuts (chunksFrom ciphertext 0) ciphertext) x := by
  obtain ⟨p, x, hrun, houtputs⟩ := run_longData
  have hanswers : Answers prependingKeystore noFaults 10 := ⟨⟨rfl, rfl, rfl, rfl⟩,
    ⟨rfl, rfl, rfl, rfl⟩, fun _ _ => List.cons_ne_nil _ _, fun _ _ _ _ => rfl⟩
  have hne : longData ≠ [] := List.cons_ne_nil 7 _
  obtain ⟨hinputs, -, hdecrypts⟩ := hrun.wp (encryption_round_trip hanswers hne []).2
  exact ⟨p, x, hrun, houtputs, hinputs.trans chunksFrom_longData, hdecrypts⟩

end values

end CryptoClient
end FaceHal
