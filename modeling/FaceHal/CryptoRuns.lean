import FaceHal.CryptoClient
import FaceHal.StorageCalls

/-!
# What the Keystore client computes

The chunk loop adds nothing: an operation that is fed in chunks gives the result
for the whole input, or nothing when a call of it fails. So each function of the
client is the function of `Crypto` that Keystore determines, or the empty vector
when a request for its key and purpose can fail; and where it can fail, there is
a run in which it does.
-/
namespace FaceHal
namespace CryptoClient
open Program

/-- The functions that the client computes while Keystore answers. -/
def cryptoOf (K : KeystoreFunctions) (currentVersion : UInt32) (nonces : ℕ → Bytes) : Crypto where
  currentVersion := currentVersion
  encrypt n u d := serializeStoragePayload (nonces n)
    (K.sealWith (getStorageKeyDescriptor u) (nonces n) d)
  decrypt u payload :=
    match parseStoragePayload payload with
    | none => []
    | some (nonce, ciphertext) => (K.openWith (getStorageKeyDescriptor u) nonce ciphertext).getD []
  mac d := K.hmac getMacKeyDescriptor d

theorem flatten_chunks {fuel : ℕ} {data : Bytes} (h : data.length ≤ fuel) :
    (chunks fuel data).flatten = data := by
  induction fuel generalizing data with
  | zero =>
      have hnil : data = [] := List.length_eq_zero_iff.mp (by omega)
      rw [hnil]
      rfl
  | succ fuel ih =>
      unfold chunks
      split_ifs with hd
      · rw [hd]
        rfl
      · have hpos : 0 < data.length := List.length_pos_iff.mpr hd
        have hdrop : (data.drop kChunkSize).length ≤ fuel := by
          rw [List.length_drop]
          simp only [kChunkSize]
          omega
        rw [List.flatten_cons, ih hdrop, List.take_append_drop]

theorem chunks_eq_nil {fuel : ℕ} {data : Bytes} (h : data.length ≤ fuel) :
    chunks fuel data = [] ↔ data = [] := by
  constructor
  · intro hc
    rw [← flatten_chunks h, hc]
    rfl
  · rintro rfl
    cases fuel <;> rfl

section requests
variable {P : KeystoreCall → Prop}

theorem uses_request {c : KeystoreCall} {α : Type} {f : c.Reply → Program KeystoreI α} :
    (request c >>= f).Uses P ↔ P c ∧ ∀ r, (f r).Uses P := Iff.rfl

theorem uses_generateKey {key : KeyDescriptor} {params : List KeyParameter}
    (hlevel : P .securityLevel) (hgenerate : P (.generateKey key params)) :
    (generateKey key params).Uses P := by
  unfold generateKey
  rw [uses_request]
  refine ⟨hlevel, fun available => ?_⟩
  split_ifs
  · trivial
  · rw [uses_request]
    refine ⟨hgenerate, fun status => ?_⟩
    split_ifs <;> trivial

theorem uses_createOrGenerate {key : KeyDescriptor} {opParams : List KeyParameter}
    {generate : Program KeystoreI Bool} (hcreate : P (.createOperation key opParams))
    (h : generate.Uses P) : (createOrGenerate key opParams generate).Uses P := by
  unfold createOrGenerate
  rw [uses_request]
  refine ⟨hcreate, ?_⟩
  rintro ⟨status, result⟩
  dsimp only
  split_ifs
  · trivial
  · trivial
  · refine uses_bind h ?_
    intro generated
    split_ifs
    · trivial
    · rw [uses_request]
      refine ⟨hcreate, ?_⟩
      rintro ⟨status', result'⟩
      dsimp only
      split_ifs <;> trivial

theorem uses_feed (hupdate : ∀ h d, P (.update h d)) (habort : ∀ h, P (.abort h)) (h : ℕ)
    (cs : List Bytes) (out : Bytes) : (feed h cs out).Uses P := by
  induction cs generalizing out with
  | nil => trivial
  | cons chunk rest ih =>
      unfold feed
      rw [uses_request]
      refine ⟨hupdate h chunk, fun reply => ?_⟩
      split_ifs
      · exact ⟨habort h, fun _ => trivial⟩
      · exact ih _

theorem uses_stream (hupdate : ∀ h d, P (.update h d)) (hfinish : ∀ h, P (.finish h))
    (habort : ∀ h, P (.abort h)) (h : ℕ) (data : Bytes) : (stream h data).Uses P := by
  unfold stream
  refine uses_bind (uses_feed hupdate habort h _ _) ?_
  intro out
  cases out with
  | none => trivial
  | some out =>
      dsimp only
      rw [uses_request]
      refine ⟨hfinish h, fun reply => ?_⟩
      split_ifs
      · exact ⟨habort h, fun _ => trivial⟩
      · trivial

end requests

/-- A request on the data can fail. -/
def MayFail (o : KeystoreFaults) (key : KeyDescriptor) (purpose : KeyPurpose)
    (data : Bytes) : Prop :=
  o.unavailable = true ∨ o.create key purpose = true ∨ o.update key purpose = true ∧ data ≠ [] ∨
    o.finish key purpose = true

instance (o : KeystoreFaults) (key : KeyDescriptor) (purpose : KeyPurpose) (data : Bytes) :
    Decidable (MayFail o key purpose data) :=
  inferInstanceAs (Decidable (_ ∨ _ ∨ _ ∧ _ ∨ _))

theorem mayFail_iff {o : KeystoreFaults} {key : KeyDescriptor} {purpose : KeyPurpose} {data : Bytes}
    (h : data ≠ []) : MayFail o key purpose data ↔ ¬ o.Reliable key purpose := by
  unfold MayFail KeystoreFaults.Reliable
  cases o.unavailable <;> cases o.create key purpose <;> cases o.update key purpose <;>
    cases o.finish key purpose <;> simp [h]

theorem not_mayFail_of_reliable {o : KeystoreFaults} {key : KeyDescriptor} {purpose : KeyPurpose}
    (h : o.Reliable key purpose) (data : Bytes) : ¬ MayFail o key purpose data := by
  obtain ⟨h₁, h₂, h₃, h₄⟩ := h
  unfold MayFail
  simp [h₁, h₂, h₃, h₄]

section stream
variable {K : KeystoreFunctions} {o : KeystoreFaults} {s : KeystoreState} {h : ℕ}

theorem isOk_iff {status : Status} : status.isOk = true ↔ status = .ok := by
  cases status <;> simp [Status.isOk]

/-- The chunk loop passes the whole input on and collects what came out. -/
theorem wp_feed (op : Operation) {cs : List Bytes} {Q : Option Bytes → KeystoreState → Prop}
    (hs : s[h]? = some op)
    (hfed : ∀ out t, t[h]? = some { op with input := op.input ++ cs.flatten, emitted := out } →
      Q (some out) t)
    (hfail : o.update op.key op.purpose = true → cs ≠ [] → ∀ t, Q none t) :
    (feed h cs op.emitted).wp (keystoreEnv K o) Q s := by
  induction cs generalizing s op with
  | nil =>
      refine hfed op.emitted s ?_
      simpa using hs
  | cons chunk rest ih =>
      unfold feed
      rw [wp_request]
      rintro reply t ⟨op', hop', hreply⟩
      obtain rfl := Option.some.inj (hs.symm.trans hop')
      rcases hreply with ⟨hok, rfl⟩ | ⟨hfaulty, hbad, rfl⟩
      · have hcont : ¬ (!reply.status.isOk) = true := by simp [isOk_iff.mpr hok]
        rw [if_neg hcont]
        have hlt : h < s.length := (List.getElem?_eq_some_iff.mp hs).choose
        refine ih (op.push chunk (reply.output.getD [])) (List.getElem?_set_self hlt) ?_ ?_
        · intro out t ht
          refine hfed out t ?_
          rw [ht, List.flatten_cons, Operation.push, List.append_assoc]
        · intro hu _ t
          exact hfail hu (List.cons_ne_nil _ _) t
      · have hstop : (!reply.status.isOk) = true := by
          cases hst : reply.status with
          | ok => exact absurd hst hbad
          | error _ => rfl
        rw [if_pos hstop, wp_request]
        rintro _ t rfl
        exact hfail hfaulty (List.cons_ne_nil _ _) t

/-- An operation fed in chunks gives its result on the whole input. -/
theorem wp_stream (op : Operation) {data : Bytes} {Q : Option Bytes → KeystoreState → Prop}
    (hs : s[h]? = some ⟨op.key, op.purpose, op.nonce, [], []⟩)
    (hresult : ∀ t, Q (Operation.result K { op with input := data }) t)
    (hfail : o.update op.key op.purpose = true ∧ data ≠ [] ∨ o.finish op.key op.purpose = true →
      ∀ t, Q none t) :
    (stream h data).wp (keystoreEnv K o) Q s := by
  unfold stream
  rw [wp_bind]
  refine wp_feed ⟨op.key, op.purpose, op.nonce, [], []⟩ hs ?_ ?_
  · intro out t ht
    rw [flatten_chunks le_rfl, List.nil_append] at ht
    dsimp only
    rw [wp_request]
    rintro reply t' ⟨rfl, op', hop', hreply⟩
    obtain rfl := Option.some.inj (ht.symm.trans hop')
    rcases hreply with ⟨hok, hres⟩ | ⟨hbad, hst⟩
    · have hcont : ¬ (!reply.status.isOk) = true := by simp [isOk_iff.mpr hok]
      rw [if_neg hcont]
      have hend := hresult t'
      have hsame : Operation.result K { op with input := data } =
          Operation.result K ⟨op.key, op.purpose, op.nonce, data, out⟩ := rfl
      rw [hsame, hres] at hend
      exact hend
    · have hstop : (!reply.status.isOk) = true := by
        cases hs' : reply.status with
        | ok => exact absurd hs' hst
        | error _ => rfl
      rw [if_pos hstop, wp_request]
      rintro _ u rfl
      rcases hbad with hnone | hfin
      · have hend := hresult u
        have hsame : Operation.result K { op with input := data } =
            Operation.result K ⟨op.key, op.purpose, op.nonce, data, out⟩ := rfl
        rw [hsame, hnone] at hend
        exact hend
      · exact hfail (.inr hfin) u
  · intro hu hne t
    refine hfail (.inl ⟨hu, ?_⟩) t
    rintro rfl
    exact hne rfl

/-- Creating an operation, with or without generating the key, gives a fresh one
or fails. -/
theorem wp_createOrGenerate {key : KeyDescriptor} {params : List KeyParameter}
    (purpose : KeyPurpose)
    {generate : Program KeystoreI Bool} (hp : purposeOf params = some purpose)
    {Q : Option CreateOperationResponse → KeystoreState → Prop}
    (hopen : ∀ (result : CreateOperationResponse) h nonce t, result.iOperation = some h →
      t[h]? = some ⟨key, purpose, nonce, [], []⟩ →
      (purpose = .encrypt → result.parameters.bind nonceOf = some nonce ∧ nonce ≠ [] ∧
        nonce.length ≤ 32) → Q (some result) t)
    (hfail : o.create key purpose = true → ∀ t, Q none t) :
    (createOrGenerate key params generate).wp (keystoreEnv K o) Q s := by
  have hnew : ∀ (s : KeystoreState) op, (s ++ [op])[s.length]? = some op := by simp
  unfold createOrGenerate
  rw [wp_request]
  rintro ⟨status, result⟩ t ⟨purpose', hp', hcreate⟩
  obtain rfl := Option.some.inj (hp.symm.trans hp')
  rcases hcreate with ⟨nonce, hok, hop, hn, -, rfl⟩ | ⟨hfaulty, hno, rfl⟩
  · have hopens : opens (status, result) = true := by
      simp only at hok hop
      simp [opens, hok, hop, Status.isOk]
    dsimp only
    rw [if_pos hopens]
    exact hopen result _ nonce _ hop (hnew _ _) hn
  · dsimp only
    rw [if_neg (by simp [hno])]
    split_ifs
    · exact hfail hfaulty t
    · rw [wp_bind]
      refine wp_of_forall _ fun generated u => ?_
      split_ifs
      · exact hfail hfaulty u
      · rw [wp_request]
        rintro ⟨status', result'⟩ t' ⟨purpose', hp', hcreate⟩
        obtain rfl := Option.some.inj (hp.symm.trans hp')
        rcases hcreate with ⟨nonce, hok, hop, hn, -, rfl⟩ | ⟨-, hno', rfl⟩
        · have hopens : opens (status', result') = true := by
            simp only at hok hop
            simp [opens, hok, hop, Status.isOk]
          dsimp only
          rw [if_neg (by simp [hopens])]
          exact hopen result' _ nonce _ hop (hnew _ _) hn
        · dsimp only
          rw [if_pos (by simp [hno'])]
          exact hfail hfaulty t'

theorem wp_signWithHmacKey {data : Bytes} {Q : Bytes → KeystoreState → Prop}
    (hmac : ∀ t, Q (K.hmac getMacKeyDescriptor data) t)
    (hfail : MayFail o getMacKeyDescriptor .sign data → ∀ t, Q [] t) :
    (signWithHmacKey data).wp (keystoreEnv K o) Q s := by
  unfold signWithHmacKey
  rw [wp_request]
  rintro available t ⟨rfl, rfl⟩
  cases hu : o.unavailable with
  | true => exact hfail (.inl hu) t
  | false =>
      rw [if_neg (by simp), wp_bind]
      refine wp_createOrGenerate .sign rfl ?_ ?_
      · intro result h nonce t hop ht _
        dsimp only
        rw [hop, Option.getD_some, wp_bind]
        refine wp_stream ⟨getMacKeyDescriptor, .sign, nonce, [], []⟩ ht ?_ ?_
        · intro t
          exact hmac t
        · rintro (h | h)
          · exact hfail (.inr (.inr (.inl h)))
          · exact hfail (.inr (.inr (.inr h)))
      · intro hc t
        exact hfail (.inr (.inl hc)) t

theorem wp_decrypt {u : Int32} {payload : Bytes} {v : UInt32} {nonces : ℕ → Bytes}
    {Q : Bytes → KeystoreState → Prop}
    (hopen : ∀ t, Q ((cryptoOf K v nonces).decrypt u payload) t)
    (hfail : ¬ o.Reliable (getStorageKeyDescriptor u) .decrypt → ∀ t, Q [] t) :
    (decrypt u payload).wp (keystoreEnv K o) Q s := by
  have hfault : ∀ data, MayFail o (getStorageKeyDescriptor u) .decrypt data → ∀ t, Q [] t := by
    intro data hm
    refine hfail ?_
    intro hrel
    exact not_mayFail_of_reliable hrel data hm
  unfold decrypt
  rw [wp_request]
  rintro available t ⟨rfl, rfl⟩
  cases hu : o.unavailable with
  | true => exact hfault [] (.inl hu) t
  | false =>
      rw [if_neg (by simp)]
      simp only [cryptoOf] at hopen
      cases hparse : parseStoragePayload payload with
      | none =>
          rw [hparse] at hopen
          exact hopen t
      | some parts =>
          obtain ⟨nonce, ciphertext⟩ := parts
          rw [hparse] at hopen
          dsimp only
          rw [wp_request]
          rintro ⟨status, result⟩ t' ⟨purpose, hp, hcreate⟩
          obtain rfl : KeyPurpose.decrypt = purpose := Option.some.inj hp
          rcases hcreate with ⟨nonce', hok, hop, -, hn, rfl⟩ | ⟨hfaulty, hno, rfl⟩
          · obtain rfl : nonce = nonce' := Option.some.inj (hn rfl)
            simp only at hok hop
            have hopens : opens (status, result) = true := by
              simp [opens, hok, hop, Status.isOk]
            dsimp only
            rw [if_neg (by simp [hopens]), hop, Option.getD_some, wp_bind]
            refine wp_stream ⟨getStorageKeyDescriptor u, .decrypt, nonce, [], []⟩
              (by simp) ?_ ?_
            · intro t
              exact hopen t
            · rintro (h | h)
              · exact hfault _ (.inr (.inr (.inl h)))
              · exact hfault ciphertext (.inr (.inr (.inr h)))
          · dsimp only
            rw [if_pos (by simp [hno])]
            exact hfault [] (.inr (.inl hfaulty)) t'

theorem may_feed (op : Operation) {cs : List Bytes} {Q : Option Bytes → KeystoreState → Prop}
    (hs : s[h]? = some op)
    (hfed : ∀ t, t[h]? = some { op with input := op.input ++ cs.flatten } → Q (some op.emitted) t) :
    (feed h cs op.emitted).may (keystoreEnv K o) Q s := by
  induction cs generalizing s op with
  | nil =>
      refine hfed s ?_
      simpa using hs
  | cons chunk rest ih =>
      have hlt : h < s.length := (List.getElem?_eq_some_iff.mp hs).choose
      unfold feed
      rw [may_request]
      refine ⟨⟨.ok, none⟩, s.set h (op.push chunk []), ⟨op, hs, .inl ⟨rfl, rfl⟩⟩, ?_⟩
      rw [if_neg (by simp [Status.isOk])]
      refine ih (op.push chunk []) (List.getElem?_set_self hlt) ?_
      intro t ht
      have hend := hfed t (by rw [ht, List.flatten_cons]; simp [Operation.push])
      simpa [Operation.push] using hend

theorem may_stream (op : Operation) {data : Bytes} {Q : Option Bytes → KeystoreState → Prop}
    (hs : s[h]? = some ⟨op.key, op.purpose, op.nonce, [], []⟩)
    (hresult : ∀ t, Q (Operation.result K { op with input := data }) t) :
    (stream h data).may (keystoreEnv K o) Q s := by
  unfold stream
  rw [may_bind]
  refine may_feed ⟨op.key, op.purpose, op.nonce, [], []⟩ hs ?_
  intro t ht
  rw [flatten_chunks le_rfl, List.nil_append] at ht
  dsimp only
  rw [may_request]
  have hend := hresult t
  have hsame : Operation.result K { op with input := data } =
      Operation.result K ⟨op.key, op.purpose, op.nonce, data, []⟩ := rfl
  rw [hsame] at hend
  cases hres : Operation.result K ⟨op.key, op.purpose, op.nonce, data, []⟩ with
  | some out =>
      refine ⟨⟨.ok, some out⟩, t, ⟨rfl, _, ht, .inl ⟨rfl, hres⟩⟩, ?_⟩
      rw [if_neg (by simp [Status.isOk])]
      rw [hres] at hend
      exact hend
  | none =>
      refine ⟨⟨.error [], none⟩, t, ⟨rfl, _, ht, .inr ⟨.inl hres, by simp⟩⟩, ?_⟩
      rw [if_pos (by simp [Status.isOk]), may_request]
      rw [hres] at hend
      exact ⟨(), t, rfl, hend⟩

theorem may_stream_fail (op : Operation) {data : Bytes} {Q : Option Bytes → KeystoreState → Prop}
    (hs : s[h]? = some ⟨op.key, op.purpose, op.nonce, [], []⟩)
    (hfaulty : o.update op.key op.purpose = true ∧ data ≠ [] ∨ o.finish op.key op.purpose = true)
    (hfail : ∀ t, Q none t) : (stream h data).may (keystoreEnv K o) Q s := by
  unfold stream
  rw [may_bind]
  rcases hfaulty with ⟨hu, hd⟩ | hf
  · cases hc : chunks data.length data with
    | nil => exact absurd ((chunks_eq_nil le_rfl).mp hc) hd
    | cons chunk rest =>
        unfold feed
        rw [may_request]
        refine ⟨⟨.error [], none⟩, s, ⟨_, hs, .inr ⟨hu, by simp, rfl⟩⟩, ?_⟩
        rw [if_pos (by simp [Status.isOk]), may_request]
        exact ⟨(), s, rfl, hfail s⟩
  · refine may_feed ⟨op.key, op.purpose, op.nonce, [], []⟩ hs ?_
    intro t ht
    dsimp only
    rw [may_request]
    refine ⟨⟨.error [], none⟩, t, ⟨rfl, _, ht, .inr ⟨.inr hf, by simp⟩⟩, ?_⟩
    rw [if_pos (by simp [Status.isOk]), may_request]
    exact ⟨(), t, rfl, hfail t⟩

/-- A run that opens the operation goes on with the chunks. -/
theorem may_signWithHmacKey_stream {data : Bytes} {Q : Bytes → KeystoreState → Prop}
    (hu : o.unavailable = false)
    (hstream : (stream s.length data).may (keystoreEnv K o) (fun r t => Q (r.getD []) t)
      (s ++ [⟨getMacKeyDescriptor, .sign, [], [], []⟩])) :
    (signWithHmacKey data).may (keystoreEnv K o) Q s := by
  unfold signWithHmacKey createOrGenerate
  rw [may_request]
  refine ⟨true, s, ⟨by rw [hu]; rfl, rfl⟩, ?_⟩
  rw [if_neg (by simp), may_bind, may_request]
  refine ⟨(.ok, ⟨some s.length, none⟩), s ++ [⟨getMacKeyDescriptor, .sign, [], [], []⟩],
    ⟨.sign, rfl, .inl ⟨[], rfl, rfl, nofun, nofun, rfl⟩⟩, ?_⟩
  dsimp only
  rw [if_pos (by simp [opens, Status.isOk])]
  change (stream s.length data >>= fun r => pure (r.getD [])).may _ _ _
  rw [may_bind]
  exact hstream

theorem may_signWithHmacKey {data : Bytes} {Q : Bytes → KeystoreState → Prop}
    (hok : ¬ MayFail o getMacKeyDescriptor .sign data)
    (hmac : ∀ t, Q (K.hmac getMacKeyDescriptor data) t) :
    (signWithHmacKey data).may (keystoreEnv K o) Q s := by
  have hu : o.unavailable = false := by
    cases hu : o.unavailable with
    | false => rfl
    | true => exact absurd (.inl hu) hok
  refine may_signWithHmacKey_stream hu ?_
  exact may_stream ⟨getMacKeyDescriptor, .sign, [], [], []⟩ (by simp) hmac

theorem may_signWithHmacKey_fail {data : Bytes} {Q : Bytes → KeystoreState → Prop}
    (hfaulty : MayFail o getMacKeyDescriptor .sign data) (hfail : ∀ t, Q [] t) :
    (signWithHmacKey data).may (keystoreEnv K o) Q s := by
  cases hu : o.unavailable with
  | true =>
      unfold signWithHmacKey createOrGenerate
      rw [may_request]
      exact ⟨false, s, ⟨by rw [hu]; rfl, rfl⟩, hfail s⟩
  | false =>
      rcases hfaulty with h | h | h
      · rw [hu] at h
        cases h
      · unfold signWithHmacKey createOrGenerate
        rw [may_request]
        refine ⟨true, s, ⟨by rw [hu]; rfl, rfl⟩, ?_⟩
        rw [if_neg (by simp), may_bind, may_request]
        refine ⟨(.error [], ⟨none, none⟩), s, ⟨.sign, rfl, .inr ⟨h, rfl, rfl⟩⟩, ?_⟩
        exact hfail s
      · refine may_signWithHmacKey_stream hu ?_
        exact may_stream_fail ⟨getMacKeyDescriptor, .sign, [], [], []⟩ (by simp) h hfail

theorem ciphertext_ne_nil {payload nonce ciphertext : Bytes}
    (h : parseStoragePayload payload = some (nonce, ciphertext)) : ciphertext ≠ [] := by
  unfold parseStoragePayload at h
  dsimp only at h
  split_ifs at h with h₁ h₂ h₃ h₄
  obtain ⟨-, rfl⟩ := Prod.mk.inj (Option.some.inj h)
  intro hnil
  have hlen := congrArg List.length hnil
  simp only [List.length_drop, List.length_nil] at hlen
  omega

theorem may_decrypt {u : Int32} {payload : Bytes} {v : UInt32} {nonces : ℕ → Bytes}
    {Q : Bytes → KeystoreState → Prop} (hok : o.Reliable (getStorageKeyDescriptor u) .decrypt)
    (hopen : ∀ t, Q ((cryptoOf K v nonces).decrypt u payload) t) :
    (decrypt u payload).may (keystoreEnv K o) Q s := by
  unfold decrypt
  rw [may_request]
  refine ⟨true, s, ⟨by rw [hok.1]; rfl, rfl⟩, ?_⟩
  rw [if_neg (by simp)]
  simp only [cryptoOf] at hopen
  cases hparse : parseStoragePayload payload with
  | none =>
      rw [hparse] at hopen
      exact hopen s
  | some parts =>
      obtain ⟨nonce, ciphertext⟩ := parts
      rw [hparse] at hopen
      dsimp only
      rw [may_request]
      refine ⟨(.ok, ⟨some s.length, none⟩), s ++
        [⟨getStorageKeyDescriptor u, .decrypt, nonce, [], []⟩],
        ⟨.decrypt, rfl, .inl ⟨nonce, rfl, rfl, nofun, fun _ => rfl, rfl⟩⟩, ?_⟩
      dsimp only
      rw [if_neg (by simp [opens, Status.isOk]), Option.getD_some, may_bind]
      exact may_stream ⟨getStorageKeyDescriptor u, .decrypt, nonce, [], []⟩ (by simp) hopen

theorem may_decrypt_fail {u : Int32} {payload : Bytes} {Q : Bytes → KeystoreState → Prop}
    (hfaulty : ¬ o.Reliable (getStorageKeyDescriptor u) .decrypt) (hfail : ∀ t, Q [] t) :
    (decrypt u payload).may (keystoreEnv K o) Q s := by
  unfold decrypt
  rw [may_request]
  refine ⟨!o.unavailable, s, ⟨rfl, rfl⟩, ?_⟩
  cases hu : o.unavailable with
  | true => exact hfail s
  | false =>
      rw [if_neg (by simp)]
      cases hparse : parseStoragePayload payload with
      | none => exact hfail s
      | some parts =>
          obtain ⟨nonce, ciphertext⟩ := parts
          dsimp only
          rw [may_request]
          rw [← mayFail_iff (ciphertext_ne_nil hparse)] at hfaulty
          rcases hfaulty with h | h | h
          · rw [hu] at h
            cases h
          · refine ⟨(.error [], ⟨none, none⟩), s, ⟨.decrypt, rfl, .inr ⟨h, rfl, rfl⟩⟩, ?_⟩
            exact hfail s
          · refine ⟨(.ok, ⟨some s.length, none⟩),
              s ++ [⟨getStorageKeyDescriptor u, .decrypt, nonce, [], []⟩],
              ⟨.decrypt, rfl, .inl ⟨nonce, rfl, rfl, nofun, fun _ => rfl, rfl⟩⟩, ?_⟩
            dsimp only
            rw [if_neg (by simp [opens, Status.isOk]), Option.getD_some, may_bind]
            exact may_stream_fail ⟨getStorageKeyDescriptor u, .decrypt, nonce, [], []⟩
              (by simp) h hfail

theorem compareMac_eq {mac calculated : Bytes} (hne : mac ≠ []) :
    (if calculated = [] then (pure false : Program KeystoreI Bool)
      else if mac.length ≠ calculated.length then pure false else pure (mac == calculated)) =
      pure (mac == calculated) := by
  by_cases he : mac = calculated
  · rw [he] at hne
    rw [he, if_neg hne, if_neg (by simp)]
  · have hneq : (mac == calculated) = false := by simpa using he
    rw [hneq]
    split_ifs <;> rfl

theorem verifies_of_ne_nil {C : Crypto} {data mac : Bytes} (hne : mac ≠ []) :
    C.verifies data mac = (mac == C.mac data) := by
  simp [Crypto.verifies, hne]

/-- Verifying compares with the MAC of the data, or rejects when a request can
fail. -/
theorem wp_verifyMac {data mac : Bytes} {v : UInt32} {nonces : ℕ → Bytes}
    {Q : Bool → KeystoreState → Prop}
    (hmac : ∀ t, Q ((cryptoOf K v nonces).verifies data mac) t)
    (hfail : MayFail o getMacKeyDescriptor .sign data → ∀ t, Q false t) :
    (verifyMac data mac).wp (keystoreEnv K o) Q s := by
  unfold verifyMac
  by_cases hnil : mac = []
  · subst hnil
    exact hmac s
  · rw [if_neg hnil, wp_bind]
    refine wp_signWithHmacKey ?_ ?_
    · intro t
      rw [compareMac_eq hnil]
      have hend := hmac t
      rwa [verifies_of_ne_nil hnil] at hend
    · intro hm t
      exact hfail hm t

theorem may_verifyMac {data mac : Bytes} {v : UInt32} {nonces : ℕ → Bytes}
    {Q : Bool → KeystoreState → Prop} (hok : ¬ MayFail o getMacKeyDescriptor .sign data)
    (hmac : ∀ t, Q ((cryptoOf K v nonces).verifies data mac) t) :
    (verifyMac data mac).may (keystoreEnv K o) Q s := by
  unfold verifyMac
  by_cases hnil : mac = []
  · subst hnil
    exact hmac s
  · rw [if_neg hnil, may_bind]
    refine may_signWithHmacKey hok ?_
    intro t
    rw [compareMac_eq hnil]
    have hend := hmac t
    rwa [verifies_of_ne_nil hnil] at hend

theorem may_verifyMac_fail {data mac : Bytes} {Q : Bool → KeystoreState → Prop}
    (hfaulty : MayFail o getMacKeyDescriptor .sign data) (hfail : ∀ t, Q false t) :
    (verifyMac data mac).may (keystoreEnv K o) Q s := by
  unfold verifyMac
  by_cases hnil : mac = []
  · rw [if_pos hnil]
    exact hfail s
  · rw [if_neg hnil, may_bind]
    refine may_signWithHmacKey_fail hfaulty ?_
    intro t
    exact hfail t

end stream

end CryptoClient
end FaceHal
