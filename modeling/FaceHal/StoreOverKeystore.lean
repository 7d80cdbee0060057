import FaceHal.AutoClean
import FaceHal.EncryptionRoundTrip
import FaceHal.ProgramRefinement
import FaceHal.StoreRefinement
import Mathlib.Data.Countable.Basic
import Mathlib.Logic.Equiv.List

/-!
# The template store down to Keystore

The store calls the client of Keystore, which cuts its data into chunks and asks for one
operation after the other. As long as Keystore decrypts and computes MACs, what is seen of
all this on the files is the store over plain functions, with encryption available or not
at each save. So the stack as a whole answers as the map from faces to templates, whatever
pieces Keystore gives its output in and whichever encryptions it refuses.
-/
namespace FaceHal

/-- Opening inverts sealing for the nonces that are handed out, and a MAC has 256 bits. -/
structure KeystoreFunctions.Lawful (K : KeystoreFunctions) : Prop where
  seal_ne_nil : ∀ key nonce d, K.sealWith key nonce d ≠ []
  open_seal : ∀ key nonce d, nonce ≠ [] → nonce.length ≤ CryptoClient.kMaxNonceSize →
    K.openWith key nonce (K.sealWith key nonce d) = some d
  length_hmac : ∀ key d, (K.hmac key d).length = 32

/-- Keystore opens what it has sealed for every user and computes MACs. It may refuse to
seal, at the first or at any later request. -/
structure KeystoreFaults.Reads (o : KeystoreFaults) : Prop where
  decrypts : ∀ u, o.Reliable (CryptoClient.getStorageKeyDescriptor u) .decrypt
  signs : o.Reliable CryptoClient.getMacKeyDescriptor .sign

/-- What Keystore may hand out as a nonce. -/
abbrev Nonce : Type := { b : Bytes // b ≠ [] ∧ b.length ≤ CryptoClient.kMaxNonceSize }

instance : Nonempty Nonce := ⟨[0], by decide⟩

theorem exists_nonces : ∃ N : ℕ → Nonce, N.Surjective := by
  have hbytes : Countable UInt8 := Function.Injective.countable fun _ _ => UInt8.toNat_inj.mp
  exact exists_surjective_nat Nonce

namespace CryptoClient
open Program

section encrypt
variable {K : KeystoreFunctions} {o : KeystoreFaults} {s : KeystoreState} {u : Int32} {data : Bytes}

/-- Encryption gives the sealed data in its frame, or nothing. -/
theorem wp_encrypt_or_nothing {Q : Bytes → KeystoreState → Prop} (hnil : ∀ t, Q [] t)
    (hQ : ∀ nonce t, data ≠ [] → nonce ≠ [] → nonce.length ≤ kMaxNonceSize →
      Q (serializeStoragePayload nonce (K.sealWith (getStorageKeyDescriptor u) nonce data)) t) :
    (encrypt u data).wp (keystoreEnv K o) Q s := by
  unfold encrypt
  rw [wp_request]
  rintro available t ⟨rfl, rfl⟩
  cases hu : o.unavailable with
  | true => exact hnil t
  | false =>
      rw [if_neg (by simp)]
      by_cases hne : data = []
      · rw [if_pos hne]
        exact hnil t
      rw [if_neg hne, wp_bind]
      refine wp_createOrGenerate .encrypt rfl ?_ fun _ t => hnil t
      intro result h nonce x hop hx hnonce
      obtain ⟨hparams, hn, hlen⟩ := hnonce rfl
      obtain ⟨params, hp, hfound⟩ := Option.bind_eq_some_iff.mp hparams
      obtain ⟨b, bs, rfl⟩ := List.exists_cons_of_ne_nil hn
      dsimp only
      rw [getNonceFromResponse, hp]
      simp only [hfound, pure_eq, done_bind]
      rw [hop, Option.getD_some, wp_bind]
      refine wp_stream ⟨getStorageKeyDescriptor u, .encrypt, b :: bs, [], []⟩ hx ?_ ?_
      · intro y
        exact hQ (b :: bs) y hne hn hlen
      · exact fun _ t => hnil t

theorem wp_generateMac {Q : Bytes → KeystoreState → Prop}
    (hsign : o.Reliable getMacKeyDescriptor .sign)
    (hQ : ∀ t, Q (if data = [] then [] else K.hmac getMacKeyDescriptor data) t) :
    (generateMac data).wp (keystoreEnv K o) Q s := by
  unfold generateMac
  by_cases hne : data = []
  · rw [if_pos hne]
    rw [if_pos hne] at hQ
    exact hQ s
  · rw [if_neg hne]
    rw [if_neg hne] at hQ
    exact wp_signWithHmacKey hQ fun hfail => absurd hfail (not_mayFail_of_reliable hsign data)

end encrypt

/-- The functions that the client computes satisfy the laws that the store relies on. -/
def lawfulOf (K : KeystoreFunctions) (hK : K.Lawful) (v : UInt32) (N : ℕ → Nonce) :
    LawfulCrypto where
  toCrypto := cryptoOf K v fun n => N n
  encrypt_ne_nil n u d _ := by
    have hparse := parse_serializeStoragePayload (N n).2.1 (N n).2.2
      (hK.seal_ne_nil (getStorageKeyDescriptor u) (N n) d)
    intro hnil
    rw [show serializeStoragePayload (N n).1 _ = [] from hnil] at hparse
    cases hparse
  decrypt_encrypt n u d _ := by
    have hparse := parse_serializeStoragePayload (N n).2.1 (N n).2.2
      (hK.seal_ne_nil (getStorageKeyDescriptor u) (N n) d)
    simp only [cryptoOf, hparse, hK.open_seal _ _ d (N n).2.1 (N n).2.2, Option.getD_some]
  length_mac d := hK.length_hmac getMacKeyDescriptor d

end CryptoClient

namespace FaceStorageManager
open FaceTemplateSerializer CryptoClient Program

/-- The files and Keystore; no file call fails. -/
def device (K : KeystoreFunctions) (o : KeystoreFaults) (v : UInt32) :
    Environment (StorageI.sum KeystoreI) (FileSystem × KeystoreState) :=
  deviceEnv (cryptoOf K v fun _ => []) K o

section refinement
variable {K : KeystoreFunctions} {o : KeystoreFaults} {v : UInt32} {N : ℕ → Nonce}

theorem refines_withKeystore (hN : N.Surjective) (ho : o.Reads) (c : StorageCall) :
    Refines (device K o v) (storageEnv (cryptoOf K v fun n => N n) encryptionMayFail) Prod.fst
      (withKeystore c) (perform c) (· = ·) := by
  intro x r y hrun
  refine ⟨r, .call (r := r) (t := y.1) ?_ (.done r y.1), rfl⟩
  cases c with
  | encrypt u data =>
      obtain ⟨hcall, hfiles⟩ := run_inRight.mp hrun
      rw [hfiles]
      have hreply : r = [] ∨ data ≠ [] ∧ ∃ n, r = (cryptoOf K v fun n => N n).encrypt n u data :=
        hcall.wp (Q := fun r _ => r = [] ∨ data ≠ [] ∧
          ∃ n, r = (cryptoOf K v fun n => N n).encrypt n u data)
          (wp_encrypt_or_nothing (fun _ => .inl rfl) fun nonce _ hne hn hlen => by
            obtain ⟨n, hnonce⟩ := hN ⟨nonce, hn, hlen⟩
            exact .inr ⟨hne, n, by simp only [cryptoOf, hnonce]⟩)
      rcases hreply with rfl | ⟨hne, n, rfl⟩
      · exact .inr ⟨rfl, rfl⟩
      · exact .inl ⟨⟨n, (if_neg hne).symm⟩, rfl⟩
  | decrypt u payload =>
      obtain ⟨hcall, hfiles⟩ := run_inRight.mp hrun
      rw [hfiles]
      have hreply : r = (cryptoOf K v fun n => N n).decrypt u payload :=
        hcall.wp (Q := fun r _ => r = (cryptoOf K v fun n => N n).decrypt u payload)
          (wp_decrypt (fun _ => rfl) fun hbad => absurd (ho.decrypts u) hbad)
      exact ⟨hreply, rfl⟩
  | generateMac data =>
      obtain ⟨hcall, hfiles⟩ := run_inRight.mp hrun
      rw [hfiles]
      have hreply := hcall.wp (Q := fun r _ => r = if data = [] then [] else
        (cryptoOf K v fun n => N n).mac data) (wp_generateMac ho.signs fun _ => rfl)
      exact ⟨hreply, rfl⟩
  | verifyMac data mac =>
      obtain ⟨hcall, hfiles⟩ := run_inRight.mp hrun
      rw [hfiles]
      have hreply : r = (cryptoOf K v fun n => N n).verifies data mac :=
        hcall.wp (Q := fun r _ => r = (cryptoOf K v fun n => N n).verifies data mac)
          (wp_verifyMac (fun _ => rfl) fun hbad =>
            absurd hbad (not_mayFail_of_reliable ho.signs data))
      exact ⟨hreply, rfl⟩
  | _ => exact ((run_withKeystore_file rfl).mp hrun).1

theorem refines_device (hN : N.Surjective) (ho : o.Reads) {α : Type} (p : Program StorageI α) :
    Refines (device K o v) (storageEnv (cryptoOf K v fun n => N n) encryptionMayFail) Prod.fst
      (p.expand withKeystore) p (· = ·) := refines_expand (refines_withKeystore hN ho) p

/-- Where every request is answered, what the store may do the device may do. -/
theorem device_of_works {nonces : ℕ → Bytes}
    (hn : ∀ n, nonces n ≠ [] ∧ (nonces n).length ≤ kMaxNonceSize) (ho : o.Reads)
    (hseal : ∀ u, o.Reliable (getStorageKeyDescriptor u) .encrypt) {c : StorageCall}
    {x : FileSystem × KeystoreState} {t : FileSystem} {r : c.Reply}
    (h : Works (cryptoOf K v nonces) c x.1 r t) :
    ∃ k, Run (device K o v) (withKeystore c) x r (t, k) := by
  have hclient : ∀ {α : Type} {p : Program KeystoreI α} {a : α}, t = x.1 →
      p.may (keystoreEnv K o) (fun b _ => b = a) x.2 →
      ∃ k, Run (device K o v) (p.inRight (I := StorageI)) x a (t, k) := by
    intro α p a ht hmay
    obtain ⟨b, k, hrun, rfl⟩ := may_iff_run.mp hmay
    exact ⟨k, run_inRight.mpr ⟨hrun, ht⟩⟩
  cases c with
  | encrypt u data =>
      obtain ⟨⟨n, rfl⟩, ht⟩ := h
      refine hclient ht ?_
      by_cases hne : data = []
      · rw [if_pos hne]
        unfold encrypt
        rw [may_request]
        refine ⟨true, x.2, ⟨by rw [ho.signs.1]; rfl, rfl⟩, ?_⟩
        rw [if_neg (by simp), if_pos hne]
        rfl
      · rw [if_neg hne]
        exact may_encrypt (hseal u) hne (hn n).1 (hn n).2 fun _ => rfl
  | decrypt u payload =>
      obtain ⟨rfl, ht⟩ := h
      exact hclient ht (may_decrypt (ho.decrypts u) fun _ => rfl)
  | generateMac data =>
      obtain ⟨rfl, ht⟩ := h
      refine hclient ht ?_
      unfold CryptoClient.generateMac
      by_cases hne : data = []
      · rw [if_pos hne, if_pos hne]
        rfl
      · rw [if_neg hne, if_neg hne]
        exact may_signWithHmacKey (not_mayFail_of_reliable ho.signs data) fun _ => rfl
  | verifyMac data mac =>
      obtain ⟨rfl, ht⟩ := h
      exact hclient ht (may_verifyMac (not_mayFail_of_reliable ho.signs data) fun _ => rfl)
  | _ => exact ⟨x.2, (run_withKeystore_file rfl).mpr ⟨h, rfl⟩⟩

theorem device_of_run {nonces : ℕ → Bytes}
    (hn : ∀ n, nonces n ≠ [] ∧ (nonces n).length ≤ kMaxNonceSize) (ho : o.Reads)
    (hseal : ∀ u, o.Reliable (getStorageKeyDescriptor u) .encrypt) {α : Type}
    {p : Program StorageI α} {x : FileSystem × KeystoreState} {a : α} {t : FileSystem}
    (h : Run (Works (cryptoOf K v nonces)) p x.1 a t) :
    ∃ k, Run (device K o v) (p.expand withKeystore) x a (t, k) := by
  have hsim : ∀ c, True → ∀ s r t (y : FileSystem × KeystoreState), y.1 = s →
      Works (cryptoOf K v nonces) c s r t →
      ∃ z, through (device K o v) withKeystore c y r z ∧ z.1 = t := by
    rintro c - _ r t y rfl hcall
    obtain ⟨k, hk⟩ := device_of_works hn ho hseal hcall
    exact ⟨(t, k), hk, rfl⟩
  obtain ⟨y, hrun, rfl⟩ := h.simulate
    (R := fun s (y : FileSystem × KeystoreState) => y.1 = s) hsim
    (uses_of_forall (fun _ => trivial) p) (show x.1 = x.1 from rfl)
  exact ⟨y.2, run_expand.mpr hrun⟩

end refinement

/-- One operation of the store over the Keystore client. -/
def deviceStoreStep (K : KeystoreFunctions) (o : KeystoreFaults) (v : UInt32) :
    System (FileSystem × KeystoreState) (StoreOp × StoreAnswer)
  | x, (.save t, .flag ok), y => Run (device K o v) ((saveTemplate t).expand withKeystore) x ok y
  | x, (.load u f, .template r), y => ∃ out a,
      Run (device K o v) ((loadTemplate u f out).expand withKeystore) x a y ∧
      r = (outcome a).map FaceTemplate.record
  | x, (.loadAll u, .templates l), y => ∃ ts,
      Run (device K o v) ((loadAllTemplatesForUser u).expand withKeystore) x ts y ∧
      l = ts.map FaceTemplate.record
  | x, (.delete u f, .flag ok), y =>
      Run (device K o v) ((deleteTemplate u f).expand withKeystore) x ok y
  | x, (.removeUser u, .flag ok), y =>
      Run (device K o v) ((removeUser u).expand withKeystore) x ok y
  | _, _, _ => False

theorem storeStep_of_device {K : KeystoreFunctions} {o : KeystoreFaults} {v : UInt32}
    {N : ℕ → Nonce} (hN : N.Surjective) (ho : o.Reads) {x y : FileSystem × KeystoreState}
    {l : StoreOp × StoreAnswer}
    (h : deviceStoreStep K o v x l y) : storeStep (cryptoOf K v fun n => N n) x.1 l y.1 := by
  have hrun : ∀ {α : Type} {p : Program StorageI α} {a : α},
      Run (device K o v) (p.expand withKeystore) x a y →
      Run (storageEnv (cryptoOf K v fun n => N n) encryptionMayFail) p x.1 a y.1 := by
    intro α p a hp
    obtain ⟨_, hseen, rfl⟩ := refines_device hN ho p x a y hp
    exact hseen
  obtain ⟨op, ans⟩ := l
  cases op <;> cases ans <;> first
    | exact hrun h
    | exact h.elim
    | skip
  · obtain ⟨out, a, ha, hr⟩ := h
    exact ⟨out, a, hrun ha, hr⟩
  · obtain ⟨ts, hts, hl⟩ := h
    exact ⟨ts, hrun hts, hl⟩

theorem toyKeystore_lawful : toyKeystore.Lawful where
  seal_ne_nil _ _ _ := List.cons_ne_nil _ _
  open_seal _ _ _ _ _ := rfl
  length_hmac _ d := toyCrypto.length_mac d

theorem noFaults_reads : noFaults.Reads := ⟨fun _ => ⟨rfl, rfl, rfl, rfl⟩, rfl, rfl, rfl, rfl⟩

end FaceStorageManager
end FaceHal
