import FaceHal.CombinedInterface
import FaceHal.EngineRace
import FaceHal.OperationLifecycle
import FaceHal.StoreOverKeystore

/-!
# A key that is generated twice

`createOrGenerate` generates a key when Keystore does not find it, and Keystore may put a new
key behind an alias that has one. Two threads that both find no key can generate two, and what
was sealed under the first cannot be opened any more. An operation keeps the key that it was
created with, so a payload is lost exactly when a key is generated for its alias after its
operation was created. A key that is there before the two threads start is never replaced, as long
as Keystore does not report it missing: the client answers such a report with a new key.
-/
namespace FaceHal
open Program

structure Keyring where
  /-- Which of the generated keys is behind an alias. -/
  keys : KeyDescriptor → Option ℕ
  generated : ℕ

/-- The operations of a thread, each with the key behind its alias when it was created. -/
abbrev OwnOperations : Type := List (Operation × ℕ)

def Keyring.generate (s : Keyring) (key : KeyDescriptor) : Keyring :=
  ⟨Function.update s.keys key (some s.generated), s.generated + 1⟩

/-- Keystore as one thread sees it. `K n` is what the `n`-th key computes. -/
def threadEnv (K : ℕ → KeystoreFunctions) (o : KeystoreFaults) :
    Environment KeystoreI (Keyring × OwnOperations)
  | .securityLevel, s, r, t => r = !o.unavailable ∧ t = s
  | .createOperation key params, s, r, t => ∃ purpose, purposeOf params = some purpose ∧
      ((∃ n nonce, s.1.keys key = some n ∧ r.1 = .ok ∧ r.2.iOperation = some s.2.length ∧
          (purpose = .encrypt → (r.2.parameters.bind nonceOf) = some nonce ∧
            nonce ≠ [] ∧ nonce.length ≤ 32) ∧
          (purpose = .decrypt → nonceOf params = some nonce) ∧
          t = (s.1, s.2 ++ [(⟨key, purpose, nonce, [], []⟩, n)])) ∨
        opens r = false ∧ t = s ∧ (s.1.keys key = none ∨ o.create key purpose = true))
  | .update h data, s, r, t => ∃ op n, s.2[h]? = some (op, n) ∧
      (r.status = .ok ∧ t = (s.1, s.2.set h (op.push data (r.output.getD []), n)) ∨
        o.update op.key op.purpose = true ∧ r.status ≠ .ok ∧ t = s)
  | .finish h, s, r, t => t = s ∧ ∃ op n, s.2[h]? = some (op, n) ∧
      (r.status = .ok ∧ op.result (K n) = some (op.emitted ++ r.output.getD []) ∨
        (op.result (K n) = none ∨ o.finish op.key op.purpose = true) ∧ r.status ≠ .ok)
  | .abort _, s, _, t => t = s
  | .generateKey key _, s, r, t => r = .ok ∧ t = (s.1.generate key, s.2) ∨ r ≠ .ok ∧ t = s
  | .absentDereference, _, _, _ => False

abbrev KeyringState : Type := Keyring × OwnOperations × OwnOperations

abbrev TwoThreadsI : Interface := KeystoreI.sum KeystoreI

/-- Two threads: one keyring, and operations that each has to itself. -/
def twoThreads (K : ℕ → KeystoreFunctions) (o : KeystoreFaults) :
    Environment TwoThreadsI KeyringState
  | .inl c, s, r, t => threadEnv K o c (s.1, s.2.1) r (t.1, t.2.1) ∧ t.2.2 = s.2.2
  | .inr c, s, r, t => threadEnv K o c (s.1, s.2.2) r (t.1, t.2.2) ∧ t.2.1 = s.2.1

namespace KeyringRace

/-- A new key was put behind the alias. -/
def Generates (key : KeyDescriptor) : Event KeystoreI → Prop
  | ⟨.generateKey key' _, status⟩ => key' = key ∧ status = .ok
  | _ => False

instance (key : KeyDescriptor) : DecidablePred (Generates key)
  | ⟨.generateKey key' _, status⟩ => inferInstanceAs (Decidable (key' = key ∧ status = .ok))
  | ⟨.securityLevel, _⟩ | ⟨.createOperation _ _, _⟩ | ⟨.update _ _, _⟩ | ⟨.finish _, _⟩
  | ⟨.abort _, _⟩ | ⟨.absentDereference, _⟩ => .isFalse id

/-- The request of either thread. -/
def requested : Event TwoThreadsI → Event KeystoreI
  | ⟨.inl c, r⟩ => ⟨c, r⟩
  | ⟨.inr c, r⟩ => ⟨c, r⟩

/-- The alias got a new key along the trace. -/
def Replaced (key : KeyDescriptor) (tr : PairTrace TwoThreadsI) : Prop :=
  ∃ e ∈ tr, Generates key (requested (e.elim id id))

instance (key : KeyDescriptor) (tr : PairTrace TwoThreadsI) : Decidable (Replaced key tr) :=
  inferInstanceAs (Decidable (∃ e ∈ tr, Generates key (requested (e.elim id id))))

section effect
variable {K : ℕ → KeystoreFunctions} {o : KeystoreFaults} {c : KeystoreCall}
  {s t : Keyring × OwnOperations} {r : c.Reply}

theorem keyring_effect (key : KeyDescriptor) (h : threadEnv K o c s r t) :
    (Generates key ⟨c, r⟩ → t.1.keys key = some s.1.generated) ∧
      (¬ Generates key ⟨c, r⟩ → t.1.keys key = s.1.keys key) ∧
      s.1.generated ≤ t.1.generated ∧
      (Generates key ⟨c, r⟩ → s.1.generated < t.1.generated) := by
  cases c with
  | securityLevel =>
      obtain ⟨-, rfl⟩ := h
      exact ⟨False.elim, fun _ => rfl, Nat.le_refl _, False.elim⟩
  | createOperation key' params =>
      obtain ⟨purpose, -, ⟨n, nonce, -, -, -, -, -, rfl⟩ | ⟨-, rfl, -⟩⟩ := h <;>
        exact ⟨False.elim, fun _ => rfl, Nat.le_refl _, False.elim⟩
  | update h' data =>
      obtain ⟨op, n, -, ⟨-, rfl⟩ | ⟨-, -, rfl⟩⟩ := h <;>
        exact ⟨False.elim, fun _ => rfl, Nat.le_refl _, False.elim⟩
  | finish h' =>
      obtain ⟨rfl, -⟩ := h
      exact ⟨False.elim, fun _ => rfl, Nat.le_refl _, False.elim⟩
  | abort h' =>
      obtain rfl : t = s := h
      exact ⟨False.elim, fun _ => rfl, Nat.le_refl _, False.elim⟩
  | generateKey key' params =>
      rcases h with ⟨hok, rfl⟩ | ⟨hbad, rfl⟩
      · refine ⟨?_, ?_, Nat.le_succ _, fun _ => Nat.lt_succ_self _⟩
        · rintro ⟨rfl, -⟩
          exact Function.update_self _ _ _
        · intro hother
          refine Function.update_of_ne ?_ _ _
          rintro rfl
          exact hother ⟨rfl, hok⟩
      · exact ⟨fun hgen => absurd hgen.2 hbad, fun _ => rfl, Nat.le_refl _,
          fun hgen => absurd hgen.2 hbad⟩
  | absentDereference => exact h.elim

end effect

/-- The first thread created an operation with the key behind the alias. -/
def Creates (key : KeyDescriptor) : Event TwoThreadsI ⊕ Event TwoThreadsI → Prop
  | .inl ⟨.inl (.createOperation key' _), reply⟩ => key' = key ∧ opens reply = true
  | _ => False

instance (key : KeyDescriptor) : DecidablePred (Creates key)
  | .inl ⟨.inl (.createOperation key' _), reply⟩ =>
      inferInstanceAs (Decidable (key' = key ∧ opens reply = true))
  | .inl ⟨.inl .securityLevel, _⟩ | .inl ⟨.inl (.update _ _), _⟩ | .inl ⟨.inl (.finish _), _⟩
  | .inl ⟨.inl (.abort _), _⟩ | .inl ⟨.inl (.generateKey _ _), _⟩
  | .inl ⟨.inl .absentDereference, _⟩ | .inl ⟨.inr _, _⟩ | .inr _ => .isFalse id

/-- The state, with what both threads have done. -/
abbrev KeyringRun : Type := KeyringState × PairTrace TwoThreadsI

/-- The operation was created with the `n`-th key, and that is the current key still unless
the alias got another one since. -/
def Since (key : KeyDescriptor) (n : ℕ) (y : KeyringRun) : Prop :=
  n < y.1.1.generated ∧ ∃ current, y.1.1.keys key = some current ∧
    ∃ pre created post, y.2 = pre ++ created :: post ∧ Creates key created ∧
      (current = n ↔ ¬ Replaced key post)

/-- The keys that are in use were generated. -/
def Issued (s : Keyring) : Prop := ∀ key n, s.keys key = some n → n < s.generated

/-- A request of the second thread. -/
def OfSecond (c : TwoThreadsI.Call) : Prop := c.isRight = true

section first
variable {K : ℕ → KeystoreFunctions} {o : KeystoreFaults} {key : KeyDescriptor} {n h : ℕ}
  {x y : KeyringRun}

theorem replaced_append {tr : PairTrace TwoThreadsI} {e : Event TwoThreadsI ⊕ Event TwoThreadsI} :
    Replaced key (tr ++ [e]) ↔ Replaced key tr ∨ Generates key (requested (e.elim id id)) := by
  unfold Replaced
  constructor
  · rintro ⟨e', he', hgen⟩
    rcases List.mem_append.mp he' with he' | he'
    · exact .inl ⟨e', he', hgen⟩
    · obtain rfl := List.mem_singleton.mp he'
      exact .inr hgen
  · rintro (⟨e', he', hgen⟩ | hgen)
    · exact ⟨e', List.mem_append_left _ he', hgen⟩
    · exact ⟨e, List.mem_append_right _ (List.mem_singleton_self _), hgen⟩

/-- Any request of either thread, after which the trace has one more event. -/
theorem Since.step {c : KeystoreCall} {r : c.Reply} {s t : Keyring × OwnOperations}
    {e : Event TwoThreadsI ⊕ Event TwoThreadsI} (hx : Since key n x) (hs : s.1 = x.1.1)
    (hcall : threadEnv K o c s r t) (ht : t.1 = y.1.1) (htr : y.2 = x.2 ++ [e])
    (he : requested (e.elim id id) = ⟨c, r⟩) : Since key n y := by
  obtain ⟨hlt, current, hkey, pre, created, post, hpost, hcreated, hcurrent⟩ := hx
  obtain ⟨hnew, hkept, hle, -⟩ := keyring_effect key hcall
  rw [hs] at hnew hkept hle
  rw [ht] at hnew hkept hle
  have hsplit : y.2 = pre ++ created :: (post ++ [e]) := by
    rw [htr, hpost, List.append_assoc, List.cons_append]
  by_cases hgen : Generates key ⟨c, r⟩
  · refine ⟨Nat.lt_of_lt_of_le hlt hle, _, hnew hgen, pre, created, _, hsplit, hcreated, ?_⟩
    rw [replaced_append, he]
    refine iff_of_false ?_ (not_not_intro (.inr hgen))
    exact Nat.ne_of_gt hlt
  · refine ⟨Nat.lt_of_lt_of_le hlt hle, current, (hkept hgen).trans hkey, pre, created, _, hsplit,
      hcreated, ?_⟩
    rw [replaced_append, he, hcurrent, or_iff_left hgen]

theorem Issued.step {c : KeystoreCall} {r : c.Reply} {s t : Keyring × OwnOperations}
    (hs : Issued s.1) (hcall : threadEnv K o c s r t) : Issued t.1 := by
  intro key' m hm
  obtain ⟨hnew, hkept, hle, hless⟩ := keyring_effect key' hcall
  by_cases hgen : Generates key' ⟨c, r⟩
  · obtain rfl := Option.some.inj ((hnew hgen).symm.trans hm)
    exact hless hgen
  · rw [hkept hgen] at hm
    exact Nat.lt_of_lt_of_le (hs key' m hm) hle

theorem stable_since : Stable (twoThreads K o) OfSecond (Since key n) := by
  rintro x y hx ⟨c, r, hc, hcall, htr⟩
  cases c with
  | inl c => cases hc
  | inr c => exact hx.step rfl hcall.1 rfl htr rfl

theorem Issued.call {c : TwoThreadsI.Call} {r : TwoThreadsI.Reply c} {s t : KeyringState}
    (hs : Issued s.1) (hcall : twoThreads K o c s r t) : Issued t.1 := by
  cases c with
  | inl c => exact Issued.step hs hcall.1
  | inr c => exact Issued.step hs hcall.1

theorem stable_issued : Stable (twoThreads K o) OfSecond fun y => Issued y.1.1 := by
  rintro x y hx ⟨c, r, -, hcall, -⟩
  exact hx.call hcall

theorem wp_issued {α : Type} (p : Program TwoThreadsI α) (hx : Issued x.1.1) :
    p.wp (disturbed (twoThreads K o) OfSecond) (fun _ y => Issued y.1.1) x := by
  have hkeep := keeps_disturbed (R := fun _ => True) (stable_issued (K := K) (o := o))
    fun c y r t _ hy hcall => hy.call hcall
  exact wp_mono ((uses_of_forall (fun _ => trivial) p).issues.wp hkeep hx) fun _ _ h => h.2

/-- The operations of the thread, as a Keystore with one key has them; `h` has the `n`-th. -/
def Holds (h n : ℕ) (own : OwnOperations) (s : KeystoreState) : Prop :=
  own.map Prod.fst = s ∧ (own[h]?).map Prod.snd = some n

theorem stable_holds {s : KeystoreState} :
    Stable (twoThreads K o) OfSecond fun y => Holds h n y.1.2.1 s := by
  rintro x y hx ⟨c, r, hc, hcall, -⟩
  cases c with
  | inl c => cases hc
  | inr c =>
      rw [show y.1.2.1 = x.1.2.1 from hcall.2]
      exact hx

theorem Holds.get {own : OwnOperations} {s : KeystoreState} (hown : Holds h n own s)
    {op : Operation} (hop : s[h]? = some op) : own[h]? = some (op, n) := by
  obtain ⟨rfl, hn⟩ := hown
  obtain ⟨⟨op', m⟩, hget, rfl⟩ := Option.map_eq_some_iff.mp hn
  rw [List.getElem?_map, hget] at hop
  obtain rfl := Option.some.inj hop
  exact hget

theorem Holds.set {own : OwnOperations} {s : KeystoreState} (hown : Holds h n own s)
    (op : Operation) : Holds h n (own.set h (op, n)) (s.set h op) := by
  obtain ⟨rfl, hn⟩ := hown
  obtain ⟨⟨op', m⟩, hget, -⟩ := Option.map_eq_some_iff.mp hn
  refine ⟨List.map_set, ?_⟩
  rw [List.getElem?_set_self (List.getElem?_eq_some_iff.mp hget).1]
  rfl

/-- A request on the operation is answered as by a Keystore with the one key. -/
theorem threadEnv_onHandle {c : KeystoreCall} (hc : c.addresses = some h) {r : c.Reply}
    {ring : Keyring} {own : OwnOperations} {s : KeystoreState} (hown : Holds h n own s) :
    (∀ t, threadEnv K o c (ring, own) r t →
      ∃ s', keystoreEnv (K n) o c s r s' ∧ t.1 = ring ∧ Holds h n t.2 s') ∧
    ∀ s', keystoreEnv (K n) o c s r s' →
      ∃ own', threadEnv K o c (ring, own) r (ring, own') ∧ Holds h n own' s' := by
  have hget : ∀ {op m}, own[h]? = some (op, m) → s[h]? = some op ∧ m = n := by
    obtain ⟨rfl, hn⟩ := hown
    intro op m hop
    rw [hop] at hn
    refine ⟨?_, Option.some.inj hn⟩
    rw [List.getElem?_map, hop]
    rfl
  cases c with
  | update h' data =>
      obtain rfl : h' = h := Option.some.inj hc
      constructor
      · rintro t ⟨op, m, hop, ⟨hok, rfl⟩ | ⟨hfaulty, hbad, rfl⟩⟩
        · obtain ⟨hop', rfl⟩ := hget hop
          exact ⟨_, ⟨op, hop', .inl ⟨hok, rfl⟩⟩, rfl, hown.set _⟩
        · exact ⟨s, ⟨op, (hget hop).1, .inr ⟨hfaulty, hbad, rfl⟩⟩, rfl, hown⟩
      · rintro s' ⟨op, hop, ⟨hok, rfl⟩ | ⟨hfaulty, hbad, rfl⟩⟩
        · exact ⟨_, ⟨op, n, hown.get hop, .inl ⟨hok, rfl⟩⟩, hown.set _⟩
        · exact ⟨own, ⟨op, n, hown.get hop, .inr ⟨hfaulty, hbad, rfl⟩⟩, hown⟩
  | finish h' =>
      obtain rfl : h' = h := Option.some.inj hc
      constructor
      · rintro t ⟨rfl, op, m, hop, hreply⟩
        obtain ⟨hop', rfl⟩ := hget hop
        exact ⟨s, ⟨rfl, op, hop', hreply⟩, rfl, hown⟩
      · rintro s' ⟨rfl, op, hop, hreply⟩
        exact ⟨own, ⟨rfl, op, n, hown.get hop, hreply⟩, hown⟩
  | abort h' =>
      constructor
      · rintro t rfl
        exact ⟨s, rfl, rfl, hown⟩
      · rintro s' rfl
        exact ⟨own, rfl, hown⟩
  | securityLevel | createOperation _ _ | generateKey _ _ | absentDereference => cases hc

theorem wp_onHandle {α : Type} {p : Program KeystoreI α}
    (hp : p.Uses fun c : KeystoreCall => c.addresses = some h) {Q : α → Prop} {s : KeystoreState}
    (hwp : p.wp (keystoreEnv (K n) o) (fun a _ => Q a) s) (hx : Holds h n x.1.2.1 s)
    (hsince : Since key n x) :
    (p.inLeft).wp (disturbed (twoThreads K o) OfSecond) (fun a y => Q a ∧ Since key n y) x := by
  refine wp_mono (wp_inLeft (R := fun y s => Holds h n y.1.2.1 s ∧ Since key n y) ?_ hp ⟨hx, hsince⟩
    hwp) fun a y hy => ⟨hy.1, hy.2.choose_spec.2⟩
  rintro c hc x s r y hx ⟨z, hz, hcall, htr⟩
  obtain ⟨hown, hsince⟩ := (stable_holds.and stable_since).trans hx hz
  obtain ⟨s', hstep, -, hown'⟩ := (threadEnv_onHandle hc hown).1 _ hcall.1
  exact ⟨s', hstep, hown', hsince.step rfl hcall.1 rfl htr rfl⟩

theorem returns_onHandle {α : Type} {p : Program KeystoreI α}
    (hp : p.Uses fun c : KeystoreCall => c.addresses = some h) {Q : α → Prop} {s : KeystoreState}
    (hreturns : p.returns (keystoreEnv (K n) o) (fun a _ => Q a) s) {z : KeyringState}
    (hz : Holds h n z.2.1 s) : (p.inLeft).returns (twoThreads K o) (fun a _ => Q a) z := by
  refine ⟨?_, ?_⟩
  · obtain ⟨a, t, hrun⟩ := hreturns.1
    have hmay : (p.inLeft).may (twoThreads K o) (fun _ _ => True) z := by
      refine may_inLeft (R := fun z s => Holds h n z.2.1 s) ?_ hp hz
        (may_iff_run.mpr ⟨a, t, hrun, trivial⟩)
      intro c hc z s r t hz hcall
      obtain ⟨own', hstep, hown'⟩ := (threadEnv_onHandle hc hz).2 t hcall
      exact ⟨(z.1, own', z.2.2), ⟨hstep, rfl⟩, hown'⟩
    obtain ⟨a, y, hrun, -⟩ := may_iff_run.mp hmay
    exact ⟨a, y, hrun⟩
  · refine wp_mono (wp_inLeft (R := fun z s => Holds h n z.2.1 s) ?_ hp hz hreturns.2)
      fun a _ ha => ha.1
    intro c hc z s r t hz hcall
    obtain ⟨s', hstep, -, hown'⟩ := (threadEnv_onHandle hc hz).1 _ hcall.1
    exact ⟨s', hstep, hown'⟩

theorem uses_feed_handle (chunks : List Bytes) (out : Bytes) :
    (CryptoClient.feed h chunks out).Uses fun c : KeystoreCall => c.addresses = some h := by
  induction chunks generalizing out with
  | nil => trivial
  | cons chunk rest ih =>
      unfold CryptoClient.feed
      rw [CryptoClient.uses_request]
      refine ⟨rfl, fun reply => ?_⟩
      split_ifs
      · exact ⟨rfl, fun _ => trivial⟩
      · exact ih _

theorem uses_stream_handle (data : Bytes) :
    (CryptoClient.stream h data).Uses fun c : KeystoreCall => c.addresses = some h := by
  unfold CryptoClient.stream
  refine uses_bind (uses_feed_handle _ _) ?_
  intro out
  cases out with
  | none => trivial
  | some out =>
      dsimp only
      rw [CryptoClient.uses_request]
      refine ⟨rfl, fun reply => ?_⟩
      split_ifs
      · exact ⟨rfl, fun _ => trivial⟩
      · trivial

end first

open CryptoClient

/-- Seals what it is given, under a key of its own. -/
structure Seals (K : ℕ → KeystoreFunctions) (key : KeyDescriptor) : Prop where
  seal_ne_nil : ∀ n nonce d, (K n).sealWith key nonce d ≠ []
  open_seal : ∀ m n nonce d, nonce ≠ [] → nonce.length ≤ kMaxNonceSize →
    (K m).openWith key nonce ((K n).sealWith key nonce d) = if m = n then some d else none

/-- An operation for encryption that was created with the `n`-th key. -/
def Opened (key : KeyDescriptor) (result : CreateOperationResponse) (y : KeyringRun) : Prop :=
  ∃ h n nonce, result.iOperation = some h ∧ result.parameters.bind nonceOf = some nonce ∧
    nonce ≠ [] ∧ nonce.length ≤ kMaxNonceSize ∧
    y.1.2.1[h]? = some (⟨key, .encrypt, nonce, [], []⟩, n) ∧ Since key n y

/-- The payload was sealed under the `n`-th key. -/
def SealedWith (K : ℕ → KeystoreFunctions) (key : KeyDescriptor) (data payload : Bytes)
    (y : KeyringRun) : Prop :=
  ∃ n nonce, nonce ≠ [] ∧ nonce.length ≤ kMaxNonceSize ∧
    payload = serializeStoragePayload nonce ((K n).sealWith key nonce data) ∧ Since key n y

section encryption
variable {K : ℕ → KeystoreFunctions} {o : KeystoreFaults} {key : KeyDescriptor} {x : KeyringRun}

theorem opened_of_create {params : List KeyParameter} (hp : purposeOf params = some .encrypt)
    (hx : Issued x.1.1) {r : Status × CreateOperationResponse} {z : KeyringState}
    (hcall : twoThreads K o (.inl (.createOperation key params)) x.1 r z) (hr : opens r = true) :
    Opened key r.2 (z, x.2 ++ [.inl ⟨.inl (.createOperation key params), r⟩]) := by
  obtain ⟨⟨purpose, hp', hcreate⟩, -⟩ := hcall
  obtain rfl := Option.some.inj (hp.symm.trans hp')
  rcases hcreate with ⟨n, nonce, hkey, -, hop, hnonce, -, heq⟩ | ⟨hno, -⟩
  · obtain ⟨hring, hown⟩ := Prod.mk.inj heq
    obtain ⟨hfound, hne, hlen⟩ := hnonce rfl
    refine ⟨_, n, nonce, hop, hfound, hne, hlen, ?_, ?_⟩
    · rw [hown, List.getElem?_concat_length]
    · refine ⟨?_, n, ?_, x.2, _, [], rfl, ⟨rfl, hr⟩, ?_⟩
      · rw [hring]
        exact hx key n hkey
      · rw [hring]
        exact hkey
      · refine iff_of_true rfl ?_
        rintro ⟨e, he, -⟩
        cases he
  · rw [hr] at hno
    cases hno

theorem wp_createOrGenerate_race {params : List KeyParameter}
    (hp : purposeOf params = some .encrypt) {generate : Program KeystoreI Bool}
    (hx : Issued x.1.1) :
    ((createOrGenerate key params generate).inLeft).wp (disturbed (twoThreads K o) OfSecond)
      (fun reply y => ∀ result, reply = some result → Opened key result y) x := by
  have hnone : ∀ y : KeyringRun, ∀ result, (none : Option CreateOperationResponse) = some result →
      Opened key result y := by
    rintro y result ⟨⟩
  unfold createOrGenerate
  rw [request_bind]
  refine wp_disturbed stable_issued hx fun y r z hy hcall => ?_
  obtain ⟨status, result⟩ := r
  have hz : Issued z.1 := hy.call hcall
  dsimp only
  split_ifs with hopens
  · rintro _ ⟨⟩
    exact opened_of_create hp hy hcall hopens
  · exact hnone _
  · rw [inLeft_bind, wp_bind]
    refine wp_mono (wp_issued _ hz) fun generated y hy => ?_
    split_ifs
    · exact hnone _
    · rw [request_bind]
      refine wp_disturbed stable_issued hy fun y r z hy hcall => ?_
      obtain ⟨status', result'⟩ := r
      dsimp only
      split_ifs with hopens'
      · exact hnone _
      · rintro _ ⟨⟩
        exact opened_of_create hp hy hcall (by simpa using hopens')

/-- The second thread goes on at will. A payload is sealed under the key that the operation
was created with. -/
theorem wp_encrypt_race {u : Int32} {data : Bytes} (hne : data ≠ []) (hx : Issued x.1.1) :
    ((encrypt u data).inLeft).wp (disturbed (twoThreads K o) OfSecond)
      (fun payload y => payload ≠ [] →
        SealedWith K (getStorageKeyDescriptor u) data payload y) x := by
  have hfail : ∀ y : KeyringRun, ([] : Bytes) ≠ [] →
      SealedWith K (getStorageKeyDescriptor u) data [] y := fun _ h => absurd rfl h
  unfold encrypt
  rw [request_bind]
  refine wp_disturbed stable_issued hx fun y available z hy hcall => ?_
  have hz : Issued z.1 := hy.call hcall
  dsimp only
  rw [if_neg hne]
  split_ifs
  · exact hfail _
  · rw [inLeft_bind, wp_bind]
    refine wp_mono (wp_createOrGenerate_race rfl hz) fun reply w hw => ?_
    cases reply with
    | none => exact hfail w
    | some result =>
        obtain ⟨h, n, nonce, hop, hfound, hn, hlen, hown, hsince⟩ := hw result rfl
        obtain ⟨params, hparams, hnonce⟩ := Option.bind_eq_some_iff.mp hfound
        obtain ⟨b, bs, rfl⟩ := List.exists_cons_of_ne_nil hn
        dsimp only
        rw [getNonceFromResponse, hparams]
        simp only [hnonce, pure_eq, done_bind]
        rw [hop, Option.getD_some, inLeft_bind, wp_bind]
        have hstream : (stream h data).wp (keystoreEnv (K n) o) (fun out _ => out = none ∨
            out = some ((K n).sealWith (getStorageKeyDescriptor u) (b :: bs) data))
              (w.1.2.1.map Prod.fst) := by
          refine wp_stream ⟨getStorageKeyDescriptor u, .encrypt, b :: bs, [], []⟩ ?_ ?_ ?_
          · rw [List.getElem?_map, hown]
            rfl
          · exact fun _ => .inr rfl
          · exact fun _ _ => .inl rfl
        refine wp_mono (wp_onHandle (uses_stream_handle data) hstream ⟨rfl, ?_⟩ hsince) ?_
        · rw [hown]
          rfl
        · rintro out y ⟨rfl | rfl, hsince⟩
          · exact hfail y
          · exact fun _ => ⟨n, b :: bs, hn, hlen, rfl, hsince⟩

theorem stable_sealedWith {data payload : Bytes} :
    Stable (twoThreads K o) OfSecond fun y => payload ≠ [] → SealedWith K key data payload y := by
  intro x y hx hstep hpayload
  obtain ⟨n, nonce, hn, hlen, heq, hsince⟩ := hx hpayload
  exact ⟨n, nonce, hn, hlen, heq, stable_since x y hsince hstep⟩

end encryption

section decryption
variable {K : ℕ → KeystoreFunctions} {o : KeystoreFaults} {u : Int32} {s : KeyringState} {n : ℕ}

theorem returns_stream_opens {h : ℕ} {key : KeyDescriptor} {nonce ciphertext : Bytes}
    (ho : o.Reliable key .decrypt) (hs : s.2.1[h]? = some (⟨key, .decrypt, nonce, [], []⟩, n)) :
    ((stream h ciphertext).inLeft).returns (twoThreads K o)
      (fun out _ => out = (K n).openWith key nonce ciphertext) s := by
  have hget : (s.2.1.map Prod.fst)[h]? = some ⟨key, .decrypt, nonce, [], []⟩ := by
    rw [List.getElem?_map, hs]
    rfl
  have hmay : (stream h ciphertext).may (keystoreEnv (K n) o)
      (fun out _ => out = (K n).openWith key nonce ciphertext) (s.2.1.map Prod.fst) :=
    may_stream ⟨key, .decrypt, nonce, [], []⟩ hget fun _ => rfl
  refine returns_onHandle (n := n) (uses_stream_handle _) ⟨?_, ?_⟩ ⟨rfl, ?_⟩
  · obtain ⟨a, t, hrun, -⟩ := may_iff_run.mp hmay
    exact ⟨a, t, hrun⟩
  · refine wp_stream ⟨key, .decrypt, nonce, [], []⟩ hget (fun _ => rfl) ?_
    rintro (⟨hupdate, -⟩ | hfinish)
    · rw [ho.2.2.1] at hupdate
      cases hupdate
    · rw [ho.2.2.2] at hfinish
      cases hfinish
  · rw [hs]
    rfl

/-- Decryption opens with the key that is behind the alias now. -/
theorem returns_decrypt_current (ho : o.Reliable (getStorageKeyDescriptor u) .decrypt)
    (hkey : s.1.keys (getStorageKeyDescriptor u) = some n) {payload nonce ciphertext : Bytes}
    (hparse : parseStoragePayload payload = some (nonce, ciphertext)) :
    ((decrypt u payload).inLeft).returns (twoThreads K o) (fun d _ =>
      d = ((K n).openWith (getStorageKeyDescriptor u) nonce ciphertext).getD []) s := by
  obtain ⟨ring, own, other⟩ := s
  unfold decrypt
  rw [request_bind]
  refine returns_call ⟨!o.unavailable, (ring, own, other), ⟨rfl, rfl⟩, rfl⟩ ?_
  rintro available z ⟨⟨rfl, hz⟩, hother⟩
  obtain ⟨ring', own', other'⟩ := z
  obtain ⟨rfl, rfl⟩ := Prod.mk.inj hz
  obtain rfl : other' = other := hother
  dsimp only
  rw [if_neg (by simp [ho.1]), hparse]
  dsimp only
  rw [request_bind]
  set params : List KeyParameter :=
    [.purpose .decrypt, .blockModeGcm, .paddingNone, .macLength 128, .nonce nonce] with hparams
  refine returns_call ⟨(.ok, ⟨some own'.length, none⟩), (ring', own' ++
    [(⟨getStorageKeyDescriptor u, .decrypt, nonce, [], []⟩, n)], other'), ⟨.decrypt, rfl, .inl
      ⟨n, nonce, hkey, rfl, rfl, ?_, fun _ => rfl, rfl⟩⟩, rfl⟩ ?_
  · rintro ⟨⟩
  rintro ⟨status, result⟩ z ⟨⟨purpose, hp, hcreate⟩, -⟩
  obtain rfl : KeyPurpose.decrypt = purpose := Option.some.inj hp
  rcases hcreate with ⟨n', nonce', hkey', hok, hop, -, hn, hz⟩ | ⟨-, -, hnone | hfaulty⟩
  · obtain rfl := Option.some.inj (hkey.symm.trans hkey')
    obtain rfl : nonce = nonce' := Option.some.inj (hn rfl)
    obtain ⟨-, hown⟩ := Prod.mk.inj hz
    simp only at hok hop
    dsimp only
    rw [if_neg (by simp [opens, hok, hop, Status.isOk]), hop, Option.getD_some, inLeft_bind]
    have hnew : z.2.1[own'.length]? =
        some (⟨getStorageKeyDescriptor u, .decrypt, nonce, [], []⟩, n) := by
      rw [hown, List.getElem?_concat_length]
    refine returns_bind (returns_mono (returns_stream_opens ho hnew) ?_)
    rintro out t rfl
    exact returns_done rfl
  · rw [hkey] at hnone
    cases hnone
  · rw [ho.2.1] at hfaulty
    cases hfaulty

end decryption

section lost
variable {K : ℕ → KeystoreFunctions} {o o' : KeystoreFaults} {u : Int32} {data payload : Bytes}
  {s t : KeyringState} {tr : PairTrace TwoThreadsI} {β : Type} {b : β} {q : Program KeystoreI β}

theorem uses_inRight_second (q : Program KeystoreI β) :
    (q.inRight (I := KeystoreI)).Uses OfSecond := by
  refine (uses_inRight (P := fun _ => False) (uses_of_forall (fun _ => trivial) q)).mono ?_
  rintro (c | c) hc
  · exact hc.elim
  · rfl

/-- Whatever the second thread does, a payload is sealed under the key of its operation. -/
theorem sealedWith_of_interleaved (hs : Issued s.1) (hne : data ≠ [])
    (h : Interleaved (twoThreads K o) (encrypt u data).inLeft q.inRight s tr payload b t)
    (hpayload : payload ≠ []) : SealedWith K (getStorageKeyDescriptor u) data payload (t, tr) :=
  h.wp_left (uses_inRight_second q) (wp_encrypt_race hne hs) (fun _ => stable_sealedWith) hpayload

theorem returns_decrypt_sealed (hK : Seals K (getStorageKeyDescriptor u))
    (ho : o'.Reliable (getStorageKeyDescriptor u) .decrypt)
    (h : SealedWith K (getStorageKeyDescriptor u) data payload (t, tr)) :
    ∃ pre created post, tr = pre ++ created :: post ∧
      Creates (getStorageKeyDescriptor u) created ∧
      ((decrypt u payload).inLeft).returns (twoThreads K o') (fun d _ =>
        (¬ Replaced (getStorageKeyDescriptor u) post → d = data) ∧
          (Replaced (getStorageKeyDescriptor u) post → d = [])) t := by
  obtain ⟨n, nonce, hn, hlen, rfl, -, current, hkey, pre, created, post, rfl, hcreated, hcurrent⟩ :=
    h
  refine ⟨pre, created, post, rfl, hcreated, ?_⟩
  have hparse := parse_serializeStoragePayload hn hlen (hK.seal_ne_nil n nonce data)
  refine returns_mono (returns_decrypt_current ho hkey hparse) ?_
  rintro d y rfl
  rw [hK.open_seal current n nonce data hn hlen]
  constructor
  · intro hkept
    rw [if_pos (hcurrent.mpr hkept)]
    rfl
  · intro hreplaced
    rw [if_neg (fun heq => hcurrent.mp heq hreplaced)]
    rfl

/-- What a payload opens to afterwards: the data, unless another key was put behind the alias
after the operation was created, and then nothing. -/
theorem replaced_key_loses_payload (hK : Seals K (getStorageKeyDescriptor u))
    (ho : o'.Reliable (getStorageKeyDescriptor u) .decrypt) (hs : Issued s.1) (hne : data ≠ [])
    (h : Interleaved (twoThreads K o) (encrypt u data).inLeft q.inRight s tr payload b t)
    (hpayload : payload ≠ []) :
    ∃ pre created post, tr = pre ++ created :: post ∧
      Creates (getStorageKeyDescriptor u) created ∧
      ((decrypt u payload).inLeft).returns (twoThreads K o') (fun d _ =>
        (¬ Replaced (getStorageKeyDescriptor u) post → d = data) ∧
          (Replaced (getStorageKeyDescriptor u) post → d = [])) t :=
  returns_decrypt_sealed hK ho (sealedWith_of_interleaved hs hne h hpayload)

end lost

/-- A request for a new key behind the alias. -/
def RequestsKey (key : KeyDescriptor) : KeystoreCall → Prop
  | .generateKey key' _ => key' = key
  | _ => False

/-- Keystore reported that it has no such key. -/
def ReportsMissing (key : KeyDescriptor) : Event KeystoreI → Prop
  | ⟨.createOperation key' _, reply⟩ =>
      key' = key ∧ opens reply = false ∧ looksKeyMissing reply.1.getMessage = true
  | _ => False

section careful
variable {key : KeyDescriptor}

theorem awaits_generateKey {key' : KeyDescriptor} {opParams params : List KeyParameter} :
    (createOrGenerate key' opParams (generateKey key' params)).Awaits (RequestsKey key)
      (ReportsMissing key) := by
  by_cases hkey : key' = key
  · subst hkey
    unfold createOrGenerate
    rw [request_bind]
    refine ⟨id, fun r => ?_⟩
    obtain ⟨status, result⟩ := r
    dsimp only
    split_ifs with hopens hmissing
    · exact .inr trivial
    · exact .inr trivial
    · exact .inl ⟨rfl, by simpa using hopens, by simpa using hmissing⟩
  · exact awaits_of_uses (uses_createOrGenerate id (uses_generateKey id hkey))

theorem awaits_stream (h : ℕ) (data : Bytes) :
    (stream h data).Awaits (RequestsKey key) (ReportsMissing key) :=
  awaits_of_uses (uses_stream (fun _ _ => id) (fun _ => id) (fun _ => id) h data)

theorem awaits_encrypt (u : Int32) (data : Bytes) :
    (encrypt u data).Awaits (RequestsKey key) (ReportsMissing key) := by
  unfold encrypt
  rw [request_bind]
  refine ⟨id, fun available => .inr ?_⟩
  dsimp only
  split_ifs
  · trivial
  · trivial
  · refine awaits_bind awaits_generateKey fun reply => ?_
    cases reply with
    | none => trivial
    | some result =>
        have hnonce : (getNonceFromResponse result).Uses fun c => ¬ RequestsKey key c := by
          unfold getNonceFromResponse
          split
          · exact ⟨id, fun r => r.elim⟩
          · trivial
        refine awaits_bind (awaits_of_uses hnonce) fun nonce => ?_
        match nonce with
        | none | some [] => exact ⟨id, fun _ => .inr trivial⟩
        | some (b :: bs) =>
            refine awaits_bind (awaits_stream _ _) fun out => ?_
            cases out <;> trivial

theorem awaits_decrypt (u : Int32) (payload : Bytes) :
    (decrypt u payload).Awaits (RequestsKey key) (ReportsMissing key) := by
  unfold decrypt
  rw [request_bind]
  refine ⟨id, fun available => .inr ?_⟩
  dsimp only
  split_ifs
  · trivial
  · cases parseStoragePayload payload with
    | none => trivial
    | some parts =>
        dsimp only
        rw [request_bind]
        refine ⟨id, fun reply => .inr ?_⟩
        dsimp only
        split_ifs
        · trivial
        · exact awaits_bind (awaits_stream _ _) fun _ => trivial

theorem awaits_signWithHmacKey (data : Bytes) :
    (signWithHmacKey data).Awaits (RequestsKey key) (ReportsMissing key) := by
  unfold signWithHmacKey
  rw [request_bind]
  refine ⟨id, fun available => .inr ?_⟩
  dsimp only
  split_ifs
  · trivial
  · refine awaits_bind awaits_generateKey fun reply => ?_
    cases reply with
    | none => trivial
    | some result => exact awaits_bind (awaits_stream _ _) fun _ => trivial

/-- Each function generates a key only after Keystore has reported that there is none. -/
theorem awaits_call (c : CryptoOperation) :
    c.call.Awaits (RequestsKey key) (ReportsMissing key) := by
  cases c with
  | encrypt u data => exact awaits_encrypt u data
  | decrypt u payload => exact awaits_decrypt u payload
  | signWithHmacKey data => exact awaits_signWithHmacKey data

/-- A thread that does one function after the other. -/
def serve : List CryptoOperation → Program KeystoreI Unit
  | [] => return ()
  | c :: rest => do
      let _ ← c.call
      serve rest

theorem awaits_serve (cs : List CryptoOperation) :
    (serve cs).Awaits (RequestsKey key) (ReportsMissing key) := by
  induction cs with
  | nil => trivial
  | cons c rest ih => exact awaits_bind (awaits_call c) fun _ => ih

/-- Both threads' requests for a new key, and Keystore's reports to both. -/
abbrev KeyRequest (key : KeyDescriptor) : TwoThreadsI.Call → Prop :=
  Sum.elim (RequestsKey key) (RequestsKey key)

theorem awaits_inLeft {α : Type} {p : Program KeystoreI α}
    (hp : p.Awaits (RequestsKey key) (ReportsMissing key)) :
    (p.inLeft).Awaits (KeyRequest key) fun e => ReportsMissing key (requested e) := by
  induction p with
  | done a => trivial
  | call c next ih => exact ⟨hp.1, fun r => (hp.2 r).imp_right fun h => ih r h⟩

theorem awaits_inRight {α : Type} {p : Program KeystoreI α}
    (hp : p.Awaits (RequestsKey key) (ReportsMissing key)) :
    (p.inRight).Awaits (KeyRequest key) fun e => ReportsMissing key (requested e) := by
  induction p with
  | done a => trivial
  | call c next ih => exact ⟨hp.1, fun r => (hp.2 r).imp_right fun h => ih r h⟩

end careful

/-- Keystore reports a key missing only if it has none, whatever else it answers. -/
def truthful (E : Environment TwoThreadsI KeyringState) : Environment TwoThreadsI KeyringState :=
  fun c s r t => E c s r t ∧ ∀ key, ReportsMissing key (requested ⟨c, r⟩) → s.1.keys key = none

section present
variable {K : ℕ → KeystoreFunctions} {o o' : KeystoreFaults} {key : KeyDescriptor} {n : ℕ}
  {s t : KeyringState} {tr : PairTrace TwoThreadsI}

theorem requestsKey_of_generates {e : Event KeystoreI} (h : Generates key e) :
    RequestsKey key e.call := by
  obtain ⟨c, r⟩ := e
  cases c with
  | generateKey key' params => exact h.1
  | _ => exact h.elim

theorem threadEnv_present {c : KeystoreCall} {r : c.Reply} {x y : Keyring × OwnOperations}
    (hkey : x.1.keys key = some n) (hcall : threadEnv K o c x r y) (hc : ¬ RequestsKey key c) :
    y.1.keys key = some n := by
  rw [(keyring_effect key hcall).2.1 fun hgen => hc (requestsKey_of_generates hgen), hkey]

/-- Two threads that use the client replace no key that is there when they start. -/
theorem present_key_kept {α β : Type} {p : Program KeystoreI α} {q : Program KeystoreI β} {a : α}
    {b : β} (hp : p.Awaits (RequestsKey key) (ReportsMissing key))
    (hq : q.Awaits (RequestsKey key) (ReportsMissing key)) (hkey : s.1.keys key = some n)
    (h : Interleaved (truthful (twoThreads K o)) p.inLeft q.inRight s tr a b t) :
    t.1.keys key = some n ∧ ¬ Replaced key tr := by
  have hstep : ∀ (c : TwoThreadsI.Call) (x : KeyringState) r y, x.1.keys key = some n →
      truthful (twoThreads K o) c x r y → ¬ KeyRequest key c →
        y.1.keys key = some n ∧ ¬ ReportsMissing key (requested ⟨c, r⟩) := by
    rintro c x r y hx ⟨hcall, hreports⟩ hc
    have hfound : ¬ ReportsMissing key (requested ⟨c, r⟩) := by
      intro hmissing
      cases hx.symm.trans (hreports key hmissing)
    cases c with
    | inl c => exact ⟨threadEnv_present hx hcall.1 hc, hfound⟩
    | inr c => exact ⟨threadEnv_present hx hcall.1 hc, hfound⟩
  obtain ⟨ht, hnone⟩ := h.awaits hstep (awaits_inLeft hp) (awaits_inRight hq) hkey
  refine ⟨ht, ?_⟩
  rintro ⟨e, he, hgen⟩
  refine hnone e he ?_
  obtain ⟨c | c, r⟩ | ⟨c | c, r⟩ := e <;> exact requestsKey_of_generates hgen

/-- With a key that is there and that Keystore does not report missing, a payload opens to the
data whatever another thread does with the client meanwhile. -/
theorem present_key_opens_payload {u : Int32} {data payload : Bytes} {cs : List CryptoOperation}
    (hK : Seals K (getStorageKeyDescriptor u))
    (ho : o'.Reliable (getStorageKeyDescriptor u) .decrypt) (hs : Issued s.1) (hne : data ≠ [])
    (hkey : s.1.keys (getStorageKeyDescriptor u) = some n)
    (h : Interleaved (truthful (twoThreads K o)) (encrypt u data).inLeft (serve cs).inRight s tr
      payload () t)
    (hpayload : payload ≠ []) :
    ((decrypt u payload).inLeft).returns (twoThreads K o') (fun d _ => d = data) t := by
  have hkept := (present_key_kept (awaits_encrypt u data) (awaits_serve cs) hkey h).2
  have hsealed := sealedWith_of_interleaved hs hne (h.mono fun _ _ _ _ hcall => hcall.1) hpayload
  obtain ⟨pre, created, post, rfl, -, hreturns⟩ := returns_decrypt_sealed hK ho hsealed
  refine returns_mono hreturns fun d _ hd => hd.1 ?_
  rintro ⟨e, he, hgen⟩
  exact hkept ⟨e, List.mem_append_right pre (List.mem_cons_of_mem created he), hgen⟩

end present

/-- Takes off what the `n`-th key puts in front. -/
def takeMark : ℕ → Bytes → Option Bytes
  | 0, 0 :: d => some d
  | n + 1, 1 :: d => takeMark n d
  | _, _ => none

/-- The `n`-th key puts a mark of its own in front. -/
def markingKeystore (n : ℕ) : KeystoreFunctions where
  sealWith _ _ d := List.replicate n 1 ++ 0 :: d
  openWith _ _ c := takeMark n c
  hmac _ _ := []

theorem takeMark_mark (m n : ℕ) (d : Bytes) :
    takeMark m (List.replicate n 1 ++ 0 :: d) = if m = n then some d else none := by
  induction m generalizing n with
  | zero => cases n <;> rfl
  | succ m ih =>
      cases n with
      | zero => rfl
      | succ n =>
          refine (ih n).trans ?_
          simp only [Nat.add_right_cancel_iff]

theorem seals_markingKeystore (key : KeyDescriptor) : Seals markingKeystore key where
  seal_ne_nil n _ d := by
    intro hnil
    exact List.cons_ne_nil 0 d (List.append_eq_nil_iff.mp hnil).2
  open_seal m n _ d _ _ := takeMark_mark m n d

/-- Keystore without faults, to a thread that encrypts. -/
def answerThread : (c : KeystoreCall) → Keyring × OwnOperations →
    Option (c.Reply × Keyring × OwnOperations)
  | .securityLevel, s => some (true, s)
  | .createOperation key params, s =>
      if purposeOf params = some .encrypt then
        match s.1.keys key with
        | none => some ((.error "KEY_NOT_FOUND".toList, ⟨none, none⟩), s)
        | some n => some ((.ok, ⟨some s.2.length, some [.nonce [1]]⟩),
            s.1, s.2 ++ [(⟨key, .encrypt, [1], [], []⟩, n)])
      else none
  | .update h data, s => s.2[h]?.map fun op =>
      (⟨.ok, some []⟩, s.1, s.2.set h (op.1.push data [], op.2))
  | .finish h, s => s.2[h]?.bind fun op =>
      if op.1.emitted = [] then
        (op.1.result (markingKeystore op.2)).map fun out => (⟨.ok, some out⟩, s)
      else none
  | .abort _, s => some ((), s)
  | .generateKey key _, s => some (.ok, s.1.generate key, s.2)
  | .absentDereference, _ => none

theorem threadEnv_answerThread {c : KeystoreCall} {s : Keyring × OwnOperations}
    {out : c.Reply × Keyring × OwnOperations} (h : answerThread c s = some out) :
    threadEnv markingKeystore noFaults c s out.1 out.2 := by
  cases c with
  | securityLevel =>
      obtain rfl := Option.some.inj h
      exact ⟨rfl, rfl⟩
  | createOperation key params =>
      simp only [answerThread] at h
      split_ifs at h with hp
      refine ⟨.encrypt, hp, ?_⟩
      cases hkey : s.1.keys key with
      | none =>
          rw [hkey] at h
          obtain rfl := Option.some.inj h
          exact .inr ⟨rfl, rfl, .inl rfl⟩
      | some n =>
          rw [hkey] at h
          obtain rfl := Option.some.inj h
          have hnonce : ([1] : Bytes) ≠ [] ∧ ([1] : Bytes).length ≤ 32 := by decide
          exact .inl ⟨n, [1], rfl, rfl, rfl, fun _ => ⟨rfl, hnonce⟩, by rintro ⟨⟩, rfl⟩
  | update h' data =>
      obtain ⟨⟨op, n⟩, hop, rfl⟩ := Option.map_eq_some_iff.mp h
      exact ⟨op, n, hop, .inl ⟨rfl, rfl⟩⟩
  | finish h' =>
      obtain ⟨⟨op, n⟩, hop, hmap⟩ := Option.bind_eq_some_iff.mp h
      dsimp only at hmap
      split_ifs at hmap with hemitted
      obtain ⟨result, hresult, rfl⟩ := Option.map_eq_some_iff.mp hmap
      refine ⟨rfl, op, n, hop, .inl ⟨rfl, ?_⟩⟩
      rw [hemitted]
      exact hresult
  | abort h' =>
      obtain rfl := Option.some.inj h
      rfl
  | generateKey key params =>
      obtain rfl := Option.some.inj h
      exact .inl ⟨rfl, rfl⟩
  | absentDereference => cases h

def answerTwoThreads : (c : TwoThreadsI.Call) → KeyringState →
    Option (TwoThreadsI.Reply c × KeyringState)
  | .inl c, s => (answerThread c (s.1, s.2.1)).map fun out => (out.1, out.2.1, out.2.2, s.2.2)
  | .inr c, s => (answerThread c (s.1, s.2.2)).map fun out => (out.1, out.2.1, s.2.1, out.2.2)

theorem answerThread_truthful {c : KeystoreCall} {s : Keyring × OwnOperations}
    {out : c.Reply × Keyring × OwnOperations} (h : answerThread c s = some out)
    {key : KeyDescriptor} (hmissing : ReportsMissing key ⟨c, out.1⟩) : s.1.keys key = none := by
  cases c with
  | createOperation key' params =>
      obtain ⟨rfl, hno, -⟩ := hmissing
      cases hkey : s.1.keys key' with
      | none => rfl
      | some n =>
          simp only [answerThread, hkey] at h
          split_ifs at h
          obtain rfl := Option.some.inj h
          cases hno
  | securityLevel | update _ _ | finish _ | abort _ | generateKey _ _ | absentDereference =>
      cases hmissing

theorem twoThreads_answerTwoThreads (c : TwoThreadsI.Call) (s : KeyringState)
    (reply : TwoThreadsI.Reply c × KeyringState) (h : answerTwoThreads c s = some reply) :
    truthful (twoThreads markingKeystore noFaults) c s reply.1 reply.2 := by
  cases c with
  | inl c =>
      obtain ⟨out, hout, rfl⟩ := Option.map_eq_some_iff.mp h
      exact ⟨⟨threadEnv_answerThread hout, rfl⟩, fun _ => answerThread_truthful hout⟩
  | inr c =>
      obtain ⟨out, hout, rfl⟩ := Option.map_eq_some_iff.mp h
      exact ⟨⟨threadEnv_answerThread hout, rfl⟩, fun _ => answerThread_truthful hout⟩

/-- No key, and no operation. -/
def firstUse : KeyringState := (⟨fun _ => none, 0⟩, [], [])

/-- Both threads find no key. The first one generates a key and creates its operation, and the
second one generates another before the payload is there. -/
def twoFirstUses : Option (PairTrace TwoThreadsI × Bytes × Bytes × KeyringState) :=
  replayAnswered answerTwoThreads
    ([true, true, false, false, true, true, true] ++ List.replicate 5 false ++ [true, true])
    (encrypt 0 [7]).inLeft (encrypt 0 [8]).inRight firstUse

theorem twoFirstUses_ends : ∃ out, twoFirstUses = some out ∧ out.2.1 ≠ [] ∧
    ∀ l ∈ out.1.tails, ∀ e ∈ l.head?, Creates (getStorageKeyDescriptor 0) e →
      Replaced (getStorageKeyDescriptor 0) l.tail := by
  have hends : twoFirstUses.map (fun out => decide (out.2.1 ≠ [] ∧ ∀ l ∈ out.1.tails,
      ∀ e ∈ l.head?, Creates (getStorageKeyDescriptor 0) e →
        Replaced (getStorageKeyDescriptor 0) l.tail)) = some true := by
    decide +kernel
  obtain ⟨out, hout, hall⟩ := Option.map_eq_some_iff.mp hends
  exact ⟨out, hout, of_decide_eq_true hall⟩

theorem reliable_noFaults (key : KeyDescriptor) (purpose : KeyPurpose) :
    noFaults.Reliable key purpose := ⟨rfl, rfl, rfl, rfl⟩

/-- Two first uses at once: the template of the first thread is gone. -/
theorem replaced_key_loses_payload_first_uses : ∃ tr payload other t,
    Interleaved (twoThreads markingKeystore noFaults) (encrypt 0 [7]).inLeft
      (encrypt 0 [8]).inRight firstUse tr payload other t ∧ payload ≠ [] ∧
    ((decrypt 0 payload).inLeft).returns (twoThreads markingKeystore noFaults)
      (fun d _ => d = []) t := by
  obtain ⟨⟨tr, payload, other, t⟩, hout, hpayload, hall⟩ := twoFirstUses_ends
  have hrun := (interleaved_of_replayAnswered twoThreads_answerTwoThreads hout).mono
    fun _ _ _ _ hcall => hcall.1
  refine ⟨tr, payload, other, t, hrun, hpayload, ?_⟩
  have hissued : Issued firstUse.1 := by
    rintro key n ⟨⟩
  obtain ⟨pre, created, post, rfl, hcreated, hreturns⟩ := replaced_key_loses_payload
    (seals_markingKeystore _) (reliable_noFaults _ _) hissued (List.cons_ne_nil 7 []) hrun hpayload
  refine returns_mono hreturns fun d _ hd => hd.2 ?_
  have htail := (List.mem_tails _ _).mpr (List.suffix_append pre (created :: post))
  exact hall (created :: post) htail created rfl hcreated

/-- The storage key of the user is there. -/
def laterUse : KeyringState :=
  (⟨fun key => if key = getStorageKeyDescriptor 0 then some 0 else none, 1⟩, [], [])

/-- The two threads take turns. -/
def twoLaterUses : Option (PairTrace TwoThreadsI × Bytes × Unit × KeyringState) :=
  replayAnswered answerTwoThreads [true, false, true, false, true, false, true, false]
    (encrypt 0 [7]).inLeft (serve [.encrypt 0 [8]]).inRight laterUse

theorem present_key_opens_payload_turns : ∃ tr payload t,
    Interleaved (truthful (twoThreads markingKeystore noFaults)) (encrypt 0 [7]).inLeft
      (serve [.encrypt 0 [8]]).inRight laterUse tr payload () t ∧ payload ≠ [] ∧
    ((decrypt 0 payload).inLeft).returns (twoThreads markingKeystore noFaults)
      (fun d _ => d = [7]) t := by
  have hends : twoLaterUses.map (fun out => decide (out.2.1 ≠ [])) = some true := by
    decide +kernel
  obtain ⟨⟨tr, payload, ⟨⟩, t⟩, hout, hne⟩ := Option.map_eq_some_iff.mp hends
  have hpayload : payload ≠ [] := of_decide_eq_true hne
  have hrun := interleaved_of_replayAnswered twoThreads_answerTwoThreads hout
  have hissued : Issued laterUse.1 := by
    intro key n hn
    obtain ⟨-, hzero⟩ := Option.ite_none_right_eq_some.mp hn
    obtain rfl := Option.some.inj hzero
    exact Nat.one_pos
  refine ⟨tr, payload, t, hrun, hpayload, ?_⟩
  exact present_key_opens_payload (n := 0) (seals_markingKeystore _) (reliable_noFaults _ _) hissued
    (List.cons_ne_nil 7 []) rfl hrun hpayload

end KeyringRace
end FaceHal
