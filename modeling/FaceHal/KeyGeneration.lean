import FaceHal.AutoClean

/-!
# Keys generated on the way of reading

Verifying a MAC computes it again, with the helper that signs a new template, and
this helper generates a key that it takes for missing. Loading therefore issues a
request for a new MAC key exactly when Keystore answers the creation of the
operation with one of the messages that look like a missing key. Decryption has
its own path, which generates nothing.
-/
namespace FaceHal

/-- Keystore may answer anything, but the client keeps its security level. -/
def anyReplies (available : Bool) : Environment KeystoreI Unit
  | .securityLevel, _, r, _ => r = available
  | _, _, _, _ => True

/-- A request for a key, new or in the place of the one there was. -/
def KeystoreCall.GeneratesKey : KeystoreCall → Prop
  | .generateKey _ _ => True
  | _ => False

/-- Neither generates a key nor starts an operation with the MAC key. -/
def KeystoreCall.SparesMacKey : KeystoreCall → Prop
  | .generateKey _ _ => False
  | .createOperation key _ => key ≠ CryptoClient.getMacKeyDescriptor
  | _ => True

/-- Generates no key but the MAC key. -/
def KeystoreCall.SparesStorageKeys : KeystoreCall → Prop
  | .generateKey key _ => key = CryptoClient.getMacKeyDescriptor
  | _ => True

namespace CryptoClient
open FaceStorageManager Program

/-- An operation with the MAC key was not created, for a reason that looks like a
missing key. -/
def MissesMacKey : Event KeystoreI → Prop
  | ⟨.createOperation key _, r⟩ => key = getMacKeyDescriptor ∧ opens r = false ∧
      looksKeyMissing r.1.getMessage = true
  | _ => False

/-- A key was generated just if the MAC key looked missing. -/
def Balanced (tr : List (Event KeystoreI)) : Prop :=
  (∃ e ∈ tr, e.call.GeneratesKey) ↔ ∃ e ∈ tr, MissesMacKey e

theorem storageKey_ne_macKey (u : Int32) : getStorageKeyDescriptor u ≠ getMacKeyDescriptor := by
  intro h
  have hchar : (storageAliasForUser u)[24]? =
      "milahaina_face_template_hmac_sha256_v2".toList[24]? :=
    congrArg (fun key : KeyDescriptor => key.keyAlias[24]?) h
  have hstorage : (storageAliasForUser u)[24]? = some 'a' :=
    (List.getElem?_append_left (by decide)).trans (by decide)
  rw [hstorage] at hchar
  revert hchar
  decide

section calls
variable {available : Bool} {s : Unit × List (Event KeystoreI)}

theorem Balanced.append {tr : List (Event KeystoreI)} (h : Balanced tr) {e : Event KeystoreI}
    (hgenerates : ¬ e.call.GeneratesKey) (hmisses : ¬ MissesMacKey e) : Balanced (tr ++ [e]) := by
  simpa [Balanced, hgenerates, hmisses] using h

theorem Balanced.spares {tr : List (Event KeystoreI)} (h : Balanced tr) {c : KeystoreCall}
    (hc : c.SparesMacKey) (r : c.Reply) : Balanced (tr ++ [⟨c, r⟩]) := by
  refine h.append ?_ ?_
  · cases c with
    | generateKey _ _ => exact fun _ => hc
    | _ => exact id
  · cases c with
    | createOperation key _ => exact fun hmiss => hc hmiss.1
    | _ => exact id

theorem wp_balanced_of_spares {α : Type} {p : Program KeystoreI α}
    (hp : p.Uses KeystoreCall.SparesMacKey) (hs : Balanced s.2) :
    p.wp (traced (anyReplies available)) (fun _ t => Balanced t.2) s := by
  refine wp_mono (hp.issues.wp ?_ hs) fun _ _ h => h.2
  rintro c hc t r x ht ⟨-, hx⟩
  rw [hx]
  exact ht.spares hc r

theorem uses_decrypt (u : Int32) (payload : Bytes) :
    (decrypt u payload).Uses KeystoreCall.SparesMacKey := by
  unfold decrypt
  rw [uses_request]
  refine ⟨trivial, fun found => ?_⟩
  split_ifs
  · trivial
  · cases parseStoragePayload payload with
    | none => trivial
    | some parts =>
        dsimp only
        rw [uses_request]
        refine ⟨storageKey_ne_macKey u, fun reply => ?_⟩
        split_ifs
        · trivial
        · refine uses_bind (uses_stream ?_ ?_ ?_ _ _) fun _ => trivial
          all_goals intros
          all_goals trivial

/-- A missing key and a generated one stay in the record. -/
theorem wp_balanced_of_replaced {α : Type} {p : Program KeystoreI α}
    (hgenerated : ∃ e ∈ s.2, e.call.GeneratesKey) (hmissed : ∃ e ∈ s.2, MissesMacKey e) :
    p.wp (traced (anyReplies available)) (fun _ t => Balanced t.2) s := by
  induction p generalizing s with
  | done a => exact iff_of_true hgenerated hmissed
  | call c next ih =>
      rintro r t ⟨-, ht⟩
      have hgrown : s.2 ⊆ t.2 := by
        rw [ht]
        exact List.subset_append_left _ _
      obtain ⟨e, he, hkey⟩ := hgenerated
      obtain ⟨e', he', hmiss⟩ := hmissed
      exact ih r ⟨e, hgrown he, hkey⟩ ⟨e', hgrown he', hmiss⟩

/-- The creation of the signing operation, with the key generated if it looks missing. -/
theorem wp_createOrGenerate_balanced (params : List KeyParameter) (hs : Balanced s.2) :
    (createOrGenerate getMacKeyDescriptor params generateMacKey).wp (traced (anyReplies true))
      (fun _ t => Balanced t.2) s := by
  unfold createOrGenerate
  rw [wp_request]
  rintro ⟨status, result⟩ t ⟨-, ht⟩
  dsimp only
  split_ifs with hopens hpresent
  · change Balanced t.2
    rw [ht]
    exact hs.append id fun hmiss => absurd hopens (by simp [hmiss.2.1])
  · change Balanced t.2
    rw [ht]
    refine hs.append id fun hmiss => ?_
    have hmissing : looksKeyMissing status.getMessage = true := hmiss.2.2
    rw [hmissing] at hpresent
    cases hpresent
  · have hmissed : MissesMacKey ⟨.createOperation getMacKeyDescriptor params, (status, result)⟩ :=
      ⟨rfl, by simpa using hopens, by simpa using hpresent⟩
    rw [wp_bind, generateMacKey, generateKey, wp_request]
    rintro found x ⟨hfound, hx⟩
    obtain rfl : found = true := hfound
    rw [Bool.not_true, if_neg Bool.false_ne_true, wp_request]
    rintro status' y ⟨-, hy⟩
    rw [← wp_bind]
    refine wp_balanced_of_replaced ?_ ?_
    · rw [hy]
      exact ⟨_, List.mem_append_right _ (List.mem_singleton_self _), trivial⟩
    · rw [hy, hx, ht]
      exact ⟨_, by simp, hmissed⟩

theorem wp_signWithHmacKey_balanced (data : Bytes) (hs : Balanced s.2) :
    (signWithHmacKey data).wp (traced (anyReplies available)) (fun _ t => Balanced t.2) s := by
  unfold signWithHmacKey
  rw [wp_request]
  rintro found t ⟨hfound, ht⟩
  have hstart : Balanced t.2 := by
    rw [ht]
    exact hs.spares (c := .securityLevel) trivial found
  split_ifs with hmissing
  · exact hstart
  · obtain rfl : available = true := by
      rw [← show found = available from hfound]
      simpa using hmissing
    rw [wp_bind]
    refine wp_mono (wp_createOrGenerate_balanced _ hstart) ?_
    intro result x hx
    cases result with
    | none => exact hx
    | some result =>
        refine wp_balanced_of_spares (uses_bind (uses_stream ?_ ?_ ?_ _ _) fun _ => trivial) hx
        all_goals intros
        all_goals trivial

theorem wp_verifyMac_balanced (data mac : Bytes) (hs : Balanced s.2) :
    (verifyMac data mac).wp (traced (anyReplies available)) (fun _ t => Balanced t.2) s := by
  unfold verifyMac
  split_ifs
  · exact hs
  · rw [wp_bind]
    refine wp_mono (wp_signWithHmacKey_balanced data hs) ?_
    intro calculatedMac x hx
    split_ifs <;> exact hx

end calls

/-- The functions that only read templates. -/
inductive TemplateRead where
  | loadTemplate (userId faceId : Int32) (outTmpl : FaceTemplate)
  | loadAllTemplatesForUser (userId : Int32)
  | decrypt (userId : Int32) (encryptedPayload : Bytes)
  | verifyMac (data mac : Bytes)

/-- A call of the function, the result aside. -/
def TemplateRead.call : TemplateRead → Program (StorageI.sum KeystoreI) Unit
  | .loadTemplate userId faceId outTmpl => do
      let _ ← (FaceStorageManager.loadTemplate userId faceId outTmpl).expand withKeystore
  | .loadAllTemplatesForUser userId => do
      let _ ← (FaceStorageManager.loadAllTemplatesForUser userId).expand withKeystore
  | .decrypt userId encryptedPayload => do
      let _ ← (CryptoClient.decrypt userId encryptedPayload).inRight
  | .verifyMac data mac => do
      let _ ← (CryptoClient.verifyMac data mac).inRight

section reads
variable {σ : Type} {E : Environment StorageI σ} {available : Bool}
  {s : (σ × Unit) × List (Event (StorageI.sum KeystoreI))}

theorem wp_withKeystore_balanced {c : StorageCall} (hc : c.Walks)
    (hs : Balanced (rightEvents s.2)) :
    (withKeystore c).wp (traced (E.both (anyReplies available)))
      (fun _ t => Balanced (rightEvents t.2)) s := by
  have hfile : ∀ d : StorageCall,
      (Program.perform (I := StorageI.sum KeystoreI) (Sum.inl d)).wp
        (traced (E.both (anyReplies available))) (fun _ t => Balanced (rightEvents t.2)) s := by
    rintro d r t ⟨-, ht⟩
    have hsame : rightEvents t.2 = rightEvents s.2 := by
      rw [ht, rightEvents_append]
      exact List.append_nil _
    change Balanced (rightEvents t.2)
    rwa [hsame]
  cases c with
  | decrypt u payload =>
      exact wp_inRight_traced (wp_balanced_of_spares (uses_decrypt u payload) hs)
  | verifyMac data mac => exact wp_inRight_traced (wp_verifyMac_balanced data mac hs)
  | encrypt _ _ | generateMac _ => rcases hc with (hc | ⟨_, hc⟩) | ⟨_, hc⟩ <;> cases hc
  | _ => exact hfile _

theorem TemplateRead.wp_balanced (c : TemplateRead) (hs : Balanced (rightEvents s.2)) :
    c.call.wp (traced (E.both (anyReplies available)))
      (fun _ t => Balanced (rightEvents t.2)) s := by
  have hexpand : ∀ {α : Type} {p : Program StorageI α}, p.Uses StorageCall.Walks →
      (p.expand withKeystore).wp (traced (E.both (anyReplies available)))
        (fun _ t => Balanced (rightEvents t.2)) s :=
    fun hp => wp_expand (fun _ hc _ hx => wp_withKeystore_balanced hc hx) hp hs
  cases c with
  | loadTemplate u f out =>
      rw [call, wp_bind]
      exact hexpand ((uses_loadTemplate u f out).mono fun _ hc => .inl (.inl hc))
  | loadAllTemplatesForUser u =>
      rw [call, wp_bind]
      exact hexpand (uses_loadAllTemplatesForUser u)
  | decrypt u payload =>
      rw [call, wp_bind]
      exact wp_withKeystore_balanced (c := .decrypt u payload) (.inl (.inl trivial)) hs
  | verifyMac data mac =>
      rw [call, wp_bind]
      exact wp_withKeystore_balanced (c := .verifyMac data mac) (.inl (.inl trivial)) hs

end reads

theorem uses_verifyMac (data mac : Bytes) :
    (verifyMac data mac).Uses KeystoreCall.SparesStorageKeys := by
  unfold verifyMac
  split_ifs
  · trivial
  · refine uses_bind ?_ fun calculatedMac => ?_
    · unfold signWithHmacKey
      rw [uses_request]
      refine ⟨trivial, fun found => ?_⟩
      split_ifs
      · trivial
      · refine uses_bind (uses_createOrGenerate trivial (uses_generateKey trivial rfl)) ?_
        intro result
        cases result with
        | none => trivial
        | some result =>
            refine uses_bind (uses_stream ?_ ?_ ?_ _ _) fun _ => trivial
            all_goals intros
            all_goals trivial
    · split_ifs <;> trivial

theorem uses_withKeystore {c : StorageCall} (hc : c.Walks) : (withKeystore c).Uses
    (Sum.elim (fun _ : StorageCall => True) KeystoreCall.SparesStorageKeys) := by
  cases c with
  | decrypt u payload =>
      refine uses_inRight ((uses_decrypt u payload).mono fun d hd => ?_)
      cases d with
      | generateKey _ _ => exact hd.elim
      | _ => trivial
  | verifyMac data mac => exact uses_inRight (I := StorageI) (uses_verifyMac data mac)
  | encrypt _ _ | generateMac _ => rcases hc with (hc | ⟨_, hc⟩) | ⟨_, hc⟩ <;> cases hc
  | _ => exact ⟨trivial, fun _ => trivial⟩

/-- No reading function asks for a key other than the MAC key. -/
theorem TemplateRead.spares_storageKeys (c : TemplateRead) : c.call.Uses
    (Sum.elim (fun _ : StorageCall => True) KeystoreCall.SparesStorageKeys) := by
  cases c with
  | loadTemplate u f out =>
      refine uses_bind (uses_expand (fun _ hc => uses_withKeystore hc) ?_) fun _ => trivial
      exact (uses_loadTemplate u f out).mono fun _ hc => .inl (.inl hc)
  | loadAllTemplatesForUser u =>
      refine uses_bind (uses_expand (fun _ hc => uses_withKeystore hc) ?_) fun _ => trivial
      exact uses_loadAllTemplatesForUser u
  | decrypt u payload =>
      exact uses_bind (uses_withKeystore (c := .decrypt u payload) (.inl (.inl trivial)))
        fun _ => trivial
  | verifyMac data mac =>
      exact uses_bind (uses_withKeystore (c := .verifyMac data mac) (.inl (.inl trivial)))
        fun _ => trivial

/-- A run generates no key if and only if no creation of a signing operation in it fails
with a message that looks like a missing key. -/
theorem generatesNoKey_iff {σ : Type} (E : Environment StorageI σ) (available : Bool)
    (c : TemplateRead) (s : σ) (t : (σ × Unit) × List (Event (StorageI.sum KeystoreI)))
    (h : Run (traced (E.both (anyReplies available))) c.call ((s, ()), []) () t) :
    (∀ e ∈ rightEvents t.2, ¬ e.call.GeneratesKey) ↔
      ∀ e ∈ rightEvents t.2, ¬ MissesMacKey e := by
  have hstart : Balanced (rightEvents (I := StorageI) (J := KeystoreI) []) :=
    iff_of_false (by simp [rightEvents]) (by simp [rightEvents])
  have hend : Balanced (rightEvents t.2) := h.wp (c.wp_balanced hstart)
  simpa [Balanced] using not_congr hend

theorem may_answered {σ : Type} {E : Environment StorageI σ} {available : Bool} {α : Type}
    {Q : α → (σ × Unit) × List (Event (StorageI.sum KeystoreI)) → Prop} {c : KeystoreCall}
    {next : c.Reply → Program (StorageI.sum KeystoreI) α}
    {s : (σ × Unit) × List (Event (StorageI.sum KeystoreI))} (r : c.Reply)
    (hr : anyReplies available c () r ())
    (h : (next r).may (traced (E.both (anyReplies available))) Q
      (s.1, s.2 ++ [⟨Sum.inr c, r⟩])) :
    (Program.call (I := StorageI.sum KeystoreI) (Sum.inr c) next).may
      (traced (E.both (anyReplies available))) Q s :=
  ⟨r, (s.1, s.2 ++ [⟨Sum.inr c, r⟩]), ⟨⟨hr, rfl⟩, rfl⟩, h⟩

/-- A MAC is verified while Keystore does not know its key, and a new one is generated. -/
theorem exists_run_generates : ∃ t, Run (traced ((Works toyCrypto.toCrypto).both (anyReplies true)))
    (TemplateRead.verifyMac [7] [1]).call ((.empty, ()), []) () t ∧
    ∃ e ∈ rightEvents t.2, e.call.GeneratesKey := by
  have hmay : (TemplateRead.verifyMac [7] [1]).call.may
      (traced ((Works toyCrypto.toCrypto).both (anyReplies true)))
      (fun _ t => ∃ e ∈ rightEvents t.2, e.call.GeneratesKey) ((.empty, ()), []) := by
    refine may_answered (c := .securityLevel) true rfl ?_
    refine may_answered (c := .createOperation _ _)
      (.error "KEY_NOT_FOUND".toList, ⟨none, none⟩) trivial ?_
    refine may_answered (c := .securityLevel) true rfl ?_
    refine may_answered (c := .generateKey _ _) (.error []) trivial ?_
    change ∃ e ∈ rightEvents (I := StorageI) (J := KeystoreI) _, e.call.GeneratesKey
    rw [rightEvents_append]
    exact ⟨_, List.mem_append_right _ (List.mem_singleton_self _), trivial⟩
  obtain ⟨_, t, hrun, hgenerated⟩ := may_iff_run.mp hmay
  exact ⟨t, hrun, hgenerated⟩

theorem generatesNoKey_missing : ∃ t,
    Run (traced ((Works toyCrypto.toCrypto).both (anyReplies true)))
      (TemplateRead.verifyMac [7] [1]).call ((.empty, ()), []) () t ∧
    ((∀ e ∈ rightEvents t.2, ¬ e.call.GeneratesKey) ↔
      ∀ e ∈ rightEvents t.2, ¬ MissesMacKey e) := by
  obtain ⟨t, hrun, -⟩ := exists_run_generates
  exact ⟨t, hrun, generatesNoKey_iff _ true (.verifyMac [7] [1]) _ t hrun⟩

/-- Verifying replaces the MAC key. -/
theorem verifyMac_generatesKey : ¬ ∀ (σ : Type) (E : Environment StorageI σ) (available : Bool)
    (c : TemplateRead) (s : σ) (t : (σ × Unit) × List (Event (StorageI.sum KeystoreI))),
    Run (traced (E.both (anyReplies available))) c.call ((s, ()), []) () t →
      ∀ e ∈ rightEvents t.2, ¬ e.call.GeneratesKey := by
  intro h
  obtain ⟨t, hrun, e, he, hkey⟩ := exists_run_generates
  exact h _ _ _ _ _ t hrun e he hkey

end CryptoClient
end FaceHal
