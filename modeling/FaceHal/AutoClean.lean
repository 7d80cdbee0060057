import FaceHal.CombinedInterface
import FaceHal.CryptoRuns
import FaceHal.DirectoryScan

/-!
# Auto-cleaning while Keystore fails

The store is run here on top of the Keystore client: every encryption, decryption
and MAC is the client's own program. `loadAllTemplatesForUser` takes a template
that does not load for a corrupted one and removes its file, but a load also
fails when a Keystore request does. The last theorem says for which directories
and which failing requests no intact file can be lost.
-/
namespace FaceHal

/-- The calls of `loadAllTemplatesForUser`. -/
def StorageCall.Walks (c : StorageCall) : Prop := c.Cleans ∨ ∃ d, c = .openDirectory d

namespace FaceStorageManager
open FaceTemplateSerializer CryptoClient Program

theorem uses_loadAllTemplatesForUser (u : Int32) :
    (loadAllTemplatesForUser u).Uses StorageCall.Walks := by
  refine uses_bind ((uses_getUserDirectory u).mono fun _ hc => .inl (.inl hc)) fun dir => ?_
  refine ⟨.inr ⟨dir, rfl⟩, fun r => ?_⟩
  cases r with
  | none => trivial
  | some names => exact (uses_loadEntries u dir names false [] []).mono fun _ hc => .inl hc

/-- The calls into `CryptoClient` are its programs. -/
def withKeystore : (c : StorageCall) → Program (StorageI.sum KeystoreI) c.Reply
  | .encrypt userId data => (CryptoClient.encrypt userId data).inRight
  | .decrypt userId payload => (CryptoClient.decrypt userId payload).inRight
  | .generateMac data => (CryptoClient.generateMac data).inRight
  | .verifyMac data mac => (CryptoClient.verifyMac data mac).inRight
  | c => Program.perform (I := StorageI.sum KeystoreI) (Sum.inl c)

/-- Files that do not fail and a Keystore that fails as planned. -/
def deviceEnv (C : Crypto) (K : KeystoreFunctions) (o : KeystoreFaults) :
    Environment (StorageI.sum KeystoreI) (FileSystem × KeystoreState) :=
  (storageEnv C fun _ => .never).both (keystoreEnv K o)

/-- One call of the store on the device. -/
def deviceStep (C : Crypto) (K : KeystoreFunctions) (o : KeystoreFaults) :
    Environment StorageI (FileSystem × KeystoreState) :=
  through (deviceEnv C K o) withKeystore

/-- Which calls of the store may fail because a Keystore request does. -/
def cryptoFaults (o : KeystoreFaults) : StorageCall → Fault
  | .decrypt u _ => if o.Reliable (getStorageKeyDescriptor u) .decrypt then .never else .sometimes
  | .verifyMac data _ => if MayFail o getMacKeyDescriptor .sign data then .sometimes else .never
  | _ => .never

/-- The functions left when every Keystore request that can fail does. -/
def degraded (C : Crypto) (o : KeystoreFaults) : Crypto where
  currentVersion := C.currentVersion
  encrypt := C.encrypt
  decrypt u payload :=
    if o.Reliable (getStorageKeyDescriptor u) .decrypt then C.decrypt u payload else []
  mac data := if MayFail o getMacKeyDescriptor .sign data then [] else C.mac data

theorem verifies_degraded (C : Crypto) (o : KeystoreFaults) (data mac : Bytes) :
    (degraded C o).verifies data mac =
      if MayFail o getMacKeyDescriptor .sign data then false else C.verifies data mac := by
  simp only [Crypto.verifies, degraded]
  split_ifs
  · cases mac <;> rfl
  · rfl

section device
variable {K : KeystoreFunctions} {o : KeystoreFaults} {v : UInt32} {nonces : ℕ → Bytes}

theorem run_withKeystore_file {C : Crypto} {c : StorageCall} {x y : FileSystem × KeystoreState}
    {r : c.Reply}
    (hbody : withKeystore c = Program.perform (I := StorageI.sum KeystoreI) (Sum.inl c)) :
    Run (deviceEnv C K o) (withKeystore c) x r y ↔ Works C c x.1 r y.1 ∧ y.2 = x.2 := by
  rw [hbody]
  constructor
  · intro h
    obtain ⟨r', z, hcall, hend⟩ := run_call.mp h
    obtain ⟨rfl, rfl⟩ := run_done.mp hend
    exact hcall
  · intro h
    exact run_call.mpr ⟨r, y, h, .done r y⟩

/-- What the device does is what the store may do when its calls fail as the
Keystore requests do. -/
theorem storageEnv_of_device {c : StorageCall} (hc : c.Walks) {x y : FileSystem × KeystoreState}
    {r : c.Reply} (h : Run (deviceEnv (cryptoOf K v nonces) K o) (withKeystore c) x r y) :
    storageEnv (cryptoOf K v nonces) (cryptoFaults o) c x.1 r y.1 := by
  cases c with
  | decrypt u payload =>
      obtain ⟨hrun, hfiles⟩ := run_inRight.mp h
      rw [hfiles]
      have hreply : r = (cryptoOf K v nonces).decrypt u payload ∨
          ¬ o.Reliable (getStorageKeyDescriptor u) .decrypt ∧ r = [] :=
        hrun.wp (Q := fun r _ => r = (cryptoOf K v nonces).decrypt u payload ∨
          ¬ o.Reliable (getStorageKeyDescriptor u) .decrypt ∧ r = [])
          (wp_decrypt (fun _ => .inl rfl) fun hbad _ => .inr ⟨hbad, rfl⟩)
      simp only [storageEnv, cryptoFaults]
      by_cases hrel : o.Reliable (getStorageKeyDescriptor u) .decrypt
      · rw [if_pos hrel]
        rcases hreply with hr | ⟨hbad, -⟩
        · exact ⟨hr, rfl⟩
        · exact absurd hrel hbad
      · rw [if_neg hrel]
        rcases hreply with hr | ⟨-, hr⟩
        · exact .inl ⟨hr, rfl⟩
        · exact .inr ⟨hr, rfl⟩
  | verifyMac data mac =>
      obtain ⟨hrun, hfiles⟩ := run_inRight.mp h
      rw [hfiles]
      have hreply : r = (cryptoOf K v nonces).verifies data mac ∨
          MayFail o getMacKeyDescriptor .sign data ∧ r = false :=
        hrun.wp (Q := fun r _ => r = (cryptoOf K v nonces).verifies data mac ∨
          MayFail o getMacKeyDescriptor .sign data ∧ r = false)
          (wp_verifyMac (fun _ => .inl rfl) fun hbad _ => .inr ⟨hbad, rfl⟩)
      simp only [storageEnv, cryptoFaults]
      by_cases hm : MayFail o getMacKeyDescriptor .sign data
      · rw [if_pos hm]
        rcases hreply with hr | ⟨-, hr⟩
        · exact .inl ⟨hr, rfl⟩
        · exact .inr ⟨hr, rfl⟩
      · rw [if_neg hm]
        rcases hreply with hr | ⟨hbad, -⟩
        · exact ⟨hr, rfl⟩
        · exact absurd hbad hm
  | encrypt _ _ | generateMac _ =>
      rcases hc with (hc | ⟨_, hc⟩) | ⟨_, hc⟩
      · exact hc.elim
      · cases hc
      · cases hc
  | _ => exact ((run_withKeystore_file rfl).mp h).1

theorem device_of_degraded {c : StorageCall} (hc : c.Walks) {x : FileSystem × KeystoreState}
    {t : FileSystem} {r : c.Reply} (h : Works (degraded (cryptoOf K v nonces) o) c x.1 r t) :
    ∃ k, Run (deviceEnv (cryptoOf K v nonces) K o) (withKeystore c) x r (t, k) := by
  cases c with
  | decrypt u payload =>
      obtain ⟨rfl, rfl⟩ := h
      have hmay : (CryptoClient.decrypt u payload).may (keystoreEnv K o)
          (fun r _ => r = (degraded (cryptoOf K v nonces) o).decrypt u payload) x.2 := by
        by_cases hrel : o.Reliable (getStorageKeyDescriptor u) .decrypt
        · exact may_decrypt hrel fun _ => (if_pos hrel).symm
        · exact may_decrypt_fail hrel fun _ => (if_neg hrel).symm
      obtain ⟨r, k, hrun, rfl⟩ := may_iff_run.mp hmay
      exact ⟨k, run_inRight.mpr ⟨hrun, rfl⟩⟩
  | verifyMac data mac =>
      obtain ⟨rfl, rfl⟩ := h
      have hmay : (CryptoClient.verifyMac data mac).may (keystoreEnv K o)
          (fun r _ => r = (degraded (cryptoOf K v nonces) o).verifies data mac) x.2 := by
        rw [verifies_degraded]
        by_cases hm : MayFail o getMacKeyDescriptor .sign data
        · exact may_verifyMac_fail hm fun _ => by rw [if_pos hm]
        · exact may_verifyMac hm fun _ => by rw [if_neg hm]
      obtain ⟨r, k, hrun, rfl⟩ := may_iff_run.mp hmay
      exact ⟨k, run_inRight.mpr ⟨hrun, rfl⟩⟩
  | encrypt _ _ | generateMac _ =>
      rcases hc with (hc | ⟨_, hc⟩) | ⟨_, hc⟩
      · exact hc.elim
      · cases hc
      · cases hc
  | _ => exact ⟨x.2, (run_withKeystore_file rfl).mpr ⟨h, rfl⟩⟩

end device

section removal
variable {C : Crypto} {u : Int32} {s₀ s : FileSystem}

theorem wp_loadEntries_removes {names : List Text} {seen : List Int32}
    {templates : List FaceTemplate} (hs : Cleaned C u s₀ s)
    (hseen : ∀ k ∈ seen, stored C u k s₀ ≠ none) :
    (loadEntries u (userDirectoryName u) names false seen templates).wp
      (storageEnv C fun _ => .never)
      (fun _ t => (∀ p, s.fileAt p = none → t.fileAt p = none) ∧ ∀ n ∈ names, ∀ k,
        templateKey n = some k → stored C u k s₀ = none → t.fileAt ⟨userDirectoryName u, n⟩ = none)
      s := by
  induction names generalizing s seen templates with
  | nil => exact ⟨fun _ hp => hp, by simp⟩
  | cons n rest ih =>
      have keep : ∀ seen' templates', (∀ k ∈ seen', stored C u k s₀ ≠ none) →
          (∀ k, templateKey n = some k → stored C u k s₀ ≠ none) →
          (loadEntries u (userDirectoryName u) rest false seen' templates').wp
            (storageEnv C fun _ => .never)
            (fun _ t => (∀ p, s.fileAt p = none → t.fileAt p = none) ∧ ∀ m ∈ n :: rest, ∀ k,
              templateKey m = some k → stored C u k s₀ = none →
                t.fileAt ⟨userDirectoryName u, m⟩ = none) s := by
        intro seen' templates' hseen' hn
        refine wp_mono (ih hs hseen') ?_
        rintro _ t ⟨hgone, hrest⟩
        refine ⟨hgone, ?_⟩
        intro m hm k hk hnone
        rcases List.mem_cons.mp hm with rfl | hm
        · exact absurd hnone (hn k hk)
        · exact hrest m hm k hk hnone
      by_cases hskip : ∀ k, templateKey n = some k → k ∈ seen
      · rw [loadEntries_skip hskip]
        exact keep seen templates hseen fun k hk => hseen k (hskip k hk)
      push Not at hskip
      obtain ⟨f, hk, hmem⟩ := hskip
      rw [loadEntries_look hk hmem, wp_bind]
      refine wp_loadTemplate (fun _ _ => rfl) ?_
      rintro ⟨ok, tmpl⟩ hok
      rw [FileSystem.mkdir_of_hasDir hs.hasDir]
      rw [hs.stored] at hok
      cases ok with
      | true =>
          have hsome : stored C u f s₀ ≠ none := by
            rw [← hok]
            simp
          refine keep _ _ ?_ ?_
          · intro k hkm
            rcases List.mem_cons.mp hkm with rfl | hkm
            · exact hsome
            · exact hseen k hkm
          · intro k hk'
            rwa [← Option.some.inj (hk.symm.trans hk')]
      | false =>
          rintro removed t ⟨rfl, rfl⟩
          have hparse : stored C u (parseFaceId n) s₀ = none := by
            rw [(templateKey_eq_some.mp hk).2.1]
            exact hok.symm
          refine wp_mono (ih (hs.erase hparse) hseen) ?_
          rintro _ t ⟨hgone, hrest⟩
          refine ⟨?_, ?_⟩
          · intro p hp
            refine hgone p ?_
            rw [FileSystem.fileAt_erase, hp, ite_self]
          · intro m hm k hkm hnone
            rcases List.mem_cons.mp hm with rfl | hm
            · exact hgone _ (FileSystem.fileAt_erase_self _ _)
            · exact hrest m hm k hkm hnone

theorem wp_loadAll_removes {p : Path} {f : Int32} {content : Bytes}
    (hdir : p.dir = userDirectoryName u) (hkey : templateKey p.name = some f)
    (hp : s.fileAt p = some content) (hnone : stored C u f s = none) :
    (loadAllTemplatesForUser u).wp (storageEnv C fun _ => .never)
    (fun _ t => t.fileAt p = none) s := by
  unfold loadAllTemplatesForUser
  rw [wp_bind, wp_getUserDirectory fun _ _ => rfl]
  intro r t hr
  obtain ⟨rfl, l, names, hl, hperm, rfl⟩ := works_openDirectory (C := C) (by simp) hr
  have hmem : p.name ∈ names := by
    refine hperm.mem_iff.mpr ((FileSystem.mem_entries hl p.name).mpr ⟨content, ?_⟩)
    rw [← hdir, FileSystem.fileAt_mkdir]
    exact hp
  refine wp_mono (wp_loadEntries_removes (Cleaned.refl (by simp)) (by simp)) ?_
  rintro _ t ⟨-, hall⟩
  have hgone := hall p.name hmem f hkey (by rw [stored_mkdir]; exact hnone)
  rwa [← hdir] at hgone

end removal

section keeping
variable {C : Crypto} {fault : StorageCall → Fault} {u : Int32} {s₀ s : FileSystem}

/-- Only files of faces that are not `safe` differ. -/
def Kept (safe : Int32 → Prop) (s t : FileSystem) : Prop :=
  ∀ p, t.fileAt p = s.fileAt p ∨ ∃ f, templateKey p.name = some f ∧ ¬ safe f

/-- If a safe face loads as long as its files are there, the loop keeps them. -/
theorem wp_loadEntries_keeps {safe : Int32 → Prop}
    (hload : ∀ f t, f ≠ -1 → safe f → t.fileAt (filePath u f) = s₀.fileAt (filePath u f) →
      t.fileAt (plaintextPath u f) = s₀.fileAt (plaintextPath u f) →
      (loadTemplate u f freshTemplate).wp (storageEnv C fault) (fun r _ => r.1 = true) t)
    {names : List Text} {failed : Bool} {seen : List Int32} {templates : List FaceTemplate}
    (hs : Kept safe s₀ s) :
    (loadEntries u (userDirectoryName u) names failed seen templates).wp (storageEnv C fault)
      (fun _ t => Kept safe s₀ t) s := by
  induction names generalizing s failed seen templates with
  | nil => exact hs
  | cons n rest ih =>
      cases failed with
      | true => exact hs
      | false =>
          by_cases hskip : ∀ k, templateKey n = some k → k ∈ seen
          · rw [loadEntries_skip hskip]
            exact ih hs
          push Not at hskip
          obtain ⟨f, hk, hmem⟩ := hskip
          rw [loadEntries_look hk hmem, wp_bind]
          have hfiles : (loadTemplate u f freshTemplate).wp (storageEnv C fault)
              (fun _ t => ∀ q, t.fileAt q = s.fileAt q) s :=
            wp_of_loads (uses_loadTemplate u _ _) fun _ _ h => h
          have hok : (loadTemplate u f freshTemplate).wp (storageEnv C fault)
              (fun r _ => safe f → r.1 = true) s := by
            by_cases hsafe : safe f
            · have hf : f ≠ -1 := (templateKey_eq_some.mp hk).2.2
              have same : ∀ p, templateKey p.name = some f → s.fileAt p = s₀.fileAt p := by
                intro p hp
                rcases hs p with h | ⟨g, hg, hbad⟩
                · exact h
                · obtain rfl := Option.some.inj (hp.symm.trans hg)
                  exact absurd hsafe hbad
              refine wp_mono (hload _ s hf hsafe ?_ ?_) fun _ _ h _ => h
              · exact same _ (templateKey_of_programName .encrypted hf)
              · exact same _ (templateKey_of_programName .plaintext hf)
            · exact wp_of_forall _ fun _ _ h => absurd h hsafe
          refine wp_mono (wp_and hfiles hok) ?_
          rintro ⟨ok, tmpl⟩ t ⟨hsame, hok⟩
          have ht : Kept safe s₀ t := by
            intro p
            rw [hsame p]
            exact hs p
          cases ok with
          | true => exact ih ht
          | false =>
              have hbad : ¬ safe f := fun h => Bool.false_ne_true (hok h)
              intro removed x hcall
              refine ih ?_
              intro p
              by_cases hp : p = ⟨userDirectoryName u, n⟩
              · subst hp
                exact .inr ⟨_, hk, hbad⟩
              · have hx : x.fileAt p = t.fileAt p := by
                  rcases storageEnv_elim hcall with ⟨-, rfl⟩ | ⟨-, -, rfl⟩
                  · exact FileSystem.fileAt_erase_ne _ hp
                  · rfl
                rw [hx]
                exact ht p

theorem wp_userDirectoryName :
    (getUserDirectory u).wp (storageEnv C fault) (fun d _ => d = userDirectoryName u) s := by
  unfold getUserDirectory
  rw [invoke_bind]
  intro found t _
  cases found with
  | true => rfl
  | false =>
      intro _ _ _ _ _ _
      rfl

theorem wp_loadAll_keeps {safe : Int32 → Prop}
    (hload : ∀ f t, f ≠ -1 → safe f → t.fileAt (filePath u f) = s.fileAt (filePath u f) →
      t.fileAt (plaintextPath u f) = s.fileAt (plaintextPath u f) →
      (loadTemplate u f freshTemplate).wp (storageEnv C fault) (fun r _ => r.1 = true) t) :
    (loadAllTemplatesForUser u).wp (storageEnv C fault) (fun _ t => Kept safe s t) s := by
  unfold loadAllTemplatesForUser
  rw [wp_bind]
  refine wp_mono (wp_and (wp_of_loads (uses_getUserDirectory u) fun _ _ h => h)
    wp_userDirectoryName) ?_
  rintro _ t ⟨hsame, rfl⟩ r x hcall
  have hx : Kept safe s x := by
    intro p
    rcases storageEnv_elim hcall with ⟨rfl, -⟩ | ⟨-, -, rfl⟩
    · exact .inl (hsame p)
    · exact .inl (hsame p)
  cases r with
  | none => exact hx
  | some names => exact wp_loadEntries_keeps hload hx

end keeping

/-- `loadTemplate` accepts this file, with no other file there and a Keystore that
answers. -/
def IntactFile (C : Crypto) (u f : Int32) (s : FileSystem) (p : Path) : Prop :=
  ∃ content x, s.fileAt p = some content ∧
    some x ∈ loadOutcomes C u f ((FileSystem.empty.mkdir p.dir).put p content)

section intact
variable {C : Crypto} {u f : Int32} {s : FileSystem} {p : Path} {content : Bytes}

theorem fileAt_alone (q : Path) : ((FileSystem.empty.mkdir p.dir).put p content).fileAt q =
    if q = p then some content else none := by
  rw [FileSystem.fileAt_put]
  simp

theorem intactFile_iff : IntactFile C u f s p ↔ ∃ content, s.fileAt p = some content ∧
    (p = filePath u f ∧ decodeEncrypted C u f content ≠ none ∨
      p = plaintextPath u f ∧ decodeFor C u f content ≠ none) := by
  have hstored : ∀ content, stored C u f ((FileSystem.empty.mkdir p.dir).put p content) ≠ none ↔
      p = filePath u f ∧ decodeEncrypted C u f content ≠ none ∨
        p = plaintextPath u f ∧ decodeFor C u f content ≠ none := by
    intro content
    unfold stored
    rw [fileAt_alone, fileAt_alone]
    by_cases he : p = filePath u f
    · subst he
      simp
    · by_cases hp : p = plaintextPath u f
      · subst hp
        simp
      · simp [he, hp, Ne.symm he, Ne.symm hp]
  unfold IntactFile
  constructor
  · rintro ⟨content, x, hc, hx⟩
    rw [loadOutcomes_eq] at hx
    refine ⟨content, hc, (hstored content).mp ?_⟩
    rw [← Set.mem_singleton_iff.mp hx]
    simp
  · rintro ⟨content, hc, hd⟩
    obtain ⟨x, hx⟩ := Option.ne_none_iff_exists'.mp ((hstored content).mpr hd)
    refine ⟨content, x, hc, ?_⟩
    rw [loadOutcomes_eq]
    exact hx.symm

theorem stored_of_intactFile (h : IntactFile C u f s p) : stored C u f s ≠ none := by
  obtain ⟨content, hc, ⟨rfl, hd⟩ | ⟨rfl, hd⟩⟩ := intactFile_iff.mp h
  · unfold stored
    rw [hc, Option.bind_some]
    intro hnone
    exact hd (Option.or_eq_none_iff.mp hnone).1
  · unfold stored
    rw [hc, Option.bind_some]
    intro hnone
    exact hd (Option.or_eq_none_iff.mp hnone).2

theorem templateKey_of_intactFile (h : IntactFile C u f s p) (hf : f ≠ -1) :
    p.dir = userDirectoryName u ∧ templateKey p.name = some f := by
  obtain ⟨content, hc, ⟨rfl, hd⟩ | ⟨rfl, hd⟩⟩ := intactFile_iff.mp h
  · exact ⟨rfl, templateKey_of_programName .encrypted hf⟩
  · exact ⟨rfl, templateKey_of_programName .plaintext hf⟩

variable {o : KeystoreFaults}

/-- A parse needs the MAC of some bytes. -/
theorem decodeFor_degraded_of_mac (h : ¬ o.Reliable getMacKeyDescriptor .sign) (data : Bytes) :
    decodeFor (degraded C o) u f data = none := by
  unfold decodeFor decode
  split_ifs with hl hv
  · rfl
  · have hne : data.take (data.length - macSize) ≠ [] := by
      intro hnil
      have hlen := congrArg List.length hnil
      simp only [List.length_take, List.length_nil, minSize, macSize] at hl hlen
      omega
    rw [verifies_degraded, if_pos ((mayFail_iff hne).mpr h)] at hv
    cases hv
  · rfl

theorem decodeFor_degraded (h : o.Reliable getMacKeyDescriptor .sign) (data : Bytes) :
    decodeFor (degraded C o) u f data = decodeFor C u f data := by
  have hver : ∀ data mac, (degraded C o).verifies data mac = C.verifies data mac := by
    intro data mac
    rw [verifies_degraded, if_neg (not_mayFail_of_reliable h data)]
  simp only [decodeFor, decode, hver]
  rfl

/-- When the requests that can fail do, a face does not load unless the condition
of the theorem below holds of it. -/
theorem stored_degraded_eq_none (h : ¬ (o.Reliable getMacKeyDescriptor .sign ∧
      (o.Reliable (getStorageKeyDescriptor u) .decrypt ∨ IntactFile C u f s (plaintextPath u f)))) :
    stored (degraded C o) u f s = none := by
  have hdecrypt : ∀ content, ¬ o.Reliable (getStorageKeyDescriptor u) .decrypt →
      decodeEncrypted (degraded C o) u f content = none := by
    intro content hbad
    unfold decodeEncrypted
    simp [degraded, hbad]
  unfold stored
  rw [Option.or_eq_none_iff]
  by_cases hmac : o.Reliable getMacKeyDescriptor .sign
  · have hbad : ¬ o.Reliable (getStorageKeyDescriptor u) .decrypt := fun hd => h ⟨hmac, .inl hd⟩
    refine ⟨?_, ?_⟩
    · rw [Option.bind_eq_none_iff]
      intro content _
      exact hdecrypt content hbad
    · rw [Option.bind_eq_none_iff]
      intro content hc
      rw [decodeFor_degraded hmac]
      by_contra hd
      exact h ⟨hmac, .inr (intactFile_iff.mpr ⟨content, hc, .inr ⟨rfl, hd⟩⟩)⟩
  · refine ⟨?_, ?_⟩
    · rw [Option.bind_eq_none_iff]
      intro content _
      unfold decodeEncrypted
      split_ifs
      · rfl
      · exact decodeFor_degraded_of_mac hmac _
    · rw [Option.bind_eq_none_iff]
      intro content _
      exact decodeFor_degraded_of_mac hmac _

theorem wp_loadTemplate_of_intact {t : FileSystem} {out : FaceTemplate}
    (hmac : o.Reliable getMacKeyDescriptor .sign)
    (hdec : o.Reliable (getStorageKeyDescriptor u) .decrypt ∨
      IntactFile C u f s (plaintextPath u f))
    (hintact : IntactFile C u f s p) (hE : t.fileAt (filePath u f) = s.fileAt (filePath u f))
    (hP : t.fileAt (plaintextPath u f) = s.fileAt (plaintextPath u f)) :
    (loadTemplate u f out).wp (storageEnv C (cryptoFaults o)) (fun r _ => r.1 = true) t := by
  have loaded : ∀ r : Bool × FaceTemplate, outcome r ≠ none → r.1 = true := by
    rintro ⟨ok, x⟩ hr
    cases ok with
    | true => rfl
    | false => exact absurd rfl hr
  refine wp_loadTemplate_of_plaintext ?_ ?_
  · intro c hc
    cases c with
    | verifyMac data mac =>
        exact if_neg (not_mayFail_of_reliable hmac data)
    | existsDir _ | createDirectories _ | chmodDir _ _ | readFile _ | currentVersion => rfl
    | _ => exact hc.elim
  · rintro r (hr | ⟨⟨payload, hfaulty⟩, hr⟩)
    · apply loaded
      rw [hr, stored_congr C u f hE hP]
      exact stored_of_intactFile hintact
    · apply loaded
      have hbad : ¬ o.Reliable (getStorageKeyDescriptor u) .decrypt := by
        intro hrel
        exact hfaulty (if_pos hrel)
      rcases hdec with hrel | hplain
      · exact absurd hrel hbad
      · obtain ⟨content, hc, ⟨hpath, -⟩ | ⟨-, hd⟩⟩ := intactFile_iff.mp hplain
        · simp at hpath
        · rw [hr, hP, hc]
          exact hd

end intact

section device
variable {K : KeystoreFunctions} {o : KeystoreFaults} {v : UInt32} {nonces : ℕ → Bytes}
variable {u f : Int32} {s : FileSystem} {p : Path}

/-- What Keystore may do to one run of `loadAllTemplatesForUser`. -/
def KeepsIntact (C : Crypto) (K : KeystoreFunctions) (o : KeystoreFaults) (u : Int32)
    (s : FileSystem)
    (ks : KeystoreState) : Prop :=
  ∀ ts y, Run (deviceEnv C K o) ((loadAllTemplatesForUser u).expand withKeystore) (s, ks) ts y →
    ∀ f p, IntactFile C u f s p → y.1.fileAt p = s.fileAt p

theorem exists_removing_run (ks : KeystoreState) (hf : f ≠ -1)
    (hintact : IntactFile (cryptoOf K v nonces) u f s p)
    (h : ¬ (o.Reliable getMacKeyDescriptor .sign ∧
      (o.Reliable (getStorageKeyDescriptor u) .decrypt ∨
      IntactFile (cryptoOf K v nonces) u f s (plaintextPath u f)))) :
    ∃ ts y, Run (deviceEnv (cryptoOf K v nonces) K o)
      ((loadAllTemplatesForUser u).expand withKeystore)
      (s, ks) ts y ∧ y.1.fileAt p = none := by
  obtain ⟨hdir, hkey⟩ := templateKey_of_intactFile hintact hf
  obtain ⟨content, -, hc, -⟩ := id hintact
  have htotal : ∀ c t, ∃ r x,
      storageEnv (degraded (cryptoOf K v nonces) o) (fun _ => .never) c t r x :=
    storageEnv_total _ fun _ => nofun
  obtain ⟨ts, t, hrun⟩ := exists_run htotal (loadAllTemplatesForUser u) s
  have hstep : ∀ c : StorageCall, c.Walks → ∀ t r x (y : FileSystem × KeystoreState), t = y.1 →
      storageEnv (degraded (cryptoOf K v nonces) o) (fun _ => .never) c t r x →
        ∃ z, deviceStep (cryptoOf K v nonces) K o c y r z ∧ x = z.1 := by
    rintro c hc _ r x y rfl hcall
    obtain ⟨k, hk⟩ := device_of_degraded hc hcall
    exact ⟨(x, k), hk, rfl⟩
  obtain ⟨y, hrun', rfl⟩ := hrun.simulate
    (R := fun t (y : FileSystem × KeystoreState) => t = y.1) hstep
    (uses_loadAllTemplatesForUser u) (show s = ((s, ks) : FileSystem × KeystoreState).1 from rfl)
  refine ⟨ts, y, run_expand.mpr hrun', ?_⟩
  exact hrun.wp (wp_loadAll_removes hdir hkey hc (stored_degraded_eq_none h))

/-- No run removes an intact file if and only if, for each face with one, the MAC
can be computed and one of its intact files can be read. -/
theorem autoClean_keeps_iff (K : KeystoreFunctions) (o : KeystoreFaults) (v : UInt32)
    (nonces : ℕ → Bytes) (u : Int32) (s : FileSystem) (ks : KeystoreState) :
    KeepsIntact (cryptoOf K v nonces) K o u s ks ↔
      ∀ f p, f ≠ -1 → IntactFile (cryptoOf K v nonces) u f s p →
        o.Reliable getMacKeyDescriptor .sign ∧ (o.Reliable (getStorageKeyDescriptor u) .decrypt ∨
          IntactFile (cryptoOf K v nonces) u f s (plaintextPath u f)) := by
  constructor
  · intro hkeep f p hf hintact
    by_contra h
    obtain ⟨ts, y, hrun, hgone⟩ := exists_removing_run ks hf hintact h
    obtain ⟨content, -, hc, -⟩ := id hintact
    rw [hkeep ts y hrun f p hintact, hc] at hgone
    cases hgone
  · intro h ts y hrun f p hintact
    have hstep : ∀ c : StorageCall, c.Walks → ∀ (x : FileSystem × KeystoreState) r z t, t = x.1 →
        deviceStep (cryptoOf K v nonces) K o c x r z →
          ∃ t', storageEnv (cryptoOf K v nonces) (cryptoFaults o) c t r t' ∧ t' = z.1 := by
      rintro c hc x r z _ rfl hcall
      exact ⟨z.1, storageEnv_of_device hc hcall, rfl⟩
    obtain ⟨t, hrun', rfl⟩ :=
      Run.simulate (R := fun y t => t = y.1) hstep (run_expand.mp hrun)
        (uses_loadAllTemplatesForUser u) rfl
    have hload : ∀ g t, g ≠ -1 → (∃ q, IntactFile (cryptoOf K v nonces) u g s q) →
        t.fileAt (filePath u g) = s.fileAt (filePath u g) →
        t.fileAt (plaintextPath u g) = s.fileAt (plaintextPath u g) →
        (loadTemplate u g freshTemplate).wp (storageEnv (cryptoOf K v nonces) (cryptoFaults o))
          (fun r _ => r.1 = true) t := by
      rintro g t hg ⟨q, hq⟩ hE hP
      obtain ⟨hmac, hdec⟩ := h g q hg hq
      exact wp_loadTemplate_of_intact hmac hdec hq hE hP
    have hkept := hrun'.wp (wp_loadAll_keeps hload)
    rcases hkept p with hsame | ⟨g, hg, hbad⟩
    · exact hsame
    · obtain ⟨content, hc, hpath⟩ := intactFile_iff.mp hintact
      have hname : ProgramName f p.name := by
        rcases hpath with ⟨rfl, -⟩ | ⟨rfl, -⟩
        · exact .encrypted
        · exact .plaintext
      obtain rfl : f = g := hname.parse.2.symm.trans (templateKey_eq_some.mp hg).2.1
      exact absurd ⟨p, hintact⟩ hbad

end device

/-- A Keystore that computes what `toyCrypto` does. -/
def toyKeystore : KeystoreFunctions where
  sealWith _ _ data := 0 :: data
  openWith _ _ ciphertext := some ciphertext.tail
  hmac _ data := toyCrypto.mac data

/-- The security level was never obtained. -/
def noSecurityLevel : KeystoreFaults := ⟨true, fun _ _ => false, fun _ _ => false, fun _ _ => false⟩

theorem intactFile_sample : IntactFile (cryptoOf toyKeystore 1 fun _ => [0]) 0 2 clutteredDirectory
    (plaintextPath 0 2) := by
  refine intactFile_iff.mpr ⟨payload sampleTemplate ++ toyCrypto.mac (payload sampleTemplate), rfl,
    .inr ⟨rfl, ?_⟩⟩
  obtain ⟨x, hx⟩ : ∃ x, decodeFor (cryptoOf toyKeystore 1 fun _ => [0]) 0 2
      (payload sampleTemplate ++ toyCrypto.mac (payload sampleTemplate)) = some x := ⟨_, rfl⟩
  rw [hx]
  exact nofun

theorem autoClean_loses_face : ¬ ∀ (K : KeystoreFunctions) (o : KeystoreFaults) (v : UInt32)
    (nonces : ℕ → Bytes) (u : Int32) (s : FileSystem) (ks : KeystoreState),
    (∀ key nonce data, K.openWith key nonce (K.sealWith key nonce data) = some data) →
    KeepsIntact (cryptoOf K v nonces) K o u s ks := by
  intro h
  have hkeep := h toyKeystore noSecurityLevel 1 (fun _ => [0]) 0 clutteredDirectory []
    fun _ _ _ => rfl
  obtain ⟨ts, y, hrun, hgone⟩ := exists_removing_run (o := noSecurityLevel) [] (by decide)
    intactFile_sample (by
      rintro ⟨hrel, -⟩
      cases hrel.1)
  rw [hkeep ts y hrun 2 _ intactFile_sample] at hgone
  cases hgone

end FaceStorageManager
end FaceHal
