import FaceHal.FileNames
import FaceHal.TemplateDecoding
import Mathlib.Data.Set.Insert

/-!
# What loading a template gives

As long as none of its own calls fails, `loadTemplate` is a function of the two
files of the face: the encrypted file if it decrypts, parses and names the face,
else the plaintext file if it does. The only change it makes to the file system
is to create the user's directory.
-/
namespace FaceHal

/-- The calls that loading a plaintext file issues. -/
def StorageCall.LoadsPlaintext : StorageCall → Prop
  | .existsDir _ | .createDirectories _ | .chmodDir _ _ | .readFile _ => True
  | .verifyMac _ _ | .currentVersion => True
  | _ => False

/-- The calls that loading a template issues. -/
def StorageCall.Loads : StorageCall → Prop
  | .existsDir _ | .createDirectories _ | .chmodDir _ _ | .readFile _ => True
  | .decrypt _ _ | .verifyMac _ _ | .currentVersion => True
  | _ => False

theorem StorageCall.LoadsPlaintext.loads {c : StorageCall} (h : c.LoadsPlaintext) : c.Loads := by
  cases c with
  | existsDir _ | createDirectories _ | chmodDir _ _ | readFile _ => trivial
  | verifyMac _ _ | currentVersion => trivial
  | _ => exact h.elim

namespace FaceStorageManager
open FaceTemplateSerializer Program

section specification
variable (C : Crypto) (u f : Int32)

/-- The lambda `deserializeAndValidate` as a partial function of the bytes. -/
def decodeFor (data : Bytes) : Option FaceTemplate :=
  (decode C data).filter fun t => t.userId == u && t.faceId == f

def decodeEncrypted (content : Bytes) : Option FaceTemplate :=
  if content = [] then none else decodeFor C u f (C.decrypt u content)

/-- What the files of a face hold: the encrypted file shadows the plaintext one. -/
def stored (s : FileSystem) : Option FaceTemplate :=
  ((s.fileAt (filePath u f)).bind (decodeEncrypted C u f)).or
    ((s.fileAt (plaintextPath u f)).bind (decodeFor C u f))

@[simp] theorem decodeFor_nil : decodeFor C u f [] = none := by
  simp [decodeFor]

theorem decodeFor_ids {C : Crypto} {u f : Int32} {data : Bytes} {t : FaceTemplate}
    (h : decodeFor C u f data = some t) : decode C data = some t ∧ t.userId = u ∧ t.faceId = f := by
  obtain ⟨hd, hf⟩ := Option.filter_eq_some_iff.mp h
  simpa [hd] using hf

theorem decoded_of_stored {C : Crypto} {u f : Int32} {s : FileSystem} {t : FaceTemplate}
    (h : stored C u f s = some t) : ∃ data, decodeFor C u f data = some t := by
  rcases Option.or_eq_some_iff.mp h with h | ⟨-, h⟩
  · obtain ⟨content, -, hd⟩ := Option.bind_eq_some_iff.mp h
    unfold decodeEncrypted at hd
    split_ifs at hd
    exact ⟨_, hd⟩
  · obtain ⟨content, -, hd⟩ := Option.bind_eq_some_iff.mp h
    exact ⟨content, hd⟩

theorem stored_ids {C : Crypto} {u f : Int32} {s : FileSystem} {t : FaceTemplate}
    (h : stored C u f s = some t) : t.userId = u ∧ t.faceId = f := by
  obtain ⟨data, hd⟩ := decoded_of_stored h
  exact (decodeFor_ids hd).2

theorem stored_version {C : Crypto} {u f : Int32} {s : FileSystem} {t : FaceTemplate}
    (h : stored C u f s = some t) : t.version = C.currentVersion := by
  obtain ⟨data, hd⟩ := decoded_of_stored h
  exact version_of_decode (decodeFor_ids hd).1

theorem exists_file_of_stored {C : Crypto} {u f : Int32} {s : FileSystem} {t : FaceTemplate}
    (h : stored C u f s = some t) :
    ∃ p, (p = filePath u f ∨ p = plaintextPath u f) ∧ ∃ content, s.fileAt p = some content := by
  rcases Option.or_eq_some_iff.mp h with h | ⟨-, h⟩
  · obtain ⟨content, hc, -⟩ := Option.bind_eq_some_iff.mp h
    exact ⟨filePath u f, .inl rfl, content, hc⟩
  · obtain ⟨content, hc, -⟩ := Option.bind_eq_some_iff.mp h
    exact ⟨plaintextPath u f, .inr rfl, content, hc⟩

theorem stored_congr {s t : FileSystem} (he : s.fileAt (filePath u f) = t.fileAt (filePath u f))
    (hp : s.fileAt (plaintextPath u f) = t.fileAt (plaintextPath u f)) :
    stored C u f s = stored C u f t := by
  unfold stored
  rw [he, hp]

@[simp] theorem stored_mkdir (s : FileSystem) (d : Text) :
    stored C u f (s.mkdir d) = stored C u f s :=
  stored_congr C u f (s.fileAt_mkdir d _) (s.fileAt_mkdir d _)

@[simp] theorem stored_empty : stored C u f .empty = none := by
  simp [stored]

end specification

section rules
variable {C : Crypto} {fault : StorageCall → Fault} {s : FileSystem} {u f : Int32}

theorem wp_getUserDirectory (h : ∀ c : StorageCall, c.LoadsPlaintext → fault c = .never)
    {Q : Text → FileSystem → Prop} : (getUserDirectory u).wp (storageEnv C fault) Q s ↔
      Q (userDirectoryName u) (s.mkdir (userDirectoryName u)) := by
  unfold getUserDirectory
  rw [invoke_bind, wp_works (h (.existsDir _) trivial)]
  simp only [Works, and_imp, forall_eq_apply_imp_iff, forall_eq]
  cases hd : s.hasDir (userDirectoryName u) with
  | true => simp [Program.wp, FileSystem.mkdir_of_hasDir hd]
  | false =>
      rw [Bool.not_false, if_pos rfl, invoke_bind, wp_works (h (.createDirectories _) trivial)]
      simp only [Works, forall_const, forall_eq]
      rw [invoke_bind, wp_works (h (.chmodDir _ _) trivial)]
      simp only [Works, forall_const, forall_eq]
      rfl

theorem wp_getFilePath (h : ∀ c : StorageCall, c.LoadsPlaintext → fault c = .never)
    {Q : Path → FileSystem → Prop} : (getFilePath u f).wp (storageEnv C fault) Q s ↔
      Q (filePath u f) (s.mkdir (userDirectoryName u)) := by
  unfold getFilePath
  rw [wp_bind, wp_getUserDirectory h]
  rfl

theorem wp_getPlaintextFilePath (h : ∀ c : StorageCall, c.LoadsPlaintext → fault c = .never)
    {Q : Path → FileSystem → Prop} : (getPlaintextFilePath u f).wp (storageEnv C fault) Q s ↔
      Q (plaintextPath u f) (s.mkdir (userDirectoryName u)) := by
  unfold getPlaintextFilePath
  rw [wp_bind, wp_getUserDirectory h]
  rfl

theorem wp_readFile (h : ∀ c : StorageCall, c.LoadsPlaintext → fault c = .never) {p : Path}
    {Q : Bytes → FileSystem → Prop} : (readFile p).wp (storageEnv C fault) Q s ↔
      Q ((s.fileAt p).getD []) s := by
  unfold readFile
  rw [invoke_bind, wp_works (h (.readFile _) trivial)]
  simp [Works, Program.wp]

theorem wp_deserialize (h : ∀ c : StorageCall, c.LoadsPlaintext → fault c = .never) {data : Bytes}
    {out : FaceTemplate} {Q : Bool × FaceTemplate → FileSystem → Prop}
    (hQ : ∀ r, outcome r = decode C data → Q r s) :
    (deserialize data out).wp (storageEnv C fault) Q s := by
  unfold deserialize
  unfold decode at hQ
  split_ifs with hl
  · exact hQ _ (by simp [hl])
  · simp only [if_neg hl] at hQ
    rw [invoke_bind, wp_works (h (.verifyMac _ _) trivial)]
    simp only [Works, and_imp, forall_eq_apply_imp_iff, forall_eq]
    split_ifs with hv
    · have hv' : C.verifies (data.take (data.length - macSize))
          (data.drop (data.length - macSize)) = false := by simpa using hv
      exact hQ _ (by simp [hv'])
    · have hv' : C.verifies (data.take (data.length - macSize))
          (data.drop (data.length - macSize)) = true := by simpa using hv
      rw [invoke_bind, wp_works (h .currentVersion trivial)]
      simp only [Works, and_imp, forall_eq_apply_imp_iff, forall_eq]
      exact hQ _ (by rw [outcome_readFields, if_pos hv'])

theorem wp_deserializeAndValidate (h : ∀ c : StorageCall, c.LoadsPlaintext → fault c = .never)
    {data : Bytes}
    {out : FaceTemplate} {Q : Bool × FaceTemplate → FileSystem → Prop}
    (hQ : ∀ r, outcome r = decodeFor C u f data → Q r s) :
    (deserializeAndValidate u f data out).wp (storageEnv C fault) Q s := by
  unfold deserializeAndValidate
  rw [wp_bind]
  refine wp_deserialize h ?_
  rintro ⟨ok, t⟩ ht
  cases ok with
  | false => exact hQ _ (by simp [decodeFor, ← ht])
  | true =>
      refine hQ _ ?_
      rw [decodeFor, ← ht, outcome_true, Option.filter_some]
      rfl

theorem wp_loadPlaintext (h : ∀ c : StorageCall, c.LoadsPlaintext → fault c = .never)
    {out : FaceTemplate}
    {Q : Bool × FaceTemplate → FileSystem → Prop}
    (hQ : ∀ r, outcome r = (s.fileAt (plaintextPath u f)).bind (decodeFor C u f) →
      Q r (s.mkdir (userDirectoryName u))) :
    (loadPlaintext u f out).wp (storageEnv C fault) Q s := by
  unfold loadPlaintext
  rw [wp_bind, wp_getPlaintextFilePath h, wp_bind, wp_readFile h, FileSystem.fileAt_mkdir]
  cases hp : s.fileAt (plaintextPath u f) with
  | none => exact hQ _ (by simp [hp])
  | some content =>
      rw [hp, Option.bind_some] at hQ
      split_ifs with hc
      · have hnil : content = [] := hc
        exact hQ _ (by simp [hnil])
      · exact wp_deserializeAndValidate h hQ

/-- Where only decryption may fail, the answer is what the files hold, or what
the plaintext file holds if decryption could fail. -/
theorem wp_loadTemplate_of_plaintext (h : ∀ c : StorageCall, c.LoadsPlaintext → fault c = .never)
    {out : FaceTemplate} {Q : Bool × FaceTemplate → FileSystem → Prop}
    (hQ : ∀ r, outcome r = stored C u f s ∨ (∃ payload, fault (.decrypt u payload) ≠ .never) ∧
        outcome r = (s.fileAt (plaintextPath u f)).bind (decodeFor C u f) →
      Q r (s.mkdir (userDirectoryName u))) :
    (loadTemplate u f out).wp (storageEnv C fault) Q s := by
  have hdir : (s.mkdir (userDirectoryName u)).mkdir (userDirectoryName u) =
      s.mkdir (userDirectoryName u) := FileSystem.mkdir_of_hasDir (by simp)
  -- the plaintext file is tried in the state that the encrypted attempt left
  have hplain : ∀ out', (s.fileAt (filePath u f)).bind (decodeEncrypted C u f) = none ∨
      (∃ payload, fault (.decrypt u payload) ≠ .never) →
      (loadPlaintext u f out').wp (storageEnv C fault) Q (s.mkdir (userDirectoryName u)) := by
    intro out' hmiss
    refine wp_loadPlaintext h ?_
    intro r hr
    rw [hdir]
    rw [FileSystem.fileAt_mkdir] at hr
    refine hQ r ?_
    rcases hmiss with hnone | hfaulty
    · refine .inl ?_
      rw [hr, stored, hnone, Option.none_or]
    · exact .inr ⟨hfaulty, hr⟩
  unfold loadTemplate
  rw [wp_bind, wp_getFilePath h, wp_bind, wp_readFile h, FileSystem.fileAt_mkdir]
  cases he : s.fileAt (filePath u f) with
  | none =>
      rw [Option.getD_none, if_pos rfl]
      exact hplain _ (.inl (by simp [he]))
  | some content =>
      rw [Option.getD_some]
      have hbind : (s.fileAt (filePath u f)).bind (decodeEncrypted C u f) =
          decodeEncrypted C u f content := by rw [he, Option.bind_some]
      split_ifs with hc
      · exact hplain _ (.inl (by rw [hbind, decodeEncrypted, if_pos hc]))
      · have hdec : decodeEncrypted C u f content = decodeFor C u f (C.decrypt u content) := by
          rw [decodeEncrypted, if_neg hc]
        rw [invoke_bind]
        intro plain t hcall
        beta_reduce
        rcases storageEnv_elim hcall with ⟨rfl, rfl⟩ | ⟨hfaulty, rfl, rfl⟩
        · split_ifs with hd
          · exact hplain _ (.inl (by rw [hbind, hdec, hd, decodeFor_nil]))
          · rw [wp_bind]
            refine wp_deserializeAndValidate h ?_
            rintro ⟨ok, t⟩ ht
            cases ok with
            | true =>
                refine hQ _ (.inl ?_)
                rw [stored, hbind, hdec, ← ht]
                rfl
            | false => exact hplain _ (.inl (by rw [hbind, hdec, ← ht]; rfl))
        · exact hplain _ (.inr ⟨content, hfaulty⟩)

theorem wp_loadTemplate (h : ∀ c : StorageCall, c.Loads → fault c = .never) {out : FaceTemplate}
    {Q : Bool × FaceTemplate → FileSystem → Prop}
    (hQ : ∀ r, outcome r = stored C u f s → Q r (s.mkdir (userDirectoryName u))) :
    (loadTemplate u f out).wp (storageEnv C fault) Q s := by
  refine wp_loadTemplate_of_plaintext (fun c hc => h c hc.loads) ?_
  rintro r (hr | ⟨⟨payload, hfaulty⟩, -⟩)
  · exact hQ r hr
  · exact absurd (h (.decrypt u payload) trivial) hfaulty

theorem fileAt_of_loads {c : StorageCall} (hc : c.Loads) {t : FileSystem} {r : c.Reply}
    (h : storageEnv C fault c s r t) (q : Path) : t.fileAt q = s.fileAt q := by
  have hw : Works C c s r t → t.fileAt q = s.fileAt q := by
    intro hw
    cases c with
    | createDirectories d => rw [show t = s.mkdir d from hw, FileSystem.fileAt_mkdir]
    | chmodDir _ _ => rw [show t = s from hw]
    | existsDir _ | readFile _ | decrypt _ _ | verifyMac _ _ | currentVersion => rw [hw.2]
    | _ => exact hc.elim
  have hf : Fails c s r t → t.fileAt q = s.fileAt q := by
    intro hf
    cases c with
    | createDirectories _ | chmodDir _ _ => rw [show t = s from hf]
    | existsDir _ | readFile _ | decrypt _ _ | verifyMac _ _ => rw [hf.2]
    | currentVersion => exact hf.elim
    | _ => exact hc.elim
  unfold storageEnv at h
  split at h
  · exact hw h
  · exact h.elim hw hf
  · exact hf h

theorem wp_of_loads {α : Type} {p : Program StorageI α} (hp : p.Uses StorageCall.Loads)
    {Q : α → FileSystem → Prop} (hQ : ∀ a t, (∀ q, t.fileAt q = s.fileAt q) → Q a t) :
    p.wp (storageEnv C fault) Q s := by
  induction p generalizing s with
  | done a => exact hQ a s fun _ => rfl
  | call c next ih =>
      intro r t hcall
      refine ih r (hp.2 r) ?_
      intro a x hx
      refine hQ a x ?_
      intro q
      rw [hx q, fileAt_of_loads hp.1 hcall q]

end rules

/-- What `loadTemplate` can answer in a state when Keystore and the files answer. -/
def loadOutcomes (C : Crypto) (u f : Int32) (s : FileSystem) : Set (Option FaceTemplate) :=
  { o | ∃ out r t, Run (storageEnv C encryptionMayFail) (loadTemplate u f out) s r t ∧
    o = outcome r }

theorem encryptionMayFail_of_loads (c : StorageCall) (h : c.Loads) :
    encryptionMayFail c = .never := by
  cases c with
  | encrypt _ _ => exact h.elim
  | _ => rfl

theorem encryptionMayFail_of_loadsPlaintext (c : StorageCall) (h : c.LoadsPlaintext) :
    encryptionMayFail c = .never :=
  encryptionMayFail_of_loads c h.loads

/-- Loading returns, and what it answers is what the two files hold. -/
theorem loadOutcomes_eq (C : Crypto) (u f : Int32) (s : FileSystem) :
    loadOutcomes C u f s = {stored C u f s} := by
  have hall : ∀ out r t, Run (storageEnv C encryptionMayFail) (loadTemplate u f out) s r t →
      outcome r = stored C u f s := by
    intro out r t hrun
    refine hrun.wp (Q := fun r _ => outcome r = stored C u f s) ?_
    exact wp_loadTemplate encryptionMayFail_of_loads fun r hr => hr
  ext o
  rw [Set.mem_singleton_iff]
  constructor
  · rintro ⟨out, r, t, hrun, rfl⟩
    exact hall out r t hrun
  · rintro rfl
    obtain ⟨r, t, hrun⟩ := exists_run (storageEnv_total C encryptionMayFail_ne_always)
      (loadTemplate u f freshTemplate) s
    exact ⟨freshTemplate, r, t, hrun, (hall _ r t hrun).symm⟩

end FaceStorageManager
end FaceHal
