import FaceHal.TemplateSaving

/-!
# A save whose calls fail

A plan says which of the calls of one save fail. The calls after the opening of
the temporary file are not all checked: a short write, a failed close and a
failed removal of the other file go unnoticed. The result here describes the
files after a save under any plan, and from that says for which plans and prior
states the save is all or nothing.
-/
namespace FaceHal

/-- An authenticated cipher does not decrypt the beginning of a ciphertext. -/
structure AeadCrypto extends LawfulCrypto where
  decrypt_take : ∀ n u d k, d ≠ [] → k < (encrypt n u d).length →
    decrypt u ((encrypt n u d).take k) = []

/-- A code in which no codeword begins another. -/
def sealBytes : Bytes → Bytes
  | [] => [0]
  | b :: d => 1 :: b :: sealBytes d

def openSealed : Bytes → Option Bytes
  | [0] => some []
  | 1 :: b :: c => (openSealed c).map (b :: ·)
  | _ => none

theorem openSealed_sealBytes (d : Bytes) : openSealed (sealBytes d) = some d := by
  induction d with
  | nil => rfl
  | cons b d ih => simp [sealBytes, openSealed, ih]

theorem openSealed_take (d : Bytes) {k : ℕ} (hk : k < (sealBytes d).length) :
    openSealed ((sealBytes d).take k) = none := by
  induction d generalizing k with
  | nil =>
      obtain rfl : k = 0 := by simpa [sealBytes] using hk
      rfl
  | cons b d ih =>
      match k with
      | 0 => rfl
      | 1 => rfl
      | k + 2 =>
          have hk' : k < (sealBytes d).length := by simpa [sealBytes] using hk
          simp [sealBytes, openSealed, ih hk']

/-- The laws of the cipher have a model. -/
def sealedCrypto : AeadCrypto where
  currentVersion := 1
  encrypt _ _ d := sealBytes d
  decrypt _ c := (openSealed c).getD []
  mac _ := List.replicate 32 7
  encrypt_ne_nil _ _ d _ := by cases d <;> simp [sealBytes]
  decrypt_encrypt _ _ d _ := by rw [openSealed_sealBytes, Option.getD_some]
  length_mac d := toyCrypto.length_mac d
  decrypt_take _ _ d k _ hk := by rw [openSealed_take d hk, Option.getD_none]

/-- The calls of one save that fail. -/
structure SaveFailures where
  generateMac : Bool
  createDirectories : Bool
  encrypt : Bool
  openTruncated : Bool
  write : Bool
  close : Bool
  rename : Bool
  unlink : Bool
  existsStale : Bool
  removeStale : Bool
deriving DecidableEq

namespace SaveFailures

def fault (o : SaveFailures) : StorageCall → Fault
  | .generateMac _ => if o.generateMac then .always else .never
  | .createDirectories _ => if o.createDirectories then .always else .never
  | .encrypt _ _ => if o.encrypt then .always else .never
  | .openTruncated _ => if o.openTruncated then .always else .never
  | .write _ _ => if o.write then .always else .never
  | .close _ => if o.close then .always else .never
  | .rename _ _ => if o.rename then .always else .never
  | .unlink _ => if o.unlink then .always else .never
  | .exists _ => if o.existsStale then .always else .never
  | .remove _ => if o.removeStale then .always else .never
  | _ => .never

/-- The temporary file received all the data. -/
def Complete (o : SaveFailures) : Prop := o.write = false ∧ o.close = false

/-- The other file of the face is left in place. -/
def StaleStays (o : SaveFailures) : Prop := o.existsStale = true ∨ o.removeStale = true

instance (o : SaveFailures) : Decidable o.Complete :=
  inferInstanceAs (Decidable (o.write = false ∧ o.close = false))

instance (o : SaveFailures) : Decidable o.StaleStays :=
  inferInstanceAs (Decidable (o.existsStale = true ∨ o.removeStale = true))

/-- The user's directory after the attempt to create it. -/
def directory (o : SaveFailures) (s : FileSystem) (d : Text) : FileSystem :=
  if o.createDirectories then s else s.mkdir d

end SaveFailures

namespace FaceStorageManager
open FaceTemplateSerializer Program

section rules
variable {C : Crypto} {s : FileSystem} {α : Type}
variable {Q : α → FileSystem → Prop}

variable {o : SaveFailures}

theorem wp_planned {c : StorageCall} (b : Bool) (h : o.fault c = if b then .always else .never)
    {next : c.Reply → Program StorageI α} :
    (Program.call (I := StorageI) c next).wp (storageEnv C o.fault) Q s ↔
      ∀ r t, (if b then Fails c s r t else Works C c s r t) →
        (next r).wp (storageEnv C o.fault) Q t := by
  cases b with
  | true => simp only [Program.wp, storageEnv, h, if_true]
  | false => simp only [Program.wp, storageEnv, h, Bool.false_eq_true, if_false]

theorem wp_unplanned {c : StorageCall} (h : o.fault c = .never)
    {next : c.Reply → Program StorageI α} :
    (Program.call (I := StorageI) c next).wp (storageEnv C o.fault) Q s ↔
      ∀ r t, Works C c s r t → (next r).wp (storageEnv C o.fault) Q t :=
  wp_works h

@[simp] theorem fileAt_directory (d : Text) (p : Path) :
    (o.directory s d).fileAt p = s.fileAt p := by
  unfold SaveFailures.directory
  split_ifs
  · rfl
  · exact s.fileAt_mkdir d p

theorem hasDir_directory (d : Text) : (o.directory s d).hasDir d =
    (!o.createDirectories || s.hasDir d) := by
  unfold SaveFailures.directory
  cases o.createDirectories with
  | true => simp
  | false => simp

theorem directory_directory (d : Text) :
    o.directory (o.directory s d) d = o.directory s d := by
  unfold SaveFailures.directory
  split_ifs
  · rfl
  · exact s.mkdir_mkdir d

theorem wp_getUserDirectory_failing {u : Int32} {Q : Text → FileSystem → Prop} :
    (getUserDirectory u).wp (storageEnv C o.fault) Q s ↔
      Q (userDirectoryName u) (o.directory s (userDirectoryName u)) := by
  unfold getUserDirectory
  rw [invoke_bind, wp_unplanned rfl]
  simp only [Works, and_imp, forall_eq_apply_imp_iff, forall_eq]
  cases hd : s.hasDir (userDirectoryName u) with
  | true => simp [Program.wp, SaveFailures.directory, FileSystem.mkdir_of_hasDir hd]
  | false =>
      rw [Bool.not_false, if_pos rfl, invoke_bind, wp_planned o.createDirectories rfl]
      cases hc : o.createDirectories with
      | true =>
          simp only [Fails, SaveFailures.directory, hc, if_true, forall_const, forall_eq]
          rw [invoke_bind, wp_unplanned rfl]
          simp only [Works, forall_const, forall_eq]
          rfl
      | false =>
          simp only [Works, SaveFailures.directory, hc, Bool.false_eq_true, if_false, forall_const,
            forall_eq]
          rw [invoke_bind, wp_unplanned rfl]
          simp only [Works, forall_const, forall_eq]
          rfl

theorem wp_getFilePath_failing {u f : Int32} {Q : Path → FileSystem → Prop} :
    (getFilePath u f).wp (storageEnv C o.fault) Q s ↔
      Q (filePath u f) (o.directory s (userDirectoryName u)) := by
  unfold getFilePath
  rw [wp_bind, wp_getUserDirectory_failing]
  rfl

theorem wp_getPlaintextFilePath_failing {u f : Int32} {Q : Path → FileSystem → Prop} :
    (getPlaintextFilePath u f).wp (storageEnv C o.fault) Q s ↔
      Q (plaintextPath u f) (o.directory s (userDirectoryName u)) := by
  unfold getPlaintextFilePath
  rw [wp_bind, wp_getUserDirectory_failing]
  rfl

theorem wp_removeIfPresent_failing {p : Path} {Q : Unit → FileSystem → Prop} :
    (removeIfPresent p).wp (storageEnv C o.fault) Q s ↔
      Q () (if o.StaleStays then s else s.discard p) := by
  unfold removeIfPresent FileSystem.discard
  rw [invoke_bind, wp_planned o.existsStale rfl]
  cases he : o.existsStale with
  | true =>
      have hstays : o.StaleStays := .inl he
      simp [Fails, Program.wp, hstays]
  | false =>
      simp only [Works, Bool.false_eq_true, if_false, and_imp, forall_eq_apply_imp_iff, forall_eq]
      cases hp : (s.fileAt p).isSome with
      | false => simp [Program.wp]
      | true =>
          rw [if_pos rfl, invoke_bind, wp_planned o.removeStale rfl]
          cases hr : o.removeStale with
          | true =>
              have hstays : o.StaleStays := .inr hr
              simp [Fails, Program.wp, hstays]
          | false =>
              have hstays : ¬ o.StaleStays := by simp [SaveFailures.StaleStays, he, hr]
              simp [Works, Program.wp, hstays]

theorem write_effect {b : Bool} {p : Path} {data : Bytes} {r : ℕ} {t : FileSystem}
    (h : if b then Fails (.write p data) s r t else Works C (.write p data) s r t) :
    ∃ k, (b = false ∧ k = data.length ∨ b = true ∧ k < data.length) ∧
      t = s.append p (data.take k) := by
  cases b with
  | true =>
      obtain ⟨hr, ht⟩ := h
      exact ⟨r, .inr ⟨rfl, hr⟩, ht⟩
  | false =>
      obtain ⟨hr, ht⟩ := h
      exact ⟨data.length, .inl ⟨rfl, rfl⟩, by rw [ht, List.take_length]⟩

theorem close_effect {b : Bool} {p : Path} {content : Bytes} {r : ℕ} {t : FileSystem}
    (hc : s.fileAt p = some content)
    (h : if b then Fails (.close p) s r t else Works C (.close p) s r t) :
    ∃ k, (b = false ∧ k = content.length ∨ b = true ∧ k < content.length) ∧
      t.fileAt p = some (content.take k) ∧ (∀ q, q ≠ p → t.fileAt q = s.fileAt q) ∧
      ∀ d, t.hasDir d = s.hasDir d := by
  cases b with
  | true =>
      obtain ⟨hr, ht⟩ := h
      rw [hc, Option.getD_some] at hr ht
      subst ht
      refine ⟨r, .inr ⟨rfl, hr⟩, ?_, fun q hq => s.fileAt_put_ne _ hq, fun d => s.hasDir_put d _ _⟩
      exact s.fileAt_put_self p _ (FileSystem.hasDir_of_fileAt hc)
  | false =>
      obtain ⟨hr, rfl⟩ := h
      exact ⟨content.length, .inl ⟨rfl, rfl⟩, by rw [List.take_length, hc], fun _ _ => rfl,
        fun _ => rfl⟩

/-- The files after the first `k` bytes were moved to `final`. -/
def Moved (o : SaveFailures) (s : FileSystem) (final stale : Path) (data : Bytes) (k : ℕ)
    (x : FileSystem) : Prop :=
  ∀ q, x.fileAt q = if q = final then some (data.take k)
    else if q = stale then (if o.StaleStays then s.fileAt q else none)
    else if q = tempPath final then none else s.fileAt q

/-- How much of the data a plan lets through. -/
def LetsThrough (o : SaveFailures) (data : Bytes) (k : ℕ) : Prop :=
  o.Complete ∧ k = data.length ∨ ¬ o.Complete ∧ k < data.length

theorem stored_of_effects {data : Bytes} {k₁ k₂ : ℕ}
    (h₁ : o.write = false ∧ k₁ = data.length ∨ o.write = true ∧ k₁ < data.length)
    (h₂ : o.close = false ∧ k₂ = (data.take k₁).length ∨
      o.close = true ∧ k₂ < (data.take k₁).length) :
    LetsThrough o data k₂ ∧ (data.take k₁).take k₂ = data.take k₂ := by
  rw [List.take_take]
  rw [List.length_take] at h₂
  have hmin : min k₂ k₁ = k₂ := by omega
  rw [hmin]
  refine ⟨?_, rfl⟩
  unfold LetsThrough SaveFailures.Complete
  rcases h₁ with ⟨hw, hk₁⟩ | ⟨hw, hk₁⟩
  · rcases h₂ with ⟨hc, hk₂⟩ | ⟨hc, hk₂⟩
    · exact .inl ⟨⟨hw, hc⟩, by omega⟩
    · exact .inr ⟨by simp [hc], by omega⟩
  · exact .inr ⟨by simp [hw], by omega⟩

/-- The rename and the removal after it, where the temporary file is all that differed. -/
theorem moved_of_renamed {final stale : Path} {data : Bytes} {k : ℕ} {t : FileSystem}
    (hstale : stale ≠ final) (htemp : stale ≠ tempPath final)
    (hoff : ∀ q, q ≠ tempPath final → t.fileAt q = s.fileAt q)
    (hdir : t.hasDir final.dir = true) :
    Moved o s final stale data k
      (if o.StaleStays then (t.erase (tempPath final)).put final (data.take k)
        else ((t.erase (tempPath final)).put final (data.take k)).discard stale) := by
  have hrenamed : ∀ q, ((t.erase (tempPath final)).put final (data.take k)).fileAt q =
      if q = final then some (data.take k) else if q = tempPath final then none
      else s.fileAt q := by
    intro q
    split_ifs with hq ht
    · rw [hq]
      exact FileSystem.fileAt_put_self _ _ _ (by simpa using hdir)
    · rw [FileSystem.fileAt_put_ne _ _ hq, ht, FileSystem.fileAt_erase_self]
    · rw [FileSystem.fileAt_put_ne _ _ hq, FileSystem.fileAt_erase_ne _ ht, hoff q ht]
  intro q
  by_cases hstays : o.StaleStays
  · rw [if_pos hstays, if_pos hstays, hrenamed]
    by_cases hq : q = stale
    · subst hq
      rw [if_neg hstale, if_neg htemp, if_neg hstale, if_pos rfl]
    · rw [if_neg (c := q = stale) hq]
  · rw [if_neg hstays, if_neg hstays, FileSystem.fileAt_discard, hrenamed]
    by_cases hq : q = stale
    · subst hq
      rw [if_pos rfl, if_neg hstale, if_pos rfl]
    · rw [if_neg hq, if_neg (c := q = stale) hq]

theorem wp_writeAndRename_failing {final stale : Path} {data : Bytes} {Q : Bool → FileSystem → Prop}
    (hstale : stale ≠ final) (htemp : stale ≠ tempPath final)
    (hfalse : o.openTruncated = true ∨ o.rename = true ∨ s.hasDir final.dir = false →
      ∀ x, (∀ q, q ≠ tempPath final → x.fileAt q = s.fileAt q) → Q false x)
    (htrue : ¬ (o.openTruncated = true ∨ o.rename = true ∨ s.hasDir final.dir = false) →
      ∀ k x, LetsThrough o data k → Moved o s final stale data k x → Q true x) :
    (writeAndRename final stale data).wp (storageEnv C o.fault) Q s := by
  unfold writeAndRename
  rw [invoke_bind, wp_planned o.openTruncated rfl]
  intro opened s₁ hopen
  cases ho : o.openTruncated with
  | true =>
      rw [if_pos ho] at hopen
      obtain ⟨rfl, rfl⟩ := hopen
      exact hfalse (.inl ho) _ fun _ _ => rfl
  | false =>
      rw [if_neg (by simp [ho])] at hopen
      obtain ⟨rfl, rfl⟩ := hopen
      have hput : ∀ q, q ≠ tempPath final → (s.put (tempPath final) []).fileAt q = s.fileAt q :=
        fun q hq => s.fileAt_put_ne _ hq
      cases hd : s.hasDir final.dir with
      | false =>
          rw [tempPath_dir, hd, Bool.not_false, if_pos rfl]
          exact hfalse (.inr (.inr hd)) _ hput
      | true =>
          rw [tempPath_dir, hd, if_neg (by simp), invoke_bind, wp_planned o.write rfl]
          intro m₁ s₂ hwrite
          obtain ⟨k₁, hk₁, rfl⟩ := write_effect hwrite
          have htemp₁ := FileSystem.fileAt_append_self (data.take k₁)
            (s.fileAt_put_self (tempPath final) [] hd)
          rw [List.nil_append] at htemp₁
          rw [invoke_bind, wp_planned o.close rfl]
          intro m₂ s₃ hclose
          obtain ⟨k₂, hk₂, htemp₃, hoff₃, hdir₃⟩ := close_effect htemp₁ hclose
          obtain ⟨hstored, htake⟩ := stored_of_effects hk₁ hk₂
          rw [htake] at htemp₃
          have hoff : ∀ q, q ≠ tempPath final → s₃.fileAt q = s.fileAt q := by
            intro q hq
            rw [hoff₃ q hq, FileSystem.fileAt_append_ne _ _ hq, hput q hq]
          have hdir : s₃.hasDir final.dir = true := by
            rw [hdir₃, FileSystem.hasDir_append, FileSystem.hasDir_put, hd]
          rw [invoke_bind, wp_unplanned rfl]
          simp only [Works, forall_const, forall_eq]
          rw [invoke_bind, wp_planned o.rename rfl]
          intro moved s₄ hrename
          cases hr : o.rename with
          | true =>
              rw [if_pos hr] at hrename
              obtain ⟨rfl, rfl⟩ := hrename
              rw [Bool.not_false, if_pos rfl, invoke_bind, wp_planned o.unlink rfl]
              intro _ s₅ hunlink
              refine hfalse (.inr (.inl hr)) s₅ ?_
              intro q hq
              split_ifs at hunlink
              · rw [show s₅ = s₄ from hunlink, hoff q hq]
              · rw [show s₅ = s₄.erase (tempPath final) from hunlink,
                  FileSystem.fileAt_erase_ne _ hq, hoff q hq]
          | false =>
              rw [if_neg (by simp [hr])] at hrename
              simp only [Works, htemp₃, hdir] at hrename
              obtain ⟨rfl, rfl⟩ := hrename
              rw [if_neg (by simp), wp_bind, wp_removeIfPresent_failing]
              refine htrue (by simp [ho, hr, hd]) k₂ _ hstored ?_
              exact moved_of_renamed hstale htemp hoff hdir

end rules

/-- The save gives up before it replaces a file. -/
def Abandoned (o : SaveFailures) (s : FileSystem) (t : FaceTemplate) : Prop :=
  o.generateMac = true ∨ o.openTruncated = true ∨ o.rename = true ∨
    o.createDirectories = true ∧ s.hasDir (userDirectoryName t.userId) = false

section save
variable {C : LawfulCrypto} {o : SaveFailures} {s : FileSystem} {t : FaceTemplate}

theorem wp_serialize_failing {Q : Bytes → FileSystem → Prop} :
    (serialize t).wp (storageEnv C.toCrypto o.fault) Q s ↔
      Q (if o.generateMac then [] else serialized C.toCrypto t) s := by
  unfold serialize
  rw [invoke_bind, wp_planned o.generateMac rfl]
  cases o.generateMac with
  | true =>
      simp only [Fails, if_true, and_imp, forall_eq_apply_imp_iff, forall_eq]
      rfl
  | false =>
      simp only [Works, if_neg (payload_ne_nil t), Bool.false_eq_true, if_false, and_imp,
        forall_eq_apply_imp_iff, forall_eq, if_neg (mac_ne_nil C _)]
      rfl

theorem wp_saveTemplate_failing {Q : Bool → FileSystem → Prop}
    (hfalse : Abandoned o s t → ∀ x, (∀ u f, x.fileAt (filePath u f) = s.fileAt (filePath u f)) →
      (∀ u f, x.fileAt (plaintextPath u f) = s.fileAt (plaintextPath u f)) → Q false x)
    (hencrypted : ¬ Abandoned o s t → o.encrypt = false → ∀ n k x,
      LetsThrough o (C.encrypt n t.userId (serialized C.toCrypto t)) k →
      Moved o s (filePath t.userId t.faceId) (plaintextPath t.userId t.faceId)
        (C.encrypt n t.userId (serialized C.toCrypto t)) k x → Q true x)
    (hplaintext : ¬ Abandoned o s t → o.encrypt = true → ∀ k x,
      LetsThrough o (serialized C.toCrypto t) k →
      Moved o s (plaintextPath t.userId t.faceId) (filePath t.userId t.faceId)
        (serialized C.toCrypto t) k x → Q true x) :
    (saveTemplate t).wp (storageEnv C.toCrypto o.fault) Q s := by
  have hne := serialized_ne_nil C.toCrypto t
  have hdir := directory_directory (o := o) (s := s) (userDirectoryName t.userId)
  have hhas := hasDir_directory (o := o) (s := s) (userDirectoryName t.userId)
  have hgave : (o.openTruncated = true ∨ o.rename = true ∨
      (o.directory s (userDirectoryName t.userId)).hasDir
        (userDirectoryName t.userId) = false) → Abandoned o s t := by
    rintro (h | h | h)
    · exact .inr (.inl h)
    · exact .inr (.inr (.inl h))
    · refine .inr (.inr (.inr ?_))
      simpa [hhas] using h
  have hkept : o.generateMac = false → ¬ (o.openTruncated = true ∨ o.rename = true ∨
      (o.directory s (userDirectoryName t.userId)).hasDir
        (userDirectoryName t.userId) = false) → ¬ Abandoned o s t := by
    rintro hm hn (h | h | h | h)
    · rw [hm] at h
      cases h
    · exact hn (.inl h)
    · exact hn (.inr (.inl h))
    · refine hn (.inr (.inr ?_))
      rw [hhas, h.1, h.2]
      rfl
  have hfalse' : Abandoned o s t → ∀ final x, (∀ q, q ≠ tempPath final →
      x.fileAt q = (o.directory s (userDirectoryName t.userId)).fileAt q) → Q false x := by
    intro h final x hx
    refine hfalse h x (fun u f => ?_) fun u f => ?_
    · rw [hx _ (filePath_ne_temp _), fileAt_directory]
    · rw [hx _ (plaintextPath_ne_temp _), fileAt_directory]
  have hmoved : ∀ final stale data k x,
      Moved o (o.directory s (userDirectoryName t.userId)) final stale data k x →
      Moved o s final stale data k x := by
    intro final stale data k x h q
    rw [h q, fileAt_directory]
  unfold saveTemplate
  rw [wp_bind, wp_serialize_failing]
  cases hm : o.generateMac with
  | true =>
      rw [if_pos rfl, if_pos rfl]
      exact hfalse (.inl hm) _ (fun _ _ => rfl) fun _ _ => rfl
  | false =>
      rw [if_neg Bool.false_ne_true]
      rw [if_neg hne, wp_bind, wp_getFilePath_failing, wp_bind,
        wp_getPlaintextFilePath_failing, hdir,
        invoke_bind, wp_planned o.encrypt rfl]
      intro data s₂ hdata
      cases he : o.encrypt with
      | true =>
          rw [if_pos he] at hdata
          obtain ⟨rfl, rfl⟩ := hdata
          rw [if_pos rfl, wp_bind, wp_getFilePath_failing, hdir]
          refine wp_writeAndRename_failing (by simp) (by simp) ?_ ?_
          · exact fun h x hx => hfalse' (hgave h) _ x hx
          · intro h k x hk hx
            exact hplaintext (hkept hm h) he k x hk (hmoved _ _ _ _ _ hx)
      | false =>
          rw [if_neg (by simp [he])] at hdata
          obtain ⟨⟨n, hn⟩, rfl⟩ := hdata
          rw [if_neg hne] at hn
          subst hn
          rw [if_neg (C.encrypt_ne_nil n _ _ hne)]
          refine wp_writeAndRename_failing (by simp) (by simp) ?_ ?_
          · exact fun h x hx => hfalse' (hgave h) _ x hx
          · intro h k x hk hx
            exact hencrypted (hkept hm h) he n k x hk (hmoved _ _ _ _ _ hx)

end save

/-- A save that reports success leaves its template to be loaded, and one that
reports failure changes what no face loads. -/
def AllOrNothing (C : Crypto) (s : FileSystem) (t : FaceTemplate) (ok : Bool)
    (x : FileSystem) : Prop :=
  (ok = true → ∀ r ∈ loadOutcomes C t.userId t.faceId x,
    r.map FaceTemplate.record = some t.record) ∧
  (ok = false → ∀ u f, loadOutcomes C u f x = loadOutcomes C u f s)

/-- The size field holds the size. -/
def Fits (t : FaceTemplate) : Prop := t.templateData.length < 2 ^ 32

/-- What the encrypted file of the face holds, and what the plaintext file does. -/
def heldEncrypted (C : Crypto) (s : FileSystem) (t : FaceTemplate) : Option TemplateRecord :=
  ((s.fileAt (filePath t.userId t.faceId)).bind (decodeEncrypted C t.userId t.faceId)).map
    FaceTemplate.record

def heldPlaintext (C : Crypto) (s : FileSystem) (t : FaceTemplate) : Option TemplateRecord :=
  ((s.fileAt (plaintextPath t.userId t.faceId)).bind (decodeFor C t.userId t.faceId)).map
    FaceTemplate.record

/-- Either nothing is replaced, or all the data arrives and no older encrypted file
stays in front of it, or an older file that stays holds the same template. -/
def SaveSafe (C : Crypto) (o : SaveFailures) (s : FileSystem) (t : FaceTemplate) : Prop :=
  Abandoned o s t ∨
  (o.encrypt = false ∧ (o.Complete ∧ Fits t ∨
    ¬ o.Complete ∧ o.StaleStays ∧ heldPlaintext C s t = some t.record)) ∨
  (o.encrypt = true ∧ (o.Complete ∧ Fits t ∧ ¬ (o.StaleStays ∧ heldEncrypted C s t ≠ none) ∨
    o.StaleStays ∧ heldEncrypted C s t = some t.record))

section allOrNothing
variable {o : SaveFailures} {s x : FileSystem} {t : FaceTemplate} {k : ℕ}

theorem record_serialized_iff (C : LawfulCrypto) (hv : t.version = C.currentVersion) :
    (decodeFor C.toCrypto t.userId t.faceId (serialized C.toCrypto t)).map FaceTemplate.record =
      some t.record ↔ Fits t := by
  constructor
  · intro h
    rw [decodeFor, serialized, decode_serialized C t hv] at h
    simp only [truncated, Option.filter_some, BEq.rfl, Bool.and_self, if_true, Option.map_some,
      Option.some.injEq, FaceTemplate.record, TemplateRecord.mk.injEq, true_and] at h
    have hl := length_truncated t
    simp only [truncated, h] at hl
    rw [Fits, hl]
    exact UInt32.toNat_lt _
  · exact decodeFor_serialized hv

theorem decodeFor_take (C : LawfulCrypto) {u f : Int32}
    (hk : k < (serialized C.toCrypto t).length) :
    decodeFor C.toCrypto u f ((serialized C.toCrypto t).take k) = none := by
  rw [decodeFor, serialized, decode_take C.toCrypto t (C.length_mac _) hk]
  rfl

theorem decodeEncrypted_take (C : AeadCrypto) {n : ℕ} {u f : Int32} {data : Bytes} (hd : data ≠ [])
    (hk : k < (C.encrypt n u data).length) :
    decodeEncrypted C.toCrypto u f ((C.encrypt n u data).take k) = none := by
  unfold decodeEncrypted
  split_ifs
  · rfl
  · rw [C.decrypt_take n u data k hd hk, decodeFor_nil]

/-- What loads after an encrypted save: the new file if it is whole, else the
plaintext file if it stays. -/
theorem stored_moved_encrypted {C : AeadCrypto} {n : ℕ}
    (hk : LetsThrough o (C.encrypt n t.userId (serialized C.toCrypto t)) k)
    (hx : Moved o s (filePath t.userId t.faceId) (plaintextPath t.userId t.faceId)
      (C.encrypt n t.userId (serialized C.toCrypto t)) k x) :
    (stored C.toCrypto t.userId t.faceId x).map FaceTemplate.record =
      (if o.Complete then
        (decodeFor C.toCrypto t.userId t.faceId (serialized C.toCrypto t)).map FaceTemplate.record
      else none).or (if o.StaleStays then heldPlaintext C.toCrypto s t else none) := by
  have hne := serialized_ne_nil C.toCrypto t
  have he : (x.fileAt (filePath t.userId t.faceId)).bind
      (decodeEncrypted C.toCrypto t.userId t.faceId) = if o.Complete then
        decodeFor C.toCrypto t.userId t.faceId (serialized C.toCrypto t) else none := by
    rw [hx, if_pos rfl, Option.bind_some]
    rcases hk with ⟨hc, rfl⟩ | ⟨hc, hk⟩
    · rw [if_pos hc, List.take_length, decodeEncrypted, if_neg (C.encrypt_ne_nil n _ _ hne),
        C.decrypt_encrypt n _ _ hne]
    · rw [if_neg hc, decodeEncrypted_take C hne hk]
  have hp : (x.fileAt (plaintextPath t.userId t.faceId)).bind
    (decodeFor C.toCrypto t.userId t.faceId) =
      if o.StaleStays then (s.fileAt (plaintextPath t.userId t.faceId)).bind
        (decodeFor C.toCrypto t.userId t.faceId) else none := by
    rw [hx, if_neg (by simp), if_pos rfl]
    split_ifs
    · rfl
    · rfl
  rw [stored, he, hp, Option.map_or]
  unfold heldPlaintext
  split_ifs <;> rfl

/-- What loads after a plaintext save: the encrypted file if it stays and loads,
else the new file if it is whole. -/
theorem stored_moved_plaintext {C : LawfulCrypto}
    (hk : LetsThrough o (serialized C.toCrypto t) k)
    (hx : Moved o s (plaintextPath t.userId t.faceId) (filePath t.userId t.faceId)
      (serialized C.toCrypto t) k x) :
    (stored C.toCrypto t.userId t.faceId x).map FaceTemplate.record =
      (if o.StaleStays then heldEncrypted C.toCrypto s t else none).or
        (if o.Complete then
          (decodeFor C.toCrypto t.userId t.faceId (serialized C.toCrypto t)).map FaceTemplate.record
        else none) := by
  have he : (x.fileAt (filePath t.userId t.faceId)).bind
      (decodeEncrypted C.toCrypto t.userId t.faceId) = if o.StaleStays then
        (s.fileAt (filePath t.userId t.faceId)).bind (decodeEncrypted C.toCrypto t.userId t.faceId)
      else none := by
    rw [hx, if_neg (by simp), if_pos rfl]
    split_ifs
    · rfl
    · rfl
  have hp : (x.fileAt (plaintextPath t.userId t.faceId)).bind
    (decodeFor C.toCrypto t.userId t.faceId) =
      if o.Complete then
        decodeFor C.toCrypto t.userId t.faceId (serialized C.toCrypto t) else none := by
    rw [hx, if_pos rfl, Option.bind_some]
    rcases hk with ⟨hc, rfl⟩ | ⟨hc, hk⟩
    · rw [if_pos hc, List.take_length]
    · rw [if_neg hc, decodeFor_take C hk]
  rw [stored, he, hp, Option.map_or]
  unfold heldEncrypted
  split_ifs <;> rfl

theorem allOrNothing_false {C : Crypto} : AllOrNothing C s t false x ↔
    ∀ u f, stored C u f x = stored C u f s := by
  simp [AllOrNothing, loadOutcomes_eq]

theorem allOrNothing_true {C : Crypto} : AllOrNothing C s t true x ↔
    (stored C t.userId t.faceId x).map FaceTemplate.record = some t.record := by
  simp [AllOrNothing, loadOutcomes_eq]

/-- A save is all or nothing exactly when the plan is harmless for the prior state. -/
theorem save_allOrNothing_iff (C : AeadCrypto) {ok : Bool} (hv : t.version = C.currentVersion)
    (hrun : Run (storageEnv C.toCrypto o.fault) (saveTemplate t) s ok x) :
    AllOrNothing C.toCrypto s t ok x ↔ SaveSafe C.toCrypto o s t := by
  have hfits := record_serialized_iff C.toLawfulCrypto hv
  obtain ⟨r, hr⟩ : ∃ r, (decodeFor C.toCrypto t.userId t.faceId (serialized C.toCrypto t)).map
      FaceTemplate.record = some r := by
    rw [decodeFor, serialized, decode_serialized C.toLawfulCrypto t hv]
    simp [truncated]
  rw [hr, Option.some_inj] at hfits
  refine hrun.wp (Q := fun ok x => AllOrNothing C.toCrypto s t ok x ↔ SaveSafe C.toCrypto o s t)
    (wp_saveTemplate_failing ?_ ?_ ?_)
  · intro ha x he hp
    refine iff_of_true (allOrNothing_false.mpr fun u f => ?_) (.inl ha)
    exact stored_congr _ u f (he u f) (hp u f)
  · intro ha henc n k x hk hx
    rw [allOrNothing_true, stored_moved_encrypted hk hx, hr]
    simp only [SaveSafe, ha, henc, false_or, true_and, Bool.false_eq_true, false_and, or_false]
    by_cases hc : o.Complete
    · simp [hc, hfits]
    · by_cases hs : o.StaleStays
      · simp [hc, hs]
      · simp [hc, hs]
  · intro ha henc k x hk hx
    rw [allOrNothing_true, stored_moved_plaintext hk hx, hr]
    simp only [SaveSafe, ha, henc, false_or, true_and, Bool.true_eq_false, false_and]
    by_cases hs : o.StaleStays
    · cases hh : heldEncrypted C.toCrypto s t with
      | none =>
          by_cases hc : o.Complete
          · simp [hc, hs, hfits]
          · simp [hc, hs]
      | some e => simp [hs]
    · by_cases hc : o.Complete
      · simp [hc, hs, hfits]
      · simp [hc, hs]

end allOrNothing

/-- Encryption is unavailable and the encrypted file cannot be removed. -/
def shadowingPlan : SaveFailures :=
  { generateMac := false, createDirectories := false, encrypt := true, openTruncated := false,
    write := false, close := false, rename := false, unlink := false, existsStale := false,
    removeStale := true }

def answerShadowing (C : Crypto) : (c : StorageCall) → FileSystem → c.Reply × FileSystem
  | .encrypt _ _, s => ([], s)
  | .remove _, s => (false, s)
  | c, s => answer C 0 c s

theorem storageEnv_answerShadowing (C : Crypto) (c : StorageCall) (s : FileSystem) :
    storageEnv C shadowingPlan.fault c s (answerShadowing C c s).1 (answerShadowing C c s).2 := by
  cases c with
  | encrypt _ _ => exact ⟨rfl, rfl⟩
  | remove _ => exact ⟨rfl, rfl⟩
  | _ =>
      exact storageEnv_of_works (works_answer C 0 _ s) (by simp [SaveFailures.fault, shadowingPlan])

/-- The face has an encrypted file. -/
def encryptedSaved : FileSystem :=
  ((saveTemplate sampleTemplate).eval (answer sealedCrypto.toCrypto 0) .empty).2

def shadowedSave : Bool × FileSystem :=
  (saveTemplate newerTemplate).eval (answerShadowing sealedCrypto.toCrypto) encryptedSaved

theorem run_shadowedSave : Run (storageEnv sealedCrypto.toCrypto shadowingPlan.fault)
    (saveTemplate newerTemplate) encryptedSaved true shadowedSave.2 := by
  have hok : shadowedSave.1 = true := by decide +kernel
  rw [← hok]
  exact run_eval (storageEnv_answerShadowing _) _ _

theorem save_shadowed : ¬ ∀ (C : AeadCrypto) (o : SaveFailures) (s x : FileSystem)
    (t : FaceTemplate)
    (ok : Bool), t.version = C.currentVersion →
      Run (storageEnv C.toCrypto o.fault) (saveTemplate t) s ok x →
      AllOrNothing C.toCrypto s t ok x := by
  intro h
  have hall := allOrNothing_true.mp (h sealedCrypto _ _ _ _ _ (by decide) run_shadowedSave)
  have hold : (stored sealedCrypto.toCrypto newerTemplate.userId newerTemplate.faceId
      shadowedSave.2).map FaceTemplate.record = some sampleTemplate.record := by decide +kernel
  rw [hold] at hall
  revert hall
  decide

/-- The characterization at that save. -/
theorem save_allOrNothing_shadowed :
    AllOrNothing sealedCrypto.toCrypto encryptedSaved newerTemplate true shadowedSave.2 ↔
      SaveSafe sealedCrypto.toCrypto shadowingPlan encryptedSaved newerTemplate :=
  save_allOrNothing_iff sealedCrypto (by decide) run_shadowedSave

end FaceStorageManager
end FaceHal
