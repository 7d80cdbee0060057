import FaceHal.DirectoryScan

/-!
# What saving, deleting and removing do

Rules for the operations that change files, in the environment where no file call
fails and an encryption may. Each rule gives the file system after the operation
as an expression over the one before; the lemmas beside it say which content
every path then has.
-/
namespace FaceHal

/-- Remove a file if it is there. -/
def FileSystem.discard (s : FileSystem) (p : Path) : FileSystem :=
  if (s.fileAt p).isSome then s.erase p else s

@[simp] theorem FileSystem.hasDir_discard (s : FileSystem) (p : Path) (d : Text) :
    (s.discard p).hasDir d = s.hasDir d := by
  unfold discard
  split_ifs
  · exact s.hasDir_erase d p
  · rfl

theorem FileSystem.fileAt_discard (s : FileSystem) (p q : Path) :
    (s.discard p).fileAt q = if q = p then none else s.fileAt q := by
  unfold discard
  split_ifs with hp hq hq
  · rw [hq, fileAt_erase_self]
  · rw [fileAt_erase_ne _ hq]
  · rw [hq]
    simpa using hp
  · rfl

namespace FaceStorageManager
open FaceTemplateSerializer Program KeyedScan

/-- The file system after the data was written to the temporary file and renamed. -/
def renamed (s : FileSystem) (final : Path) (data : Bytes) : FileSystem :=
  ((((s.put (tempPath final) []).append (tempPath final) data).erase (tempPath final)).put
    final data)

theorem fileAt_renamed {s : FileSystem} {final : Path} (h : s.hasDir final.dir = true)
    (data : Bytes) (p : Path) : (renamed s final data).fileAt p =
      if p = final then some data else if p = tempPath final then none else s.fileAt p := by
  unfold renamed
  split_ifs with hp ht
  · rw [hp]
    exact FileSystem.fileAt_put_self _ _ _ (by simpa using h)
  · rw [FileSystem.fileAt_put_ne _ _ hp, ht, FileSystem.fileAt_erase_self]
  · rw [FileSystem.fileAt_put_ne _ _ hp, FileSystem.fileAt_erase_ne _ ht,
      FileSystem.fileAt_append_ne _ _ ht, FileSystem.fileAt_put_ne _ _ ht]

@[simp] theorem hasDir_renamed (s : FileSystem) (final : Path) (data : Bytes) (d : Text) :
    (renamed s final data).hasDir d = s.hasDir d := by
  simp [renamed]

/-- The file system after a save that put the data at `final`. -/
def placed (s : FileSystem) (final stale : Path) (data : Bytes) : FileSystem :=
  (renamed (s.mkdir final.dir) final data).discard stale

theorem fileAt_placed (s : FileSystem) {final stale : Path} (data : Bytes) (p : Path)
    (hne : final ≠ stale) : (placed s final stale data).fileAt p =
      if p = final then some data
      else if p = stale ∨ p = tempPath final then none else s.fileAt p := by
  have hdir : (s.mkdir final.dir).hasDir final.dir = true := by simp
  rw [placed, FileSystem.fileAt_discard, fileAt_renamed hdir, FileSystem.fileAt_mkdir]
  by_cases hp : p = final
  · rw [if_pos hp, if_neg (hp ▸ hne), if_pos hp]
  · by_cases hs : p = stale
    · rw [if_pos hs, if_neg hp, if_pos (.inl hs)]
    · by_cases ht : p = tempPath final
      · rw [if_neg hs, if_neg hp, if_pos ht, if_neg hp, if_pos (.inr ht)]
      · rw [if_neg hs, if_neg hp, if_neg ht, if_neg hp, if_neg (by simp [hs, ht])]

/-- The bytes of a template, as `serialize` returns them. -/
def serialized (C : Crypto) (t : FaceTemplate) : Bytes := payload t ++ C.mac (payload t)

theorem serialized_ne_nil (C : Crypto) (t : FaceTemplate) : serialized C t ≠ [] := by
  simp [serialized, payload_ne_nil]

/-- The file system at the end of `wipeIfEmpty`. -/
def wiped (s : FileSystem) (u : Int32) : FileSystem :=
  if ((s.entries (userDirectoryName u)).getD []).any namesTemplate then s
  else s.removeAll (userDirectoryName u)

theorem fileAt_wiped {s : FileSystem} {u : Int32} {p : Path} (h : namesTemplate p.name = true) :
    (wiped s u).fileAt p = s.fileAt p := by
  unfold wiped
  split_ifs with hany
  · rfl
  · rw [FileSystem.fileAt_removeAll]
    split_ifs with hp
    · symm
      cases he : s.entries (userDirectoryName u) with
      | none =>
          have hdir : s.hasDir p.dir = false := by
            rw [hp, ← FileSystem.entries_isSome, he]
            rfl
          cases hf : s.fileAt p with
          | none => rfl
          | some content => simp [FileSystem.hasDir_of_fileAt hf] at hdir
      | some l =>
          rw [he, Option.getD_some, List.any_eq_true] at hany
          cases hf : s.fileAt p with
          | none => rfl
          | some content =>
              have hpath : (⟨userDirectoryName u, p.name⟩ : Path) = p := by rw [← hp]
              exact absurd ⟨p.name, (FileSystem.mem_entries he _).mpr
                ⟨content, by rw [hpath, hf]⟩, h⟩
                hany
    · rfl

theorem fileAt_of_wiped {s : FileSystem} {u : Int32} {p : Path} {content : Bytes}
    (h : (wiped s u).fileAt p = some content) : s.fileAt p = some content := by
  unfold wiped at h
  split_ifs at h
  · exact h
  · rw [FileSystem.fileAt_removeAll] at h
    split_ifs at h
    exact h

/-- The file system after `deleteTemplate`. -/
def deleted (s : FileSystem) (u f : Int32) : FileSystem :=
  wiped (((s.mkdir (userDirectoryName u)).discard (filePath u f)).discard (plaintextPath u f)) u

theorem fileAt_deleted {s : FileSystem} {u f : Int32} {p : Path} (h : namesTemplate p.name = true) :
    (deleted s u f).fileAt p =
      if p = filePath u f ∨ p = plaintextPath u f then none else s.fileAt p := by
  rw [deleted, fileAt_wiped h, FileSystem.fileAt_discard, FileSystem.fileAt_discard,
    FileSystem.fileAt_mkdir]
  by_cases hp : p = plaintextPath u f
  · rw [if_pos hp, if_pos (.inr hp)]
  · by_cases he : p = filePath u f
    · rw [if_neg hp, if_pos he, if_pos (.inl he)]
    · rw [if_neg hp, if_neg he, if_neg (by simp [hp, he])]

theorem fileAt_of_deleted {s : FileSystem} {u f : Int32} {p : Path} {content : Bytes}
    (h : (deleted s u f).fileAt p = some content) : s.fileAt p = some content := by
  have hw := fileAt_of_wiped h
  rw [FileSystem.fileAt_discard, FileSystem.fileAt_discard, FileSystem.fileAt_mkdir] at hw
  split_ifs at hw
  exact hw

section stored
variable {C : LawfulCrypto} {s : FileSystem} {u f v g : Int32}

/-- The two ways a save assigns the files of a face. -/
def Assigned (u f : Int32) (final stale : Path) : Prop :=
  (final = filePath u f ∧ stale = plaintextPath u f) ∨
    (final = plaintextPath u f ∧ stale = filePath u f)

theorem Assigned.ne {final stale : Path} (h : Assigned u f final stale) : final ≠ stale := by
  rcases h with ⟨rfl, rfl⟩ | ⟨rfl, rfl⟩
  · simp
  · simp

theorem stored_placed_encrypted (n : ℕ) (t : FaceTemplate) :
    stored C.toCrypto t.userId t.faceId (placed s (filePath t.userId t.faceId)
      (plaintextPath t.userId t.faceId) (C.encrypt n t.userId (serialized C.toCrypto t))) =
      decodeFor C.toCrypto t.userId t.faceId (serialized C.toCrypto t) := by
  have hne := serialized_ne_nil C.toCrypto t
  rw [stored, fileAt_placed _ _ _ (by simp), fileAt_placed _ _ _ (by simp), if_pos rfl,
    if_neg (by simp), if_pos (.inl rfl), Option.bind_some, Option.bind_none, Option.or_none,
    decodeEncrypted, if_neg (C.encrypt_ne_nil n _ _ hne), C.decrypt_encrypt n _ _ hne]

theorem stored_placed_plaintext (t : FaceTemplate) :
    stored C.toCrypto t.userId t.faceId (placed s (plaintextPath t.userId t.faceId)
      (filePath t.userId t.faceId) (serialized C.toCrypto t)) =
      decodeFor C.toCrypto t.userId t.faceId (serialized C.toCrypto t) := by
  rw [stored, fileAt_placed _ _ _ (by simp), fileAt_placed _ _ _ (by simp), if_neg (by simp),
    if_pos (.inl rfl), if_pos rfl, Option.bind_none, Option.none_or, Option.bind_some]

theorem stored_placed_ne {final stale : Path} (hfinal : Assigned u f final stale) (data : Bytes)
    (h : ¬ (v = u ∧ g = f)) :
    stored C.toCrypto v g (placed s final stale data) = stored C.toCrypto v g s := by
  rcases hfinal with ⟨rfl, rfl⟩ | ⟨rfl, rfl⟩
  · refine stored_congr _ v g ?_ ?_
    · rw [fileAt_placed _ _ _ (by simp), if_neg (by simpa using h), if_neg (by simp)]
    · rw [fileAt_placed _ _ _ (by simp), if_neg (by simp), if_neg (by simpa using h)]
  · refine stored_congr _ v g ?_ ?_
    · rw [fileAt_placed _ _ _ (by simp), if_neg (by simp), if_neg (by simpa using h)]
    · rw [fileAt_placed _ _ _ (by simp), if_neg (by simpa using h), if_neg (by simp)]

theorem stored_deleted : stored C.toCrypto v g (deleted s u f) =
    if v = u ∧ g = f then none else stored C.toCrypto v g s := by
  have he : (deleted s u f).fileAt (filePath v g) =
      if v = u ∧ g = f then none else s.fileAt (filePath v g) := by
    rw [fileAt_deleted (by simp [filePath])]
    simp
  have hp : (deleted s u f).fileAt (plaintextPath v g) =
      if v = u ∧ g = f then none else s.fileAt (plaintextPath v g) := by
    rw [fileAt_deleted (by simp [plaintextPath])]
    simp
  split_ifs at he hp ⊢
  · simp [stored, he, hp]
  · exact stored_congr _ v g he hp

theorem decodeFor_serialized {t : FaceTemplate} (hv : t.version = C.currentVersion)
    (hl : t.templateData.length < 2 ^ 32) :
    (decodeFor C.toCrypto t.userId t.faceId (serialized C.toCrypto t)).map FaceTemplate.record =
      some t.record := by
  rw [decodeFor, serialized, decode_serialized C t hv, truncated_eq hl]
  simp [FaceTemplate.record]

end stored

section rules
variable {C : Crypto} {s : FileSystem} {u f : Int32}

theorem wp_reliable {c : StorageCall} (h : encryptionMayFail c = .never) {α : Type}
    {next : c.Reply → Program StorageI α} {Q : α → FileSystem → Prop} :
    (Program.call (I := StorageI) c next).wp (storageEnv C encryptionMayFail) Q s ↔
      ∀ r t, Works C c s r t → (next r).wp (storageEnv C encryptionMayFail) Q t :=
  wp_works h

theorem wp_removeIfPresent {p : Path} {Q : Unit → FileSystem → Prop} :
    (removeIfPresent p).wp (storageEnv C encryptionMayFail) Q s ↔ Q () (s.discard p) := by
  unfold removeIfPresent FileSystem.discard
  rw [invoke_bind, wp_reliable rfl]
  simp only [Works, and_imp, forall_eq_apply_imp_iff, forall_eq]
  cases hp : (s.fileAt p).isSome with
  | false => simp [Program.wp]
  | true =>
      simp only [if_true]
      rw [invoke_bind, wp_reliable rfl]
      simp [Works, Program.wp]

theorem fileAt_written {final : Path} (data : Bytes) (h : s.hasDir final.dir = true) :
    ((s.put (tempPath final) []).append (tempPath final) data).fileAt (tempPath final) =
      some data := by
  have hput := FileSystem.fileAt_put_self s (tempPath final) [] h
  rw [FileSystem.fileAt_append_self data hput, List.nil_append]

theorem hasDir_written {final : Path} (data : Bytes) (h : s.hasDir final.dir = true) :
    ((s.put (tempPath final) []).append (tempPath final) data).hasDir final.dir = true := by
  simpa using h

theorem wp_writeAndRename {final stale : Path} {data : Bytes} {Q : Bool → FileSystem → Prop}
    (h : s.hasDir final.dir = true) :
    (writeAndRename final stale data).wp (storageEnv C encryptionMayFail) Q s ↔
      Q true ((renamed s final data).discard stale) := by
  have hopen : s.hasDir (tempPath final).dir = true := h
  unfold writeAndRename
  rw [invoke_bind, wp_reliable rfl]
  simp only [Works, and_imp, forall_eq_apply_imp_iff, forall_eq, hopen, Bool.not_true,
    Bool.false_eq_true, if_false]
  rw [invoke_bind, wp_reliable rfl]
  simp only [Works, and_imp, forall_eq_apply_imp_iff, forall_eq]
  rw [invoke_bind, wp_reliable rfl]
  simp only [Works, and_imp, forall_eq_apply_imp_iff, forall_eq]
  rw [invoke_bind, wp_reliable rfl]
  simp only [Works, forall_const, forall_eq]
  rw [invoke_bind, wp_reliable rfl]
  simp only [Works, fileAt_written data h, hasDir_written data h, and_imp,
    forall_eq_apply_imp_iff, forall_eq, Bool.not_true, Bool.false_eq_true, if_false]
  rw [wp_bind, wp_removeIfPresent]
  rfl

end rules

section operations
variable {C : LawfulCrypto} {s : FileSystem} {u f : Int32}

theorem mac_ne_nil (C : LawfulCrypto) (data : Bytes) : C.mac data ≠ [] := by
  intro h
  have hl := C.length_mac data
  rw [h] at hl
  cases hl

theorem wp_serialize {t : FaceTemplate} {Q : Bytes → FileSystem → Prop} :
    (serialize t).wp (storageEnv C.toCrypto encryptionMayFail) Q s ↔
      Q (serialized C.toCrypto t) s := by
  unfold serialize
  rw [invoke_bind, wp_reliable rfl]
  simp only [Works, if_neg (payload_ne_nil t), and_imp, forall_eq_apply_imp_iff, forall_eq,
    if_neg (mac_ne_nil C _)]
  rfl

theorem wp_encrypt {data : Bytes} (h : data ≠ []) {α : Type}
    {next : Bytes → Program StorageI α} {Q : α → FileSystem → Prop} :
    (Program.call (I := StorageI) (.encrypt u data) next).wp
        (storageEnv C.toCrypto encryptionMayFail) Q s ↔
      (∀ n, (next (C.encrypt n u data)).wp (storageEnv C.toCrypto encryptionMayFail) Q s) ∧
      (next []).wp (storageEnv C.toCrypto encryptionMayFail) Q s := by
  simp only [Program.wp, storageEnv, encryptionMayFail, Works, Fails, if_neg h]
  constructor
  · intro hall
    exact ⟨fun n => hall _ _ (.inl ⟨⟨n, rfl⟩, rfl⟩), hall _ _ (.inr ⟨rfl, rfl⟩)⟩
  · rintro ⟨hwork, hfail⟩ r t (⟨⟨n, rfl⟩, rfl⟩ | ⟨rfl, rfl⟩)
    · exact hwork n
    · exact hfail

/-- A save succeeds: encrypted, or as plaintext when the encryption failed. -/
theorem wp_saveTemplate {t : FaceTemplate} {Q : Bool → FileSystem → Prop} :
    (saveTemplate t).wp (storageEnv C.toCrypto encryptionMayFail) Q s ↔
      (∀ n, Q true (placed s (filePath t.userId t.faceId) (plaintextPath t.userId t.faceId)
        (C.encrypt n t.userId (serialized C.toCrypto t)))) ∧
      Q true (placed s (plaintextPath t.userId t.faceId) (filePath t.userId t.faceId)
        (serialized C.toCrypto t)) := by
  have hdir := s.mkdir_mkdir (userDirectoryName t.userId)
  have hhas : (s.mkdir (userDirectoryName t.userId)).hasDir (userDirectoryName t.userId) =
      true := by
    simp
  have hne := serialized_ne_nil C.toCrypto t
  unfold saveTemplate
  rw [wp_bind, wp_serialize, if_neg hne, wp_bind,
    wp_getFilePath encryptionMayFail_of_loadsPlaintext, wp_bind,
    wp_getPlaintextFilePath encryptionMayFail_of_loadsPlaintext, hdir, invoke_bind, wp_encrypt hne]
  refine and_congr ?_ ?_
  · refine forall_congr' fun n => ?_
    rw [if_neg (C.encrypt_ne_nil n _ _ hne), wp_writeAndRename hhas]
    rfl
  · rw [if_pos rfl, wp_bind, wp_getFilePath encryptionMayFail_of_loadsPlaintext, hdir,
      wp_writeAndRename hhas]
    rfl

theorem wp_removeUser {Q : Bool → FileSystem → Prop} :
    (removeUser u).wp (storageEnv C.toCrypto encryptionMayFail) Q s ↔
      Q true (s.removeAll (userDirectoryName u)) := by
  have hrem : (s.mkdir (userDirectoryName u)).removeAll (userDirectoryName u) =
      s.removeAll (userDirectoryName u) := s.removeAll_mkdir (userDirectoryName u)
  unfold removeUser
  rw [wp_bind, wp_getUserDirectory encryptionMayFail_of_loadsPlaintext, invoke_bind,
    wp_reliable rfl]
  simp only [Works, and_imp, forall_eq_apply_imp_iff, forall_eq, FileSystem.hasDir_mkdir,
    decide_true, Bool.true_or, if_true]
  rw [invoke_bind, wp_reliable rfl]
  simp only [Works, forall_const, forall_eq, hrem]
  rfl

theorem wp_wipeIfEmpty {Q : Unit → FileSystem → Prop} (hd : s.hasDir (userDirectoryName u) = true) :
    (wipeIfEmpty u).wp (storageEnv C.toCrypto encryptionMayFail) Q s ↔ Q () (wiped s u) := by
  unfold wipeIfEmpty wiped
  rw [wp_bind, wp_getUserDirectory encryptionMayFail_of_loadsPlaintext,
    FileSystem.mkdir_of_hasDir hd,
    invoke_bind, wp_reliable rfl]
  obtain ⟨l, hl⟩ := Option.isSome_iff_exists.mp ((s.entries_isSome _).trans hd)
  have hloop : ∀ l' : List Text, l'.Perm l →
      ((if !(l'.any namesTemplate) then removeUser u >>= fun _ => pure () else pure () :
        Program StorageI Unit).wp (storageEnv C.toCrypto encryptionMayFail) Q s ↔
      Q () (if l.any namesTemplate then s else s.removeAll (userDirectoryName u))) := by
    intro l' hperm
    rw [hperm.any_eq]
    cases l.any namesTemplate with
    | true => rfl
    | false =>
        rw [Bool.not_false, if_pos rfl, wp_bind, wp_removeUser]
        rfl
  simp only [Works, hl, Option.getD_some]
  constructor
  · intro h
    exact (hloop l (.refl l)).mp (h (some l) s ⟨rfl, l, .refl l, rfl⟩)
  · rintro h r t ⟨rfl, l', hperm, rfl⟩
    exact (hloop l' hperm).mpr h

theorem wp_deleteTemplate {Q : Bool → FileSystem → Prop} :
    (deleteTemplate u f).wp (storageEnv C.toCrypto encryptionMayFail) Q s ↔
      Q true (deleted s u f) := by
  have hdir := s.mkdir_mkdir (userDirectoryName u)
  unfold deleteTemplate
  rw [wp_bind, wp_getFilePath encryptionMayFail_of_loadsPlaintext, wp_bind,
    wp_getPlaintextFilePath encryptionMayFail_of_loadsPlaintext, hdir, wp_bind, wp_removeIfPresent,
      wp_bind,
    wp_removeIfPresent, wp_bind, wp_wipeIfEmpty (by simp)]
  rfl

/-- Loading all templates goes through the files of the directory in some order. -/
theorem wp_loadAllTemplatesForUser_listed {Q : List FaceTemplate → FileSystem → Prop}
    (hQ : ∀ names, (∀ n, n ∈ names ↔ ∃ content,
        (s.mkdir (userDirectoryName u)).fileAt ⟨userDirectoryName u, n⟩ = some content) →
      (loadEntries u (userDirectoryName u) names false [] []).wp
        (storageEnv C.toCrypto encryptionMayFail) Q (s.mkdir (userDirectoryName u))) :
    (loadAllTemplatesForUser u).wp (storageEnv C.toCrypto encryptionMayFail) Q s := by
  have hd : (s.mkdir (userDirectoryName u)).hasDir (userDirectoryName u) = true := by simp
  unfold loadAllTemplatesForUser
  rw [wp_bind, wp_getUserDirectory encryptionMayFail_of_loadsPlaintext, invoke_bind,
    wp_reliable rfl]
  intro r t hr
  obtain ⟨rfl, l, names, hl, hperm, rfl⟩ := works_openDirectory hd hr
  refine hQ names fun n => ?_
  rw [hperm.mem_iff, FileSystem.mem_entries hl]

/-- Loading all templates keeps, for some order of the files, the first template
of each face that loads. -/
theorem wp_loadAllTemplatesForUser {Q : List FaceTemplate → FileSystem → Prop}
    (hQ : ∀ names t, (∀ n, n ∈ names ↔ ∃ content,
      s.fileAt ⟨userDirectoryName u, n⟩ = some content) →
      Cleaned C.toCrypto u (s.mkdir (userDirectoryName u)) t →
      Q (scan templateKey (stored C.toCrypto u · s) (fun _ => False) names []) t) :
    (loadAllTemplatesForUser u).wp (storageEnv C.toCrypto encryptionMayFail) Q s := by
  have hd : (s.mkdir (userDirectoryName u)).hasDir (userDirectoryName u) = true := by simp
  refine wp_loadAllTemplatesForUser_listed fun names hnames => ?_
  refine wp_loadEntries (fun _ => False) encryptionMayFail_of_loads (fun _ => rfl)
    (Cleaned.refl hd) ?_
  intro t ht
  simp only [stored_mkdir, List.nil_append]
  refine hQ names t ?_ ht
  intro n
  rw [hnames, FileSystem.fileAt_mkdir]

end operations

end FaceStorageManager
end FaceHal
