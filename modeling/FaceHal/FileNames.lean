import FaceHal.FaceStorageManager

/-!
# The names of template files

The store tells users, faces and the two kinds of files apart by name alone. The
names are injective in what they print, the temporary files never collide with
the files they are renamed to, and every name the store produces is parsed back
to the face it was produced for.
-/
namespace FaceHal
namespace FaceStorageManager

def filePath (userId faceId : Int32) : Path := ⟨userDirectoryName userId, fileName faceId⟩

def plaintextPath (userId faceId : Int32) : Path :=
  ⟨userDirectoryName userId, plaintextFileName faceId⟩

variable {u v f g : Int32}

theorem userDirectoryName_inj : userDirectoryName u = userDirectoryName v ↔ u = v := by
  constructor
  · intro h
    have hd : toDecimal u ++ [] = toDecimal v ++ [] := by
      simpa only [List.append_nil] using List.append_cancel_left h
    exact (toDecimal_append_inj (by simp) (by simp) hd).1
  · rintro rfl
    rfl

/-- Two names that start like a template name and continue without a digit agree
only if the face and the rest agree. -/
theorem face_append_inj {r s : Text} (hr : ∀ c ∈ r.head?, c.isDigit = false)
    (hs : ∀ c ∈ s.head?, c.isDigit = false)
    (h : "face_".toList ++ toDecimal f ++ r = "face_".toList ++ toDecimal g ++ s) :
    f = g ∧ r = s := by
  rw [List.append_assoc, List.append_assoc] at h
  exact toDecimal_append_inj hr hs (List.append_cancel_left h)

@[simp] theorem fileName_inj : fileName f = fileName g ↔ f = g := by
  constructor
  · intro h
    exact (face_append_inj (by simp) (by simp) h).1
  · rintro rfl
    rfl

@[simp] theorem plaintextFileName_inj : plaintextFileName f = plaintextFileName g ↔ f = g := by
  constructor
  · intro h
    exact (face_append_inj (by simp) (by simp) h).1
  · rintro rfl
    rfl

@[simp] theorem fileName_ne_plaintext : fileName f ≠ plaintextFileName g := by
  intro h
  have hs := (face_append_inj (by simp) (by simp) h).2
  revert hs
  decide

@[simp] theorem filePath_inj : filePath u f = filePath v g ↔ u = v ∧ f = g := by
  simp [filePath, userDirectoryName_inj]

@[simp] theorem plaintextPath_inj : plaintextPath u f = plaintextPath v g ↔ u = v ∧ f = g := by
  simp [plaintextPath, userDirectoryName_inj]

@[simp] theorem filePath_ne_plaintext : filePath u f ≠ plaintextPath v g := by
  simp [filePath, plaintextPath]

@[simp] theorem plaintext_ne_filePath : plaintextPath u f ≠ filePath v g :=
  filePath_ne_plaintext.symm

@[simp] theorem filePath_dir : (filePath u f).dir = userDirectoryName u := rfl
@[simp] theorem plaintextPath_dir : (plaintextPath u f).dir = userDirectoryName u := rfl
@[simp] theorem tempPath_dir (p : Path) : (tempPath p).dir = p.dir := rfl

theorem append_tmp_ne {n m : Text} : n ++ ".tmp".toList ≠ m ++ ".dat".toList := by
  intro h
  have hl := congrArg List.getLast? h
  rw [List.getLast?_append_of_ne_nil _ (by decide),
    List.getLast?_append_of_ne_nil _ (by decide)] at hl
  revert hl
  decide

theorem plaintextFileName_eq : plaintextFileName f =
    "face_".toList ++ toDecimal f ++ "_without_encryption".toList ++ ".dat".toList :=
  (List.append_assoc ("face_".toList ++ toDecimal f) "_without_encryption".toList
    ".dat".toList).symm

@[simp] theorem filePath_ne_temp (p : Path) : filePath u f ≠ tempPath p := by
  intro h
  exact append_tmp_ne (congrArg Path.name h).symm

@[simp] theorem plaintextPath_ne_temp (p : Path) : plaintextPath u f ≠ tempPath p := by
  intro h
  have hn := (congrArg Path.name h).symm
  rw [plaintextPath, plaintextFileName_eq] at hn
  exact append_tmp_ne hn

/-- Both branches of the parser read the number after `face_`. -/
theorem parseFaceId_append {rest : Text} (h : ∀ c ∈ rest.head?, c.isDigit = false) :
    parseFaceId ("face_".toList ++ toDecimal f ++ rest) = f := by
  unfold parseFaceId
  split_ifs
  all_goals
    rw [List.append_assoc, sscanf_toDecimal f _ _ h, Option.getD_some]

theorem namesTemplate_append {rest : Text} (h : ".dat".toList <:+: rest) :
    namesTemplate ("face_".toList ++ toDecimal f ++ rest) = true := by
  unfold namesTemplate
  rw [Bool.and_eq_true]
  refine ⟨?_, ?_⟩
  · rw [List.append_assoc]
    simp
  · exact decide_eq_true (h.trans (List.suffix_append _ _).isInfix)

@[simp] theorem parseFaceId_fileName : parseFaceId (fileName f) = f :=
  parseFaceId_append (by simp)

@[simp] theorem parseFaceId_plaintext : parseFaceId (plaintextFileName f) = f :=
  parseFaceId_append (by simp)

@[simp] theorem namesTemplate_fileName : namesTemplate (fileName f) = true :=
  namesTemplate_append (by decide)

@[simp] theorem namesTemplate_plaintext : namesTemplate (plaintextFileName f) = true :=
  namesTemplate_append (by decide)

/-- Whichever template file has the name of an entry, the entry is parsed to its face. -/
theorem parseFaceId_of_path {n : Text} (h : (⟨userDirectoryName v, n⟩ : Path) = filePath u f ∨
    (⟨userDirectoryName v, n⟩ : Path) = plaintextPath u f) : v = u ∧ parseFaceId n = f := by
  rcases h with h | h
  · obtain ⟨hd, hn⟩ := Path.mk.inj h
    exact ⟨userDirectoryName_inj.mp hd, by rw [hn, parseFaceId_fileName]⟩
  · obtain ⟨hd, hn⟩ := Path.mk.inj h
    exact ⟨userDirectoryName_inj.mp hd, by rw [hn, parseFaceId_plaintext]⟩

/-- A name this program gives to a file: one of the two kinds or its temporary. -/
inductive ProgramName (f : Int32) : Text → Prop
  | encrypted : ProgramName f (fileName f)
  | plaintext : ProgramName f (plaintextFileName f)
  | encryptedTemp : ProgramName f (fileName f ++ ".tmp".toList)
  | plaintextTemp : ProgramName f (plaintextFileName f ++ ".tmp".toList)

theorem ProgramName.parse {n : Text} (h : ProgramName f n) :
    namesTemplate n = true ∧ parseFaceId n = f := by
  cases h with
  | encrypted => simp
  | plaintext => simp
  | encryptedTemp =>
      have h : fileName f ++ ".tmp".toList =
          "face_".toList ++ toDecimal f ++ (".dat".toList ++ ".tmp".toList) :=
        List.append_assoc ..
      rw [h]
      exact ⟨namesTemplate_append (by decide), parseFaceId_append (by simp)⟩
  | plaintextTemp =>
      have h : plaintextFileName f ++ ".tmp".toList =
          "face_".toList ++ toDecimal f ++ ("_without_encryption.dat".toList ++ ".tmp".toList) :=
        List.append_assoc ..
      rw [h]
      exact ⟨namesTemplate_append (by decide), parseFaceId_append (by simp)⟩

end FaceStorageManager
end FaceHal
