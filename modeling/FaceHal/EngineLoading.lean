import FaceHal.DeletionScope
import FaceHal.ReenrollmentPrompt

/-!
# What loading for the engine leaves

`loadTemplates` of the callbacks removes what it does not return: the loop over the
directory cleans the files of faces that do not load, and the loop over the
templates deletes those of another size. The files of a face that it returns stay
as they are. Files of the id -1 are not looked at.
-/
namespace FaceHal

theorem StorageCall.Loads.spares {c : StorageCall} (h : c.Loads) {p : Path} : c.Spares p := by
  cases c with
  | openTruncated _ | write _ _ | close _ | unlink _ | remove _ => exact h.elim
  | rename _ _ | removeAll _ => exact h.elim
  | _ => trivial

namespace FaceStorageManager
open FaceTemplateSerializer Program KeyedScan

section sweeping
variable {C : Crypto} {fault : StorageCall → Fault} {s₀ s : FileSystem} {u : Int32}

/-- Every entry of a face that does not load is still to come or gone. -/
def Swept (C : Crypto) (u : Int32) (s₀ : FileSystem) (names : List Text) (s : FileSystem) : Prop :=
  ∀ n f, templateKey n = some f → stored C u f s₀ = none →
    n ∈ names ∨ s.fileAt ⟨userDirectoryName u, n⟩ = none

theorem Swept.tail {n : Text} {rest : List Text} (h : Swept C u s₀ (n :: rest) s)
    (hn : ∀ f, templateKey n = some f → stored C u f s₀ = none →
      s.fileAt ⟨userDirectoryName u, n⟩ = none) : Swept C u s₀ rest s := by
  intro m f hk hnone
  rcases h m f hk hnone with hmem | hgone
  · rcases List.mem_cons.mp hmem with rfl | hmem
    · exact .inr (hn f hk hnone)
    · exact .inl hmem
  · exact .inr hgone

/-- The loop removes every entry of a face that does not load. -/
theorem wp_loadEntries_swept (h : ∀ c : StorageCall, c.Loads → fault c = .never)
    (hr : ∀ p, fault (.remove p) = .never) {names : List Text} {seen : List Int32}
    {templates : List FaceTemplate} (hs : Cleaned C u s₀ s) (hswept : Swept C u s₀ names s)
    (hseen : ∀ f ∈ seen, stored C u f s₀ ≠ none) :
    (loadEntries u (userDirectoryName u) names false seen templates).wp (storageEnv C fault)
      (fun _ t => Swept C u s₀ [] t) s := by
  induction names generalizing s seen templates with
  | nil => exact hswept
  | cons n rest ih =>
      by_cases hskip : ∀ k, templateKey n = some k → k ∈ seen
      · rw [loadEntries_skip hskip]
        refine ih hs (hswept.tail ?_) hseen
        intro f hk hnone
        exact absurd hnone (hseen f (hskip f hk))
      push Not at hskip
      obtain ⟨f, hk, hnew⟩ := hskip
      rw [loadEntries_look hk hnew, wp_bind]
      refine wp_loadTemplate h ?_
      rintro ⟨ok, tmpl⟩ hok
      rw [FileSystem.mkdir_of_hasDir hs.hasDir]
      rw [hs.stored] at hok
      cases ok with
      | true =>
          have hloads : stored C u f s₀ ≠ none := by
            rw [← hok]
            exact nofun
          refine ih hs (hswept.tail ?_) ?_
          · intro g hk' hnone
            obtain rfl := Option.some.inj (hk.symm.trans hk')
            exact absurd hnone hloads
          · intro g hg
            rcases List.mem_cons.mp hg with rfl | hg
            · exact hloads
            · exact hseen g hg
      | false =>
          have hnone : stored C u f s₀ = none := hok.symm
          rw [if_neg Bool.false_ne_true, invoke_bind, wp_works (hr _)]
          rintro removed t ⟨rfl, rfl⟩
          have hparse : stored C u (parseFaceId n) s₀ = none := by
            rw [(templateKey_eq_some.mp hk).2.1]
            exact hnone
          refine ih (hs.erase hparse) ?_ hseen
          intro m g hkm hg
          rcases hswept m g hkm hg with hmem | hgone
          · rcases List.mem_cons.mp hmem with rfl | hmem
            · exact .inr (FileSystem.fileAt_erase_self ..)
            · exact .inl hmem
          · refine .inr ?_
            rw [FileSystem.fileAt_erase, hgone, ite_self]

end sweeping

section loading
variable {C : LawfulCrypto} {s t : FileSystem} {u f : Int32}

theorem wp_loadAll_swept : (loadAllTemplatesForUser u).wp (storageEnv C.toCrypto encryptionMayFail)
    (fun _ t => Swept C.toCrypto u (s.mkdir (userDirectoryName u)) [] t) s := by
  have hd : (s.mkdir (userDirectoryName u)).hasDir (userDirectoryName u) = true := by simp
  refine wp_loadAllTemplatesForUser_listed fun names hnames => ?_
  refine wp_loadEntries_swept encryptionMayFail_of_loads (fun _ => rfl) (Cleaned.refl hd) ?_ nofun
  intro n f _ _
  by_cases hmem : n ∈ names
  · exact .inl hmem
  · refine .inr ?_
    rw [hnames] at hmem
    by_contra hpresent
    exact hmem (Option.ne_none_iff_exists'.mp hpresent)

/-- The loop removes entries of a face only. -/
theorem untouched_loadEntries {p : Path} (hp : parseFaceId p.name = -1) (names : List Text)
    (failed : Bool) (seen : List Int32) (templates : List FaceTemplate) :
    (loadEntries u (userDirectoryName u) names failed seen templates).Issues
      (StorageCall.Spares p) (fun _ => True) := by
  induction names generalizing failed seen templates with
  | nil => trivial
  | cons n rest ih =>
      unfold loadEntries
      split_ifs with hfailed hlook
      · trivial
      · dsimp only
        split_ifs
        · exact ih ..
        · have hload : (loadTemplate u (parseFaceId n) freshTemplate).Issues
              (StorageCall.Spares p) (fun _ => True) :=
            (uses_loadTemplate u _ _).issues.mono fun c hc => hc.spares
          refine issues_bind hload ?_
          rintro ⟨ok, tmpl⟩ -
          cases ok with
          | true => exact ih ..
          | false =>
              refine ⟨?_, fun _ => ih ..⟩
              rintro rfl
              simp [hp] at hlook
      · exact ih ..

theorem wp_loadAll_minusOne : (loadAllTemplatesForUser u).wp
    (storageEnv C.toCrypto encryptionMayFail)
    (fun _ t => ∀ p : Path, parseFaceId p.name = -1 → t.fileAt p = s.fileAt p) s := by
  have huntouched : ∀ p : Path, parseFaceId p.name = -1 →
      (loadAllTemplatesForUser u).Issues (StorageCall.Spares p) (fun _ => True) := by
    intro p hp
    refine issues_bind (untouched_getUserDirectory p) ?_
    rintro _ rfl
    refine ⟨trivial, fun names => ?_⟩
    cases names with
    | none => trivial
    | some names => exact untouched_loadEntries hp names false [] []
  refine wp_iff_run.mpr ?_
  intro templates t hrun p hp
  exact (hrun.wp (wp_untouched (huntouched p hp))).2

/-- The files of a face have names of a template of this face. -/
theorem programName_of_path {p : Path} (h : p = filePath u f ∨ p = plaintextPath u f) :
    namesTemplate p.name = true ∧ parseFaceId p.name = f := by
  rcases h with rfl | rfl
  · exact (ProgramName.encrypted (f := f)).parse
  · exact (ProgramName.plaintext (f := f)).parse

/-- The face is one that loading returns. -/
def Returned (C : Crypto) (u f : Int32) (s : FileSystem) : Prop :=
  ∃ x, stored C u f s = some x ∧ ¬ FaceStorageCallbacks.Outdated C x

/-- The files of the faces after loading: those of a face that is returned stay, those of
another are gone. -/
structure Settled (C : Crypto) (u : Int32) (s t : FileSystem) : Prop where
  keeps : ∀ f p, p = filePath u f ∨ p = plaintextPath u f → f = -1 ∨ Returned C u f s →
    t.fileAt p = s.fileAt p
  drops : ∀ f p, p = filePath u f ∨ p = plaintextPath u f → f ≠ -1 → ¬ Returned C u f s →
    t.fileAt p = none

end loading
end FaceStorageManager

namespace FaceStorageCallbacks
open FaceStorageManager Program

section dropping
variable {C : LawfulCrypto} {s t : FileSystem} {u : Int32}

/-- The file system after the outdated templates were deleted. -/
def dropped (C : Crypto) (u : Int32) (templates : List FaceTemplate) (s : FileSystem) :
    FileSystem :=
  templates.foldl (fun s x => if Outdated C x then deleted s u x.faceId else s) s

theorem fileAt_dropped_none {templates : List FaceTemplate} {p : Path} (h : s.fileAt p = none) :
    (dropped C.toCrypto u templates s).fileAt p = none := by
  induction templates generalizing s with
  | nil => exact h
  | cons y rest ih =>
      rw [dropped, List.foldl_cons]
      refine ih ?_
      split_ifs
      · by_contra hpresent
        obtain ⟨content, hcontent⟩ := Option.ne_none_iff_exists'.mp hpresent
        rw [fileAt_of_deleted hcontent] at h
        cases h
      · exact h

theorem fileAt_dropped_outdated {templates : List FaceTemplate} {p : Path}
    (h : namesTemplate p.name = true) {x : FaceTemplate} (hx : x ∈ templates)
    (ho : Outdated C.toCrypto x) (hp : p = filePath u x.faceId ∨ p = plaintextPath u x.faceId) :
    (dropped C.toCrypto u templates s).fileAt p = none := by
  induction templates generalizing s with
  | nil => cases hx
  | cons y rest ih =>
      rw [dropped, List.foldl_cons]
      rcases List.mem_cons.mp hx with rfl | hx
      · refine fileAt_dropped_none ?_
        rw [if_pos ho, fileAt_deleted h, if_pos hp]
      · exact ih hx

theorem fileAt_dropped_other {templates : List FaceTemplate} {p : Path}
    (h : namesTemplate p.name = true) (hp : ∀ x ∈ templates, Outdated C.toCrypto x →
      ¬ (p = filePath u x.faceId ∨ p = plaintextPath u x.faceId)) :
    (dropped C.toCrypto u templates s).fileAt p = s.fileAt p := by
  induction templates generalizing s with
  | nil => rfl
  | cons y rest ih =>
      rw [dropped, List.foldl_cons]
      refine (ih fun x hx => hp x (List.mem_cons_of_mem y hx)).trans ?_
      split_ifs with ho
      · rw [fileAt_deleted h, if_neg (hp y List.mem_cons_self ho)]
      · rfl

theorem wp_keepCurrent {templates : List FaceTemplate} {result : List (Int32 × Bytes)}
    {Q : List (Int32 × Bytes) → FileSystem → Prop}
    (hQ : Q (result ++ currentEntries C.toCrypto templates) (dropped C.toCrypto u templates s)) :
    (keepCurrent u templates result).wp (storageEnv C.toCrypto encryptionMayFail) Q s := by
  induction templates generalizing s result with
  | nil =>
      rw [currentEntries, List.filter_nil, List.map_nil, List.append_nil] at hQ
      exact hQ
  | cons tmpl rest ih =>
      rw [keepCurrent, invoke_bind, wp_reliable rfl]
      rintro version t ⟨rfl, rfl⟩
      split_ifs with ho
      · have ho : Outdated C.toCrypto tmpl := ho
        rw [wp_bind, wp_deleteTemplate]
        refine ih ?_
        rwa [currentEntries, List.filter_cons_of_neg (by simpa using ho), dropped,
          List.foldl_cons, if_pos ho] at hQ
      · have ho : ¬ Outdated C.toCrypto tmpl := ho
        refine ih ?_
        rw [currentEntries, List.filter_cons_of_pos (by simpa using ho), dropped,
          List.foldl_cons, if_neg ho] at hQ
        rwa [List.append_assoc]

theorem wp_loadTemplates_settled : (loadTemplates u).wp (storageEnv C.toCrypto encryptionMayFail)
    (fun r t => (∀ entry, entry ∈ r ↔ ∃ x, x.faceId ≠ -1 ∧
        stored C.toCrypto u x.faceId s = some x ∧ ¬ Outdated C.toCrypto x ∧
        entry = (x.faceId, x.templateData)) ∧ Settled C.toCrypto u s t) s := by
  unfold loadTemplates
  rw [wp_bind]
  have hload : (loadAllTemplatesForUser u).wp (storageEnv C.toCrypto encryptionMayFail)
      (fun templates t => (∀ x, x ∈ templates ↔
        x.faceId ≠ -1 ∧ stored C.toCrypto u x.faceId s = some x) ∧
        Cleaned C.toCrypto u (s.mkdir (userDirectoryName u)) t) s :=
    wp_loadAllTemplatesForUser fun names t hnames hcleaned => ⟨mem_scan_names hnames, hcleaned⟩
  refine wp_mono (wp_and hload (wp_and wp_loadAll_swept wp_loadAll_minusOne)) ?_
  rintro templates t ⟨⟨hmem, hcleaned⟩, hswept, hminus⟩
  refine wp_keepCurrent ⟨?_, ?_, ?_⟩
  · intro entry
    rw [List.nil_append]
    constructor
    · intro hentry
      obtain ⟨x, hx, rfl⟩ := List.mem_map.mp hentry
      obtain ⟨hx, ho⟩ := List.mem_filter.mp hx
      obtain ⟨hne, hstored⟩ := (hmem x).mp hx
      exact ⟨x, hne, hstored, by simpa using ho, rfl⟩
    · rintro ⟨x, hne, hstored, ho, rfl⟩
      refine List.mem_map.mpr ⟨x, List.mem_filter.mpr ⟨(hmem x).mpr ⟨hne, hstored⟩, ?_⟩, rfl⟩
      simpa using ho
  · intro f p hp hkept
    obtain ⟨hname, hface⟩ := programName_of_path hp
    rw [fileAt_dropped_other hname]
    · rcases hkept with rfl | ⟨x, hx, ho⟩
      · exact hminus p hface
      · rcases hcleaned.files p with hsame | ⟨-, -, hnone⟩
        · rw [hsame, FileSystem.fileAt_mkdir]
        · rw [stored_mkdir, hface, hx] at hnone
          cases hnone
    · intro y hy hold hpath
      obtain ⟨hne, hstored⟩ := (hmem y).mp hy
      obtain rfl : y.faceId = f := (programName_of_path hpath).2.symm.trans hface
      rcases hkept with hminusOne | ⟨x, hx, ho⟩
      · exact hne hminusOne
      · obtain rfl := Option.some.inj (hstored.symm.trans hx)
        exact ho hold
  · intro f p hp hne hdropped
    obtain ⟨hname, hface⟩ := programName_of_path hp
    cases hx : stored C.toCrypto u f s with
    | none =>
        refine fileAt_dropped_none ?_
        have hpath : (⟨userDirectoryName u, p.name⟩ : Path) = p := by
          rcases hp with rfl | rfl <;> rfl
        have hkey : templateKey p.name = some f := templateKey_eq_some.mpr ⟨hname, hface, hne⟩
        have hgone := (hswept p.name f hkey (by rw [stored_mkdir, hx])).resolve_left nofun
        rwa [hpath] at hgone
    | some x =>
        have hids := (stored_ids hx).2
        refine fileAt_dropped_outdated hname (x := x) ?_ ?_ ?_
        · rw [hmem, hids]
          exact ⟨hne, hx⟩
        · by_contra ho
          exact hdropped ⟨x, hx, ho⟩
        · rwa [hids]

end dropping
end FaceStorageCallbacks
end FaceHal
