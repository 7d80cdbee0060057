import FaceHal.TemplateSaving
import FaceHal.Transition

/-!
# The template store refines a map

What the store is for: a map from a user and a face to the template last saved
there. The operations of the store, run without file faults and with encryption
available or not at each save, answer as the operations of that map do. The
files that represent a map hold nothing else, so listing a directory finds the
faces of its user and no others.
-/
namespace FaceHal
namespace FaceStorageManager
open FaceTemplateSerializer Program KeyedScan

abbrev TemplateMap : Type := Int32 → Int32 → Option TemplateRecord

/-- Replace one entry. -/
def TemplateMap.set (m : TemplateMap) (u f : Int32) (r : Option TemplateRecord) : TemplateMap :=
  fun v g => if v = u ∧ g = f then r else m v g

/-- Drop the entries of one user. -/
def TemplateMap.drop (m : TemplateMap) (u : Int32) : TemplateMap :=
  fun v g => if v = u then none else m v g

inductive StoreOp where
  | save (t : FaceTemplate)
  | load (userId faceId : Int32)
  | loadAll (userId : Int32)
  | delete (userId faceId : Int32)
  | removeUser (userId : Int32)

inductive StoreAnswer where
  | flag (ok : Bool)
  | template (r : Option TemplateRecord)
  | templates (l : List TemplateRecord)

/-- How the map answers an operation, and the map after it. -/
def mapStep : System TemplateMap (StoreOp × StoreAnswer)
  | m, (.save t, .flag ok), m' => ok = true ∧ m' = m.set t.userId t.faceId (some t.record)
  | m, (.load u f, .template r), m' => r = m u f ∧ m' = m
  | m, (.loadAll u, .templates l), m' =>
      (l.map TemplateRecord.faceId).Nodup ∧ (∀ r, r ∈ l ↔ ∃ f, m u f = some r) ∧ m' = m
  | m, (.delete u f, .flag ok), m' => ok = true ∧ m' = m.set u f none
  | m, (.removeUser u, .flag ok), m' => ok = true ∧ m' = m.drop u
  | _, _, _ => False

/-- One operation of the store without file faults. -/
def storeStep (C : Crypto) : System FileSystem (StoreOp × StoreAnswer)
  | s, (.save t, .flag ok), s' => Run (storageEnv C encryptionMayFail) (saveTemplate t) s ok s'
  | s, (.load u f, .template r), s' => ∃ out a,
      Run (storageEnv C encryptionMayFail) (loadTemplate u f out) s a s' ∧
      r = (outcome a).map FaceTemplate.record
  | s, (.loadAll u, .templates l), s' => ∃ ts,
      Run (storageEnv C encryptionMayFail) (loadAllTemplatesForUser u) s ts s' ∧
      l = ts.map FaceTemplate.record
  | s, (.delete u f, .flag ok), s' =>
      Run (storageEnv C encryptionMayFail) (deleteTemplate u f) s ok s'
  | s, (.removeUser u, .flag ok), s' =>
      Run (storageEnv C encryptionMayFail) (removeUser u) s ok s'
  | _, _, _ => False

/-- Faces have an id, and saved templates the current version and a size that
fits its field. -/
def StoreOp.Valid (C : Crypto) : StoreOp → Prop
  | .save t => t.faceId ≠ -1 ∧ t.version = C.currentVersion ∧ t.templateData.length < 2 ^ 32
  | .load _ f => f ≠ -1
  | .delete _ f => f ≠ -1
  | .loadAll _ => True
  | .removeUser _ => True

/-- The files represent the map: each face loads as its entry, and every file is
one of the two files of a face that has an entry. -/
structure Represents (C : Crypto) (s : FileSystem) (m : TemplateMap) : Prop where
  loads : ∀ u f, (stored C u f s).map FaceTemplate.record = m u f
  files : ∀ p content, s.fileAt p = some content →
    ∃ u f, f ≠ -1 ∧ (p = filePath u f ∨ p = plaintextPath u f) ∧ m u f ≠ none

section operations
variable {C : LawfulCrypto} {s s' : FileSystem} {m : TemplateMap} {u f : Int32}

theorem represents_empty (C : Crypto) : Represents C .empty fun _ _ => none := by
  refine ⟨?_, ?_⟩
  · intro u f
    simp
  · intro p content h
    simp at h

/-- An entry has the ids it is looked up by and the current version. -/
theorem Represents.entry (h : Represents C.toCrypto s m) {r : TemplateRecord}
    (hr : m u f = some r) :
    r.userId = u ∧ r.faceId = f ∧ r.version = C.currentVersion := by
  rw [← h.loads] at hr
  obtain ⟨t, ht, rfl⟩ := Option.map_eq_some_iff.mp hr
  obtain ⟨hu, hf⟩ := stored_ids ht
  exact ⟨hu, hf, stored_version ht⟩

theorem Represents.congr (h : Represents C.toCrypto s m) (hs : ∀ p, s'.fileAt p = s.fileAt p) :
    Represents C.toCrypto s' m := by
  refine ⟨?_, ?_⟩
  · intro u f
    rw [stored_congr _ u f (hs _) (hs _)]
    exact h.loads u f
  · intro p content hp
    rw [hs] at hp
    exact h.files p content hp

theorem Represents.placed (h : Represents C.toCrypto s m) (hf : f ≠ -1) {r : TemplateRecord}
    {data : Bytes} {final stale : Path}
    (hfinal : Assigned u f final stale)
    (hr : (stored C.toCrypto u f (placed s final stale data)).map FaceTemplate.record = some r) :
    Represents C.toCrypto (placed s final stale data) (m.set u f (some r)) := by
  have hpath : final = filePath u f ∨ final = plaintextPath u f := hfinal.imp And.left And.left
  refine ⟨?_, ?_⟩
  · intro v g
    unfold TemplateMap.set
    split_ifs with hvg
    · obtain ⟨rfl, rfl⟩ := hvg
      exact hr
    · rw [stored_placed_ne hfinal data hvg]
      exact h.loads v g
  · intro p content hp
    rw [fileAt_placed _ _ _ hfinal.ne] at hp
    split_ifs at hp with hpf
    · exact ⟨u, f, hf, hpf ▸ hpath, by simp [TemplateMap.set]⟩
    · obtain ⟨v, g, hg, hvg, hm⟩ := h.files p content hp
      refine ⟨v, g, hg, hvg, ?_⟩
      unfold TemplateMap.set
      split_ifs
      · simp
      · exact hm

theorem Represents.deleted (h : Represents C.toCrypto s m) :
    Represents C.toCrypto (deleted s u f) (m.set u f none) := by
  refine ⟨?_, ?_⟩
  · intro v g
    unfold TemplateMap.set
    rw [stored_deleted]
    split_ifs
    · rfl
    · exact h.loads v g
  · intro p content hp
    have hs := fileAt_of_deleted hp
    obtain ⟨v, g, hg, hvg, hm⟩ := h.files p content hs
    refine ⟨v, g, hg, hvg, ?_⟩
    have hname : namesTemplate p.name = true := by
      rcases hvg with rfl | rfl
      · simp [filePath]
      · simp [plaintextPath]
    rw [fileAt_deleted hname] at hp
    split_ifs at hp with hne
    unfold TemplateMap.set
    rw [if_neg]
    · exact hm
    · rintro ⟨rfl, rfl⟩
      exact hne hvg

theorem Represents.removed (h : Represents C.toCrypto s m) :
    Represents C.toCrypto (s.removeAll (userDirectoryName u)) (m.drop u) := by
  refine ⟨?_, ?_⟩
  · intro v g
    unfold TemplateMap.drop
    split_ifs with hv
    · simp [stored, FileSystem.fileAt_removeAll, hv]
    · rw [stored_congr (t := s) _ v g]
      · exact h.loads v g
      · rw [FileSystem.fileAt_removeAll, if_neg (by simpa [userDirectoryName_inj] using hv)]
      · rw [FileSystem.fileAt_removeAll, if_neg (by simpa [userDirectoryName_inj] using hv)]
  · intro p content hp
    rw [FileSystem.fileAt_removeAll] at hp
    split_ifs at hp with hdir
    obtain ⟨v, g, hg, hvg, hm⟩ := h.files p content hp
    refine ⟨v, g, hg, hvg, ?_⟩
    unfold TemplateMap.drop
    rw [if_neg]
    · exact hm
    · rintro rfl
      rcases hvg with rfl | rfl
      · exact hdir rfl
      · exact hdir rfl

/-- Where every file belongs to an entry there is nothing to clean. -/
theorem Represents.cleaned (h : Represents C.toCrypto s m)
    (hc : Cleaned C.toCrypto u (s.mkdir (userDirectoryName u)) s') :
    Represents C.toCrypto s' m := by
  refine h.congr ?_
  intro p
  rcases hc.files p with hp | ⟨hp, hdir, hnone⟩
  · rw [hp, FileSystem.fileAt_mkdir]
  · rw [hp]
    cases hs : s.fileAt p with
    | none => rfl
    | some content =>
        obtain ⟨v, g, hg, hvg, hm⟩ := h.files p content hs
        have hpath : (⟨userDirectoryName u, p.name⟩ : Path) = p := by rw [← hdir]
        rw [← hpath] at hvg
        obtain ⟨rfl, hparse⟩ := parseFaceId_of_path hvg
        rw [stored_mkdir, hparse] at hnone
        have hload := h.loads u g
        rw [hnone] at hload
        exact absurd hload.symm hm

theorem Represents.listed (h : Represents C.toCrypto s m) {names : List Text}
    (hnames : ∀ n, n ∈ names ↔ ∃ content, s.fileAt ⟨userDirectoryName u, n⟩ = some content)
    (r : TemplateRecord) :
    r ∈ (scan templateKey (stored C.toCrypto u · s) (fun _ => False) names []).map
      FaceTemplate.record ↔ ∃ f, m u f = some r := by
  rw [List.mem_map]
  constructor
  · rintro ⟨x, hx, rfl⟩
    obtain ⟨n, -, k, -, hv, -⟩ := mem_scan hx
    refine ⟨k, ?_⟩
    rw [← h.loads, hv]
    rfl
  · rintro ⟨f, hf⟩
    rw [← h.loads] at hf
    obtain ⟨x, hx, rfl⟩ := Option.map_eq_some_iff.mp hf
    refine ⟨x, ?_, rfl⟩
    obtain ⟨n, hn, hkey⟩ : ∃ n ∈ names, templateKey n = some f := by
      obtain ⟨p, hp, content, hc⟩ := exists_file_of_stored hx
      obtain ⟨v, g, hg, hvg, -⟩ := h.files p content hc
      have hpg : v = u ∧ g = f := by
        rcases hp with rfl | rfl
        · rcases hvg with hvg | hvg
          · simpa [eq_comm] using hvg
          · simp at hvg
        · rcases hvg with hvg | hvg
          · simp at hvg
          · simpa [eq_comm] using hvg
      obtain ⟨rfl, rfl⟩ := hpg
      rcases hp with rfl | rfl
      · exact ⟨fileName g, (hnames _).mpr ⟨content, hc⟩, templateKey_of_programName .encrypted hg⟩
      · exact ⟨plaintextFileName g, (hnames _).mpr ⟨content, hc⟩,
          templateKey_of_programName .plaintext hg⟩
    have hcomplete : Complete templateKey (stored C.toCrypto u · s) names []
        (scan templateKey (stored C.toCrypto u · s) (fun _ => False) names []) := by
      rw [complete_scan_iff keyOf_stored (by simp)]
      intro pre n post _ hstuck
      exact hstuck.elim
    rcases hcomplete n hn f x hkey hx with hin | hin
    · cases hin
    · exact hin

/-- One operation of the store is one operation of the map it represents. -/
theorem storeStep_refines {o : StoreOp × StoreAnswer} (hvalid : o.1.Valid C.toCrypto)
    (h : Represents C.toCrypto s m) (hstep : storeStep C.toCrypto s o s') :
    ∃ m', mapStep m o m' ∧ Represents C.toCrypto s' m' := by
  rcases o with ⟨op, ans⟩
  cases op with
  | save t =>
      obtain ⟨hf, hv, hl⟩ := hvalid
      have hrec := decodeFor_serialized hv hl
      cases ans with
      | flag ok =>
          refine hstep.wp (Q := fun ok s' => ∃ m', mapStep m (.save t, .flag ok) m' ∧
            Represents C.toCrypto s' m') (wp_saveTemplate.mpr ⟨?_, ?_⟩)
          · intro n
            refine ⟨_, ⟨rfl, rfl⟩, h.placed hf (.inl ⟨rfl, rfl⟩) ?_⟩
            rw [stored_placed_encrypted, hrec]
          · refine ⟨_, ⟨rfl, rfl⟩, h.placed hf (.inr ⟨rfl, rfl⟩) ?_⟩
            rw [stored_placed_plaintext, hrec]
      | template _ => exact hstep.elim
      | templates _ => exact hstep.elim
  | load u f =>
      cases ans with
      | template r =>
          obtain ⟨out, a, hrun, rfl⟩ := hstep
          refine hrun.wp (Q := fun a s' => ∃ m', mapStep m
            (.load u f, .template ((outcome a).map FaceTemplate.record)) m' ∧
            Represents C.toCrypto s' m') (wp_loadTemplate encryptionMayFail_of_loads ?_)
          intro r hr
          refine ⟨m, ⟨?_, rfl⟩, h.congr fun p => s.fileAt_mkdir _ p⟩
          rw [hr]
          exact h.loads u f
      | flag _ => exact hstep.elim
      | templates _ => exact hstep.elim
  | loadAll u =>
      cases ans with
      | templates l =>
          obtain ⟨ts, hrun, rfl⟩ := hstep
          refine hrun.wp (Q := fun ts s' => ∃ m', mapStep m
            (.loadAll u, .templates (ts.map FaceTemplate.record)) m' ∧
            Represents C.toCrypto s' m') (wp_loadAllTemplatesForUser ?_)
          intro names t hnames hclean
          refine ⟨m, ⟨?_, h.listed hnames, rfl⟩, h.cleaned hclean⟩
          rw [List.map_map]
          exact scan_nodup keyOf_stored names []
      | flag _ => exact hstep.elim
      | template _ => exact hstep.elim
  | delete u f =>
      cases ans with
      | flag ok =>
          refine hstep.wp (Q := fun ok s' => ∃ m', mapStep m (.delete u f, .flag ok) m' ∧
            Represents C.toCrypto s' m') (wp_deleteTemplate.mpr ?_)
          exact ⟨_, ⟨rfl, rfl⟩, h.deleted⟩
      | template _ => exact hstep.elim
      | templates _ => exact hstep.elim
  | removeUser u =>
      cases ans with
      | flag ok =>
          refine hstep.wp (Q := fun ok s' => ∃ m', mapStep m (.removeUser u, .flag ok) m' ∧
            Represents C.toCrypto s' m') (wp_removeUser.mpr ?_)
          exact ⟨_, ⟨rfl, rfl⟩, h.removed⟩
      | template _ => exact hstep.elim
      | templates _ => exact hstep.elim

end operations

/-- Every run of the store answers as the map does. -/
theorem store_refines_map (C : LawfulCrypto) {ops : List (StoreOp × StoreAnswer)} {s : FileSystem}
    (hrun : Runs (guarded (fun _ o => StoreOp.Valid C.toCrypto o.1) (storeStep C.toCrypto))
      .empty ops s) :
    ∃ m, Runs mapStep (fun _ _ => none) ops m ∧ Represents C.toCrypto s m := by
  refine hrun.simulate ?_ (represents_empty C.toCrypto)
  rintro s o s' m hrep ⟨hvalid, hstep⟩
  exact storeStep_refines hvalid hrep hstep

/-- A save and a load, in the run in which every call succeeds. -/
theorem store_refines_saveLoad : ∃ s m,
    Runs mapStep (fun _ _ => none) [(.save sampleTemplate, .flag true),
      (.load 0 2, .template (some sampleTemplate.record))] m ∧
    Represents toyCrypto.toCrypto s m := by
  have hsave := run_answer toyCrypto.toCrypto encryptionMayFail_ne_always 0
    (saveTemplate sampleTemplate) .empty
  have hok : ((saveTemplate sampleTemplate).eval (answer toyCrypto.toCrypto 0) .empty).1 =
      true := by
    decide +kernel
  have hload := run_answer toyCrypto.toCrypto encryptionMayFail_ne_always 0
    (loadTemplate 0 2 freshTemplate)
    ((saveTemplate sampleTemplate).eval (answer toyCrypto.toCrypto 0) .empty).2
  have hrec : some sampleTemplate.record = (outcome ((loadTemplate 0 2 freshTemplate).eval
      (answer toyCrypto.toCrypto 0) ((saveTemplate sampleTemplate).eval
        (answer toyCrypto.toCrypto 0) .empty).2).1).map FaceTemplate.record := by
    decide +kernel
  rw [hok] at hsave
  have hvalid : StoreOp.Valid toyCrypto.toCrypto (.save sampleTemplate) := by
    refine ⟨?_, ?_, ?_⟩ <;> decide
  have hface : StoreOp.Valid toyCrypto.toCrypto (.load 0 2) := show (2 : Int32) ≠ -1 by decide
  exact ⟨_, store_refines_map toyCrypto (.cons ⟨hvalid, hsave⟩
    (.single ⟨hface, freshTemplate, _, hload, hrec⟩))⟩

end FaceStorageManager
end FaceHal
