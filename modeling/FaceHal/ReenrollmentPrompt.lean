import FaceHal.FaceEngineStub
import FaceHal.TemplateFormat

/-!
# The prompt to enrol again

`loadTemplates` sets a vendor code when it drops a template that is outdated.
The version is tested twice on the way: the parser already rejects every version
but the current one, so the test of the callback only ever sees current templates
and what is left of it is the test of the size. A template of another version is
cleaned away without the code.
-/
namespace FaceHal

/-- The process-wide vendor code. -/
structure VendorStateManager where
  currentVendorCode : Int32
deriving DecidableEq, Repr

namespace VendorStateManager

def setVendorCode (_ : VendorStateManager) (code : Int32) : VendorStateManager := ⟨code⟩

def getVendorCode (m : VendorStateManager) : Int32 := m.currentVendorCode

end VendorStateManager

namespace FaceStorageCallbacks
open FaceStorageManager FaceTemplateSerializer Program KeyedScan

/-- The loop of `loadTemplates` with the vendor code. -/
def keepCurrentReporting (userId : Int32) : List FaceTemplate → List (Int32 × Bytes) →
    VendorStateManager → Program StorageI (List (Int32 × Bytes) × VendorStateManager)
  | [], result, manager => return (result, manager)
  | tmpl :: rest, result, manager => do
      let version ← invoke .currentVersion
      if tmpl.version ≠ version ∨ tmpl.templateData.length ≠ embeddingSize then
        let _ ← FaceStorageManager.deleteTemplate userId tmpl.faceId
        keepCurrentReporting userId rest result
          (manager.setVendorCode VendorCode.requireReenrollment)
      else
        keepCurrentReporting userId rest (result ++ [(tmpl.faceId, tmpl.templateData)]) manager

def loadTemplatesReporting (userId : Int32) (manager : VendorStateManager) :
    Program StorageI (List (Int32 × Bytes) × VendorStateManager) := do
  keepCurrentReporting userId (← FaceStorageManager.loadAllTemplatesForUser userId) [] manager

/-- Without the vendor code it is the loop that the engine uses. -/
theorem fst_keepCurrentReporting (userId : Int32) (templates : List FaceTemplate)
    (result : List (Int32 × Bytes)) (manager : VendorStateManager) :
    Prod.fst <$> keepCurrentReporting userId templates result manager =
      keepCurrent userId templates result := by
  induction templates generalizing result manager with
  | nil => rfl
  | cons tmpl rest ih =>
      rw [keepCurrentReporting, keepCurrent, map_bind]
      refine congrArg _ ?_
      funext version
      split_ifs
      · rw [map_bind]
        exact congrArg _ (funext fun _ => ih _ _)
      · exact ih _ _

theorem fst_loadTemplatesReporting (userId : Int32) (manager : VendorStateManager) :
    Prod.fst <$> loadTemplatesReporting userId manager = loadTemplates userId := by
  unfold loadTemplatesReporting loadTemplates
  rw [map_bind]
  exact congrArg _ (funext fun templates => fst_keepCurrentReporting userId templates [] manager)

/-- Another version, or not the size of an embedding. -/
def Outdated (C : Crypto) (t : FaceTemplate) : Prop :=
  t.version ≠ C.currentVersion ∨ t.templateData.length ≠ embeddingSize

instance (C : Crypto) : DecidablePred (Outdated C) :=
  fun _ => inferInstanceAs (Decidable (_ ∨ _))

/-- An authentic template in a file of its user and face that loading examines:
the encrypted file, or the plaintext file when the encrypted one does not load. -/
structure Examined (C : Crypto) (u : Int32) (s : FileSystem) (t : FaceTemplate) : Prop where
  userId : t.userId = u
  faceId : t.faceId ≠ -1
  size : t.templateData.length < 2 ^ 32
  file : (∃ content, s.fileAt (filePath u t.faceId) = some content ∧ content ≠ [] ∧
      C.decrypt u content = serialized C t) ∨
    (s.fileAt (filePath u t.faceId)).bind (decodeEncrypted C u t.faceId) = none ∧
      s.fileAt (plaintextPath u t.faceId) = some (serialized C t)

section examined
variable {C : LawfulCrypto} {u f : Int32} {s : FileSystem} {t : FaceTemplate}

theorem stored_of_examined (h : Examined C.toCrypto u s t) (hv : t.version = C.currentVersion) :
    ∃ x, stored C.toCrypto u t.faceId s = some x ∧ x.record = t.record := by
  obtain ⟨rfl, -, hsize, hfile⟩ := h
  obtain ⟨x, hx, hrecord⟩ := Option.map_eq_some_iff.mp (decodeFor_serialized (C := C) hv hsize)
  refine ⟨x, ?_, hrecord⟩
  unfold stored
  rcases hfile with ⟨content, hc, hne, hplain⟩ | ⟨hmiss, hp⟩
  · rw [hc, Option.bind_some, decodeEncrypted, if_neg hne, hplain, hx, Option.some_or]
  · rw [hmiss, hp, Option.bind_some, hx, Option.none_or]

theorem examined_of_stored (hf : f ≠ -1) (h : stored C.toCrypto u f s = some t) :
    Examined C.toCrypto u s t := by
  obtain ⟨data, hdata⟩ := decoded_of_stored h
  obtain ⟨hdecode, rfl, rfl⟩ := decodeFor_ids hdata
  refine ⟨rfl, hf, length_of_decode hdecode, ?_⟩
  unfold stored at h
  rcases Option.or_eq_some_iff.mp h with he | ⟨hnone, hp⟩
  · obtain ⟨content, hc, hd⟩ := Option.bind_eq_some_iff.mp he
    unfold decodeEncrypted at hd
    split_ifs at hd with hne
    exact .inl ⟨content, hc, hne, (serialized_of_decode (decodeFor_ids hd).1).symm⟩
  · obtain ⟨content, hc, hd⟩ := Option.bind_eq_some_iff.mp hp
    exact .inr ⟨hnone, by rw [hc, serialized_of_decode (decodeFor_ids hd).1]⟩

end examined

/-- The entries of the templates that are not outdated. -/
def currentEntries (C : Crypto) (templates : List FaceTemplate) : List (Int32 × Bytes) :=
  (templates.filter fun x => ¬ Outdated C x).map fun x => (x.faceId, x.templateData)

/-- The code after the loop. -/
def reported (C : Crypto) (templates : List FaceTemplate) (manager : VendorStateManager) :
    VendorStateManager :=
  templates.foldl (fun m x =>
    if Outdated C x then m.setVendorCode VendorCode.requireReenrollment else m) manager

theorem getVendorCode_reported (C : Crypto) (templates : List FaceTemplate)
    (manager : VendorStateManager) :
    (reported C templates manager).getVendorCode = VendorCode.requireReenrollment ↔
      (∃ x ∈ templates, Outdated C x) ∨
        manager.getVendorCode = VendorCode.requireReenrollment := by
  induction templates generalizing manager with
  | nil => simp [reported]
  | cons tmpl rest ih =>
      rw [reported, List.foldl_cons, ← reported, ih]
      by_cases ho : Outdated C tmpl
      · simp [ho, VendorStateManager.setVendorCode, VendorStateManager.getVendorCode]
      · simp [ho]

section rules
variable {C : LawfulCrypto} {u : Int32} {s : FileSystem}

theorem wp_keepCurrentReporting {templates : List FaceTemplate} {result : List (Int32 × Bytes)}
    {manager : VendorStateManager}
    {Q : List (Int32 × Bytes) × VendorStateManager → FileSystem → Prop}
    (hQ : ∀ t, Q (result ++ currentEntries C.toCrypto templates,
      reported C.toCrypto templates manager) t) :
    (keepCurrentReporting u templates result manager).wp
      (storageEnv C.toCrypto encryptionMayFail) Q s := by
  induction templates generalizing s result manager with
  | nil =>
      have hend := hQ s
      rw [currentEntries, List.filter_nil, List.map_nil, List.append_nil] at hend
      exact hend
  | cons tmpl rest ih =>
      rw [keepCurrentReporting, invoke_bind, wp_reliable rfl]
      rintro version t ⟨rfl, rfl⟩
      split_ifs with ho
      · have ho : Outdated C.toCrypto tmpl := ho
        rw [wp_bind, wp_deleteTemplate]
        refine ih ?_
        intro x
        have hend := hQ x
        rwa [currentEntries, List.filter_cons_of_neg (by simpa using ho), reported,
          List.foldl_cons, if_pos ho] at hend
      · have ho : ¬ Outdated C.toCrypto tmpl := ho
        refine ih ?_
        intro x
        have hend := hQ x
        rw [currentEntries, List.filter_cons_of_pos (by simpa using ho), reported,
          List.foldl_cons, if_neg ho] at hend
        rwa [List.append_assoc]

/-- The scan of the names keeps what loads, one template of each face. -/
theorem mem_scan_names {names : List Text} (hnames : ∀ n, n ∈ names ↔ ∃ content,
    s.fileAt ⟨userDirectoryName u, n⟩ = some content) (x : FaceTemplate) :
    x ∈ scan templateKey (stored C.toCrypto u · s) (fun _ => False) names [] ↔
      x.faceId ≠ -1 ∧ stored C.toCrypto u x.faceId s = some x := by
  have hkey : ∀ f x, stored C.toCrypto u f s = some x → x.faceId = f :=
    fun f x hx => (stored_ids hx).2
  constructor
  · intro hx
    obtain ⟨n, -, f, hk, hf, -⟩ := mem_scan hx
    obtain rfl := hkey f x hf
    exact ⟨(templateKey_eq_some.mp hk).2.2, hf⟩
  · rintro ⟨hne, hx⟩
    have hcomplete : Complete templateKey (stored C.toCrypto u · s) names []
        (scan templateKey (stored C.toCrypto u · s) (fun _ => False) names []) :=
      (complete_scan_iff hkey (by simp)).mpr fun _ _ _ _ hst => hst.elim
    obtain ⟨p, hp, content, hc⟩ := exists_file_of_stored hx
    have hname : ProgramName x.faceId p.name ∧ p.dir = userDirectoryName u := by
      rcases hp with rfl | rfl
      · exact ⟨.encrypted, rfl⟩
      · exact ⟨.plaintext, rfl⟩
    have hmem : p.name ∈ names := (hnames p.name).mpr ⟨content, by rw [← hname.2]; exact hc⟩
    rcases hcomplete p.name hmem x.faceId x (templateKey_of_programName hname.1 hne) hx with
      hin | hin
    · cases hin
    · exact hin

/-- The templates of the loop are those that load, one of each face. -/
theorem wp_loadTemplatesReporting {manager : VendorStateManager}
    {Q : List (Int32 × Bytes) × VendorStateManager → FileSystem → Prop}
    (hQ : ∀ templates t, (∀ x, x ∈ templates ↔
        x.faceId ≠ -1 ∧ stored C.toCrypto u x.faceId s = some x) →
      Q (currentEntries C.toCrypto templates, reported C.toCrypto templates manager) t) :
    (loadTemplatesReporting u manager).wp (storageEnv C.toCrypto encryptionMayFail) Q s := by
  unfold loadTemplatesReporting
  rw [wp_bind]
  refine wp_loadAllTemplatesForUser ?_
  intro names t hnames _
  refine wp_keepCurrentReporting ?_
  intro t'
  rw [List.nil_append]
  exact hQ _ t' (mem_scan_names hnames)

theorem wp_loadTemplates : (loadTemplates u).wp (storageEnv C.toCrypto encryptionMayFail)
    (fun r _ => ∀ entry ∈ r, ∃ x, stored C.toCrypto u entry.1 s = some x) s := by
  rw [← fst_loadTemplatesReporting u ⟨0⟩, wp_map]
  refine wp_loadTemplatesReporting ?_
  intro templates _ hmem entry hentry
  obtain ⟨x, hx, rfl⟩ := List.mem_map.mp hentry
  exact ⟨x, ((hmem x).mp (List.mem_of_mem_filter hx)).2⟩

end rules

/-- A call is right if the code asks for a new enrolment after it dropped an
outdated template, and every entry it returns is that of a current one. -/
def PromptsFor (C : Crypto) (u : Int32) (s : FileSystem)
    (r : List (Int32 × Bytes) × VendorStateManager) : Prop :=
  ((∃ t, Examined C u s t ∧ Outdated C t) →
    r.2.getVendorCode = VendorCode.requireReenrollment) ∧
  ∀ entry ∈ r.1, ∃ t, Examined C u s t ∧ ¬ Outdated C t ∧ entry = (t.faceId, t.templateData)

/-- Every run is right exactly when no template of another version is examined,
or one of the current version and another size is, or the code stood before. -/
theorem promptsFor_iff (C : LawfulCrypto) (u : Int32) (s : FileSystem)
    (manager : VendorStateManager) :
    (∀ r t, Run (storageEnv C.toCrypto encryptionMayFail) (loadTemplatesReporting u manager) s r t →
      PromptsFor C.toCrypto u s r) ↔
    (∀ x, Examined C.toCrypto u s x → x.version = C.currentVersion) ∨
      (∃ x, Examined C.toCrypto u s x ∧ x.version = C.currentVersion ∧
        x.templateData.length ≠ embeddingSize) ∨
      manager.getVendorCode = VendorCode.requireReenrollment := by
  -- what the loop drops is what is examined, current and of another size
  have hdrop : ∀ templates : List FaceTemplate, (∀ x, x ∈ templates ↔
      x.faceId ≠ -1 ∧ stored C.toCrypto u x.faceId s = some x) →
      ((∃ x ∈ templates, Outdated C.toCrypto x) ↔ ∃ x, Examined C.toCrypto u s x ∧
        x.version = C.currentVersion ∧ x.templateData.length ≠ embeddingSize) := by
    intro templates hmem
    constructor
    · rintro ⟨x, hx, ho⟩
      obtain ⟨hne, hx⟩ := (hmem x).mp hx
      have hv := stored_version hx
      exact ⟨x, examined_of_stored hne hx, hv, ho.resolve_left fun h => h hv⟩
    · rintro ⟨x, hx, hv, hsize⟩
      obtain ⟨y, hy, hrecord⟩ := stored_of_examined hx hv
      have hid : y.faceId = x.faceId := congrArg TemplateRecord.faceId hrecord
      have hdata : y.templateData = x.templateData := congrArg TemplateRecord.templateData hrecord
      refine ⟨y, (hmem y).mpr ⟨?_, ?_⟩, .inr ?_⟩
      · rw [hid]
        exact hx.faceId
      · rwa [hid]
      · rwa [hdata]
  have hentries : ∀ templates : List FaceTemplate, (∀ x, x ∈ templates ↔
      x.faceId ≠ -1 ∧ stored C.toCrypto u x.faceId s = some x) →
      ∀ entry ∈ currentEntries C.toCrypto templates, ∃ t, Examined C.toCrypto u s t ∧
        ¬ Outdated C.toCrypto t ∧ entry = (t.faceId, t.templateData) := by
    intro templates hmem entry hentry
    obtain ⟨x, hx, rfl⟩ := List.mem_map.mp hentry
    obtain ⟨hx, ho⟩ := List.mem_filter.mp hx
    obtain ⟨hne, hx⟩ := (hmem x).mp hx
    exact ⟨x, examined_of_stored hne hx, by simpa using ho, rfl⟩
  constructor
  · intro h
    obtain ⟨r, t, hrun⟩ := exists_run (storageEnv_total C.toCrypto encryptionMayFail_ne_always)
      (loadTemplatesReporting u manager) s
    have hwp : (loadTemplatesReporting u manager).wp (storageEnv C.toCrypto encryptionMayFail)
        (fun r _ => ∃ templates : List FaceTemplate, (∀ x, x ∈ templates ↔
          x.faceId ≠ -1 ∧ stored C.toCrypto u x.faceId s = some x) ∧
          r = (currentEntries C.toCrypto templates, reported C.toCrypto templates manager)) s :=
      wp_loadTemplatesReporting fun templates _ hmem => ⟨templates, hmem, rfl⟩
    obtain ⟨templates, hmem, rfl⟩ := hrun.wp hwp
    by_contra hnone
    push Not at hnone
    obtain ⟨⟨x, hx, hv⟩, hsize, hcode⟩ := hnone
    have hprompt := (h _ _ hrun).1 ⟨x, hx, .inl hv⟩
    rcases (getVendorCode_reported _ _ _).mp hprompt with hdropped | hstood
    · obtain ⟨y, hy, hyv, hys⟩ := (hdrop templates hmem).mp hdropped
      exact hys (hsize y hy hyv)
    · exact hcode hstood
  · intro h
    refine wp_iff_run.mp
      (wp_loadTemplatesReporting (Q := fun r _ => PromptsFor C.toCrypto u s r) ?_)
    intro templates _ hmem
    refine ⟨?_, hentries templates hmem⟩
    rintro ⟨x, hx, ho⟩
    refine (getVendorCode_reported _ _ _).mpr ?_
    rcases h with hcurrent | hsize | hstood
    · have hv := hcurrent x hx
      exact .inl ((hdrop templates hmem).mpr ⟨x, hx, hv, ho.resolve_left fun h => h hv⟩)
    · exact .inl ((hdrop templates hmem).mpr hsize)
    · exact .inr hstood

/-- A template that an earlier release stored. -/
def olderTemplate : FaceTemplate := { sampleTemplate with version := 0 }

def olderStore : FileSystem :=
  (FileSystem.empty.mkdir (userDirectoryName 0)).put (plaintextPath 0 2)
    (serialized toyCrypto.toCrypto olderTemplate)

theorem older_template_unreported : ¬ ∀ (C : LawfulCrypto) (u : Int32) (s : FileSystem)
    (manager : VendorStateManager) (r : List (Int32 × Bytes) × VendorStateManager) (t : FileSystem),
    Run (storageEnv C.toCrypto encryptionMayFail) (loadTemplatesReporting u manager) s r t →
      PromptsFor C.toCrypto u s r := by
  intro h
  have hrun := run_answer toyCrypto.toCrypto encryptionMayFail_ne_always 0
    (loadTemplatesReporting 0 ⟨0⟩) olderStore
  have hexamined : Examined toyCrypto.toCrypto 0 olderStore olderTemplate :=
    ⟨rfl, by decide, by decide, .inr ⟨by decide +kernel, by decide +kernel⟩⟩
  have hprompt := (h _ _ _ _ _ _ hrun).1 ⟨olderTemplate, hexamined, .inl (by decide)⟩
  revert hprompt
  decide +kernel

end FaceStorageCallbacks
end FaceHal
