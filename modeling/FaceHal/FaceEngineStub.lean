import FaceHal.FaceEngine
import FaceHal.StoreRefinement
import Std.Data.TreeMap.Lemmas

/-!
# The stub engine over the template store

`FaceEngineStub` keeps the enrolled embeddings in one map from face ids and
reaches the store through the callbacks of `FaceStorageCallbacks`. Its functions
take the user as an argument and use it for the store only. An embedding is the
bytes of its 512 floats. The callbacks are set by `init`, which every constructor
of a session calls first, so they are not tested here.
-/
namespace FaceHal

/-- `std::map<int32_t, std::vector<float>>` -/
abbrev Embeddings : Type := Std.TreeMap Int32 Bytes

namespace FaceStorageCallbacks

/-- `512 * sizeof(float)` -/
def embeddingSize : ℕ := 512 * 4

def saveTemplate (userId faceId : Int32) (embedding : Bytes) : Program StorageI Bool := do
  let version ← invoke .currentVersion
  FaceStorageManager.saveTemplate ⟨version, faceId, userId, embedding, 0, []⟩

def deleteTemplate (userId faceId : Int32) : Program StorageI Bool := do
  let _ ← FaceStorageManager.deleteTemplate userId faceId
  return true

/-- The loop of `loadTemplates`. The vendor code that it sets is not used here. -/
def keepCurrent (userId : Int32) : List FaceTemplate → List (Int32 × Bytes) →
    Program StorageI (List (Int32 × Bytes))
  | [], result => return result
  | tmpl :: rest, result => do
      let version ← invoke .currentVersion
      if tmpl.version ≠ version ∨ tmpl.templateData.length ≠ embeddingSize then
        let _ ← FaceStorageManager.deleteTemplate userId tmpl.faceId
        keepCurrent userId rest result
      else
        keepCurrent userId rest (result ++ [(tmpl.faceId, tmpl.templateData)])

def loadTemplates (userId : Int32) : Program StorageI (List (Int32 × Bytes)) := do
  keepCurrent userId (← FaceStorageManager.loadAllTemplatesForUser userId) []

end FaceStorageCallbacks

namespace FaceEngineStub

/-- The engine matches every frame with the first face it has. -/
def authenticate (e : FaceEngine) (enrolledEmbeddings : Embeddings) : EngineReply :=
  if e.isCancelled then ⟨-1, -1, e.enrollFrameCount⟩
  else
    match enrolledEmbeddings.keys.head? with
    | none => ⟨1, -1, e.enrollFrameCount⟩
    | some faceId => ⟨0, faceId, e.enrollFrameCount⟩

/-- The greatest face id, or 0. -/
def maxId (enrolledEmbeddings : Embeddings) : Int32 :=
  enrolledEmbeddings.keys.foldl (fun maxId faceId => if maxId < faceId then faceId else maxId) 0

/-- The frame completes an enrolment. -/
def completes (e : FaceEngine) : Bool :=
  !e.isCancelled && !decide (e.enrollFrameCount + 1 < FaceEngine.enrollRequiredGoodFrames)

def enroll (e : FaceEngine) (enrolledEmbeddings : Embeddings) (userId : Int32) :
    Program StorageI (EngineReply × Embeddings) := do
  if e.isCancelled then
    return (⟨-1, 0, e.enrollFrameCount⟩, enrolledEmbeddings)
  let enrollFrameCount := e.enrollFrameCount + 1
  if enrollFrameCount < FaceEngine.enrollRequiredGoodFrames then
    return (⟨VendorCode.keep, 0, enrollFrameCount⟩, enrolledEmbeddings)
  let outFaceId := maxId enrolledEmbeddings + 1
  let mockEmbedding : Bytes := List.replicate FaceStorageCallbacks.embeddingSize 0
  if !(← FaceStorageCallbacks.saveTemplate userId outFaceId mockEmbedding) then
    return (⟨VendorCode.failed, outFaceId, 0⟩, enrolledEmbeddings)
  return (⟨VendorCode.faceOk, outFaceId, 0⟩, enrolledEmbeddings.insert outFaceId mockEmbedding)

def analyzeFaceQuality (e : FaceEngine) : EngineReply :=
  ⟨if e.isCancelled then -1 else VendorCode.faceOk, 0, e.enrollFrameCount⟩

def deleteEnrollment (enrolledEmbeddings : Embeddings) (userId faceId : Int32) :
    Program StorageI Embeddings := do
  let _ ← FaceStorageCallbacks.deleteTemplate userId faceId
  return enrolledEmbeddings.erase faceId

def getEnrolledFaceIds (enrolledEmbeddings : Embeddings) : List Int32 := enrolledEmbeddings.keys

def restoreEnrollments (userId : Int32) : Program StorageI Embeddings := do
  let loaded ← FaceStorageCallbacks.loadTemplates userId
  return (∅ : Embeddings).insertMany loaded

/-- The loop of `Session::removeEnrollments`. -/
def removeEnrollments (userId : Int32) : List Int32 → Embeddings → Program StorageI Embeddings
  | [], enrolledEmbeddings => return enrolledEmbeddings
  | id :: rest, enrolledEmbeddings => do
      removeEnrollments userId rest (← deleteEnrollment enrolledEmbeddings userId id)

end FaceEngineStub

theorem Int32.lt_add_one_of_ne {x : Int32} (h : x ≠ Int32.maxValue) : x < x + 1 := by
  rw [Int32.lt_iff_toInt_lt, Int32.toInt_add]
  have hlt := x.toInt_lt
  have hle := x.le_toInt
  have hne : x.toInt ≠ Int32.maxValue.toInt := fun heq => h (Int32.toInt_inj.mp heq)
  have hmax : Int32.maxValue.toInt = 2 ^ 31 - 1 := rfl
  have hone : (1 : Int32).toInt = 1 := rfl
  rw [hmax] at hne
  rw [hone, Int.bmod_def]
  omega

theorem foldl_max_spec (l : List Int32) (a : Int32) :
    a ≤ l.foldl (fun m x => if m < x then x else m) a ∧
      (∀ x ∈ l, x ≤ l.foldl (fun m x => if m < x then x else m) a) ∧
      (l.foldl (fun m x => if m < x then x else m) a = a ∨
        l.foldl (fun m x => if m < x then x else m) a ∈ l) := by
  induction l generalizing a with
  | nil => exact ⟨Int32.le_refl a, nofun, .inl rfl⟩
  | cons y rest ih =>
      simp only [List.foldl_cons]
      have hstep : a ≤ (if a < y then y else a) ∧ y ≤ (if a < y then y else a) := by
        split_ifs with hay
        · exact ⟨Int32.le_of_lt hay, Int32.le_refl y⟩
        · exact ⟨Int32.le_refl a, Int32.not_lt.mp hay⟩
      obtain ⟨hle, hall, hmem⟩ := ih (if a < y then y else a)
      refine ⟨Int32.le_trans hstep.1 hle, ?_, ?_⟩
      · intro x hx
        rcases List.mem_cons.mp hx with rfl | hx
        · exact Int32.le_trans hstep.2 hle
        · exact hall x hx
      · rcases hmem with heq | hmem
        · rw [heq]
          split_ifs
          · exact .inr (List.mem_cons_self ..)
          · exact .inl rfl
        · exact .inr (List.mem_cons_of_mem _ hmem)

namespace FaceEngineStub

theorem maxId_fresh {m : Embeddings} (h : Int32.maxValue ∉ m) :
    maxId m + 1 ∉ m ∧ maxId m + 1 ≠ -1 := by
  obtain ⟨hzero, hall, hmem⟩ := foldl_max_spec m.keys 0
  have hne : maxId m ≠ Int32.maxValue := by
    intro heq
    rcases hmem with hstart | hmem
    · have hcontra : (0 : Int32) = Int32.maxValue := hstart.symm.trans heq
      revert hcontra
      decide
    · exact h (heq ▸ Std.TreeMap.mem_keys.mp hmem)
  have hlt : maxId m < maxId m + 1 := Int32.lt_add_one_of_ne hne
  constructor
  · intro hin
    exact Int32.not_lt.mpr (hall _ (Std.TreeMap.mem_keys.mpr hin)) hlt
  · intro heq
    have hpos : (0 : Int32) < maxId m + 1 := Int32.lt_of_le_of_lt hzero hlt
    rw [heq] at hpos
    revert hpos
    decide

end FaceEngineStub

open FaceStorageManager Program

/-- The entries of the user that `loadTemplates` keeps. -/
def FaceStorageManager.TemplateMap.current (m : TemplateMap) (u : Int32) : TemplateMap := fun v g =>
  if v = u then (m v g).filter fun r => r.templateData.length = FaceStorageCallbacks.embeddingSize
  else m v g

theorem FaceStorageManager.TemplateMap.current_self (m : TemplateMap) (u f : Int32) :
    m.current u u f = match m u f with
      | none => none
      | some r =>
          if r.templateData.length = FaceStorageCallbacks.embeddingSize then some r else none := by
  unfold TemplateMap.current
  rw [if_pos rfl]
  cases m u f with
  | none => rfl
  | some r => simp [Option.filter_some]

/-- The engine has exactly the faces of the user. -/
def Mirrors (enrolledEmbeddings : Embeddings) (m : TemplateMap) (u : Int32) : Prop :=
  ∀ f, f ∈ enrolledEmbeddings ↔ m u f ≠ none

section rules
variable {C : LawfulCrypto} {s : FileSystem} {m : TemplateMap} {u f : Int32}
    {embeddings : Embeddings}

theorem wp_saveTemplate_represents {embedding : Bytes} {Q : Bool → FileSystem → Prop}
    (h : Represents C.toCrypto s m) (hf : f ≠ -1) (hl : embedding.length < 2 ^ 32)
    (hQ : ∀ t r, Represents C.toCrypto t (m.set u f (some r)) → Q true t) :
    (FaceStorageCallbacks.saveTemplate u f embedding).wp (storageEnv C.toCrypto encryptionMayFail)
    Q s := by
  unfold FaceStorageCallbacks.saveTemplate
  rw [invoke_bind, wp_works rfl]
  rintro _ _ ⟨rfl, rfl⟩
  refine wp_iff_run.mpr ?_
  intro ok t hrun
  obtain ⟨m', ⟨rfl, rfl⟩, hrep⟩ := storeStep_refines
    (o := (.save ⟨C.currentVersion, f, u, embedding, 0, []⟩, .flag ok)) ⟨hf, rfl, hl⟩ h hrun
  exact hQ t _ hrep

theorem wp_deleteTemplate_represents {Q : Bool → FileSystem → Prop} (h : Represents C.toCrypto s m)
    (hQ : ∀ t, Represents C.toCrypto t (m.set u f none) → Q true t) :
    (FaceStorageCallbacks.deleteTemplate u f).wp (storageEnv C.toCrypto encryptionMayFail) Q s := by
  unfold FaceStorageCallbacks.deleteTemplate
  rw [wp_bind, wp_deleteTemplate]
  exact hQ _ h.deleted

/-- The map without the entries that `keepCurrent` deletes. -/
def outdatedDropped (m : TemplateMap) (u : Int32) (ts : List FaceTemplate) : TemplateMap :=
  fun v g =>
  if v = u ∧ ∃ t ∈ ts, t.faceId = g ∧ t.templateData.length ≠
    FaceStorageCallbacks.embeddingSize then
    none
  else m v g

def keptPairs (ts : List FaceTemplate) : List (Int32 × Bytes) :=
  (ts.filter fun t => t.templateData.length = FaceStorageCallbacks.embeddingSize).map fun t =>
    (t.faceId, t.templateData)

theorem wp_keepCurrent {ts : List FaceTemplate} {result : List (Int32 × Bytes)}
    {Q : List (Int32 × Bytes) → FileSystem → Prop} (h : Represents C.toCrypto s m)
    (hts : ∀ t ∈ ts, t.version = C.currentVersion)
    (hQ : ∀ t, Represents C.toCrypto t (outdatedDropped m u ts) → Q (result ++ keptPairs ts) t) :
    (FaceStorageCallbacks.keepCurrent u ts result).wp (storageEnv C.toCrypto encryptionMayFail)
    Q s := by
  induction ts generalizing s m result with
  | nil =>
      have heq : outdatedDropped m u [] = m := by
        funext v g
        simp [outdatedDropped]
      have hend := hQ s (by rwa [heq])
      unfold FaceStorageCallbacks.keepCurrent
      simpa [keptPairs, Program.wp] using hend
  | cons t rest ih =>
      unfold FaceStorageCallbacks.keepCurrent
      rw [invoke_bind, wp_works rfl]
      rintro _ _ ⟨rfl, rfl⟩
      have hversion : t.version = C.currentVersion := hts t (List.mem_cons_self ..)
      have hrest : ∀ t ∈ rest, t.version = C.currentVersion :=
        fun t ht => hts t (List.mem_cons_of_mem _ ht)
      split_ifs with hbad
      · have hsize : t.templateData.length ≠ FaceStorageCallbacks.embeddingSize := by
          rcases hbad with hv | hs
          · exact absurd hversion hv
          · exact hs
        rw [wp_bind, wp_deleteTemplate]
        refine ih h.deleted hrest ?_
        intro x hx
        have hend := hQ x ?_
        · simpa [keptPairs, hsize] using hend
        · have heq : outdatedDropped (m.set u t.faceId none) u rest =
              outdatedDropped m u (t :: rest) := by
            funext v g
            unfold outdatedDropped TemplateMap.set
            by_cases hv : v = u
            · by_cases hg : t.faceId = g
              · simp [hv, hg, hsize]
              · simp [hv, hg, Ne.symm hg]
            · simp [hv]
          rwa [← heq]
      · have hsize : t.templateData.length = FaceStorageCallbacks.embeddingSize := by
          by_contra hne
          exact hbad (.inr hne)
        refine ih h hrest ?_
        intro x hx
        have hend := hQ x ?_
        · simpa [keptPairs, hsize] using hend
        · have heq : outdatedDropped m u (t :: rest) = outdatedDropped m u rest := by
            funext v g
            simp [outdatedDropped, hsize]
          rwa [heq]

/-- After `loadTemplates` the store and the engine have the same faces of the user. -/
theorem wp_restoreEnrollments {Q : Embeddings → FileSystem → Prop} (h : Represents C.toCrypto s m)
    (hQ : ∀ t embeddings, Represents C.toCrypto t (m.current u) →
      Mirrors embeddings (m.current u) u →
      Q embeddings t) :
    (FaceEngineStub.restoreEnrollments u).wp (storageEnv C.toCrypto encryptionMayFail) Q s := by
  unfold FaceEngineStub.restoreEnrollments FaceStorageCallbacks.loadTemplates
  rw [wp_bind, wp_bind]
  refine wp_iff_run.mpr ?_
  intro ts t hrun
  obtain ⟨m', ⟨-, hmem, hm'⟩, hrep⟩ := storeStep_refines
    (o := (.loadAll u, .templates (ts.map FaceTemplate.record))) trivial h ⟨ts, hrun, rfl⟩
  rw [hm'] at hrep
  have hentry : ∀ x ∈ ts, m u x.faceId = some x.record ∧ x.version = C.currentVersion := by
    intro x hx
    obtain ⟨f, hf⟩ := (hmem x.record).mp (List.mem_map_of_mem hx)
    obtain ⟨-, hid, hversion⟩ := h.entry hf
    obtain rfl : x.faceId = f := hid
    exact ⟨hf, hversion⟩
  have hfind : ∀ f r, m u f = some r → ∃ x ∈ ts, x.faceId = f ∧ x.record = r := by
    intro f r hr
    obtain ⟨x, hx, rfl⟩ := List.mem_map.mp ((hmem r).mpr ⟨f, hr⟩)
    exact ⟨x, hx, (h.entry hr).2.1, rfl⟩
  have hdropped : outdatedDropped m u ts = m.current u := by
    funext v g
    by_cases hv : v = u
    · obtain rfl := hv
      rw [TemplateMap.current_self]
      cases hg : m v g with
      | none => simp [outdatedDropped, hg]
      | some r =>
          obtain ⟨x, hx, hxg, rfl⟩ := hfind g r hg
          dsimp only
          unfold outdatedDropped
          split_ifs with hdrop hsize hsize
          · obtain ⟨-, y, hy, hyg, hbad⟩ := hdrop
            have hsame := (hentry y hy).1
            rw [hyg, hg] at hsame
            have hdata := congrArg TemplateRecord.templateData (Option.some.inj hsame)
            exact absurd ((congrArg List.length hdata).symm.trans hsize) hbad
          · rfl
          · exact hg
          · exact absurd ⟨rfl, x, hx, hxg, hsize⟩ hdrop
    · simp [outdatedDropped, TemplateMap.current, hv]
  refine wp_keepCurrent hrep (fun x hx => (hentry x hx).2) ?_
  intro t' ht'
  rw [hdropped] at ht'
  refine hQ t' _ ht' ?_
  intro f
  rw [Std.TreeMap.mem_insertMany_list, List.contains_iff_mem]
  have hkept : f ∈ (keptPairs ts).map Prod.fst ↔
      ∃ x ∈ ts, x.templateData.length = FaceStorageCallbacks.embeddingSize ∧ x.faceId = f := by
    simp [keptPairs, and_assoc]
  rw [List.nil_append, hkept]
  rw [TemplateMap.current_self]
  constructor
  · rintro (hempty | ⟨x, hx, hsize, rfl⟩)
    · exact absurd hempty Std.TreeMap.not_mem_emptyc
    · rw [(hentry x hx).1]
      have hsize' : x.record.templateData.length = FaceStorageCallbacks.embeddingSize := hsize
      dsimp only
      rw [if_pos hsize']
      exact nofun
  · intro hf
    cases hr : m u f with
    | none => simp [hr] at hf
    | some r =>
        obtain ⟨x, hx, hxf, rfl⟩ := hfind f r hr
        refine .inr ⟨x, hx, ?_, hxf⟩
        by_contra hsize
        have hsize' : ¬ x.record.templateData.length = FaceStorageCallbacks.embeddingSize := hsize
        rw [hr] at hf
        dsimp only at hf
        rw [if_neg hsize'] at hf
        exact hf rfl

theorem wp_deleteEnrollment {Q : Embeddings → FileSystem → Prop} (h : Represents C.toCrypto s m)
    (hm : Mirrors embeddings m u)
    (hQ : ∀ t, Represents C.toCrypto t (m.set u f none) →
      Mirrors (embeddings.erase f) (m.set u f none) u → Q (embeddings.erase f) t) :
    (FaceEngineStub.deleteEnrollment embeddings u f).wp (storageEnv C.toCrypto encryptionMayFail)
    Q s := by
  unfold FaceEngineStub.deleteEnrollment
  rw [wp_bind]
  refine wp_deleteTemplate_represents h ?_
  intro t ht
  refine hQ t ht ?_
  intro g
  rw [Std.TreeMap.mem_erase, ne_eq, Std.compare_eq_iff_eq, hm g]
  unfold TemplateMap.set
  by_cases hg : f = g
  · simp [hg]
  · simp [hg, Ne.symm hg]

theorem wp_removeEnrollments {ids : List Int32} {Q : Embeddings → FileSystem → Prop}
    (h : Represents C.toCrypto s m) (hm : Mirrors embeddings m u)
    (hQ : ∀ t m' embeddings', Represents C.toCrypto t m' → Mirrors embeddings' m' u →
      Q embeddings' t) :
    (FaceEngineStub.removeEnrollments u ids embeddings).wp (storageEnv C.toCrypto encryptionMayFail)
    Q s := by
  induction ids generalizing s m embeddings with
  | nil => exact hQ s m embeddings h hm
  | cons id rest ih =>
      unfold FaceEngineStub.removeEnrollments
      rw [wp_bind]
      refine wp_deleteEnrollment h hm ?_
      intro t ht hmt
      exact ih ht hmt

/-- A completed enrolment gets an id that the user has no face of, if the engine has
the faces of the user. -/
theorem wp_enroll {e : FaceEngine} {Q : EngineReply × Embeddings → FileSystem → Prop}
    (h : Represents C.toCrypto s m) (hm : FaceEngineStub.completes e = true →
      Mirrors embeddings m u ∧ m u Int32.maxValue = none)
    (hkept : ∀ reply, reply.res ≠ VendorCode.faceOk → Q (reply, embeddings) s)
    (hnew : ∀ reply t m' embeddings', FaceEngineStub.completes e = true →
      Represents C.toCrypto t m' → Mirrors embeddings' m' u → m u reply.faceId = none →
      Q (reply, embeddings') t) :
    (FaceEngineStub.enroll e embeddings u).wp (storageEnv C.toCrypto encryptionMayFail) Q s := by
  unfold FaceEngineStub.enroll
  dsimp only
  split_ifs with hcancelled hmore
  · exact hkept _ nofun
  · exact hkept _ nofun
  · have hcompletes : FaceEngineStub.completes e = true := by
      simp [FaceEngineStub.completes, hcancelled, hmore]
    obtain ⟨hmirrors, hmax⟩ := hm hcompletes
    have hmissing : Int32.maxValue ∉ embeddings := by
      rw [hmirrors]
      exact not_not.mpr hmax
    obtain ⟨hfresh, hne⟩ := FaceEngineStub.maxId_fresh hmissing
    have hsize : (List.replicate FaceStorageCallbacks.embeddingSize (0 : UInt8)).length <
        2 ^ 32 := by
      rw [List.length_replicate]
      decide
    rw [wp_bind]
    refine wp_saveTemplate_represents h hne hsize ?_
    intro t r ht
    refine hnew _ t _ _ hcompletes ht ?_ ?_
    · intro g
      rw [Std.TreeMap.mem_insert, Std.compare_eq_iff_eq, hmirrors g]
      unfold TemplateMap.set
      by_cases hg : FaceEngineStub.maxId embeddings + 1 = g
      · simp [hg]
      · simp [hg, Ne.symm hg]
    · rw [hmirrors] at hfresh
      exact not_not.mp hfresh

theorem wp_enroll_nextId {e : FaceEngine} (h : Represents C.toCrypto s m)
    (hcompletes : FaceEngineStub.completes e = true) (hmissing : Int32.maxValue ∉ embeddings) :
    (FaceEngineStub.enroll e embeddings u).wp (storageEnv C.toCrypto encryptionMayFail)
      (fun a _ => a.1 = ⟨VendorCode.faceOk, FaceEngineStub.maxId embeddings + 1, 0⟩) s := by
  simp only [FaceEngineStub.completes, Bool.and_eq_true, Bool.not_eq_true',
    decide_eq_false_iff_not] at hcompletes
  have hsize : (List.replicate FaceStorageCallbacks.embeddingSize (0 : UInt8)).length <
      2 ^ 32 := by
    rw [List.length_replicate]
    decide
  unfold FaceEngineStub.enroll
  dsimp only
  rw [if_neg (by rw [hcompletes.1]; exact Bool.false_ne_true), if_neg hcompletes.2, wp_bind]
  exact wp_saveTemplate_represents h (FaceEngineStub.maxId_fresh hmissing).2 hsize
    fun _ _ _ => rfl

end rules
end FaceHal
