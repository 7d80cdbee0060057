import FaceHal.EngineLoading

/-!
# Embeddings through the callbacks

The engine hands embeddings to the callbacks as vectors of floats and gets them back
from the next start. Saving takes a vector of any length and loading keeps those of
512 floats only, so the two agree exactly on these. A float is the 32 bits that it
is copied as.
-/
namespace FaceHal

/-- `memcpy` of the floats into the template data. -/
def embeddingBytes (embedding : List UInt32) : Bytes := embedding.flatMap wordBytes

/-- `memcpy` of the template data into 512 floats. -/
def embeddingOf (templateData : Bytes) : List UInt32 :=
  (List.range 512).map fun i => readWord templateData (4 * i)

theorem length_embeddingBytes (embedding : List UInt32) :
    (embeddingBytes embedding).length = 4 * embedding.length := by
  induction embedding with
  | nil => rfl
  | cons w rest ih =>
      rw [embeddingBytes, List.flatMap_cons, List.length_append, ← embeddingBytes, ih,
        length_wordBytes, List.length_cons]
      omega

theorem readWord_embeddingBytes {embedding : List UInt32} {i : ℕ} (h : i < embedding.length) :
    readWord (embeddingBytes embedding) (4 * i) = embedding[i] := by
  induction embedding generalizing i with
  | nil => cases h
  | cons w rest ih =>
      rw [embeddingBytes, List.flatMap_cons, ← embeddingBytes]
      cases i with
      | zero => exact readWord_wordBytes w _
      | succ i =>
          rw [Nat.mul_succ, readWord_skip, List.getElem_cons_succ]
          exact ih (Nat.lt_of_succ_lt_succ h)

@[simp] theorem length_embeddingOf (templateData : Bytes) :
    (embeddingOf templateData).length = 512 := by
  simp [embeddingOf]

theorem embeddingOf_embeddingBytes {embedding : List UInt32} (h : embedding.length = 512) :
    embeddingOf (embeddingBytes embedding) = embedding := by
  refine List.ext_getElem (by rw [length_embeddingOf, h]) ?_
  intro i _ hi
  rw [← readWord_embeddingBytes hi]
  simp [embeddingOf]

namespace FaceEngineCallbacks

def saveTemplate (userId faceId : Int32) (embedding : List UInt32) : Program StorageI Bool :=
  FaceStorageCallbacks.saveTemplate userId faceId (embeddingBytes embedding)

def loadTemplates (userId : Int32) : Program StorageI (List (Int32 × List UInt32)) := do
  let result ← FaceStorageCallbacks.loadTemplates userId
  return result.map fun x => (x.1, embeddingOf x.2)

open FaceStorageManager FaceStorageCallbacks Program

/-- While every call works, a save that answers true is followed by a load that gives
the embedding back and leaves the template stored. -/
def GivesBack (C : Crypto) (s : FileSystem) (u f : Int32) (embedding : List UInt32) : Prop :=
  ∀ t r x, Run (Works C) (saveTemplate u f embedding) s true t →
    Run (Works C) (loadTemplates u) t r x →
    (f, embedding) ∈ r ∧
      ∃ tmpl, stored C u f x = some tmpl ∧ tmpl.templateData = embeddingBytes embedding

section roundTrip
variable {C : LawfulCrypto} {s : FileSystem} {u f : Int32} {embedding : List UInt32}

/-- A save answers true, and the face then loads with the bytes of the embedding. -/
theorem wp_saveTemplate_stored (h : embedding.length < 2 ^ 30) :
    (saveTemplate u f embedding).wp (storageEnv C.toCrypto encryptionMayFail)
      (fun ok t => ok = true ∧ ∃ tmpl, stored C.toCrypto u f t = some tmpl ∧
        tmpl.version = C.currentVersion ∧ tmpl.templateData = embeddingBytes embedding) s := by
  unfold saveTemplate FaceStorageCallbacks.saveTemplate
  rw [invoke_bind, wp_works rfl]
  rintro _ _ ⟨rfl, rfl⟩
  have hsize : (embeddingBytes embedding).length < 2 ^ 32 := by
    rw [length_embeddingBytes]
    omega
  have hdecode := decodeFor_serialized (C := C)
    (t := ⟨C.currentVersion, f, u, embeddingBytes embedding, 0, []⟩) rfl hsize
  obtain ⟨tmpl, htmpl, hrecord⟩ := Option.map_eq_some_iff.mp hdecode
  have hversion : tmpl.version = C.currentVersion := congrArg TemplateRecord.version hrecord
  have hdata : tmpl.templateData = embeddingBytes embedding :=
    congrArg TemplateRecord.templateData hrecord
  rw [wp_saveTemplate]
  refine ⟨fun n => ⟨rfl, tmpl, ?_, hversion, hdata⟩, rfl, tmpl, ?_, hversion, hdata⟩
  · exact (stored_placed_encrypted n _).trans htmpl
  · exact (stored_placed_plaintext _).trans htmpl

/-- What loads is kept if it has the size of an embedding. -/
theorem wp_loadTemplates_kept {tmpl : FaceTemplate} (hf : f ≠ -1)
    (h : stored C.toCrypto u f s = some tmpl) (hversion : tmpl.version = C.currentVersion)
    (hsize : tmpl.templateData.length = embeddingSize) :
    (loadTemplates u).wp (storageEnv C.toCrypto encryptionMayFail)
      (fun r t => (f, embeddingOf tmpl.templateData) ∈ r ∧ stored C.toCrypto u f t = some tmpl)
      s := by
  have hkept : ¬ Outdated C.toCrypto tmpl := by
    rintro (hv | hs)
    · exact hv hversion
    · exact hs hsize
  have hface := (stored_ids h).2
  unfold loadTemplates
  rw [wp_bind]
  refine wp_mono wp_loadTemplates_settled ?_
  rintro r t ⟨hentries, hsettled⟩
  refine ⟨?_, ?_⟩
  · refine List.mem_map.mpr ⟨(f, tmpl.templateData), (hentries _).mpr ?_, rfl⟩
    exact ⟨tmpl, by rwa [hface], by rwa [hface], hkept, by rw [hface]⟩
  · rw [← h]
    refine stored_congr _ u f ?_ ?_
    · exact hsettled.keeps f _ (.inl rfl) (.inr ⟨tmpl, h, hkept⟩)
    · exact hsettled.keeps f _ (.inr rfl) (.inr ⟨tmpl, h, hkept⟩)

theorem length_of_givesBack (h : GivesBack C.toCrypto s u f embedding) :
    embedding.length = 512 := by
  have htotal : ∀ c s, ∃ r t, Works C.toCrypto c s r t :=
    fun c s => ⟨_, _, works_answer C.toCrypto 0 c s⟩
  obtain ⟨ok, t, hsave⟩ := exists_run htotal (saveTemplate u f embedding) s
  have htrue : (saveTemplate u f embedding).wp (storageEnv C.toCrypto encryptionMayFail)
      (fun ok _ => ok = true) s := by
    unfold saveTemplate FaceStorageCallbacks.saveTemplate
    rw [invoke_bind, wp_works rfl]
    rintro _ _ ⟨rfl, rfl⟩
    rw [wp_saveTemplate]
    exact ⟨fun _ => rfl, rfl⟩
  obtain rfl := hsave.wp (wp_restrict encryptionMayFail_of_works htrue)
  obtain ⟨r, x, hload⟩ := exists_run htotal (loadTemplates u) t
  have hfloats : (loadTemplates u).wp (Works C.toCrypto)
      (fun r _ => ∀ entry ∈ r, entry.2.length = 512) t := by
    unfold loadTemplates
    rw [wp_bind]
    refine wp_of_forall _ ?_
    intro result _ entry hentry
    obtain ⟨y, -, rfl⟩ := List.mem_map.mp hentry
    rw [length_embeddingOf]
  exact hload.wp hfloats _ (h t r x hsave hload).1

end roundTrip

/-- The callbacks give back what they accept exactly for embeddings of 512 floats. -/
theorem givesBack_iff (C : LawfulCrypto) (s : FileSystem) (u f : Int32) (embedding : List UInt32)
    (hf : f ≠ -1) : GivesBack C.toCrypto s u f embedding ↔ embedding.length = 512 := by
  constructor
  · exact length_of_givesBack
  · intro hlen t r x hsave hload
    have hsmall : embedding.length < 2 ^ 30 := by
      rw [hlen]
      decide
    obtain ⟨-, tmpl, hstored, hversion, hdata⟩ :=
      hsave.wp (wp_restrict encryptionMayFail_of_works (wp_saveTemplate_stored hsmall))
    have hsize : tmpl.templateData.length = embeddingSize := by
      rw [hdata, length_embeddingBytes, hlen]
      rfl
    have hback := hload.wp (wp_restrict encryptionMayFail_of_works
      (wp_loadTemplates_kept hf hstored hversion hsize))
    rw [hdata, embeddingOf_embeddingBytes hlen] at hback
    exact ⟨hback.1, tmpl, hback.2, hdata⟩

theorem zeros_givenBack : GivesBack toyCrypto.toCrypto .empty 0 1 (List.replicate 512 0) :=
  (givesBack_iff toyCrypto .empty 0 1 (List.replicate 512 0) (by decide)).mpr
    List.length_replicate

/-- An embedding of one float is accepted and dropped at the next start. -/
theorem oneFloat_dropped : ¬ ∀ (C : LawfulCrypto) (s : FileSystem) (u f : Int32)
    (embedding : List UInt32), f ≠ -1 → GivesBack C.toCrypto s u f embedding := by
  intro h
  have hlen := length_of_givesBack (h toyCrypto .empty 0 1 [0] (by decide))
  revert hlen
  decide

end FaceEngineCallbacks
end FaceHal
