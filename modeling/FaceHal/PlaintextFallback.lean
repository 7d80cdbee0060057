import FaceHal.EngineLoading

/-!
# Plaintext files after the next enrolment

A template that could not be encrypted lies in a plaintext file. Nothing ever
encrypts it afterwards: the start of a session reads it like any other, and an
enrolment writes the files of the new face only. So a new enrolment ends the
fallback exactly where the fallback held nothing that loads.
-/
namespace FaceHal
namespace FaceStorageManager
open FaceTemplateSerializer Program

/-- What the face holds in its plaintext file and not in its encrypted one. -/
def PlainOnly (C : Crypto) (u f : Int32) (s : FileSystem) (x : FaceTemplate) : Prop :=
  (s.fileAt (filePath u f)).bind (decodeEncrypted C u f) = none ∧
    (s.fileAt (plaintextPath u f)).bind (decodeFor C u f) = some x

theorem PlainOnly.stored {C : Crypto} {u f : Int32} {s : FileSystem} {x : FaceTemplate}
    (h : PlainOnly C u f s x) : stored C u f s = some x := by
  rw [FaceStorageManager.stored, h.1, h.2, Option.none_or]

section saving
variable {C : LawfulCrypto} {s : FileSystem}

theorem wp_saveTemplate_works {t : FaceTemplate} {Q : Bool → FileSystem → Prop}
    (hQ : ∀ n, Q true (placed s (filePath t.userId t.faceId) (plaintextPath t.userId t.faceId)
      (C.encrypt n t.userId (serialized C.toCrypto t)))) :
    (saveTemplate t).wp (Works C.toCrypto) Q s := by
  have hdir := s.mkdir_mkdir (userDirectoryName t.userId)
  have hhas : (s.mkdir (userDirectoryName t.userId)).hasDir (userDirectoryName t.userId) =
      true := by
    simp
  have hne := serialized_ne_nil C.toCrypto t
  unfold saveTemplate
  rw [wp_bind]
  refine wp_restrict encryptionMayFail_of_works (wp_serialize.mpr ?_)
  rw [if_neg hne, wp_bind]
  refine wp_restrict encryptionMayFail_of_works
    ((wp_getFilePath encryptionMayFail_of_loadsPlaintext).mpr ?_)
  rw [wp_bind]
  refine wp_restrict encryptionMayFail_of_works
    ((wp_getPlaintextFilePath encryptionMayFail_of_loadsPlaintext).mpr ?_)
  rw [hdir, invoke_bind]
  rintro r t' ⟨⟨n, rfl⟩, rfl⟩
  beta_reduce
  rw [if_neg hne, if_neg (C.encrypt_ne_nil n _ _ hne)]
  exact wp_restrict encryptionMayFail_of_works ((wp_writeAndRename hhas).mpr (hQ n))

end saving
end FaceStorageManager

namespace FaceEngineStub
open FaceStorageManager Program

/-- The frames of one enrolment, up to the one that completes it. -/
def enrollFrames (userId : Int32) : ℕ → FaceEngine → Embeddings →
    Program StorageI (EngineReply × Embeddings)
  | 0, e, enrolledEmbeddings =>
      return (⟨VendorCode.keep, 0, e.enrollFrameCount⟩, enrolledEmbeddings)
  | n + 1, e, enrolledEmbeddings => do
      let (reply, enrolledEmbeddings) ← enroll e enrolledEmbeddings userId
      if reply.res = VendorCode.faceOk then
        return (reply, enrolledEmbeddings)
      enrollFrames userId n { e with enrollFrameCount := reply.enrollFrameCount } enrolledEmbeddings

/-- A new session of the user and the frames of an enrolment on it. -/
def newEnrollment (userId : Int32) (n : ℕ) (e : FaceEngine) :
    Program StorageI (EngineReply × Embeddings) := do
  enrollFrames userId n e (← restoreEnrollments userId)

/-- The template that a completed enrolment saves. -/
def mockTemplate (C : Crypto) (u f : Int32) : FaceTemplate :=
  ⟨C.currentVersion, f, u, List.replicate FaceStorageCallbacks.embeddingSize 0, 0, []⟩

theorem length_mockTemplate (C : Crypto) (u f : Int32) :
    (mockTemplate C u f).templateData.length < 2 ^ 32 := by
  rw [mockTemplate, List.length_replicate]
  decide

theorem current_of_mockTemplate {C : Crypto} {u f : Int32} {x : FaceTemplate}
    (h : x.record = (mockTemplate C u f).record) : ¬ FaceStorageCallbacks.Outdated C x := by
  have hdata : x.templateData = List.replicate FaceStorageCallbacks.embeddingSize 0 :=
    congrArg TemplateRecord.templateData h
  rintro (hversion | hsize)
  · exact hversion (congrArg TemplateRecord.version h)
  · exact hsize (by rw [hdata, List.length_replicate])

/-- The id after the greatest one is new, unless it wraps around. -/
theorem maxId_add_one {m : Embeddings} : maxId m + 1 ≠ -1 ∧
    (Int32.maxValue ∈ m → maxId m + 1 = Int32.minValue) ∧
    (maxId m + 1 ∈ m → Int32.maxValue ∈ m) := by
  have hwraps : Int32.maxValue ∈ m → maxId m + 1 = Int32.minValue := by
    intro hmax
    have hle : Int32.maxValue ≤ maxId m :=
      (foldl_max_spec m.keys 0).2.1 _ (Std.TreeMap.mem_keys.mpr hmax)
    rw [Int32.le_antisymm (Int32.le_maxValue _) hle]
    decide
  refine ⟨?_, hwraps, ?_⟩
  · by_cases hmax : Int32.maxValue ∈ m
    · rw [hwraps hmax]
      decide
    · exact (maxId_fresh hmax).2
  · intro hin
    by_contra hmax
    exact (maxId_fresh hmax).1 hin

section rules
variable {C : LawfulCrypto} {s : FileSystem} {u : Int32} {m : Embeddings}

theorem wp_restoreEnrollments_settled : (restoreEnrollments u).wp (Works C.toCrypto)
    (fun m t => (∀ f, f ∈ m ↔ f ≠ -1 ∧ Returned C.toCrypto u f s) ∧ Settled C.toCrypto u s t)
    s := by
  unfold restoreEnrollments
  rw [wp_bind]
  refine wp_restrict encryptionMayFail_of_works ?_
  refine wp_mono FaceStorageCallbacks.wp_loadTemplates_settled ?_
  rintro loaded t ⟨hentries, hsettled⟩
  refine ⟨?_, hsettled⟩
  intro f
  rw [Std.TreeMap.mem_insertMany_list, List.contains_iff_mem, List.mem_map]
  constructor
  · rintro (hempty | ⟨entry, hentry, rfl⟩)
    · exact absurd hempty Std.TreeMap.not_mem_emptyc
    · obtain ⟨x, hne, hx, ho, rfl⟩ := (hentries entry).mp hentry
      exact ⟨hne, x, hx, ho⟩
  · rintro ⟨hne, x, hx, ho⟩
    have hface := (stored_ids hx).2
    refine .inr ⟨(x.faceId, x.templateData), (hentries _).mpr ⟨x, ?_, ?_, ho, rfl⟩, hface⟩
    · rwa [hface]
    · rwa [hface]

theorem wp_enroll_works (e : FaceEngine) : (enroll e m u).wp (Works C.toCrypto)
    (fun r t => (r.1.res = VendorCode.faceOk → ∃ n, t = placed s (filePath u (maxId m + 1))
        (plaintextPath u (maxId m + 1))
        (C.encrypt n u (serialized C.toCrypto (mockTemplate C.toCrypto u (maxId m + 1))))) ∧
      (r.1.res ≠ VendorCode.faceOk → r.2 = m ∧ t = s)) s := by
  unfold enroll
  dsimp only
  split_ifs
  · exact ⟨nofun, fun _ => ⟨rfl, rfl⟩⟩
  · exact ⟨nofun, fun _ => ⟨rfl, rfl⟩⟩
  · rw [wp_bind]
    unfold FaceStorageCallbacks.saveTemplate
    rw [invoke_bind]
    rintro _ _ ⟨rfl, rfl⟩
    refine wp_saveTemplate_works fun n => ?_
    exact ⟨fun _ => ⟨n, rfl⟩, fun hno => absurd rfl hno⟩

theorem wp_enrollFrames (n : ℕ) (e : FaceEngine) : (enrollFrames u n e m).wp (Works C.toCrypto)
    (fun r t => r.1.res = VendorCode.faceOk → ∃ k, t = placed s (filePath u (maxId m + 1))
      (plaintextPath u (maxId m + 1))
      (C.encrypt k u (serialized C.toCrypto (mockTemplate C.toCrypto u (maxId m + 1))))) s := by
  induction n generalizing e with
  | zero => exact nofun
  | succ n ih =>
      unfold enrollFrames
      rw [wp_bind]
      refine wp_mono (wp_enroll_works e) ?_
      rintro ⟨reply, m'⟩ t ⟨hdone, hmore⟩
      dsimp only at hdone hmore ⊢
      split_ifs with hok
      · exact fun _ => hdone hok
      · obtain ⟨rfl, rfl⟩ := hmore hok
        exact ih _

/-- What the enrolment of a new face leaves of the files. -/
structure Reenrolled (C : LawfulCrypto) (u : Int32) (s : FileSystem) (g : Int32) (t : FileSystem) :
    Prop where
  ne : g ≠ -1
  wraps : Returned C.toCrypto u Int32.maxValue s → g = Int32.minValue
  fresh : Returned C.toCrypto u g s → Returned C.toCrypto u Int32.maxValue s
  plaintext : t.fileAt (plaintextPath u g) = none
  encrypted : ((t.fileAt (filePath u g)).bind (decodeEncrypted C.toCrypto u g)).map
    FaceTemplate.record = some (mockTemplate C.toCrypto u g).record
  keeps : ∀ f p, f ≠ g → p = filePath u f ∨ p = plaintextPath u f →
    f = -1 ∨ Returned C.toCrypto u f s → t.fileAt p = s.fileAt p
  drops : ∀ f p, f ≠ g → p = filePath u f ∨ p = plaintextPath u f → f ≠ -1 →
    ¬ Returned C.toCrypto u f s → t.fileAt p = none

theorem fileAt_placed_other {f g : Int32} {p : Path} {data : Bytes} (hfg : f ≠ g)
    (hp : p = filePath u f ∨ p = plaintextPath u f) :
    (placed s (filePath u g) (plaintextPath u g) data).fileAt p = s.fileAt p := by
  rw [fileAt_placed _ _ _ (by simp)]
  rcases hp with rfl | rfl
  · rw [if_neg (by simp [hfg]), if_neg (by simp)]
  · rw [if_neg (by simp), if_neg (by simp [hfg])]

theorem decode_mockTemplate (f : Int32) : (decodeFor C.toCrypto u f (serialized C.toCrypto
    (mockTemplate C.toCrypto u f))).map FaceTemplate.record =
      some (mockTemplate C.toCrypto u f).record := by
  exact decodeFor_serialized (t := mockTemplate C.toCrypto u f) rfl (length_mockTemplate _ u f)

theorem wp_newEnrollment (n : ℕ) (e : FaceEngine) : (newEnrollment u n e).wp (Works C.toCrypto)
    (fun r t => r.1.res = VendorCode.faceOk → ∃ g, Reenrolled C u s g t) s := by
  unfold newEnrollment
  rw [wp_bind]
  refine wp_mono wp_restoreEnrollments_settled ?_
  rintro m x ⟨hmem, hsettled⟩
  refine wp_mono (wp_enrollFrames n e) ?_
  intro r t hdone hok
  obtain ⟨k, rfl⟩ := hdone hok
  obtain ⟨hne, hwraps, hin⟩ := maxId_add_one (m := m)
  have hmax : Int32.maxValue ∈ m ↔ Returned C.toCrypto u Int32.maxValue s := by
    rw [hmem]
    exact and_iff_right (by decide)
  have hdata := serialized_ne_nil C.toCrypto (mockTemplate C.toCrypto u (maxId m + 1))
  refine ⟨maxId m + 1, hne, fun h => hwraps (hmax.mpr h), fun h => ?_, ?_, ?_, ?_, ?_⟩
  · exact hmax.mp (hin ((hmem _).mpr ⟨hne, h⟩))
  · rw [fileAt_placed _ _ _ (by simp), if_neg (by simp), if_pos (.inl rfl)]
  · rw [fileAt_placed _ _ _ (by simp), if_pos rfl, Option.bind_some, decodeEncrypted,
      if_neg (C.encrypt_ne_nil k u _ hdata), C.decrypt_encrypt k u _ hdata]
    exact decode_mockTemplate _
  · intro f p hfg hp hkept
    rw [fileAt_placed_other hfg hp]
    exact hsettled.keeps f p hp hkept
  · intro f p hfg hp hf hlost
    rw [fileAt_placed_other hfg hp]
    exact hsettled.drops f p hp hf hlost

theorem wp_enroll_completes {e : FaceEngine} (h : completes e = true) :
    (enroll e m u).wp (Works C.toCrypto) (fun r _ => r.1.res = VendorCode.faceOk) s := by
  rw [completes, Bool.and_eq_true, Bool.not_eq_true', Bool.not_eq_true',
    decide_eq_false_iff_not] at h
  unfold enroll
  dsimp only
  rw [if_neg (by simp [h.1]), if_neg h.2, wp_bind]
  unfold FaceStorageCallbacks.saveTemplate
  rw [invoke_bind]
  rintro _ _ ⟨rfl, rfl⟩
  exact wp_saveTemplate_works fun _ => rfl

/-- Five frames complete an enrolment. -/
theorem exists_newEnrollment (s : FileSystem) : ∃ n e r t,
    Run (Works C.toCrypto) (newEnrollment u n e) s r t ∧ r.1.res = VendorCode.faceOk := by
  have htotal : ∀ c s, ∃ r t, Works C.toCrypto c s r t :=
    fun c s => ⟨_, _, works_answer C.toCrypto 0 c s⟩
  have hlast : ∀ m, enrollFrames u 5 .initial m =
      enrollFrames u 1 { FaceEngine.initial with enrollFrameCount := 4 } m := fun _ => rfl
  have hwp : (newEnrollment u 5 .initial).wp (Works C.toCrypto)
      (fun r _ => r.1.res = VendorCode.faceOk) s := by
    unfold newEnrollment
    rw [wp_bind]
    refine wp_of_forall _ ?_
    intro m x
    rw [hlast]
    unfold enrollFrames
    rw [wp_bind]
    refine wp_mono (wp_enroll_completes rfl) ?_
    rintro ⟨reply, m'⟩ t hok
    dsimp only at hok ⊢
    rw [if_pos hok]
    exact hok
  obtain ⟨r, t, hrun⟩ := exists_run htotal (newEnrollment u 5 .initial) s
  exact ⟨5, .initial, r, t, hrun, hrun.wp hwp⟩

end rules

/-- The user has no plaintext file, and what was only in one loads from the encrypted
file of its face. -/
def FallbackGone (C : Crypto) (u : Int32) (s t : FileSystem) : Prop :=
  (∀ f, t.fileAt (plaintextPath u f) = none) ∧
    ∀ f x, PlainOnly C u f s x → ∃ y,
      (t.fileAt (filePath u f)).bind (decodeEncrypted C u f) = some y ∧ y.record = x.record

/-- The plaintext file of the face is dropped with nothing lost: the face does not load,
or loads from its encrypted file with a size that is not kept. The last case is that of
an id that the enrolment wraps around to. -/
def Dispensable (C : Crypto) (u f : Int32) (s : FileSystem) : Prop :=
  (f ≠ -1 ∧ ¬ Returned C u f s ∧ ∀ x, ¬ PlainOnly C u f s x) ∨
    (f = Int32.minValue ∧ Returned C u Int32.maxValue s ∧
      ∀ x, PlainOnly C u f s x → x.record = (mockTemplate C u f).record)

section fallback
variable {C : LawfulCrypto} {s t : FileSystem} {u g : Int32}

theorem Reenrolled.fallbackGone (h : Reenrolled C u s g t)
    (hfiles : ∀ f, s.fileAt (plaintextPath u f) ≠ none → Dispensable C.toCrypto u f s) :
    FallbackGone C.toCrypto u s t := by
  refine ⟨?_, ?_⟩
  · intro f
    by_cases hfg : f = g
    · rw [hfg]
      exact h.plaintext
    by_contra hleft
    by_cases hkept : f = -1 ∨ Returned C.toCrypto u f s
    · rw [h.keeps f _ hfg (.inr rfl) hkept] at hleft
      rcases hfiles f hleft with ⟨hne, hlost, -⟩ | ⟨rfl, hmax, -⟩
      · exact hkept.elim hne hlost
      · exact hfg (h.wraps hmax).symm
    · obtain ⟨hne, hlost⟩ := not_or.mp hkept
      exact hleft (h.drops f _ hfg (.inr rfl) hne hlost)
  · intro f x hx
    have hfile : s.fileAt (plaintextPath u f) ≠ none := by
      intro hnone
      have hdecode := hx.2
      rw [hnone, Option.bind_none] at hdecode
      cases hdecode
    rcases hfiles f hfile with ⟨-, -, hno⟩ | ⟨rfl, hmax, hsame⟩
    · exact absurd hx (hno x)
    · obtain rfl := h.wraps hmax
      obtain ⟨y, hy, hrecord⟩ := Option.map_eq_some_iff.mp h.encrypted
      exact ⟨y, hy, hrecord.trans (hsame x hx).symm⟩

theorem Reenrolled.dispensable (h : Reenrolled C u s g t) (hgone : FallbackGone C.toCrypto u s t)
    {f : Int32} (hfile : s.fileAt (plaintextPath u f) ≠ none) :
    Dispensable C.toCrypto u f s := by
  have hreplaced : ∀ x, PlainOnly C.toCrypto u g s x →
      x.record = (mockTemplate C.toCrypto u g).record := by
    intro x hx
    obtain ⟨y, hy, hrecord⟩ := hgone.2 g x hx
    have hmock := h.encrypted
    rw [hy, Option.map_some] at hmock
    exact hrecord.symm.trans (Option.some.inj hmock)
  by_cases hfg : f = g
  · obtain rfl := hfg
    by_cases hkept : Returned C.toCrypto u f s
    · have hmax := h.fresh hkept
      exact .inr ⟨h.wraps hmax, hmax, hreplaced⟩
    · refine .inl ⟨h.ne, hkept, ?_⟩
      intro x hx
      exact hkept ⟨x, hx.stored, current_of_mockTemplate (hreplaced x hx)⟩
  · have hlost : ¬ (f = -1 ∨ Returned C.toCrypto u f s) := by
      intro hkept
      have hleft := hgone.1 f
      rw [h.keeps f _ hfg (.inr rfl) hkept] at hleft
      exact hfile hleft
    obtain ⟨hne, hlost⟩ := not_or.mp hlost
    refine .inl ⟨hne, hlost, ?_⟩
    intro x hx
    obtain ⟨y, hy, -⟩ := hgone.2 f x hx
    rw [h.drops f _ hfg (.inl rfl) hne hlost, Option.bind_none] at hy
    cases hy

/-- Keystore works and no file call fails. -/
def EndsFallback (C : Crypto) (u : Int32) (s : FileSystem) : Prop :=
  ∀ n e r t, Run (Works C) (newEnrollment u n e) s r t → r.1.res = VendorCode.faceOk →
    FallbackGone C u s t

theorem dispensable_of_endsFallback (hall : EndsFallback C.toCrypto u s) {f : Int32}
    (hfile : s.fileAt (plaintextPath u f) ≠ none) : Dispensable C.toCrypto u f s := by
  obtain ⟨n, e, r, t, hrun, hok⟩ := exists_newEnrollment (C := C) (u := u) s
  obtain ⟨g, hg⟩ := hrun.wp (wp_newEnrollment n e) hok
  exact hg.dispensable (hall n e r t hrun hok) hfile

end fallback

/-- Every new session and completed enrolment of the user ends the fallback if and only
if each plaintext file of the user can be dropped with nothing lost. -/
theorem endsFallback_iff (C : LawfulCrypto) (s : FileSystem) (u : Int32) :
    EndsFallback C.toCrypto u s ↔
      ∀ f, s.fileAt (plaintextPath u f) ≠ none → Dispensable C.toCrypto u f s := by
  constructor
  · intro hall f hfile
    exact dispensable_of_endsFallback hall hfile
  · intro hfiles n e r t hrun hok
    obtain ⟨g, hg⟩ := hrun.wp (wp_newEnrollment n e) hok
    exact hg.fallbackGone hfiles

theorem run_plaintextSave (C : LawfulCrypto) (t : FaceTemplate) (s : FileSystem) :
    Run (storageEnv C.toCrypto encryptionMayFail) (saveTemplate t) s true
      (placed s (plaintextPath t.userId t.faceId) (filePath t.userId t.faceId)
        (serialized C.toCrypto t)) := by
  by_contra hno
  -- the rule for a save is exact, so a postcondition that holds of this outcome is missed
  have hmissed : (saveTemplate t).wp (storageEnv C.toCrypto encryptionMayFail)
      (fun ok x => ¬ (ok = true ∧ x = placed s (plaintextPath t.userId t.faceId)
        (filePath t.userId t.faceId) (serialized C.toCrypto t))) s := by
    refine wp_iff_run.mpr ?_
    rintro ok x hrun ⟨rfl, rfl⟩
    exact hno hrun
  exact (wp_saveTemplate.mp hmissed).2 ⟨rfl, rfl⟩

/-- User 0 enrolled face 1 while Keystore was unavailable. -/
def fallbackStore (C : LawfulCrypto) : FileSystem :=
  placed .empty (plaintextPath 0 1) (filePath 0 1)
    (serialized C.toCrypto (mockTemplate C.toCrypto 0 1))

theorem returned_fallbackStore (C : LawfulCrypto) :
    Returned C.toCrypto 0 1 (fallbackStore C) := by
  obtain ⟨x, hx, hrecord⟩ := Option.map_eq_some_iff.mp (decode_mockTemplate (C := C) (u := 0) 1)
  exact ⟨x, (stored_placed_plaintext (mockTemplate C.toCrypto 0 1)).trans hx,
    current_of_mockTemplate hrecord⟩

/-- The plaintext file of that face outlives the next enrolment. -/
theorem fallback_stays : ¬ ∀ (C : LawfulCrypto) (ops : List (StoreOp × StoreAnswer))
    (s : FileSystem) (u : Int32),
    Runs (guarded (fun _ o => StoreOp.Valid C.toCrypto o.1) (storeStep C.toCrypto)) .empty ops s →
      EndsFallback C.toCrypto u s := by
  intro h
  have hreached : Runs (guarded (fun _ o => StoreOp.Valid toyCrypto.toCrypto o.1)
      (storeStep toyCrypto.toCrypto)) .empty
      [(.save (mockTemplate toyCrypto.toCrypto 0 1), .flag true)] (fallbackStore toyCrypto) :=
    .single ⟨⟨by decide, rfl, length_mockTemplate _ 0 1⟩,
      run_plaintextSave toyCrypto (mockTemplate toyCrypto.toCrypto 0 1) .empty⟩
  have hfile : (fallbackStore toyCrypto).fileAt (plaintextPath 0 1) ≠ none := by
    rw [fallbackStore, fileAt_placed _ _ _ (by simp), if_pos rfl]
    exact nofun
  rcases dispensable_of_endsFallback (h toyCrypto _ _ 0 hreached) hfile with
    ⟨-, hlost, -⟩ | ⟨hid, -⟩
  · exact hlost (returned_fallbackStore toyCrypto)
  · revert hid
    decide

end FaceEngineStub
end FaceHal
