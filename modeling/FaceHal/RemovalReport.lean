import FaceHal.KillAtomicity
import FaceHal.ReenrollmentPrompt
import FaceHal.Session

/-!
# What a reported removal leaves

`Session::removeEnrollments` reports the ids it was asked for, whatever became of
their files. A file of a face stays when its removal fails, and the temporary
file of a save that was killed stays because deleting a face does not look at it.
Nothing else can be left: saves of other faces create no file of this one, and
every other call of the store only removes.
-/
namespace FaceHal

/-- A call that brings a file into being only at these paths. -/
def StorageCall.CreatesAt (P : Path → Prop) : StorageCall → Prop
  | .openTruncated p => P p
  | .rename _ q => P q
  | _ => True

theorem StorageCall.WritesNone.createsAt {P : Path → Prop} {c : StorageCall} (h : c.WritesNone) :
    c.CreatesAt P := by
  cases c with
  | openTruncated _ | rename _ _ => exact h.elim
  | _ => trivial

theorem FileSystem.fileAt_append_none {s : FileSystem} {p q : Path} {data : Bytes}
    (h : s.fileAt q = none) : (s.append p data).fileAt q = none := by
  unfold append
  split
  · next content hc =>
      rw [s.fileAt_put, if_neg ?_]
      · exact h
      · rintro ⟨rfl, -⟩
        rw [h] at hc
        cases hc
  · exact h

/-- Whether a call works or fails, a file that is absent stays absent unless the
call creates files there. -/
theorem absent_of_storageEnv {P : Path → Prop} {C : Crypto} {fault : StorageCall → Fault}
    {c : StorageCall} (hc : c.CreatesAt P) {s t : FileSystem} {r : c.Reply}
    (h : storageEnv C fault c s r t) {p : Path} (hp : ¬ P p) (hs : s.fileAt p = none) :
    t.fileAt p = none := by
  have put : ∀ q content, P q → (s.put q content).fileAt p = none := by
    intro q content hq
    rw [s.fileAt_put, if_neg ?_]
    · exact hs
    · rintro ⟨rfl, -⟩
      exact hp hq
  have erase : ∀ q, (s.erase q).fileAt p = none := by
    intro q
    rw [s.fileAt_erase]
    split_ifs
    · rfl
    · exact hs
  rcases storageEnv_elim h with h | ⟨-, h⟩
  · cases c with
    | createDirectories d =>
        obtain rfl := h
        rw [s.fileAt_mkdir, hs]
    | chmodDir _ _ | chmod _ _ =>
        obtain rfl := h
        exact hs
    | openTruncated q =>
        obtain ⟨-, rfl⟩ := h
        exact put q [] hc
    | write q data =>
        obtain ⟨-, rfl⟩ := h
        exact FileSystem.fileAt_append_none hs
    | rename q q' =>
        simp only [Works] at h
        split at h
        · next content _ _ _ =>
            obtain ⟨-, rfl⟩ := h
            rw [FileSystem.fileAt_put, if_neg ?_]
            · exact erase q
            · rintro ⟨rfl, -⟩
              exact hp hc
        · obtain ⟨-, rfl⟩ := h
          exact hs
    | unlink q =>
        obtain rfl := h
        exact erase q
    | remove q =>
        obtain ⟨-, rfl⟩ := h
        exact erase q
    | openDirectory d =>
        obtain ⟨rfl, -⟩ := h
        exact hs
    | removeAll d =>
        obtain rfl := h
        rw [s.fileAt_removeAll]
        split_ifs
        · rfl
        · exact hs
    | _ =>
        obtain ⟨-, rfl⟩ := h
        exact hs
  · cases c with
    | createDirectories _ | chmodDir _ _ | chmod _ _ | unlink _ =>
        obtain rfl := h
        exact hs
    | write q data =>
        obtain ⟨-, rfl⟩ := h
        exact FileSystem.fileAt_append_none hs
    | close q =>
        obtain ⟨hlt, rfl⟩ := h
        rw [s.fileAt_put, if_neg ?_]
        · exact hs
        · rintro ⟨rfl, -⟩
          rw [hs] at hlt
          exact absurd hlt (Nat.not_lt_zero _)
    | removeAll d =>
        obtain ⟨-, -, hfiles⟩ := h
        rcases hfiles p with h | h
        · exact h
        · rw [h, hs]
    | currentVersion => exact h.elim
    | _ =>
        obtain ⟨-, rfl⟩ := h
        exact hs

namespace FaceStorageManager
open FaceTemplateSerializer Program

/-- A file that a save of the face writes, the temporary ones included. -/
def FacePath (u f : Int32) (p : Path) : Prop := p.dir = userDirectoryName u ∧ ProgramName f p.name

theorem FacePath.inj {u v f g : Int32} {p : Path} (h : FacePath u f p) (h' : FacePath v g p) :
    u = v ∧ f = g :=
  ⟨userDirectoryName_inj.mp (h.1.symm.trans h'.1), h.2.parse.2.symm.trans h'.2.parse.2⟩

section creates
variable {P : Path → Prop} {u f : Int32}

theorem issues_invoke {P : StorageCall → Prop} {c : StorageCall} {α : Type} {Q : α → Prop}
    {g : c.Reply → Program StorageI α} (hc : P c) (hg : ∀ r, (g r).Issues P Q) :
    (invoke c >>= g).Issues P Q := ⟨hc, hg⟩

theorem issues_getUserDirectory : (getUserDirectory u).Issues (StorageCall.CreatesAt P)
    (fun d => d = userDirectoryName u) := by
  unfold getUserDirectory
  refine ⟨trivial, fun found => ?_⟩
  cases found with
  | true => rfl
  | false => exact ⟨trivial, fun _ => ⟨trivial, fun _ => rfl⟩⟩

theorem issues_getFilePath : (getFilePath u f).Issues (StorageCall.CreatesAt P)
    (fun p => p = filePath u f) := by
  refine issues_bind issues_getUserDirectory ?_
  rintro d rfl
  rfl

theorem issues_getPlaintextFilePath : (getPlaintextFilePath u f).Issues (StorageCall.CreatesAt P)
    (fun p => p = plaintextPath u f) := by
  refine issues_bind issues_getUserDirectory ?_
  rintro d rfl
  rfl

theorem issues_of_writesNone {α : Type} {p : Program StorageI α}
    (h : p.Uses StorageCall.WritesNone) : p.Issues (StorageCall.CreatesAt P) (fun _ => True) :=
  (h.mono fun _ hc => hc.createsAt).issues

theorem issues_writeAndRename {final : Path} (stale : Path) (data : Bytes)
    (htemp : P (tempPath final)) (hfinal : P final) :
    (writeAndRename final stale data).Issues (StorageCall.CreatesAt P) (fun _ => True) := by
  unfold writeAndRename
  refine issues_invoke htemp fun opened => ?_
  split_ifs
  · trivial
  · refine issues_invoke trivial fun _ => issues_invoke trivial fun _ => ?_
    refine issues_invoke trivial fun _ => issues_invoke hfinal fun moved => ?_
    split_ifs
    · exact issues_invoke trivial fun _ => trivial
    · exact issues_bind (issues_of_writesNone (uses_removeIfPresent stale)) fun _ _ => trivial

theorem issues_saveTemplate (t : FaceTemplate) : (saveTemplate t).Issues
    (StorageCall.CreatesAt (FacePath t.userId t.faceId)) (fun _ => True) := by
  unfold saveTemplate
  refine issues_bind (R := fun _ => True) ?_ fun serializedData _ => ?_
  · refine issues_invoke trivial fun mac => ?_
    split_ifs <;> trivial
  · split_ifs
    · trivial
    · refine issues_bind issues_getFilePath ?_
      rintro _ rfl
      refine issues_bind issues_getPlaintextFilePath ?_
      rintro _ rfl
      refine issues_invoke trivial fun dataToWrite => ?_
      split_ifs
      · refine issues_bind issues_getFilePath ?_
        rintro _ rfl
        exact issues_writeAndRename _ _ ⟨rfl, .plaintextTemp⟩ ⟨rfl, .plaintext⟩
      · exact issues_writeAndRename _ _ ⟨rfl, .encryptedTemp⟩ ⟨rfl, .encrypted⟩

theorem issues_loadTemplates :
    (FaceStorageCallbacks.loadTemplates u).Issues (StorageCall.CreatesAt P) (fun _ => True) := by
  have hcleans : ∀ c : StorageCall, c.Cleans → c.CreatesAt P := by
    rintro c (hc | ⟨p, rfl⟩)
    · exact hc.writesNone.createsAt
    · trivial
  unfold FaceStorageCallbacks.loadTemplates
  refine issues_bind (R := fun _ => True) ?_ fun templates _ => ?_
  · refine issues_bind issues_getUserDirectory fun d _ => ⟨trivial, fun names => ?_⟩
    cases names with
    | none => trivial
    | some names => exact ((uses_loadEntries u d names false [] []).mono hcleans).issues
  · suffices h : ∀ templates result, (FaceStorageCallbacks.keepCurrent u templates result).Issues
        (StorageCall.CreatesAt P) (fun _ => True) from h templates []
    intro templates
    induction templates with
    | nil => exact fun _ => trivial
    | cons tmpl rest ih =>
        intro result
        refine issues_invoke trivial fun version => ?_
        split_ifs
        · exact issues_bind (R := fun _ => True)
            (issues_of_writesNone (uses_deleteTemplate u _)) fun _ _ => ih _
        · exact ih _

end creates

/-- An operation, completed or killed, or a load of all templates of a user. -/
inductive LaterLabel where
  | operation (l : KillLabel)
  | load (userId : Int32)

/-- A save of the face, whether or not it is completed. -/
def LaterLabel.Saves (u f : Int32) : LaterLabel → Prop
  | .operation l => (∃ t, l.1 = .save t) ∧ l.1.userId = u ∧ l.1.faceId = f
  | .load _ => False

def laterStep (C : Crypto) : System FileSystem LaterLabel
  | s, .operation l, t => killStep C s l t
  | s, .load u, t =>
      ∃ r, Run (storageEnv C encryptionMayFail) (FaceStorageCallbacks.loadTemplates u) s r t

/-- No file of the face exists, and it is not loaded again before it is saved again. -/
structure Erased (C : Crypto) (u f : Int32) (s : FileSystem) : Prop where
  files : ∀ p, FacePath u f p → s.fileAt p = none
  loads : ∀ ls x r y, Runs (laterStep C) s ls x → (∀ l ∈ ls, ¬ l.Saves u f) →
    Run (storageEnv C encryptionMayFail) (FaceStorageCallbacks.loadTemplates u) x r y →
    ∀ entry ∈ r, entry.1 ≠ f

section later
variable {C : LawfulCrypto} {s t : FileSystem} {u f : Int32}

/-- Only a save of the face brings a file of it into being. -/
theorem absent_of_laterStep {l : LaterLabel} (h : laterStep C.toCrypto s l t)
    (hl : ¬ l.Saves u f) (hs : ∀ p, FacePath u f p → s.fileAt p = none) :
    ∀ p, FacePath u f p → t.fileAt p = none := by
  have keeps : ∀ {P : Path → Prop}, (∀ p, FacePath u f p → ¬ P p) → ∀ c, StorageCall.CreatesAt P c →
      ∀ s r t, (∀ p, FacePath u f p → s.fileAt p = none) →
        storageEnv C.toCrypto encryptionMayFail c s r t →
        ∀ p, FacePath u f p → t.fileAt p = none :=
    fun hP c hc s r t hs h p hp => absent_of_storageEnv hc h (hP p hp) (hs p hp)
  cases l with
  | load v =>
      obtain ⟨r, hrun⟩ := h
      exact (hrun.wp ((issues_loadTemplates (P := fun _ => False)).wp
        (keeps fun _ _ h => h) hs)).2
  | operation l =>
      obtain ⟨P, hP, hissues⟩ : ∃ P : Path → Prop, (∀ p, FacePath u f p → ¬ P p) ∧
          l.1.program.Issues (StorageCall.CreatesAt P) (fun _ => True) := by
        rcases l with ⟨op, c⟩
        cases op with
        | save t =>
            refine ⟨FacePath t.userId t.faceId, ?_, issues_saveTemplate t⟩
            intro p hp hp'
            exact hl ⟨⟨t, rfl⟩, hp'.inj hp⟩
        | delete v g =>
            exact ⟨fun _ => False, fun _ _ h => h, issues_of_writesNone (uses_deleteTemplate v g)⟩
      rcases l with ⟨op, _ | c⟩
      · obtain ⟨ok, hrun⟩ := h
        exact (hrun.wp (hissues.wp (keeps hP) hs)).2
      · exact hissues.killed (keeps hP) h hs

theorem erased_of_absent (hs : ∀ p, FacePath u f p → s.fileAt p = none) :
    Erased C.toCrypto u f s := by
  refine ⟨hs, ?_⟩
  intro ls x r y hruns hsaves hload entry hentry
  have hx : ∀ p, FacePath u f p → x.fileAt p = none := by
    clear hload
    induction hruns with
    | nil s => exact hs
    | cons hstep _ ih =>
        exact ih (absent_of_laterStep hstep (hsaves _ List.mem_cons_self) hs)
          fun l hl => hsaves l (List.mem_cons_of_mem _ hl)
  have hnone : stored C.toCrypto u f x = none := by
    rw [stored, hx _ ⟨rfl, .encrypted⟩, hx _ ⟨rfl, .plaintext⟩]
    rfl
  rintro rfl
  obtain ⟨t, ht⟩ := hload.wp FaceStorageCallbacks.wp_loadTemplates entry hentry
  rw [hnone] at ht
  cases ht

end later

/-- Which removals of files and of directories may fail. -/
structure RemovalFaults where
  remove : Path → Fault
  removeAll : Text → Fault

namespace RemovalFaults

def fault (o : RemovalFaults) : StorageCall → Fault
  | .remove p => o.remove p
  | .removeAll d => o.removeAll d
  | _ => .never

/-- What may fail does. -/
def worst (o : RemovalFaults) : RemovalFaults where
  remove p := if o.remove p = .never then .never else .always
  removeAll d := if o.removeAll d = .never then .never else .always

theorem fault_of_loadsPlaintext (o : RemovalFaults) (c : StorageCall) (h : c.LoadsPlaintext) :
    o.fault c = .never := by
  cases c with
  | remove _ | removeAll _ => exact h.elim
  | _ => rfl

theorem total (o : RemovalFaults) (C : Crypto) (c : StorageCall) (s : FileSystem) :
    ∃ r t, storageEnv C o.fault c s r t := by
  by_cases hc : o.fault c = .always
  · cases c with
    | remove p =>
        refine ⟨false, s, ?_⟩
        rw [storageEnv, hc]
        exact ⟨rfl, rfl⟩
    | removeAll d =>
        refine ⟨(), s, ?_⟩
        rw [storageEnv, hc]
        exact ⟨fun _ _ => rfl, fun _ _ => rfl, fun _ => .inr rfl⟩
    | _ => cases hc
  · exact ⟨_, _, storageEnv_of_works (works_answer C 0 c s) hc⟩

theorem of_worst {o : RemovalFaults} {C : Crypto} {c : StorageCall} {s t : FileSystem}
    {r : c.Reply} (h : storageEnv C o.worst.fault c s r t) : storageEnv C o.fault c s r t := by
  have widen : (o.worst.fault c = if o.fault c = .never then .never else .always) →
      storageEnv C o.fault c s r t := by
    intro hc
    unfold storageEnv at h ⊢
    rw [hc] at h
    cases hf : o.fault c with
    | never =>
        rw [hf] at h
        exact h
    | sometimes =>
        rw [hf] at h
        exact .inr h
    | always =>
        rw [hf] at h
        exact h
  cases c with
  | remove p => exact widen rfl
  | removeAll d => exact widen rfl
  | _ => exact h

end RemovalFaults

section removal
variable {C : Crypto} {o : RemovalFaults} {s : FileSystem} {u f : Int32}

theorem wp_removeIfPresent_absent {p : Path} (hp : s.fileAt p ≠ none → o.remove p = .never) :
    (removeIfPresent p).wp (storageEnv C o.fault)
      (fun _ t => ∀ q, s.fileAt q = none ∨ q = p → t.fileAt q = none) s := by
  unfold removeIfPresent
  rw [invoke_bind, wp_works rfl]
  rintro found t ⟨rfl, rfl⟩
  cases hfile : t.fileAt p with
  | none =>
      rintro q (hq | rfl)
      · exact hq
      · exact hfile
  | some content =>
      have hnever : o.fault (.remove p) = .never := hp (by simp [hfile])
      rw [Option.isSome_some, if_pos rfl, invoke_bind, wp_works hnever]
      rintro removed x ⟨-, rfl⟩ q hq
      rw [t.fileAt_erase]
      split_ifs with hqp
      · rfl
      · exact hq.resolve_right hqp

theorem wp_removeIfPresent_keeps {p q : Path} (hq : q ≠ p ∨ o.remove q = .always) :
    (removeIfPresent q).wp (storageEnv C o.fault) (fun _ t => t.fileAt p = s.fileAt p) s := by
  unfold removeIfPresent
  rw [invoke_bind, wp_works rfl]
  rintro found t ⟨rfl, rfl⟩
  split_ifs
  · rw [invoke_bind]
    rintro removed x h
    rcases hq with hne | hfails
    · rcases storageEnv_elim h with ⟨-, rfl⟩ | ⟨-, -, rfl⟩
      · exact t.fileAt_erase_ne hne.symm
      · rfl
    · have hfault : o.fault (.remove q) = .always := hfails
      rw [storageEnv, hfault] at h
      obtain ⟨-, rfl⟩ := h
      rfl
  · rfl

/-- The directory is not wiped while a template file is in it. -/
theorem wp_wipeIfEmpty_keeps {p : Path} {content : Bytes} (hdir : p.dir = userDirectoryName u)
    (hname : namesTemplate p.name = true) (hp : s.fileAt p = some content) :
    (wipeIfEmpty u).wp (storageEnv C o.fault) (fun _ t => t.fileAt p = some content) s := by
  have hd : s.hasDir (userDirectoryName u) = true := by
    rw [← hdir]
    exact FileSystem.hasDir_of_fileAt hp
  unfold wipeIfEmpty
  rw [wp_bind, wp_getUserDirectory o.fault_of_loadsPlaintext, FileSystem.mkdir_of_hasDir hd,
    invoke_bind, wp_works rfl]
  intro r t h
  obtain ⟨rfl, l, l', hl, hperm, rfl⟩ := works_openDirectory hd h
  have hmem : p.name ∈ l' := by
    rw [hperm.mem_iff, FileSystem.mem_entries hl, ← hdir]
    exact ⟨content, hp⟩
  have hany : l'.any namesTemplate = true := List.any_eq_true.mpr ⟨p.name, hmem, hname⟩
  simp only [Option.getD_some, hany]
  exact hp

theorem wp_deleteTemplate_absent (h : ∀ p, p = filePath u f ∨ p = plaintextPath u f →
      s.fileAt p ≠ none → o.remove p = .never) :
    (deleteTemplate u f).wp (storageEnv C o.fault) (fun _ t => ∀ q, s.fileAt q = none ∨
      q = filePath u f ∨ q = plaintextPath u f → t.fileAt q = none) s := by
  have hdir := s.mkdir_mkdir (userDirectoryName u)
  unfold deleteTemplate
  rw [wp_bind, wp_getFilePath o.fault_of_loadsPlaintext, wp_bind,
    wp_getPlaintextFilePath o.fault_of_loadsPlaintext, hdir, wp_bind]
  refine wp_mono (wp_removeIfPresent_absent ?_) ?_
  · rw [FileSystem.fileAt_mkdir]
    exact h _ (.inl rfl)
  intro _ x hx
  simp only [FileSystem.fileAt_mkdir] at hx
  rw [wp_bind]
  refine wp_mono (wp_removeIfPresent_absent ?_) ?_
  · intro hp
    refine h _ (.inr rfl) ?_
    intro hnone
    exact hp (hx _ (.inl hnone))
  intro _ y hy
  rw [wp_bind]
  have hrest : (wipeIfEmpty u).wp (storageEnv C o.fault)
      (fun _ z => True ∧ ∀ q, y.fileAt q = none → z.fileAt q = none) y := by
    refine (issues_of_writesNone (P := fun _ => False) (uses_wipeIfEmpty u)).wp ?_ fun _ h => h
    intro c hc s r t hs hstep q hq
    exact absent_of_storageEnv hc hstep (fun h => h) (hs q hq)
  refine wp_mono hrest ?_
  rintro _ z ⟨-, hz⟩ q hq
  refine hz q (hy q ?_)
  rcases hq with hq | rfl | rfl
  · exact .inl (hx q (.inl hq))
  · exact .inl (hx _ (.inr rfl))
  · exact .inr rfl

theorem wp_deleteTemplate_keeps {p : Path} {content : Bytes} (hdir : p.dir = userDirectoryName u)
    (hname : namesTemplate p.name = true) (hp : s.fileAt p = some content)
    (h : ∀ q, q = filePath u f ∨ q = plaintextPath u f → q ≠ p ∨ o.remove q = .always) :
    (deleteTemplate u f).wp (storageEnv C o.fault) (fun _ t => t.fileAt p = some content) s := by
  have hd : (s.mkdir (userDirectoryName u)).mkdir (userDirectoryName u) =
      s.mkdir (userDirectoryName u) := FileSystem.mkdir_of_hasDir (by simp)
  unfold deleteTemplate
  rw [wp_bind, wp_getFilePath o.fault_of_loadsPlaintext, wp_bind,
    wp_getPlaintextFilePath o.fault_of_loadsPlaintext, hd, wp_bind]
  refine wp_mono (wp_removeIfPresent_keeps (h _ (.inl rfl))) ?_
  intro _ x hx
  rw [FileSystem.fileAt_mkdir, hp] at hx
  rw [wp_bind]
  refine wp_mono (wp_removeIfPresent_keeps (h _ (.inr rfl))) ?_
  intro _ y hy
  rw [hx] at hy
  rw [wp_bind]
  exact wp_mono (wp_wipeIfEmpty_keeps hdir hname hy) fun _ _ hz => hz

theorem wp_removeEnrollments_absent {ids : List Int32} {enrolledEmbeddings : Embeddings}
    (h : ∀ id ∈ ids, ∀ p, p = filePath u id ∨ p = plaintextPath u id →
      s.fileAt p ≠ none → o.remove p = .never) :
    (FaceEngineStub.removeEnrollments u ids enrolledEmbeddings).wp (storageEnv C o.fault)
      (fun _ t => ∀ q, s.fileAt q = none ∨
        (∃ id ∈ ids, q = filePath u id ∨ q = plaintextPath u id) → t.fileAt q = none) s := by
  induction ids generalizing s enrolledEmbeddings with
  | nil =>
      rintro q (hq | ⟨id, hid, -⟩)
      · exact hq
      · cases hid
  | cons id rest ih =>
      unfold FaceEngineStub.removeEnrollments FaceEngineStub.deleteEnrollment
        FaceStorageCallbacks.deleteTemplate
      rw [wp_bind, wp_bind, wp_bind]
      refine wp_mono (wp_deleteTemplate_absent (h id List.mem_cons_self)) ?_
      intro _ x hx
      change (FaceEngineStub.removeEnrollments u rest (enrolledEmbeddings.erase id)).wp _ _ x
      refine wp_mono (ih ?_) ?_
      · intro id' hid' p hp hpresent
        refine h id' (List.mem_cons_of_mem id hid') p hp ?_
        intro hnone
        exact hpresent (hx p (.inl hnone))
      · intro _ y hy q hq
        refine hy q ?_
        rcases hq with hq | ⟨id', hid', hq⟩
        · exact .inl (hx q (.inl hq))
        · rcases List.mem_cons.mp hid' with rfl | hid'
          · exact .inl (hx q (.inr hq))
          · exact .inr ⟨id', hid', hq⟩

theorem wp_removeEnrollments_keeps {p : Path} {content : Bytes}
    (hdir : p.dir = userDirectoryName u) (hname : namesTemplate p.name = true)
    {ids : List Int32} {enrolledEmbeddings : Embeddings} (hp : s.fileAt p = some content)
    (h : ∀ id q, q = filePath u id ∨ q = plaintextPath u id → q ≠ p ∨ o.remove q = .always) :
    (FaceEngineStub.removeEnrollments u ids enrolledEmbeddings).wp (storageEnv C o.fault)
      (fun _ t => t.fileAt p = some content) s := by
  induction ids generalizing s enrolledEmbeddings with
  | nil => exact hp
  | cons id rest ih =>
      unfold FaceEngineStub.removeEnrollments FaceEngineStub.deleteEnrollment
        FaceStorageCallbacks.deleteTemplate
      rw [wp_bind, wp_bind, wp_bind]
      refine wp_mono (wp_deleteTemplate_keeps hdir hname hp (h id)) ?_
      intro _ x hx
      exact ih hx

end removal

/-- `Session::removeEnrollments` with its deletions. -/
def removeEnrollments (v : SessionView) (enrolledEmbeddings : Embeddings) (ids : List Int32) :
    Program StorageI (SessionView × Embeddings) := do
  let enrolledEmbeddings ←
    FaceEngineStub.removeEnrollments v.session.userId ids enrolledEmbeddings
  return (v.removeEnrollments ids, enrolledEmbeddings)

/-- The ids in the callbacks posted since `v`. -/
def reportedIds (v v' : SessionView) : List Int32 :=
  (v'.session.posted.drop v.session.posted.length).flatMap fun p =>
    match p.callback with
    | .onEnrollmentsRemoved ids => ids
    | _ => []

theorem reportedIds_removeEnrollments (v : SessionView) (ids : List Int32) :
    reportedIds v (v.removeEnrollments ids) = ids := by
  simp [reportedIds, SessionView.removeEnrollments, SessionView.answer, SessionView.postCallback,
    SessionView.onSession]

/-- The face has no temporary file, and what other file it has can be removed. -/
def Removable (o : RemovalFaults) (u f : Int32) (s : FileSystem) : Prop :=
  ∀ p, FacePath u f p → s.fileAt p ≠ none →
    (p = filePath u f ∨ p = plaintextPath u f) ∧ o.remove p = .never

/-- In a run where all that may fail fails, a file stays that is temporary or
whose removal can fail. -/
theorem exists_run_keeps {C : LawfulCrypto} {o : RemovalFaults} {s : FileSystem} (v : SessionView)
    (enrolledEmbeddings : Embeddings) (ids : List Int32) {id : Int32} {p : Path} {content : Bytes}
    (hp : FacePath v.session.userId id p) (hcontent : s.fileAt p = some content)
    (hstays : ¬ ((p = filePath v.session.userId id ∨ p = plaintextPath v.session.userId id) ∧
      o.remove p = .never)) :
    ∃ out t, Run (storageEnv C.toCrypto o.fault) (removeEnrollments v enrolledEmbeddings ids) s
      out t ∧ reportedIds v out.1 = ids ∧ t.fileAt p = some content := by
  have hkept : ∀ id' q, q = filePath v.session.userId id' ∨
      q = plaintextPath v.session.userId id' → q ≠ p ∨ o.worst.remove q = .always := by
    intro id' q hq
    by_cases hqp : q = p
    · subst hqp
      right
      have hface : FacePath v.session.userId id' q := by
        rcases hq with rfl | rfl
        · exact ⟨rfl, .encrypted⟩
        · exact ⟨rfl, .plaintext⟩
      obtain ⟨-, rfl⟩ := hface.inj hp
      exact if_neg fun hnever => hstays ⟨hq, hnever⟩
    · exact .inl hqp
  have hwp : (removeEnrollments v enrolledEmbeddings ids).wp (storageEnv C.toCrypto o.worst.fault)
      (fun out t => reportedIds v out.1 = ids ∧ t.fileAt p = some content) s := by
    unfold removeEnrollments
    rw [wp_bind]
    exact wp_mono (wp_removeEnrollments_keeps hp.1 hp.2.parse.1 hcontent hkept)
      fun _ _ ht => ⟨reportedIds_removeEnrollments v ids, ht⟩
  obtain ⟨out, t, hrun⟩ := exists_run (o.worst.total C.toCrypto)
    (removeEnrollments v enrolledEmbeddings ids) s
  exact ⟨out, t, hrun.mono fun _ _ _ _ => RemovalFaults.of_worst, hrun.wp hwp⟩

/-- Every reported id is erased in every run exactly when every id of the request
is removable. -/
theorem reported_erased_iff (C : LawfulCrypto) (o : RemovalFaults) (s : FileSystem)
    (v : SessionView) (enrolledEmbeddings : Embeddings) (ids : List Int32) :
    (∀ out t, Run (storageEnv C.toCrypto o.fault) (removeEnrollments v enrolledEmbeddings ids) s
        out t → ∀ id ∈ reportedIds v out.1, Erased C.toCrypto v.session.userId id t) ↔
      ∀ id ∈ ids, Removable o v.session.userId id s := by
  constructor
  · intro h id hid p hp hpresent
    by_contra hstays
    obtain ⟨content, hcontent⟩ := Option.ne_none_iff_exists'.mp hpresent
    obtain ⟨out, t, hrun, hreported, hkept⟩ :=
      exists_run_keeps (C := C) v enrolledEmbeddings ids hp hcontent hstays
    have hnone := (h out t hrun id (by rwa [hreported])).files p hp
    rw [hkept] at hnone
    cases hnone
  · intro h
    have hwp : (removeEnrollments v enrolledEmbeddings ids).wp (storageEnv C.toCrypto o.fault)
        (fun out t => ∀ id ∈ reportedIds v out.1, Erased C.toCrypto v.session.userId id t) s := by
      unfold removeEnrollments
      rw [wp_bind]
      refine wp_mono (wp_removeEnrollments_absent fun id hid p hp hpresent => ?_) ?_
      · have hface : FacePath v.session.userId id p := by
          rcases hp with rfl | rfl
          · exact ⟨rfl, .encrypted⟩
          · exact ⟨rfl, .plaintext⟩
        exact (h id hid p hface hpresent).2
      · intro _ t ht id hid
        rw [reportedIds_removeEnrollments] at hid
        refine erased_of_absent ?_
        intro p hp
        refine ht p ?_
        by_cases hpresent : s.fileAt p = none
        · exact .inl hpresent
        · exact .inr ⟨id, hid, (h id hid p hp hpresent).1⟩
    exact wp_iff_run.mp hwp

/-- The process dies before the rename of a save. -/
def killedSave : FileSystem :=
  (saveTemplate sampleTemplate).stateAfter (answer toyCrypto.toCrypto 0) 10 .empty

/-- No removal fails. -/
def noRemovalFaults : RemovalFaults := ⟨fun _ => .never, fun _ => .never⟩

theorem temporary_file_survives : ¬ ∀ (C : LawfulCrypto) (ls : List KillLabel) (s : FileSystem)
    (o : RemovalFaults) (v : SessionView) (enrolledEmbeddings : Embeddings) (ids : List Int32)
    (out : SessionView × Embeddings) (t : FileSystem), Runs (killStep C.toCrypto) .empty ls s →
    Run (storageEnv C.toCrypto o.fault) (removeEnrollments v enrolledEmbeddings ids) s out t →
    ∀ id ∈ reportedIds v out.1, Erased C.toCrypto v.session.userId id t := by
  intro h
  have hkill : killStep toyCrypto.toCrypto .empty (.save sampleTemplate,
      some (.rename (tempPath (filePath 0 2)) (filePath 0 2))) killedSave :=
    killed_stateAfter works_toy (by decide +kernel)
  obtain ⟨content, hcontent⟩ : ∃ content,
      killedSave.fileAt (tempPath (filePath 0 2)) = some content :=
    Option.ne_none_iff_exists'.mp (by decide +kernel)
  have hstays : ¬ ((tempPath (filePath 0 2) = filePath 0 2 ∨
      tempPath (filePath 0 2) = plaintextPath 0 2) ∧
      noRemovalFaults.remove (tempPath (filePath 0 2)) = .never) := by
    rintro ⟨heq | heq, -⟩
    · exact filePath_ne_temp _ heq.symm
    · exact plaintextPath_ne_temp _ heq.symm
  have hface : FacePath 0 2 (tempPath (filePath 0 2)) := ⟨rfl, .encryptedTemp⟩
  obtain ⟨out, t, hrun, hreported, hkept⟩ := exists_run_keeps (C := toyCrypto)
    (o := noRemovalFaults) ⟨.initial, .create 0⟩ ∅ [2] hface hcontent hstays
  have herased := h _ _ _ _ _ _ _ out t (.single hkill) hrun 2 (by
    rw [hreported]
    exact List.mem_cons_self)
  have hnone := herased.files _ hface
  rw [hkept] at hnone
  cases hnone

end FaceStorageManager
end FaceHal
