import FaceHal.FaceEngineStub
import FaceHal.RemovalRace

/-!
# Removing faces while a session starts

The engine loads the templates of a user without its mutex and takes the mutex only to put
them into its map; a removal deletes the files first and takes the mutex only to erase the
face. So a session that starts during a removal can install a face that has no file any
more. The last theorem says for which faces this happens: for those that were loaded and
whose erasure came before the installation.
-/
namespace FaceHal
namespace Program
variable {I : Interface} {α β σ : Type} {E : Environment I σ} {P : I.Call → Prop}

theorem Interleaved.swap {p : Program I α} {q : Program I β} {s u : σ} {tr : PairTrace I}
    {a : α} {b : β} (h : Interleaved E p q s tr a b u) :
    Interleaved E q p s (tr.map Sum.swap) b a u := by
  induction h with
  | done a b s => exact .done b a s
  | left hc _ ih => exact .right hc ih
  | right hc _ ih => exact .left hc ih

/-- What the calls of both threads preserve, a call of the first one preserves. -/
theorem keeps_disturbed {R : I.Call → Prop} {J : σ × PairTrace I → Prop} (hJ : Stable E P J)
    (hown : ∀ c y r t, R c → J y → E c y.1 r t → J (t, y.2 ++ [.inl ⟨c, r⟩])) (c : I.Call)
    (hc : R c) (x : σ × PairTrace I) (r : I.Reply c) (y : σ × PairTrace I) (hx : J x)
    (h : disturbed E P c x r y) : J y := by
  obtain ⟨z, hz, hcall, htr⟩ := h
  have hy : y = (y.1, z.2 ++ [.inl ⟨c, r⟩]) := Prod.ext rfl htr
  rw [hy]
  exact hown c z r y.1 hc (hJ.trans hx hz) hcall

theorem issues_expand {J : Interface} {P : I.Call → Prop} {R : J.Call → Prop} {Q : α → Prop}
    {body : (c : I.Call) → Program J (I.Reply c)} (hbody : ∀ c, P c → (body c).Uses R)
    {p : Program I α} (hp : p.Issues P Q) : (p.expand body).Issues R Q := by
  induction p with
  | done a => exact hp
  | call c next ih => exact issues_bind (hbody c hp.1).issues fun r _ => ih r (hp.2 r)

theorem issues_inRight {J : Interface} {P : I.Call → Prop} {R : J.Call → Prop} {Q : α → Prop}
    {p : Program J α} (hp : p.Issues R Q) : (p.inRight (I := I)).Issues (Sum.elim P R) Q := by
  induction p with
  | done a => exact hp
  | call c next ih => exact ⟨hp.1, fun r => ih r (hp.2 r)⟩

theorem inRight_bind {J : Interface} (p : Program J α) (f : α → Program J β) :
    (p >>= f).inRight (I := I) = p.inRight >>= fun a => (f a).inRight := by
  induction p with
  | done a => rfl
  | call c next ih => exact congrArg (Program.call (I := I.sum J) (Sum.inr c)) (funext ih)

end Program

/-- What the functions of the engine do to the map under `enrollmentMutex`. -/
inductive MapCall where
  | install (loaded : List (Int32 × Bytes))
  | erase (faceId : Int32)

abbrev MapI : Interface := ⟨MapCall, fun _ => Unit⟩

def mapEnv : Environment MapI Embeddings
  | .install loaded, _, _, t => t = (∅ : Embeddings).insertMany loaded
  | .erase faceId, s, _, t => t = s.erase faceId

/-- The map of the engine and the store. -/
abbrev EngineI : Interface := MapI.sum StorageI

namespace EngineThreads
open FaceStorageManager Program

def update (c : MapCall) : Program EngineI Unit := @Program.perform EngineI (.inl c)

def onStore {α : Type} (p : Program StorageI α) : Program EngineI α := (p.expand inSteps).inRight

def restoreEnrollments (userId : Int32) : Program EngineI Unit := do
  let loaded ← onStore (FaceStorageCallbacks.loadTemplates userId)
  update (.install loaded)

def deleteEnrollment (userId faceId : Int32) : Program EngineI Unit := do
  let _ ← onStore (FaceStorageCallbacks.deleteTemplate userId faceId)
  update (.erase faceId)

def removeEnrollments (userId : Int32) : List Int32 → Program EngineI Unit
  | [] => return ()
  | id :: rest => do
      deleteEnrollment userId id
      removeEnrollments userId rest

section alone
variable {F : Environment StorageI FileSystem} {m m' : Embeddings} {s t : FileSystem} {u : Int32}

theorem run_update {c : MapCall} {x y : Embeddings × FileSystem} :
    Run (mapEnv.both F) (update c) x () y ↔ mapEnv c x.1 () y.1 ∧ y.2 = x.2 := by
  constructor
  · intro h
    obtain ⟨r, z, hcall, hdone⟩ := run_call.mp h
    obtain ⟨-, rfl⟩ := run_done.mp hdone
    exact hcall
  · intro h
    exact .call h (.done () y)

theorem run_restoreEnrollments :
    Run (mapEnv.both F) (restoreEnrollments u) (m, s) () (m', t) ↔
      Run F ((FaceEngineStub.restoreEnrollments u).expand inSteps) s m' t := by
  unfold restoreEnrollments FaceEngineStub.restoreEnrollments onStore
  rw [expand_bind, run_bind, run_bind]
  constructor
  · rintro ⟨loaded, ⟨k, z⟩, hload, hinstall⟩
    obtain ⟨hrun, rfl⟩ := run_inRight.mp hload
    obtain ⟨hmap, rfl⟩ := run_update.mp hinstall
    exact ⟨loaded, _, hrun, run_done.mpr ⟨hmap, rfl⟩⟩
  · rintro ⟨loaded, z, hrun, hdone⟩
    obtain ⟨rfl, rfl⟩ := run_done.mp hdone
    exact ⟨loaded, (m, t), run_inRight.mpr ⟨hrun, rfl⟩, run_update.mpr ⟨rfl, rfl⟩⟩

theorem run_deleteEnrollment {f : Int32} :
    Run (mapEnv.both F) (deleteEnrollment u f) (m, s) () (m', t) ↔
      Run F ((FaceEngineStub.deleteEnrollment m u f).expand inSteps) s m' t := by
  unfold deleteEnrollment FaceEngineStub.deleteEnrollment onStore
  rw [expand_bind, run_bind, run_bind]
  constructor
  · rintro ⟨ok, ⟨k, z⟩, hdelete, herase⟩
    obtain ⟨hrun, rfl⟩ := run_inRight.mp hdelete
    obtain ⟨hmap, rfl⟩ := run_update.mp herase
    exact ⟨ok, _, hrun, run_done.mpr ⟨hmap, rfl⟩⟩
  · rintro ⟨ok, z, hrun, hdone⟩
    obtain ⟨rfl, rfl⟩ := run_done.mp hdone
    exact ⟨ok, (m, t), run_inRight.mpr ⟨hrun, rfl⟩, run_update.mpr ⟨rfl, rfl⟩⟩

theorem run_removeEnrollments {ids : List Int32} :
    Run (mapEnv.both F) (removeEnrollments u ids) (m, s) () (m', t) ↔
      Run F ((FaceEngineStub.removeEnrollments u ids m).expand inSteps) s m' t := by
  induction ids generalizing m s with
  | nil =>
      constructor
      · intro h
        obtain ⟨-, heq⟩ := run_done.mp h
        obtain ⟨rfl, rfl⟩ := Prod.mk.inj heq
        exact .done _ _
      · intro h
        obtain ⟨rfl, rfl⟩ := run_done.mp h
        exact .done () _
  | cons id rest ih =>
      unfold removeEnrollments FaceEngineStub.removeEnrollments
      rw [expand_bind, run_bind, run_bind]
      constructor
      · rintro ⟨⟨⟩, ⟨k, z⟩, hdelete, hrest⟩
        exact ⟨k, z, run_deleteEnrollment.mp hdelete, ih.mp hrest⟩
      · rintro ⟨k, z, hdelete, hrest⟩
        exact ⟨(), (k, z), run_deleteEnrollment.mpr hdelete, ih.mpr hrest⟩

end alone

/-- The event that puts what was loaded into the map. -/
def installed (loaded : List (Int32 × Bytes)) : Event EngineI := ⟨.inl (.install loaded), ()⟩

def erased (faceId : Int32) : Event EngineI := ⟨.inl (.erase faceId), ()⟩

/-- The engine, with what has happened. -/
abbrev EngineRun : Type := (Embeddings × FileSystem) × PairTrace EngineI

/-- A call on the map that erases, or any call on the store. -/
def Erases : EngineI.Call → Prop
  | .inl (.erase _) => True
  | .inl (.install _) => False
  | .inr _ => True

/-- The first thread has installed what it loaded, and the second has erased faces since. -/
def Installed (x : EngineRun) : Prop :=
  ∃ pre loaded post, x.2 = pre ++ .inl (installed loaded) :: post ∧
    ∀ f, f ∈ x.1.1 ↔ f ∈ loaded.map Prod.fst ∧ .inr (erased f) ∉ post

section map
variable {F : Environment StorageI FileSystem}

theorem stable_installed : Stable (mapEnv.both F) Erases Installed := by
  rintro ⟨⟨m, s⟩, tr⟩ ⟨⟨m', t⟩, tr'⟩ ⟨pre, loaded, post, rfl, hmap⟩ ⟨c, r, hc, hstep, htr⟩
  obtain rfl : tr' = _ := htr
  refine ⟨pre, loaded, post ++ [.inr ⟨c, r⟩], by simp, fun f => ?_⟩
  rw [List.mem_append, not_or, ← and_assoc, ← hmap f, List.mem_singleton]
  obtain c | c := c
  · obtain ⟨hcall, -⟩ : mapEnv c m r m' ∧ t = s := hstep
    cases c with
    | install loaded' => exact hc.elim
    | erase g =>
        obtain rfl : m' = m.erase g := hcall
        have hsame : Sum.inr (erased f) =
            (.inr ⟨.inl (.erase g), r⟩ : Event EngineI ⊕ Event EngineI) ↔ g = f := by
          constructor
          · intro h
            cases h
            rfl
          · rintro rfl
            rfl
        rw [hsame, Std.TreeMap.mem_erase, ne_eq, Std.compare_eq_iff_eq]
        exact and_comm
  · obtain ⟨-, rfl⟩ : F c s r t ∧ m' = m := hstep
    refine (and_iff_left ?_).symm
    intro h
    cases h

end map

section files
variable {C : Crypto} {u f : Int32} {p : Path} {x : EngineRun}

theorem onStore_bind {α β : Type} (q : Program StorageI α) (g : α → Program StorageI β) :
    onStore (q >>= g) = onStore q >>= fun a => onStore (g a) := by
  unfold onStore
  rw [expand_bind, inRight_bind]

/-- A call that makes no file of the face. -/
def RemovesFiles (u f : Int32) : EngineI.Call → Prop := Sum.elim (fun _ => True) (RemovesOf u f)

/-- Two threads whose calls make no file of the face. -/
abbrev removalEnv (C : Crypto) (u f : Int32) : Environment EngineI EngineRun :=
  disturbed (mapEnv.both (sharedEnv C)) (RemovesFiles u f)

def NoFile (p : Path) (x : EngineRun) : Prop := x.1.2.fileAt p = none

theorem noFile_of_step (hp : FacePath u f p) {c : EngineI.Call} {s t : Embeddings × FileSystem}
    {r : EngineI.Reply c} (hc : RemovesFiles u f c) (hstep : mapEnv.both (sharedEnv C) c s r t)
    (hs : s.2.fileAt p = none) : t.2.fileAt p = none := by
  obtain c | c := c
  · obtain ⟨-, hsame⟩ := hstep
    rw [hsame]
    exact hs
  · exact absent_of_sharedStep hc hstep.1 hp hs

theorem stable_noFile (hp : FacePath u f p) :
    Stable (mapEnv.both (sharedEnv C)) (RemovesFiles u f) (NoFile p) := by
  rintro x y hx ⟨c, r, hc, hstep, -⟩
  exact noFile_of_step hp hc hstep hx

theorem wp_noFile (hp : FacePath u f p) {α : Type} {q : Program EngineI α} {Q : α → Prop}
    (hq : q.Issues (RemovesFiles u f) Q) (hx : NoFile p x) :
    q.wp (removalEnv C u f) (fun a y => Q a ∧ NoFile p y) x := by
  refine hq.wp (keeps_disturbed (stable_noFile hp) ?_) hx
  intro c y r t hc hy hcall
  exact noFile_of_step hp hc hcall hy

theorem removesOf_of_writesNone {c : StorageCall} (hc : c.WritesNone) : RemovesOf u f c :=
  fun _ => removesOnly_of_writesNone hc

theorem issues_onStore {α : Type} {q : Program StorageI α} {Q : α → Prop}
    (hq : q.Issues (RemovesOf u f) Q) : (onStore q).Issues (RemovesFiles u f) Q := by
  refine issues_inRight (issues_expand ?_ hq)
  intro c hc
  exact uses_each fun q => uses_inSteps (hc q)

theorem issues_removal {α : Type} {q : Program StorageI α} (hq : q.Uses StorageCall.WritesNone) :
    (onStore q).Issues (RemovesFiles u f) fun _ => True :=
  issues_onStore (hq.mono fun _ hc => removesOf_of_writesNone hc).issues

theorem wp_removeIfPresent_engine :
    (onStore (removeIfPresent p)).wp (removalEnv C u f) (fun _ => NoFile p) x := by
  have hanything : Stable (mapEnv.both (sharedEnv C)) (RemovesFiles u f) fun _ => True :=
    fun _ _ _ _ => trivial
  refine wp_disturbed (c := (.inr (.exists p) : EngineI.Call)) hanything trivial
    fun y r t _ hcall => ?_
  obtain ⟨⟨hr, hs⟩, -⟩ : Works C (.exists p) y.1.2 r t.2 ∧ t.1 = y.1.1 := hcall
  cases r with
  | false =>
      have hnone : y.1.2.fileAt p = none := by simpa using hr.symm
      exact (congrArg (fun s : FileSystem => s.fileAt p) hs).trans hnone
  | true =>
      refine wp_disturbed (c := (.inr (.remove p) : EngineI.Call)) hanything trivial
        fun z r t _ hcall => ?_
      obtain ⟨⟨-, hs⟩, -⟩ : Works C (.remove p) z.1.2 r t.2 ∧ t.1 = z.1.1 := hcall
      exact (congrArg (fun s : FileSystem => s.fileAt p) hs).trans (FileSystem.fileAt_erase_self _ p)

/-- The face has no file that loads, and the second thread has erased it. -/
def Removed (u f : Int32) (x : EngineRun) : Prop :=
  (NoFile (filePath u f) x ∧ NoFile (plaintextPath u f) x) ∧ .inl (erased f) ∈ x.2

theorem wp_deleteTemplate_engine :
    (onStore (FaceStorageCallbacks.deleteTemplate u f)).wp (removalEnv C u f)
      (fun _ y => NoFile (filePath u f) y ∧ NoFile (plaintextPath u f) y) x := by
  have hfile : FacePath u f (filePath u f) := ⟨rfl, .encrypted⟩
  have hplain : FacePath u f (plaintextPath u f) := ⟨rfl, .plaintext⟩
  have hpath : ∀ name : Text, (getUserDirectory u >>= fun dir =>
      (return ⟨dir, name⟩ : Program StorageI Path)).Issues (RemovesOf u f)
        fun p => p = ⟨userDirectoryName u, name⟩ := by
    intro name
    refine issues_bind (R := fun d => d = userDirectoryName u) ?_ ?_
    · refine issues_invoke (removesOf_of_writesNone trivial) fun found => ?_
      cases found with
      | true => rfl
      | false =>
          exact issues_invoke (removesOf_of_writesNone trivial) fun _ =>
            issues_invoke (removesOf_of_writesNone trivial) fun _ => rfl
    · rintro d rfl
      rfl
  have hanywhere : ∀ (name : Text) {y : EngineRun}, (onStore (getUserDirectory u >>= fun dir =>
      (return ⟨dir, name⟩ : Program StorageI Path))).wp (removalEnv C u f)
        (fun p _ => p = ⟨userDirectoryName u, name⟩) y := by
    intro name y
    have hwp : (onStore (getUserDirectory u >>= fun dir =>
        (return ⟨dir, name⟩ : Program StorageI Path))).wp (removalEnv C u f)
          (fun p _ => p = ⟨userDirectoryName u, name⟩ ∧ True) y :=
      (issues_onStore (hpath name)).wp (fun _ _ _ _ _ _ _ => trivial) trivial
    exact wp_mono hwp fun _ _ h => h.1
  unfold FaceStorageCallbacks.deleteTemplate deleteTemplate
  rw [onStore_bind, wp_bind, onStore_bind, wp_bind]
  refine wp_mono (hanywhere (fileName f)) ?_
  rintro _ y rfl
  rw [onStore_bind, wp_bind]
  refine wp_mono (hanywhere (plaintextFileName f)) ?_
  rintro _ y rfl
  rw [onStore_bind, wp_bind]
  refine wp_mono wp_removeIfPresent_engine ?_
  intro _ y hy
  rw [onStore_bind, wp_bind]
  refine wp_mono (wp_and wp_removeIfPresent_engine
    (wp_noFile hfile (issues_removal (uses_removeIfPresent _)) hy)) ?_
  rintro _ y ⟨hy', -, hy⟩
  rw [onStore_bind, wp_bind]
  refine wp_mono (wp_and (wp_noFile hfile (issues_removal (uses_wipeIfEmpty u)) hy)
    (wp_noFile hplain (issues_removal (uses_wipeIfEmpty u)) hy')) ?_
  rintro _ y ⟨⟨-, hy⟩, -, hy'⟩
  exact ⟨hy, hy'⟩

theorem issues_deleteEnrollment (g : Int32) :
    (deleteEnrollment u g).Issues (RemovesFiles u f) fun _ => True := by
  refine issues_bind (R := fun _ => True) ?_ fun _ _ => ⟨trivial, fun _ => trivial⟩
  exact issues_removal (uses_bind (uses_deleteTemplate u g) fun _ => trivial)

theorem issues_removeEnrollments (ids : List Int32) :
    (removeEnrollments u ids).Issues (RemovesFiles u f) fun _ => True := by
  induction ids with
  | nil => trivial
  | cons id rest ih => exact issues_bind (issues_deleteEnrollment id) fun _ _ => ih

theorem issues_loadTemplates_engine :
    (onStore (FaceStorageCallbacks.loadTemplates u)).Issues (RemovesFiles u f) fun _ => True := by
  refine issues_removal (uses_bind ?_ fun ts => ?_)
  · exact (uses_loadAllTemplatesForUser u).mono fun _ => writesNone_of_walks
  · generalize ([] : List (Int32 × Bytes)) = result
    induction ts generalizing result with
    | nil => trivial
    | cons t rest ih =>
        unfold FaceStorageCallbacks.keepCurrent
        rw [uses_invoke_bind]
        refine ⟨trivial, fun version => ?_⟩
        split_ifs
        · exact uses_bind (uses_deleteTemplate u t.faceId) fun _ => ih result
        · exact ih _

theorem stable_removed : Stable (mapEnv.both (sharedEnv C)) (RemovesFiles u f) (Removed u f) := by
  rintro x y ⟨⟨hfile, hplain⟩, herased⟩ hstep
  refine ⟨⟨stable_noFile ⟨rfl, .encrypted⟩ x y hfile hstep,
    stable_noFile ⟨rfl, .plaintext⟩ x y hplain hstep⟩, ?_⟩
  obtain ⟨c, r, -, -, htr⟩ := hstep
  rw [htr]
  exact List.mem_append_left _ herased

theorem wp_removed {α : Type} {q : Program EngineI α}
    (hq : q.Issues (RemovesFiles u f) fun _ => True) (hx : Removed u f x) :
    q.wp (removalEnv C u f) (fun _ y => Removed u f y) x := by
  refine wp_mono (hq.wp (keeps_disturbed stable_removed ?_) hx) fun _ _ h => h.2
  rintro c y r t hc ⟨⟨hfile, hplain⟩, herased⟩ hcall
  exact ⟨⟨noFile_of_step ⟨rfl, .encrypted⟩ hc hcall hfile,
    noFile_of_step ⟨rfl, .plaintext⟩ hc hcall hplain⟩, List.mem_append_left _ herased⟩

/-- The loop, by induction on the ids still to come. -/
theorem wp_removeEnrollments_engine {ids : List Int32} (hf : f ∈ ids) :
    (removeEnrollments u ids).wp (removalEnv C u f) (fun _ y => Removed u f y) x := by
  induction ids generalizing x with
  | nil => cases hf
  | cons id rest ih =>
      unfold removeEnrollments
      rw [wp_bind]
      by_cases hid : f = id
      · subst hid
        unfold deleteEnrollment
        rw [wp_bind]
        refine wp_mono wp_deleteTemplate_engine ?_
        intro _ y hy
        have hfiles : Stable (mapEnv.both (sharedEnv C)) (RemovesFiles u f) fun y =>
            NoFile (filePath u f) y ∧ NoFile (plaintextPath u f) y :=
          (stable_noFile ⟨rfl, .encrypted⟩).and (stable_noFile ⟨rfl, .plaintext⟩)
        refine wp_disturbed (c := (.inl (.erase f) : EngineI.Call)) hfiles hy
          fun z r t hz hcall => ?_
        obtain ⟨-, hsame⟩ : mapEnv (.erase f) z.1.1 r t.1 ∧ t.2 = z.1.2 := hcall
        refine wp_removed (issues_removeEnrollments rest) ⟨?_, ?_⟩
        · unfold NoFile
          rw [hsame]
          exact hz
        · exact List.mem_append_right _ List.mem_cons_self
      · refine wp_of_forall _ fun _ y => ih ?_
        exact (List.mem_cons.mp hf).resolve_left hid

end files

section race
variable {C : Crypto} {u : Int32} {ids : List Int32} {x y : Embeddings × FileSystem}
  {tr : PairTrace EngineI}

theorem wp_restoreEnrollments_engine {F : Environment StorageI FileSystem} {x : EngineRun} :
    (restoreEnrollments u).wp (disturbed (mapEnv.both F) Erases) (fun _ y => Installed y) x := by
  unfold restoreEnrollments
  rw [wp_bind]
  refine wp_of_forall _ fun loaded z => ?_
  have hanything : Stable (mapEnv.both F) Erases fun _ => True := fun _ _ _ _ => trivial
  refine wp_disturbed (c := (.inl (.install loaded) : EngineI.Call)) hanything trivial
    fun w r t _ hcall => ?_
  obtain ⟨hmap, -⟩ : t.1 = (∅ : Embeddings).insertMany loaded ∧ t.2 = w.1.2 := hcall
  refine ⟨w.2, loaded, [], rfl, fun f => ?_⟩
  rw [hmap, Std.TreeMap.mem_insertMany_list, List.contains_iff_mem]
  constructor
  · rintro (hempty | hmem)
    · exact absurd hempty Std.TreeMap.not_mem_emptyc
    · exact ⟨hmem, List.not_mem_nil⟩
  · rintro ⟨hmem, -⟩
    exact .inr hmem

theorem uses_removeEnrollments_erases : (removeEnrollments u ids).Uses Erases := by
  induction ids with
  | nil => trivial
  | cons id rest ih =>
      refine uses_bind (uses_bind ?_ fun _ => ⟨trivial, fun _ => trivial⟩) fun _ => ih
      refine (uses_inRight (P := fun _ => False) (R := fun _ => True)
        (uses_of_forall (fun _ => trivial) _)).mono ?_
      rintro (c | c) hc
      · exact hc.elim
      · trivial

/-- A session starts while faces are removed. The removed faces do not load any more, but
the engine has the loaded faces that were not erased after the installation, and so a removed
one if it was loaded and its erasure came before. -/
theorem removed_during_restore
    (h : Interleaved (mapEnv.both (sharedEnv C)) (restoreEnrollments u) (removeEnrollments u ids)
      x tr () () y) :
    ∃ pre loaded post, tr = pre ++ .inl (installed loaded) :: post ∧
      (∀ f, f ∈ y.1 ↔ f ∈ loaded.map Prod.fst ∧ .inr (erased f) ∉ post) ∧
      ∀ f ∈ ids, stored C u f y.2 = none ∧
        (f ∈ y.1 ↔ f ∈ loaded.map Prod.fst ∧ .inr (erased f) ∈ pre ∧ .inr (erased f) ∉ post) := by
  obtain ⟨pre, loaded, post, rfl, hmap⟩ := h.wp_left uses_removeEnrollments_erases
    wp_restoreEnrollments_engine fun _ => stable_installed
  refine ⟨pre, loaded, post, rfl, hmap, fun f hf => ?_⟩
  have hrestore : (restoreEnrollments u).Uses (RemovesFiles u f) := by
    refine uses_bind ?_ fun _ => ⟨trivial, fun _ => trivial⟩
    exact issues_loadTemplates_engine.uses
  obtain ⟨⟨hfile, hplain⟩, herased⟩ : Removed u f (y, _) :=
    h.swap.wp_left hrestore (wp_removeEnrollments_engine hf) fun _ => stable_removed
  have hmem : Sum.inr (erased f) ∈ pre ++ .inl (installed loaded) :: post := by
    obtain ⟨e, he, heq⟩ := List.mem_map.mp herased
    obtain rfl : e = .inr (erased f) := by
      rw [← Sum.swap_swap e, heq]
      rfl
    exact he
  refine ⟨?_, ?_⟩
  · rw [stored, show y.2.fileAt (filePath u f) = none from hfile,
      show y.2.fileAt (plaintextPath u f) = none from hplain]
    rfl
  · have hsplit : Sum.inr (erased f) ∉ post → Sum.inr (erased f) ∈ pre := by
      intro hpost
      rcases List.mem_append.mp hmem with hpre | hrest
      · exact hpre
      · rcases List.mem_cons.mp hrest with heq | hpost'
        · cases heq
        · exact absurd hpost' hpost
    rw [hmap f]
    constructor
    · rintro ⟨hloaded, hpost⟩
      exact ⟨hloaded, hsplit hpost, hpost⟩
    · rintro ⟨hloaded, -, hpost⟩
      exact ⟨hloaded, hpost⟩

end race

def answerEngine (C : Crypto) : (c : EngineI.Call) → Embeddings × FileSystem →
    EngineI.Reply c × (Embeddings × FileSystem)
  | .inl (.install loaded), s => ((), ((∅ : Embeddings).insertMany loaded, s.2))
  | .inl (.erase f), s => ((), (s.1.erase f, s.2))
  | .inr c, s => ((answerShared C c s.2).1, (s.1, (answerShared C c s.2).2))

theorem engineEnv_answerEngine (c : EngineI.Call) (s : Embeddings × FileSystem) :
    mapEnv.both (sharedEnv toyCrypto.toCrypto) c s (answerEngine toyCrypto.toCrypto c s).1
      (answerEngine toyCrypto.toCrypto c s).2 := by
  obtain (loaded | f) | c := c
  · exact ⟨rfl, rfl⟩
  · exact ⟨rfl, rfl⟩
  · exact ⟨sharedEnv_answerShared c s.2, rfl⟩

/-- One face, as the engine enrols it. -/
def enrolledStore : FileSystem :=
  ((FaceStorageCallbacks.saveTemplate 0 1 (List.replicate FaceStorageCallbacks.embeddingSize 0)).eval
    (answer toyCrypto.toCrypto 0) .empty).2

/-- The face is loaded, then removed, and then installed. -/
def lateRestore : Option (PairTrace EngineI × Unit × Unit × Embeddings × FileSystem) :=
  replayPair (answerEngine toyCrypto.toCrypto)
    (List.replicate 8 true ++ List.replicate 12 false ++ [true]) (restoreEnrollments 0)
    (removeEnrollments 0 [1]) (∅, enrolledStore)

theorem lateRestore_ends : ∃ out, lateRestore = some out ∧ (1 : Int32) ∈ out.2.2.2.1 := by
  have hmap : lateRestore.map (fun out => out.2.2.2.1.contains 1) = some true := by
    decide +kernel
  obtain ⟨out, hout, hmem⟩ := Option.map_eq_some_iff.mp hmap
  exact ⟨out, hout, Std.TreeMap.mem_iff_contains.mpr hmem⟩

/-- The engine has a face that does not load, and matches frames with it. -/
theorem removed_during_restore_late : ∃ tr y,
    Interleaved (mapEnv.both (sharedEnv toyCrypto.toCrypto)) (restoreEnrollments 0)
      (removeEnrollments 0 [1]) (∅, enrolledStore) tr () () y ∧
    stored toyCrypto.toCrypto 0 1 y.2 = none ∧ (1 : Int32) ∈ y.1 := by
  obtain ⟨⟨tr, ⟨⟩, ⟨⟩, y⟩, hout, hmem⟩ := lateRestore_ends
  have hrun := interleaved_of_replayPair engineEnv_answerEngine hout
  obtain ⟨_, _, _, _, _, hgone⟩ := removed_during_restore hrun
  exact ⟨tr, y, hrun, (hgone 1 List.mem_cons_self).1, hmem⟩

end EngineThreads
end FaceHal
