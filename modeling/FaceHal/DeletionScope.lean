import FaceHal.FileNames

/-!
# What deleting a face leaves alone

`deleteTemplate` wipes the directory of the user when it finds no template file in
it. A directory that cannot be opened for iteration looks empty to it. Other files
are therefore safe under every pattern of failures exactly where the listing cannot
fail, where the wiping stops at its own test, or where there are none.
-/
namespace FaceHal

/-- The call is about other files than this one. -/
def StorageCall.Spares (p : Path) : StorageCall → Prop
  | .openTruncated q | .write q _ | .close q | .unlink q | .remove q => p ≠ q
  | .rename q q' => p ≠ q ∧ p ≠ q'
  | .removeAll d => p.dir ≠ d
  | _ => True

theorem fileAt_of_spares {C : Crypto} {fault : StorageCall → Fault} {c : StorageCall}
    {s t : FileSystem} {r : c.Reply} {p : Path} (hp : c.Spares p)
    (h : storageEnv C fault c s r t) : t.fileAt p = s.fileAt p := by
  cases c with
  | createDirectories d =>
      rcases storageEnv_elim h with h | ⟨-, h⟩
      · obtain rfl := h
        exact s.fileAt_mkdir d p
      · obtain rfl := h
        rfl
  | openTruncated q =>
      rcases storageEnv_elim h with ⟨-, rfl⟩ | ⟨-, -, rfl⟩
      · exact s.fileAt_put_ne [] hp
      · rfl
  | write q data =>
      rcases storageEnv_elim h with ⟨-, rfl⟩ | ⟨-, -, rfl⟩
      all_goals exact s.fileAt_append_ne _ hp
  | close q =>
      rcases storageEnv_elim h with ⟨-, rfl⟩ | ⟨-, -, rfl⟩
      · rfl
      · exact s.fileAt_put_ne _ hp
  | rename q q' =>
      rcases storageEnv_elim h with h | ⟨-, -, rfl⟩
      · simp only [Works] at h
        split at h
        · obtain ⟨-, rfl⟩ := h
          rw [FileSystem.fileAt_put_ne _ _ hp.2]
          exact s.fileAt_erase_ne hp.1
        · obtain ⟨-, rfl⟩ := h
          rfl
      · rfl
  | unlink q =>
      rcases storageEnv_elim h with h | ⟨-, h⟩
      · obtain rfl := h
        exact s.fileAt_erase_ne hp
      · obtain rfl := h
        rfl
  | remove q =>
      rcases storageEnv_elim h with ⟨-, rfl⟩ | ⟨-, -, rfl⟩
      · exact s.fileAt_erase_ne hp
      · rfl
  | openDirectory d =>
      rcases storageEnv_elim h with ⟨rfl, -⟩ | ⟨-, -, rfl⟩
      all_goals rfl
  | removeAll d =>
      rcases storageEnv_elim h with h | ⟨-, -, hother, -⟩
      · obtain rfl := h
        rw [s.fileAt_removeAll]
        exact if_neg hp
      · exact hother p hp
  | chmodDir _ _ | chmod _ _ =>
      rcases storageEnv_elim h with h | ⟨-, h⟩
      all_goals
        obtain rfl := h
        rfl
  | currentVersion =>
      rcases storageEnv_elim h with ⟨-, rfl⟩ | ⟨-, h⟩
      · rfl
      · exact h.elim
  | _ =>
      rcases storageEnv_elim h with ⟨-, rfl⟩ | ⟨-, -, rfl⟩
      all_goals rfl

namespace FaceStorageManager
open Program

/-- A template file of another face of the user, or any file outside the user's
directory. -/
def OtherFile (u f : Int32) (p : Path) : Prop :=
  p.dir ≠ userDirectoryName u ∨ namesTemplate p.name = true ∧ parseFaceId p.name ≠ f

section frame
variable {C : Crypto} {fault : StorageCall → Fault} {s : FileSystem} {u f : Int32} {p : Path}
  {α : Type}

theorem wp_untouched {prog : Program StorageI α} {Q : α → Prop}
    (h : prog.Issues (StorageCall.Spares p) Q) :
    prog.wp (storageEnv C fault) (fun a t => Q a ∧ t.fileAt p = s.fileAt p) s := by
  refine h.wp ?_ rfl
  intro c hc t r x ht hstep
  exact (fileAt_of_spares hc hstep).trans ht

theorem untouched_getUserDirectory (p : Path) : (getUserDirectory u).Issues
    (StorageCall.Spares p) (fun d => d = userDirectoryName u) := by
  unfold getUserDirectory
  refine ⟨trivial, fun found => ?_⟩
  cases found with
  | true => rfl
  | false => exact ⟨trivial, fun _ => ⟨trivial, fun _ => rfl⟩⟩

theorem untouched_getFilePath (p : Path) : (getFilePath u f).Issues
    (StorageCall.Spares p) (fun q => q = filePath u f) := by
  refine issues_bind (untouched_getUserDirectory p) ?_
  rintro d rfl
  rfl

theorem untouched_getPlaintextFilePath (p : Path) : (getPlaintextFilePath u f).Issues
    (StorageCall.Spares p) (fun q => q = plaintextPath u f) := by
  refine issues_bind (untouched_getUserDirectory p) ?_
  rintro d rfl
  rfl

theorem untouched_removeIfPresent {q : Path} (h : p ≠ q) :
    (removeIfPresent q).Issues (StorageCall.Spares p) (fun _ => True) := by
  unfold removeIfPresent
  refine ⟨trivial, fun found => ?_⟩
  cases found with
  | true => exact ⟨h, fun _ => trivial⟩
  | false => trivial

/-- The removals before the directory is listed. -/
def removeFiles (u f : Int32) : Program StorageI Unit := do
  let path ← getFilePath u f
  let plaintextPath ← getPlaintextFilePath u f
  removeIfPresent path
  removeIfPresent plaintextPath

theorem deleteTemplate_eq (u f : Int32) : deleteTemplate u f = (do
    removeFiles u f
    wipeIfEmpty u
    return true) := by
  simp only [deleteTemplate, removeFiles, bind_assoc]

theorem untouched_removeFiles (h : p ≠ filePath u f) (h' : p ≠ plaintextPath u f) :
    (removeFiles u f).Issues (StorageCall.Spares p) (fun _ => True) := by
  unfold removeFiles
  refine issues_bind (untouched_getFilePath p) ?_
  rintro _ rfl
  refine issues_bind (untouched_getPlaintextFilePath p) ?_
  rintro _ rfl
  exact issues_bind (untouched_removeIfPresent h) fun _ _ => untouched_removeIfPresent h'

theorem untouched_wipeIfEmpty (h : p.dir ≠ userDirectoryName u) :
    (wipeIfEmpty u).Issues (StorageCall.Spares p) (fun _ => True) := by
  unfold wipeIfEmpty removeUser
  refine issues_bind (untouched_getUserDirectory p) ?_
  rintro _ rfl
  rw [invoke_bind]
  refine ⟨trivial, fun names => ?_⟩
  dsimp only
  split_ifs
  · refine issues_bind (R := fun _ => True) ?_ fun _ _ => trivial
    refine issues_bind (untouched_getUserDirectory p) ?_
    rintro _ rfl
    refine ⟨trivial, fun found => ?_⟩
    cases found with
    | true => exact ⟨h, fun _ => trivial⟩
    | false => trivial
  · trivial

theorem OtherFile.ne (h : OtherFile u f p) : p ≠ filePath u f ∧ p ≠ plaintextPath u f := by
  constructor
  · rintro rfl
    rcases h with hdir | ⟨-, hface⟩
    · exact hdir rfl
    · exact hface parseFaceId_fileName
  · rintro rfl
    rcases h with hdir | ⟨-, hface⟩
    · exact hdir rfl
    · exact hface parseFaceId_plaintext

/-- A file in the directory stays if the test before the wiping fails, or is absent before
and after. -/
theorem wp_removeUser_keeps
    (h : fault (.existsDir (userDirectoryName u)) = .always ∨ s.fileAt p = none) :
    (removeUser u).wp (storageEnv C fault) (fun _ t => t.fileAt p = s.fileAt p) s := by
  unfold removeUser
  rw [wp_bind]
  refine wp_mono (wp_untouched (untouched_getUserDirectory p)) ?_
  rintro _ t ⟨rfl, ht⟩
  rw [invoke_bind]
  intro found x hfound
  have hx : x.fileAt p = s.fileAt p :=
    (fileAt_of_spares (c := .existsDir _) trivial hfound).trans ht
  cases found with
  | false => exact hx
  | true =>
      rcases h with halways | hnone
      · rw [storageEnv, halways] at hfound
        cases hfound.1
      · intro r y hwiped
        change y.fileAt p = s.fileAt p
        rw [hnone] at hx ⊢
        rcases storageEnv_elim hwiped with hwiped | ⟨-, -, -, hfiles⟩
        · obtain rfl := hwiped
          rw [x.fileAt_removeAll, hx, ite_self]
        · rcases hfiles p with hy | hy
          · exact hy
          · exact hy.trans hx

/-- A template file in the directory is seen, unless the listing fails. -/
theorem seen_of_listed {t : FileSystem} {r : Option (List Text)}
    (hdir : p.dir = userDirectoryName u)
    (hname : namesTemplate p.name = true)
    (hnever : fault (.openDirectory (userDirectoryName u)) = .never)
    (h : storageEnv C fault (.openDirectory (userDirectoryName u)) s r t)
    (hany : (r.getD []).any namesTemplate = false) : s.fileAt p = none := by
  rw [storageEnv, hnever] at h
  by_contra hpresent
  obtain ⟨content, hcontent⟩ := Option.ne_none_iff_exists'.mp hpresent
  have hd : s.hasDir (userDirectoryName u) = true := by
    rw [← hdir]
    exact FileSystem.hasDir_of_fileAt hcontent
  obtain ⟨-, l, l', hl, hperm, rfl⟩ := works_openDirectory hd h
  have hmem : p.name ∈ l' := by
    rw [hperm.mem_iff, FileSystem.mem_entries hl, ← hdir]
    exact ⟨content, hcontent⟩
  have hseen := List.any_eq_true.mpr ⟨p.name, hmem, hname⟩
  rw [Option.getD_some, hseen] at hany
  cases hany

theorem wp_wipeIfEmpty_spares (hdir : p.dir = userDirectoryName u)
    (hname : namesTemplate p.name = true)
    (h : fault (.openDirectory (userDirectoryName u)) = .never ∨
      fault (.existsDir (userDirectoryName u)) = .always ∨ s.fileAt p = none) :
    (wipeIfEmpty u).wp (storageEnv C fault) (fun _ t => t.fileAt p = s.fileAt p) s := by
  unfold wipeIfEmpty
  rw [wp_bind]
  refine wp_mono (wp_untouched (untouched_getUserDirectory p)) ?_
  rintro _ t ⟨rfl, ht⟩
  rw [invoke_bind]
  intro r x hlisted
  have hx : x.fileAt p = s.fileAt p :=
    (fileAt_of_spares (c := .openDirectory _) trivial hlisted).trans ht
  dsimp only
  cases hany : (r.getD []).any namesTemplate with
  | true => exact hx
  | false =>
      rw [Bool.not_false, if_pos rfl, wp_bind, ← hx]
      refine wp_removeUser_keeps ?_
      rcases h with hnever | halways | hnone
      · have hnone := seen_of_listed hdir hname hnever hlisted hany
        exact .inr (hx.trans (ht.symm.trans hnone))
      · exact .inl halways
      · exact .inr (hx.trans hnone)

theorem storageEnv_removeAll (s : FileSystem) (d : Text) :
    storageEnv C fault (.removeAll d) s () (s.removeAll d) := by
  by_cases hf : fault (.removeAll d) = .always
  · refine storageEnv_of_fails ⟨?_, ?_, ?_⟩ (by rw [hf]; exact nofun)
    · intro e he
      rw [FileSystem.hasDir, FileSystem.hasDir, FileSystem.removeAll, AList.lookup_erase_ne he]
    · intro p hp
      rw [s.fileAt_removeAll, if_neg hp]
    · intro p
      rw [s.fileAt_removeAll]
      by_cases hp : p.dir = d
      · exact .inl (if_pos hp)
      · exact .inr (if_neg hp)
  · exact storageEnv_of_works rfl hf

theorem may_getUserDirectory {Q : Text → FileSystem → Prop}
    (hexists : fault (.existsDir (userDirectoryName u)) ≠ .always)
    (hd : s.hasDir (userDirectoryName u) = true) (hQ : Q (userDirectoryName u) s) :
    (getUserDirectory u).may (storageEnv C fault) Q s := by
  unfold getUserDirectory
  rw [invoke_bind]
  exact ⟨true, s, storageEnv_of_works ⟨hd.symm, rfl⟩ hexists, hQ⟩

theorem may_getFilePath {Q : Path → FileSystem → Prop}
    (hexists : fault (.existsDir (userDirectoryName u)) ≠ .always)
    (hd : s.hasDir (userDirectoryName u) = true) (hQ : Q (filePath u f) s) :
    (getFilePath u f).may (storageEnv C fault) Q s := by
  unfold getFilePath
  rw [may_bind]
  exact may_getUserDirectory hexists hd hQ

theorem may_getPlaintextFilePath {Q : Path → FileSystem → Prop}
    (hexists : fault (.existsDir (userDirectoryName u)) ≠ .always)
    (hd : s.hasDir (userDirectoryName u) = true) (hQ : Q (plaintextPath u f) s) :
    (getPlaintextFilePath u f).may (storageEnv C fault) Q s := by
  unfold getPlaintextFilePath
  rw [may_bind]
  exact may_getUserDirectory hexists hd hQ

theorem may_removeIfPresent (q : Path) : (removeIfPresent q).may (storageEnv C fault)
    (fun _ t => t.hasDir (userDirectoryName u) = s.hasDir (userDirectoryName u)) s := by
  obtain ⟨found, hfound⟩ : ∃ found, storageEnv C fault (.exists q) s found s := by
    by_cases hf : fault (.exists q) = .always
    · exact ⟨false, storageEnv_of_fails ⟨rfl, rfl⟩ (by rw [hf]; exact nofun)⟩
    · exact ⟨_, storageEnv_of_works ⟨rfl, rfl⟩ hf⟩
  obtain ⟨removed, t, hremoved, hdir⟩ : ∃ removed t, storageEnv C fault (.remove q) s removed t ∧
      t.hasDir (userDirectoryName u) = s.hasDir (userDirectoryName u) := by
    by_cases hf : fault (.remove q) = .always
    · exact ⟨false, s, storageEnv_of_fails ⟨rfl, rfl⟩ (by rw [hf]; exact nofun), rfl⟩
    · exact ⟨true, s.erase q, storageEnv_of_works ⟨rfl, rfl⟩ hf, by simp⟩
  unfold removeIfPresent
  rw [invoke_bind]
  refine ⟨found, s, hfound, ?_⟩
  cases found with
  | false => rfl
  | true => exact ⟨removed, t, hremoved, hdir⟩

/-- A listing that fails may cost the user every file. -/
theorem exists_run_wipes (hopen : fault (.openDirectory (userDirectoryName u)) ≠ .never)
    (hexists : fault (.existsDir (userDirectoryName u)) ≠ .always)
    (hd : s.hasDir (userDirectoryName u) = true) :
    ∃ ok t, Run (storageEnv C fault) (deleteTemplate u f) s ok t ∧
      ∀ p : Path, p.dir = userDirectoryName u → t.fileAt p = none := by
  refine may_iff_run.mp ?_
  unfold deleteTemplate
  rw [may_bind]
  refine may_getFilePath hexists hd ?_
  rw [may_bind]
  refine may_getPlaintextFilePath hexists hd ?_
  rw [may_bind]
  refine may_mono (may_removeIfPresent (u := u) _) fun _ x hx => ?_
  rw [may_bind]
  refine may_mono (may_removeIfPresent (u := u) _) fun _ y hy => ?_
  have hdir : y.hasDir (userDirectoryName u) = true := hy.trans (hx.trans hd)
  unfold wipeIfEmpty removeUser
  rw [may_bind, may_bind]
  refine may_getUserDirectory hexists hdir ?_
  rw [invoke_bind]
  refine ⟨none, y, storageEnv_of_fails ⟨rfl, rfl⟩ hopen, ?_⟩
  -- the listing that failed is taken for an empty one
  have hempty : ((none : Option (List Text)).getD []).any namesTemplate = false := rfl
  dsimp only
  rw [hempty, Bool.not_false, if_pos rfl, may_bind, may_bind]
  refine may_getUserDirectory hexists hdir ?_
  rw [invoke_bind]
  refine ⟨true, y, storageEnv_of_works ⟨hdir.symm, rfl⟩ hexists, ?_⟩
  refine ⟨(), _, storageEnv_removeAll y _, ?_⟩
  intro p hp
  rw [y.fileAt_removeAll, if_pos hp]

end frame

/-- A deletion leaves every other file alone in all its runs if and only if the listing
of the user's directory cannot fail, or the test before the wiping always does, or the
directory holds no template file of another face. -/
theorem deleteTemplate_spares_iff (C : Crypto) (fault : StorageCall → Fault) (s : FileSystem)
    (u f : Int32) :
    (∀ ok t, Run (storageEnv C fault) (deleteTemplate u f) s ok t →
        ∀ p, OtherFile u f p → t.fileAt p = s.fileAt p) ↔
      fault (.openDirectory (userDirectoryName u)) = .never ∨
        fault (.existsDir (userDirectoryName u)) = .always ∨
        ∀ p : Path, p.dir = userDirectoryName u → OtherFile u f p → s.fileAt p = none := by
  constructor
  · intro h
    by_contra hcond
    obtain ⟨hopen, hcond⟩ := not_or.mp hcond
    obtain ⟨hexists, hcond⟩ := not_or.mp hcond
    obtain ⟨p, hcond⟩ := not_forall.mp hcond
    obtain ⟨hdir, hcond⟩ := Classical.not_imp.mp hcond
    obtain ⟨hother, hpresent⟩ := Classical.not_imp.mp hcond
    obtain ⟨content, hcontent⟩ := Option.ne_none_iff_exists'.mp hpresent
    have hd : s.hasDir (userDirectoryName u) = true := by
      rw [← hdir]
      exact FileSystem.hasDir_of_fileAt hcontent
    obtain ⟨ok, t, hrun, hwiped⟩ := exists_run_wipes (C := C) (f := f) hopen hexists hd
    exact hpresent ((h ok t hrun p hother).symm.trans (hwiped p hdir))
  · intro h
    suffices hwp : ∀ p, OtherFile u f p → (deleteTemplate u f).wp (storageEnv C fault)
        (fun _ t => t.fileAt p = s.fileAt p) s by
      intro ok t hrun p hp
      exact hrun.wp (hwp p hp)
    intro p hp
    rw [deleteTemplate_eq, wp_bind]
    refine wp_mono (wp_untouched (untouched_removeFiles hp.ne.1 hp.ne.2)) ?_
    rintro _ t ⟨-, ht⟩
    rw [wp_bind, ← ht]
    by_cases hdir : p.dir = userDirectoryName u
    · have hname : namesTemplate p.name = true := (hp.resolve_left fun h => h hdir).1
      refine wp_mono (wp_wipeIfEmpty_spares hdir hname ?_) fun _ _ hx => hx
      refine h.imp_right fun h => h.imp_right fun hnone => ?_
      exact ht.trans (hnone p hdir hp)
    · exact wp_mono (wp_untouched (untouched_wipeIfEmpty hdir)) fun _ _ hx => hx.2

/-- User 0 has the faces 1 and 2. -/
def twoFaces : FileSystem :=
  ((FileSystem.empty.mkdir (userDirectoryName 0)).put (filePath 0 1) [1]).put (filePath 0 2) [1]

/-- Only directories cannot be opened for iteration. -/
def unlistable : StorageCall → Fault
  | .openDirectory _ => .always
  | _ => .never

/-- Face 2 is lost when face 1 is deleted. -/
theorem delete_wipes_otherFace : ¬ ∀ (C : Crypto) (fault : StorageCall → Fault) (s t : FileSystem)
    (u f : Int32) (ok : Bool), Run (storageEnv C fault) (deleteTemplate u f) s ok t →
      ∀ p, OtherFile u f p → t.fileAt p = s.fileAt p := by
  intro h
  have hfile : twoFaces.fileAt (filePath 0 2) = some [1] :=
    FileSystem.fileAt_put_self _ _ _ (by simp)
  obtain ⟨ok, t, hrun, hwiped⟩ : ∃ ok t,
      Run (storageEnv toyCrypto.toCrypto unlistable) (deleteTemplate 0 1) twoFaces ok t ∧
        ∀ p : Path, p.dir = userDirectoryName 0 → t.fileAt p = none :=
    exists_run_wipes nofun nofun (FileSystem.hasDir_of_fileAt hfile)
  have hother : OtherFile 0 1 (filePath 0 2) := by
    obtain ⟨hname, hface⟩ := (ProgramName.encrypted : ProgramName 2 _).parse
    refine .inr ⟨hname, ?_⟩
    rw [filePath, hface]
    decide
  have hkept := h _ _ _ t 0 1 ok hrun _ hother
  rw [hfile, hwiped _ rfl] at hkept
  cases hkept

end FaceStorageManager
end FaceHal
