import FaceHal.DeletionScope
import FaceHal.EnrollmentRace
import FaceHal.RemovalReport

/-!
# Enrolling while faces are removed

A frame worker saves a template while other threads load, delete and wipe. A deletion
that finds no name of a template in its listing wipes the whole directory, and
`fs::remove_all` is not one step: it lists the directory once more, unlinks what it has
listed and then gives the directory up if it is empty. So the directory can be gone before
the save opens its file, and a face that was never deleted can go with the directory. The
last theorem says when the new template survives all this.
-/
namespace FaceHal

theorem FileSystem.fileAt_of_entries_nil {s : FileSystem} {d : Text} (h : s.entries d = some [])
    {p : Path} (hp : p.dir = d) : s.fileAt p = none := by
  obtain ⟨dir, hdir, hkeys⟩ := Option.map_eq_some_iff.mp h
  have hnone : dir.lookup p.name = none := by
    rw [AList.lookup_eq_none, AList.mem_keys, hkeys]
    exact List.not_mem_nil
  rw [fileAt, hp, hdir, Option.bind_some, hnone]

namespace Program
variable {I : Interface} {α : Type} {p : Program I α}

theorem Issues.uses {P : I.Call → Prop} {Q : α → Prop} (h : p.Issues P Q) : p.Uses P := by
  induction p with
  | done a => trivial
  | call c next ih => exact ⟨h.1, fun r => ih r (h.2 r)⟩

theorem uses_each {ι : Type} {P : ι → I.Call → Prop} (h : ∀ i, p.Uses (P i)) :
    p.Uses fun c => ∀ i, P i c := by
  induction p with
  | done a => trivial
  | call c next ih => exact ⟨fun i => (h i).1, fun r => ih r fun i => (h i).2 r⟩

end Program

namespace FaceStorageManager
open FaceTemplateSerializer Program

/-- The store while several threads use it. What is left of a recursive removal, after its
files, is a call of `rmdir`. -/
def sharedEnv (C : Crypto) : Environment StorageI FileSystem
  | .removeAll d, s, _, t => t = if s.entries d = some [] then s.removeAll d else s
  | c, s, r, t => concurrentEnv C c s r t

def removeEntries (dir : Text) : List Text → Program StorageI Unit
  | [] => return ()
  | filename :: rest => do
      let _ ← invoke (.remove ⟨dir, filename⟩)
      removeEntries dir rest

/-- The steps of `fs::remove_all` on a directory of files. -/
def removeTree (dir : Text) : Program StorageI Unit := do
  removeEntries dir ((← invoke (.openDirectory dir)).getD [])
  invoke (.removeAll dir)

def inSteps : (c : StorageCall) → Program StorageI c.Reply
  | .removeAll dir => removeTree dir
  | c => invoke c

/-- What other threads ask of the store. -/
inductive StoreUse where
  | save (tmpl : FaceTemplate)
  | load (userId faceId : Int32)
  | loadAll (userId : Int32)
  | delete (userId faceId : Int32)
  | wipe (userId : Int32)
deriving DecidableEq, Repr

namespace StoreUse

def program : StoreUse → Program StorageI Unit
  | .save tmpl => do
      let _ ← saveTemplate tmpl
  | .load userId faceId => do
      let _ ← loadTemplate userId faceId freshTemplate
  | .loadAll userId => do
      let _ ← loadAllTemplatesForUser userId
  | .delete userId faceId => do
      let _ ← deleteTemplate userId faceId
  | .wipe userId => do
      let _ ← removeUser userId

def Saves (u f : Int32) : StoreUse → Prop
  | .save tmpl => tmpl.userId = u ∧ tmpl.faceId = f
  | _ => False

end StoreUse

/-- The store as another thread uses it. -/
def useStore : List StoreUse → Program StorageI Unit
  | [] => return ()
  | use :: uses => do
      use.program.expand inSteps
      useStore uses

/-- A call that changes this file only by removing it. -/
def RemovesOnly (p : Path) : StorageCall → Prop
  | .remove _ | .removeAll _ => True
  | c => c.Spares p

section writes
variable {p : Path}

theorem removesOnly_of_spares {c : StorageCall} (h : c.Spares p) : RemovesOnly p c := by
  cases c with
  | remove _ | removeAll _ => trivial
  | _ => exact h

theorem removesOnly_of_writesNone {c : StorageCall} (h : c.WritesNone) : RemovesOnly p c := by
  cases c with
  | openTruncated _ | write _ _ | close _ | rename _ _ | unlink _ => exact h.elim
  | _ => trivial

theorem removesOnly_writeAndRename {final : Path} (stale : Path) (data : Bytes)
    (htemp : p ≠ tempPath final) (hfinal : p ≠ final) :
    (writeAndRename final stale data).Issues (RemovesOnly p) fun _ => True := by
  unfold writeAndRename
  refine issues_invoke htemp fun opened => ?_
  split_ifs
  · trivial
  refine issues_invoke htemp fun _ => issues_invoke htemp fun _ => ?_
  refine issues_invoke trivial fun _ => issues_invoke ⟨htemp, hfinal⟩ fun moved => ?_
  split_ifs
  · exact issues_invoke htemp fun _ => trivial
  · refine issues_bind (R := fun _ => True) ?_ fun _ _ => trivial
    exact ((uses_removeIfPresent stale).mono fun _ hc => removesOnly_of_writesNone hc).issues

theorem removesOnly_saveTemplate {t : FaceTemplate} (hp : ¬ FacePath t.userId t.faceId p) :
    (saveTemplate t).Issues (RemovesOnly p) fun _ => True := by
  have hne : ∀ {q}, FacePath t.userId t.faceId q → p ≠ q := by
    rintro _ hq rfl
    exact hp hq
  have hpath := (untouched_getFilePath (u := t.userId) (f := t.faceId) p).mono
    fun _ hc => removesOnly_of_spares hc
  have hplain := (untouched_getPlaintextFilePath (u := t.userId) (f := t.faceId) p).mono
    fun _ hc => removesOnly_of_spares hc
  unfold saveTemplate
  refine issues_bind (R := fun _ => True) ?_ fun serializedData _ => ?_
  · refine issues_invoke trivial fun mac => ?_
    split_ifs <;> trivial
  split_ifs
  · trivial
  refine issues_bind hpath ?_
  rintro _ rfl
  refine issues_bind hplain ?_
  rintro _ rfl
  refine issues_invoke trivial fun dataToWrite => ?_
  split_ifs
  · refine issues_bind hpath ?_
    rintro _ rfl
    exact removesOnly_writeAndRename _ _ (hne ⟨rfl, .plaintextTemp⟩) (hne ⟨rfl, .plaintext⟩)
  · exact removesOnly_writeAndRename _ _ (hne ⟨rfl, .encryptedTemp⟩) (hne ⟨rfl, .encrypted⟩)

theorem uses_removeEntries (dir : Text) (names : List Text) :
    (removeEntries dir names).Uses (RemovesOnly p) := by
  induction names with
  | nil => trivial
  | cons n names ih => exact ⟨trivial, fun _ => ih⟩

theorem uses_inSteps {c : StorageCall} (hc : RemovesOnly p c) :
    (inSteps c).Uses (RemovesOnly p) := by
  cases c with
  | removeAll dir =>
      unfold inSteps removeTree
      rw [uses_invoke_bind]
      refine ⟨trivial, fun names => ?_⟩
      exact uses_bind (uses_removeEntries dir _) fun _ => ⟨trivial, fun _ => trivial⟩
  | _ => exact ⟨hc, fun _ => trivial⟩

theorem writesNone_of_walks {c : StorageCall} (hc : c.Walks) : c.WritesNone := by
  obtain (hc | ⟨p, rfl⟩) | ⟨d, rfl⟩ := hc
  · exact hc.writesNone
  · trivial
  · trivial

theorem removesOnly_program {use : StoreUse}
    (h : ∀ t, use = .save t → ¬ FacePath t.userId t.faceId p) :
    use.program.Uses (RemovesOnly p) := by
  have hreading : ∀ {α : Type} {q : Program StorageI α}, q.Uses StorageCall.WritesNone →
      (q >>= fun _ => .done ()).Uses (RemovesOnly p) := fun hq =>
    uses_bind (hq.mono fun _ hc => removesOnly_of_writesNone hc) fun _ => trivial
  cases use with
  | save t =>
      exact uses_bind ((removesOnly_saveTemplate (h t rfl)).uses) fun _ => trivial
  | load v g => exact hreading ((uses_loadTemplate v g _).mono fun _ hc => hc.writesNone)
  | loadAll v => exact hreading ((uses_loadAllTemplatesForUser v).mono fun _ => writesNone_of_walks)
  | delete v g => exact hreading (uses_deleteTemplate v g)
  | wipe v => exact hreading (uses_removeUser v)

end writes

/-- A call that changes the files of this face only by removing them. -/
def RemovesOf (u f : Int32) (c : StorageCall) : Prop := ∀ p : Subtype (FacePath u f), RemovesOnly p c

theorem uses_useStore {u f : Int32} {uses : List StoreUse} (h : ∀ use ∈ uses, ¬ use.Saves u f) :
    (useStore uses).Uses (RemovesOf u f) := by
  refine uses_each fun p => ?_
  induction uses with
  | nil => trivial
  | cons use uses ih =>
      refine uses_bind (uses_expand (fun c hc => uses_inSteps hc) (removesOnly_program ?_))
        fun _ => ih fun other hother => h other (List.mem_cons_of_mem use hother)
      rintro t rfl hp
      exact h (.save t) List.mem_cons_self (hp.inj p.2)

theorem spares_of_removesOnly {c : StorageCall} {p : Path} (hremove : ¬ ∃ q, c = .remove q)
    (hall : ¬ ∃ d, c = .removeAll d) (hc : RemovesOnly p c) : c.Spares p := by
  cases c with
  | remove q => exact (hremove ⟨q, rfl⟩).elim
  | removeAll d => exact (hall ⟨d, rfl⟩).elim
  | _ => exact hc

theorem storageEnv_of_sharedEnv {C : Crypto} {s t : FileSystem} {c : StorageCall} {r : c.Reply}
    (hall : ¬ ∃ d, c = .removeAll d) (hlist : ¬ ∃ d, c = .openDirectory d)
    (h : sharedEnv C c s r t) : storageEnv C encryptionMayFail c s r t := by
  cases c with
  | removeAll d => exact (hall ⟨d, rfl⟩).elim
  | openDirectory d => exact (hlist ⟨d, rfl⟩).elim
  | _ => exact h

/-- One call of another thread, on the files of a face that it does not write. -/
theorem sharedStep {C : Crypto} {u f : Int32} {s t : FileSystem} {c : StorageCall} {r : c.Reply}
    (hc : RemovesOf u f c) (h : sharedEnv C c s r t) :
    (∃ q, c = .remove q ∧ t = s.erase q) ∨
      (∀ q, c ≠ .remove q) ∧ ∀ p, FacePath u f p → t.fileAt p = s.fileAt p := by
  by_cases hremove : ∃ q, c = .remove q
  · obtain ⟨q, rfl⟩ := hremove
    obtain ⟨-, rfl⟩ : Works C (.remove q) s r t := h
    exact .inl ⟨q, rfl, rfl⟩
  refine .inr ⟨fun q hq => hremove ⟨q, hq⟩, fun p hp => ?_⟩
  by_cases hall : ∃ d, c = .removeAll d
  · obtain ⟨d, rfl⟩ := hall
    obtain rfl : t = if s.entries d = some [] then s.removeAll d else s := h
    split_ifs with hnil
    · rw [FileSystem.fileAt_removeAll]
      split_ifs with hdir
      · exact (FileSystem.fileAt_of_entries_nil hnil hdir).symm
      · rfl
    · rfl
  by_cases hlist : ∃ d, c = .openDirectory d
  · obtain ⟨d, rfl⟩ := hlist
    obtain rfl : t = s := h
    rfl
  have hspares := spares_of_removesOnly hremove hall (hc ⟨p, hp⟩)
  exact fileAt_of_spares hspares (storageEnv_of_sharedEnv hall hlist h)

theorem absent_of_sharedStep {C : Crypto} {u f : Int32} {s t : FileSystem} {c : StorageCall}
    {r : c.Reply} (hc : RemovesOf u f c) (h : sharedEnv C c s r t) {p : Path}
    (hp : FacePath u f p) (hs : s.fileAt p = none) : t.fileAt p = none := by
  obtain ⟨q, -, rfl⟩ | ⟨-, hsame⟩ := sharedStep hc h
  · rw [FileSystem.fileAt_erase, hs, ite_self]
  · rw [hsame p hp, hs]

section stable
variable {C : Crypto} {u f : Int32} {p : Path} {data : Bytes}

theorem shared_absent (hp : FacePath u f p) :
    Stable (sharedEnv C) (RemovesOf u f) (Absent p) := by
  rintro x y hx ⟨c, r, hc, hstep, -⟩
  exact absent_of_sharedStep hc hstep hp hx

theorem shared_notYetWritten : Stable (sharedEnv C) (RemovesOf u f) NotYetWritten := by
  rintro ⟨s, tr⟩ ⟨t, tr'⟩ ⟨hplace, hspares⟩ ⟨c, r, hc, -, htr⟩
  obtain rfl : tr' = tr ++ [.inr ⟨c, r⟩] := htr
  refine ⟨newDataAt_right.trans hplace, sparesNewData_right.mpr ⟨hspares, ?_⟩⟩
  intro p _ hp
  rw [show newDataAt tr = none from hplace] at hp
  cases hp

theorem shared_lost : Stable (sharedEnv C) (RemovesOf u f) fun x => ¬ SparesNewData x.2 := by
  rintro ⟨s, tr⟩ ⟨t, tr'⟩ hx ⟨c, r, hc, -, htr⟩ hy
  obtain rfl : tr' = tr ++ [.inr ⟨c, r⟩] := htr
  exact hx (sparesNewData_right.mp hy).1

theorem shared_holding (hp : FacePath u f p) :
    Stable (sharedEnv C) (RemovesOf u f) (Holding p data) := by
  rintro ⟨s, tr⟩ ⟨t, tr'⟩ ⟨hplace, hcontent⟩ ⟨c, r, hc, hstep, htr⟩
  obtain rfl : tr' = tr ++ [.inr ⟨c, r⟩] := htr
  refine ⟨newDataAt_right.trans hplace, ?_⟩
  rcases hcontent with ⟨hspares, hfile⟩ | ⟨hlost, hfile⟩
  · have hplace : newDataAt tr = some p := hplace
    obtain ⟨q, rfl, ht⟩ | ⟨hno, hsame⟩ := sharedStep hc hstep
    · obtain rfl : t = s.erase q := ht
      by_cases hq : p = q
      · subst hq
        refine .inr ⟨fun h => ?_, FileSystem.fileAt_erase_self _ _⟩
        exact (sparesNewData_right.mp h).2 p rfl hplace
      · refine .inl ⟨sparesNewData_right.mpr ⟨hspares, ?_⟩, ?_⟩
        · intro p' hp' hat
          obtain rfl := StorageCall.remove.inj hp'
          exact hq (Option.some.inj (hplace.symm.trans hat))
        · exact (FileSystem.fileAt_erase_ne s hq).trans hfile
    · refine .inl ⟨sparesNewData_right.mpr ⟨hspares, fun q hq => absurd hq (hno q)⟩, ?_⟩
      exact (hsame p hp).trans hfile
  · refine .inr ⟨fun h => hlost (sparesNewData_right.mp h).1, ?_⟩
    exact absent_of_sharedStep hc hstep hp hfile

end stable

/-- The environment of a save while other threads use the store. -/
def sharingEnv (C : Crypto) (u f : Int32) : Environment StorageI RaceState :=
  disturbed (sharedEnv C) (RemovesOf u f)

/-- How the save ends. When it fails, it has opened no file or the file was taken away. -/
def Finished (final stale : Path) (data : Bytes) (ok : Bool) (x : RaceState) : Prop :=
  ok = true ∧ Holding final data x ∧ Absent stale x ∨
    ok = false ∧ (NotYetWritten x ∨ ¬ SparesNewData x.2)

section save
variable {C : LawfulCrypto} {x : RaceState} {u f : Int32} {final stale : Path} {data : Bytes}

theorem shared_finished (hfinal : FacePath u f final) (hstale : FacePath u f stale) (ok : Bool) :
    Stable (sharedEnv C.toCrypto) (RemovesOf u f) (Finished final stale data ok) := by
  rintro x y (⟨hok, hx⟩ | ⟨hok, hx | hx⟩) hstep
  · exact .inl ⟨hok, (shared_holding hfinal).and (shared_absent hstale) x y hx hstep⟩
  · exact .inr ⟨hok, .inl (shared_notYetWritten x y hx hstep)⟩
  · exact .inr ⟨hok, .inr (shared_lost x y hx hstep)⟩

theorem wp_getUserDirectory_shared (hx : NotYetWritten x) :
    (getUserDirectory u).wp (sharingEnv C.toCrypto u f)
      (fun d y => d = userDirectoryName u ∧ NotYetWritten y) x := by
  unfold getUserDirectory
  rw [invoke_bind]
  refine wp_disturbed shared_notYetWritten hx fun y found t hy _ => ?_
  have hy' := hy.left (s := t) (e := ⟨.existsDir (userDirectoryName u), found⟩) nofun nofun
  cases found with
  | true => exact ⟨rfl, hy'⟩
  | false =>
      refine wp_disturbed shared_notYetWritten hy' fun z r t hz _ => ?_
      have hz' := hz.left (s := t) (e := ⟨.createDirectories (userDirectoryName u), r⟩) nofun nofun
      refine wp_disturbed shared_notYetWritten hz' fun w r t hw _ => ?_
      exact ⟨rfl, hw.left nofun nofun⟩

theorem wp_path_shared (name : Text) (hx : NotYetWritten x) :
    (do return ⟨← getUserDirectory u, name⟩ : Program StorageI Path).wp (sharingEnv C.toCrypto u f)
      (fun p y => p = ⟨userDirectoryName u, name⟩ ∧ NotYetWritten y) x := by
  rw [wp_bind]
  refine wp_mono (wp_getUserDirectory_shared hx) ?_
  rintro _ y ⟨rfl, hy⟩
  exact ⟨rfl, hy⟩

theorem wp_removeIfPresent_shared (hne : final ≠ stale) (hfinal : FacePath u f final)
    (hx : Holding final data x) :
    (removeIfPresent stale).wp (sharingEnv C.toCrypto u f)
      (fun _ y => Holding final data y ∧ Absent stale y) x := by
  unfold removeIfPresent
  rw [invoke_bind]
  refine wp_disturbed (shared_holding hfinal) hx fun y r t hy hcall => ?_
  obtain ⟨rfl, rfl⟩ : Works C.toCrypto (.exists stale) y.1 r t := hcall
  have hy' : Holding final data (y.1, y.2 ++ [.inl ⟨.exists stale, (y.1.fileAt stale).isSome⟩]) :=
    hy.left (by rintro _ ⟨⟩) (by rintro _ _ ⟨⟩) rfl
  cases hs : (y.1.fileAt stale).isSome with
  | false =>
      rw [hs] at hy'
      exact ⟨hy', by simpa [Absent] using hs⟩
  | true =>
      rw [hs] at hy'
      refine wp_disturbed (shared_holding hfinal) hy' fun z r t hz hcall => ?_
      obtain ⟨-, rfl⟩ : Works C.toCrypto (.remove stale) z.1 r t := hcall
      exact ⟨hz.left (by rintro _ ⟨⟩) (by rintro _ _ ⟨⟩) (FileSystem.fileAt_erase_ne _ hne),
        FileSystem.fileAt_erase_self _ _⟩

theorem wp_writeAndRename_shared (hne : final ≠ stale) (htemp : FacePath u f (tempPath final))
    (hfinal : FacePath u f final) (hx : NotYetWritten x) :
    (writeAndRename final stale data).wp (sharingEnv C.toCrypto u f)
      (Finished final stale data) x := by
  unfold writeAndRename
  rw [invoke_bind]
  refine wp_disturbed shared_notYetWritten hx fun y r t hy hcall => ?_
  obtain ⟨rfl, rfl⟩ : Works C.toCrypto (.openTruncated (tempPath final)) y.1 r t := hcall
  cases hdir : y.1.hasDir (tempPath final).dir with
  | false =>
      -- the directory was given up before the file could be made
      exact .inr ⟨rfl, .inl ⟨(newDataAt_append _ _).trans hy.1, sparesNewData_left.mpr hy.2⟩⟩
  | true =>
      rw [Bool.not_true, if_neg Bool.false_ne_true, invoke_bind]
      refine wp_disturbed (shared_holding htemp) (holding_opened hy hdir) fun y r t hy hcall => ?_
      obtain ⟨-, rfl⟩ : Works C.toCrypto (.write (tempPath final) data) y.1 r t := hcall
      have hwritten : Holding (tempPath final) data (y.1.append (tempPath final) data,
          y.2 ++ [.inl ⟨.write (tempPath final) data, r⟩]) := by
        refine ⟨(newDataAt_left (e := ⟨.write (tempPath final) data, r⟩) nofun nofun).trans
          hy.place, ?_⟩
        rw [sparesNewData_left, FileSystem.fileAt_append]
        refine hy.content.imp ?_ ?_
        · rintro ⟨hspares, hfile⟩
          rw [hfile]
          exact ⟨hspares, rfl⟩
        · rintro ⟨hlost, hfile⟩
          rw [hfile]
          exact ⟨hlost, rfl⟩
      rw [invoke_bind]
      refine wp_disturbed (shared_holding htemp) hwritten fun y r t hy hcall => ?_
      obtain ⟨-, rfl⟩ : Works C.toCrypto (.close (tempPath final)) y.1 r t := hcall
      have hclosed := hy.left (s := y.1) (e := ⟨.close (tempPath final), r⟩) nofun nofun rfl
      rw [invoke_bind]
      refine wp_disturbed (shared_holding htemp) hclosed fun y r t hy hcall => ?_
      obtain rfl : t = y.1 := hcall
      have hmode := hy.left (s := y.1) (e := ⟨.chmod (tempPath final) 0o600, r⟩) nofun nofun rfl
      rw [invoke_bind]
      refine wp_disturbed (shared_holding htemp) hmode fun y r t hy hcall => ?_
      have hworks : Works C.toCrypto (.rename (tempPath final) final) y.1 r t := hcall
      rcases hy.content with ⟨hspares, hfile⟩ | ⟨hlost, hfile⟩
      · have hdir : y.1.hasDir final.dir = true :=
          FileSystem.hasDir_of_fileAt (p := tempPath final) hfile
        simp only [Works, hfile, hdir] at hworks
        obtain ⟨rfl, rfl⟩ := hworks
        have hplaced : Holding final data ((y.1.erase (tempPath final)).put final data,
            y.2 ++ [.inl ⟨.rename (tempPath final) final, true⟩]) := by
          refine ⟨newDataAt_append _ _, .inl ⟨sparesNewData_left.mpr hspares, ?_⟩⟩
          exact FileSystem.fileAt_put_self _ _ _ ((FileSystem.hasDir_erase _ _ _).trans hdir)
        rw [Bool.not_true, if_neg Bool.false_ne_true, wp_bind]
        refine wp_mono (wp_removeIfPresent_shared hne hfinal hplaced) ?_
        intro _ z hz
        exact .inl ⟨rfl, hz⟩
      · simp only [Works, hfile] at hworks
        obtain ⟨rfl, rfl⟩ := hworks
        rw [Bool.not_false, if_pos rfl, invoke_bind]
        refine wp_disturbed shared_lost (fun h => hlost (sparesNewData_left.mp h)) ?_
        intro z r t hz _
        exact .inr ⟨rfl, .inr fun h => hz (sparesNewData_left.mp h)⟩

end save

section race
variable {C : LawfulCrypto} {x : RaceState} {t : FaceTemplate}

/-- How a save ends whatever the other threads do. -/
def SaveSettles (C : Crypto) (t : FaceTemplate) (ok : Bool) (x : RaceState) : Prop :=
  ∃ final stale data, SavedAs C t final stale data ∧ Finished final stale data ok x

theorem SavedAs.facePaths {final stale : Path} {data : Bytes}
    (h : SavedAs C.toCrypto t final stale data) :
    FacePath t.userId t.faceId final ∧ FacePath t.userId t.faceId stale := by
  cases h with
  | encrypted n => exact ⟨⟨rfl, .encrypted⟩, ⟨rfl, .plaintext⟩⟩
  | plaintext => exact ⟨⟨rfl, .plaintext⟩, ⟨rfl, .encrypted⟩⟩

theorem shared_saveSettles (ok : Bool) :
    Stable (sharedEnv C.toCrypto) (RemovesOf t.userId t.faceId) (SaveSettles C.toCrypto t ok) := by
  rintro x y ⟨final, stale, data, hsaved, hx⟩ hstep
  obtain ⟨hfinal, hstale⟩ := hsaved.facePaths
  exact ⟨final, stale, data, hsaved, shared_finished hfinal hstale ok x y hx hstep⟩

theorem wp_serialize_shared {u f : Int32} (hx : NotYetWritten x) :
    (serialize t).wp (sharingEnv C.toCrypto u f)
      (fun d y => d = serialized C.toCrypto t ∧ NotYetWritten y) x := by
  unfold serialize
  rw [invoke_bind]
  refine wp_disturbed shared_notYetWritten hx fun y r s hy hcall => ?_
  obtain ⟨hr, rfl⟩ : Works C.toCrypto (.generateMac (payload t)) y.1 r s := hcall
  rw [if_neg (payload_ne_nil t)] at hr
  subst hr
  rw [if_neg (mac_ne_nil C _)]
  exact ⟨rfl, hy.left nofun nofun⟩

theorem wp_saveTemplate_shared (hx : NotYetWritten x) :
    (saveTemplate t).wp (sharingEnv C.toCrypto t.userId t.faceId) (SaveSettles C.toCrypto t) x := by
  have hne := serialized_ne_nil C.toCrypto t
  unfold saveTemplate
  rw [wp_bind]
  refine wp_mono (wp_serialize_shared hx) ?_
  rintro _ y ⟨rfl, hy⟩
  rw [if_neg hne, wp_bind]
  refine wp_mono (wp_path_shared (fileName t.faceId) hy) ?_
  rintro _ y ⟨rfl, hy⟩
  rw [wp_bind]
  refine wp_mono (wp_path_shared (plaintextFileName t.faceId) hy) ?_
  rintro _ y ⟨rfl, hy⟩
  rw [invoke_bind]
  refine wp_disturbed shared_notYetWritten hy fun y r s hy hcall => ?_
  have hencrypt : (∃ n, r = C.encrypt n t.userId (serialized C.toCrypto t) ∨ r = []) ∧ s = y.1 := by
    rcases (show _ ∨ _ from hcall) with ⟨⟨n, hr⟩, hs⟩ | ⟨hr, hs⟩
    · rw [if_neg hne] at hr
      exact ⟨⟨n, .inl hr⟩, hs⟩
    · exact ⟨⟨0, .inr hr⟩, hs⟩
  obtain ⟨⟨n, hr⟩, rfl⟩ := hencrypt
  have hy' := hy.left (s := y.1)
    (e := ⟨.encrypt t.userId (serialized C.toCrypto t), r⟩) nofun nofun
  rcases hr with rfl | rfl
  · rw [if_neg (C.encrypt_ne_nil n _ _ hne)]
    have hpaths : filePath t.userId t.faceId ≠ plaintextPath t.userId t.faceId := by simp
    refine wp_mono (wp_writeAndRename_shared hpaths ⟨rfl, .encryptedTemp⟩
      ⟨rfl, .encrypted⟩ hy') ?_
    intro ok z hz
    exact ⟨_, _, _, .encrypted n, hz⟩
  · rw [if_pos rfl, wp_bind]
    refine wp_mono (wp_path_shared (fileName t.faceId) hy') ?_
    rintro _ y ⟨rfl, hy⟩
    have hpaths : plaintextPath t.userId t.faceId ≠ filePath t.userId t.faceId := by simp
    refine wp_mono (wp_writeAndRename_shared hpaths ⟨rfl, .plaintextTemp⟩
      ⟨rfl, .plaintext⟩ hy) ?_
    intro ok z hz
    exact ⟨_, _, _, .plaintext, hz⟩

/-- An enrolment survives any saves of other faces, loads, deletions and wipes at the same
time if and only if the template fits the format, the directory was there when the save
opened its file, and nothing removed the file that held the new data. -/
theorem enrolled_iff_shared {s y : FileSystem} {tr : PairTrace StorageI} {ok : Bool}
    {uses : List StoreUse} (hv : t.version = C.currentVersion)
    (huses : ∀ use ∈ uses, ¬ use.Saves t.userId t.faceId)
    (h : Interleaved (sharedEnv C.toCrypto) (saveTemplate t) (useStore uses) s tr ok () y) :
    Enrolled C.toCrypto t ok y ↔ Fits t ∧ newDataAt tr ≠ none ∧ SparesNewData tr := by
  have hstart : NotYetWritten (s, []) := by
    refine ⟨rfl, ?_⟩
    intro pre e post p heq
    simp at heq
  obtain ⟨final, stale, data, hsaved, hend⟩ := h.wp_left (uses_useStore huses)
    (wp_saveTemplate_shared hstart) shared_saveSettles
  unfold Enrolled
  rw [loadOutcomes_eq]
  rcases hend with ⟨rfl, ⟨hplace, hcontent⟩, hstale⟩ | ⟨rfl, hnot⟩
  · have hopened : newDataAt tr ≠ none := by
      rw [show newDataAt tr = some final from hplace]
      exact Option.some_ne_none final
    rcases hcontent with ⟨hspares, hfile⟩ | ⟨hlost, hfile⟩
    · have hright : Fits t ∧ newDataAt tr ≠ none ∧ SparesNewData tr ↔ Fits t :=
        and_iff_left ⟨hopened, hspares⟩
      rw [hright, ← record_serialized_iff C hv, ← stored_of_savedAs hsaved hfile hstale]
      constructor
      · rintro ⟨-, hload⟩
        exact hload _ rfl
      · intro hload
        refine ⟨rfl, ?_⟩
        rintro o rfl
        exact hload
    · refine iff_of_false ?_ fun h => hlost h.2.2
      rintro ⟨-, hload⟩
      have hnone := hload none (stored_of_absent hsaved hfile hstale).symm
      cases hnone
  · refine iff_of_false ?_ ?_
    · rintro ⟨hok, -⟩
      cases hok
    · rintro ⟨-, hopened, hspares⟩
      exact hnot.elim (fun h => hopened h.1) fun h => h hspares

end race

/-- Every call answered, with `rmdir` for the end of a recursive removal. -/
def answerShared (C : Crypto) : (c : StorageCall) → FileSystem → c.Reply × FileSystem
  | .removeAll d, s => ((), if s.entries d = some [] then s.removeAll d else s)
  | c, s => answer C 0 c s

theorem sharedEnv_answerShared (c : StorageCall) (s : FileSystem) :
    sharedEnv toyCrypto.toCrypto c s (answerShared toyCrypto.toCrypto c s).1
      (answerShared toyCrypto.toCrypto c s).2 := by
  have hanswer := concurrentEnv_of_storageEnv (storageEnv_answer c s)
  cases c with
  | removeAll d => rfl
  | _ => exact hanswer

/-- Another face is deleted: its listing comes before the save opens its file, and the
wiping after the save is done. -/
def wipedSchedule : List Bool :=
  List.replicate 6 true ++ List.replicate 6 false ++ List.replicate 6 true ++
    List.replicate 5 false

def wipedSave : Option (PairTrace StorageI × Bool × Unit × FileSystem) :=
  replayPair (answerShared toyCrypto.toCrypto) wipedSchedule (saveTemplate sampleTemplate)
    (useStore [.delete 0 7]) .empty

theorem wipedSave_ends : ∃ out, wipedSave = some out ∧ out.2.1 = true ∧
    stored toyCrypto.toCrypto 0 2 out.2.2.2 = none := by
  have hmap : (wipedSave.map fun out => (out.2.1, stored toyCrypto.toCrypto 0 2 out.2.2.2)) =
      some (true, none) := by
    decide +kernel
  obtain ⟨out, hout, heq⟩ := Option.map_eq_some_iff.mp hmap
  exact ⟨out, hout, congrArg Prod.fst heq, congrArg Prod.snd heq⟩

/-- The save succeeds and the face is gone although only another one was deleted. -/
theorem enrolled_iff_shared_wiped : ∃ tr y,
    Interleaved (sharedEnv toyCrypto.toCrypto) (saveTemplate sampleTemplate)
      (useStore [.delete 0 7]) .empty tr true () y ∧ ¬ (newDataAt tr ≠ none ∧ SparesNewData tr) := by
  obtain ⟨⟨tr, ok, ⟨⟩, y⟩, hout, hok, hgone⟩ := wipedSave_ends
  obtain rfl : ok = true := hok
  have hrun := interleaved_of_replayPair sharedEnv_answerShared hout
  have hother : ∀ use ∈ [StoreUse.delete 0 7], ¬ use.Saves 0 2 := by
    intro use huse
    obtain rfl := List.mem_singleton.mp huse
    exact id
  refine ⟨tr, y, hrun, ?_⟩
  rintro ⟨hopened, hspares⟩
  have henrolled := (enrolled_iff_shared (C := toyCrypto) rfl hother hrun).mpr
    ⟨fits_sampleTemplate, hopened, hspares⟩
  have hload := henrolled.2
  rw [loadOutcomes_eq] at hload
  have hnone := hload none hgone.symm
  cases hnone

end FaceStorageManager
end FaceHal
