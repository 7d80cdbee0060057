import FaceHal.AutoClean
import FaceHal.Interleaving
import FaceHal.IoFailure

/-!
# Enrolling while a session starts

A frame worker saves a template while the constructor of a new session loads all
templates of the same user from the same directory. The loader takes any name
with `.dat` in it for a template, the temporary file of the save included, and
removes by path what did not load a few calls before. The last theorem says in
which interleavings the new template survives: exactly in those where no removal
of the loader hits the file that holds the new data at that moment.

A template file changes only by renaming and removal, so reading one is a single
step here: an open descriptor keeps what the file held when it was opened.
-/
namespace FaceHal

theorem FileSystem.fileAt_append (s : FileSystem) (p : Path) (data : Bytes) :
    (s.append p data).fileAt p = (s.fileAt p).map (· ++ data) := by
  cases h : s.fileAt p with
  | none => rw [append, h, h, Option.map_none]
  | some content => rw [fileAt_append_self data h, Option.map_some]

namespace FaceStorageManager
open FaceTemplateSerializer Program

/-- The store while two threads use it. An iterator that is open while files come
and go may yield names of different moments, so what a listing holds is left open. -/
def concurrentEnv (C : Crypto) : Environment StorageI FileSystem
  | .openDirectory _, s, _, t => t = s
  | c, s, r, t => storageEnv C encryptionMayFail c s r t

/-- Where the newest data of a save is after an event. -/
def movedTo : Option Path → Event StorageI ⊕ Event StorageI → Option Path
  | _, .inl ⟨.openTruncated p, true⟩ => some p
  | _, .inl ⟨.rename _ q, true⟩ => some q
  | place, _ => place

/-- The file that holds the data of the save: its temporary file from the moment
it is opened, the final one from the rename on. -/
def newDataAt (tr : PairTrace StorageI) : Option Path := tr.foldl movedTo none

/-- No removal of the loader hits the file that holds the data of the save. -/
def SparesNewData (tr : PairTrace StorageI) : Prop :=
  ∀ pre e post p, tr = pre ++ .inr e :: post → e.call = .remove p → newDataAt pre ≠ some p

section trace
variable {tr : PairTrace StorageI} {e : Event StorageI} {p : Path}

theorem newDataAt_append (tr : PairTrace StorageI) (x : Event StorageI ⊕ Event StorageI) :
    newDataAt (tr ++ [x]) = movedTo (newDataAt tr) x := by
  simp [newDataAt]

@[simp] theorem newDataAt_right : newDataAt (tr ++ [.inr e]) = newDataAt tr :=
  newDataAt_append tr (.inr e)

theorem newDataAt_left (h : ∀ p, e.call ≠ .openTruncated p) (h' : ∀ p q, e.call ≠ .rename p q) :
    newDataAt (tr ++ [.inl e]) = newDataAt tr := by
  rw [newDataAt_append]
  obtain ⟨c, r⟩ := e
  cases c with
  | openTruncated p => exact absurd rfl (h p)
  | rename p q => exact absurd rfl (h' p q)
  | _ => rfl

theorem sparesNewData_append (x : Event StorageI ⊕ Event StorageI) :
    SparesNewData (tr ++ [x]) ↔ SparesNewData tr ∧
      ∀ e p, x = .inr e → e.call = .remove p → newDataAt tr ≠ some p := by
  constructor
  · intro h
    refine ⟨?_, ?_⟩
    · rintro pre e post p rfl
      exact h pre e (post ++ [x]) p (by simp)
    · rintro e p rfl
      exact h tr e [] p rfl
  · rintro ⟨htr, hx⟩ pre e post p heq hp
    rcases List.eq_nil_or_concat post with rfl | ⟨post, y, rfl⟩
    · obtain ⟨rfl, hlast⟩ := List.append_inj' heq rfl
      exact hx e p (List.cons.inj hlast).1 hp
    · rw [List.concat_eq_append, ← List.cons_append, ← List.append_assoc] at heq
      exact htr pre e post p (List.append_inj' heq rfl).1 hp

@[simp] theorem sparesNewData_left : SparesNewData (tr ++ [.inl e]) ↔ SparesNewData tr := by
  rw [sparesNewData_append]
  refine and_iff_left ?_
  intro e p h
  cases h

theorem sparesNewData_right : SparesNewData (tr ++ [.inr e]) ↔ SparesNewData tr ∧
    ∀ p, e.call = .remove p → newDataAt tr ≠ some p := by
  rw [sparesNewData_append]
  refine and_congr_right fun _ => ⟨fun h p => h e p rfl, fun h e' p he => ?_⟩
  obtain rfl := Sum.inr.inj he
  exact h p

end trace

section loader
variable {C : Crypto} {s t : FileSystem} {c : StorageCall}

theorem loaderStep {r : c.Reply} (hc : c.Walks) (h : concurrentEnv C c s r t) :
    (∀ d, s.hasDir d = true → t.hasDir d = true) ∧
      ((∃ p, c = .remove p ∧ t = s.erase p) ∨
        (∀ p, c ≠ .remove p) ∧ ∀ p, t.fileAt p = s.fileAt p) := by
  rcases hc with (hc | ⟨p, rfl⟩) | ⟨d, rfl⟩
  · have hstep : storageEnv C encryptionMayFail c s r t := by
      cases c with
      | openDirectory d => exact hc.elim
      | _ => exact h
    refine ⟨?_, .inr ⟨?_, fileAt_of_loads hc hstep⟩⟩
    · intro d hd
      have hw : Works C c s r t := by
        rw [storageEnv, encryptionMayFail_of_loads c hc] at hstep
        exact hstep
      cases c with
      | createDirectories e =>
          rw [show t = s.mkdir e from hw, FileSystem.hasDir_mkdir, hd, Bool.or_true]
      | chmodDir _ _ => rw [show t = s from hw, hd]
      | existsDir _ | readFile _ | decrypt _ _ | verifyMac _ _ | currentVersion => rw [hw.2, hd]
      | _ => exact hc.elim
    · rintro p rfl
      exact hc
  · obtain ⟨-, rfl⟩ : Works C (.remove p) s r t := h
    exact ⟨fun d hd => (FileSystem.hasDir_erase s d p).trans hd, .inl ⟨p, rfl, rfl⟩⟩
  · obtain rfl : t = s := h
    refine ⟨fun _ hd => hd, .inr ⟨?_, fun _ => rfl⟩⟩
    intro p hp
    cases hp

theorem absent_of_loaderStep {r : c.Reply} (hc : c.Walks) (h : concurrentEnv C c s r t) {p : Path}
    (hp : s.fileAt p = none) : t.fileAt p = none := by
  obtain ⟨-, ⟨q, -, rfl⟩ | ⟨-, hsame⟩⟩ := loaderStep hc h
  · rw [FileSystem.fileAt_erase, hp, ite_self]
  · rw [hsame p, hp]

end loader

/-- A state of the files and the events that led to it. -/
abbrev RaceState : Type := FileSystem × PairTrace StorageI

/-- Before the save opens its file there is nothing to lose. -/
def NotYetWritten (x : RaceState) : Prop := newDataAt x.2 = none ∧ SparesNewData x.2

/-- The data of the save is in this file, unless the loader has removed it. -/
structure Holding (p : Path) (data : Bytes) (x : RaceState) : Prop where
  place : newDataAt x.2 = some p
  content : SparesNewData x.2 ∧ x.1.fileAt p = some data ∨
    ¬ SparesNewData x.2 ∧ x.1.fileAt p = none

def HasDir (d : Text) (x : RaceState) : Prop := x.1.hasDir d = true

def Absent (p : Path) (x : RaceState) : Prop := x.1.fileAt p = none

section stable
variable {C : Crypto} {p : Path} {data : Bytes}

theorem stable_hasDir (d : Text) : Stable (concurrentEnv C) StorageCall.Walks (HasDir d) := by
  rintro x y hx ⟨c, r, hc, hstep, -⟩
  exact (loaderStep hc hstep).1 d hx

theorem stable_absent (p : Path) : Stable (concurrentEnv C) StorageCall.Walks (Absent p) := by
  rintro x y hx ⟨c, r, hc, hstep, -⟩
  exact absent_of_loaderStep hc hstep hx

theorem stable_notYetWritten : Stable (concurrentEnv C) StorageCall.Walks NotYetWritten := by
  rintro ⟨s, tr⟩ ⟨t, tr'⟩ ⟨hplace, hspares⟩ ⟨c, r, hc, -, htr⟩
  obtain rfl : tr' = tr ++ [.inr ⟨c, r⟩] := htr
  refine ⟨newDataAt_right.trans hplace, sparesNewData_right.mpr ⟨hspares, ?_⟩⟩
  intro p _ hp
  rw [show newDataAt tr = none from hplace] at hp
  cases hp

theorem stable_lost :
    Stable (concurrentEnv C) StorageCall.Walks fun x => ¬ SparesNewData x.2 := by
  rintro ⟨s, tr⟩ ⟨t, tr'⟩ hx ⟨c, r, hc, -, htr⟩ hy
  obtain rfl : tr' = tr ++ [.inr ⟨c, r⟩] := htr
  exact hx (sparesNewData_right.mp hy).1

theorem stable_holding : Stable (concurrentEnv C) StorageCall.Walks (Holding p data) := by
  rintro ⟨s, tr⟩ ⟨t, tr'⟩ ⟨hplace, hcontent⟩ ⟨c, r, hc, hstep, htr⟩
  obtain rfl : tr' = tr ++ [.inr ⟨c, r⟩] := htr
  refine ⟨newDataAt_right.trans hplace, ?_⟩
  rcases hcontent with ⟨hspares, hfile⟩ | ⟨hlost, hfile⟩
  · obtain ⟨-, ⟨q, rfl, ht⟩ | ⟨hno, hsame⟩⟩ := loaderStep hc hstep
    · have hplace : newDataAt tr = some p := hplace
      obtain rfl : t = s.erase q := ht
      by_cases hq : p = q
      · subst hq
        refine .inr ⟨?_, FileSystem.fileAt_erase_self _ _⟩
        intro h
        exact (sparesNewData_right.mp h).2 p rfl hplace
      · refine .inl ⟨sparesNewData_right.mpr ⟨hspares, ?_⟩, ?_⟩
        · intro p' hp' hat
          obtain rfl := StorageCall.remove.inj hp'
          exact hq (Option.some.inj (hplace.symm.trans hat))
        · exact (FileSystem.fileAt_erase_ne s hq).trans hfile
    · refine .inl ⟨sparesNewData_right.mpr ⟨hspares, fun q hq => absurd hq (hno q)⟩, ?_⟩
      exact (hsame p).trans hfile
  · refine .inr ⟨fun h => hlost (sparesNewData_right.mp h).1, ?_⟩
    exact absent_of_loaderStep hc hstep hfile

end stable

/-- The environment of a save while the loader runs. -/
def raceEnv (C : Crypto) : Environment StorageI RaceState :=
  disturbed (concurrentEnv C) StorageCall.Walks

section save
variable {C : LawfulCrypto} {x : RaceState} {u : Int32} {final stale : Path} {data : Bytes}

theorem NotYetWritten.left {s : FileSystem} {e : Event StorageI} (h : NotYetWritten x)
    (ho : ∀ p, e.call ≠ .openTruncated p) (hr : ∀ p q, e.call ≠ .rename p q) :
    NotYetWritten (s, x.2 ++ [.inl e]) :=
  ⟨(newDataAt_left ho hr).trans h.1, sparesNewData_left.mpr h.2⟩

theorem wp_getUserDirectory_race (hx : NotYetWritten x) :
    (getUserDirectory u).wp (raceEnv C.toCrypto)
      (fun d y => d = userDirectoryName u ∧ NotYetWritten y ∧ HasDir d y) x := by
  unfold getUserDirectory
  rw [invoke_bind]
  refine wp_disturbed stable_notYetWritten hx fun y r t hy hcall => ?_
  obtain ⟨hr, rfl⟩ : Works C.toCrypto (.existsDir (userDirectoryName u)) y.1 r t := hcall
  have hy' := hy.left (s := y.1) (e := ⟨.existsDir (userDirectoryName u), r⟩) nofun nofun
  cases r with
  | true => exact ⟨rfl, hy', hr.symm⟩
  | false =>
      refine wp_disturbed stable_notYetWritten hy' fun z r t hz hcall => ?_
      obtain rfl : t = z.1.mkdir (userDirectoryName u) := hcall
      have hdir : HasDir (userDirectoryName u) (z.1.mkdir (userDirectoryName u),
          z.2 ++ [.inl ⟨.createDirectories (userDirectoryName u), r⟩]) := by
        simp [HasDir]
      have hz' := hz.left (s := z.1.mkdir (userDirectoryName u))
        (e := ⟨.createDirectories (userDirectoryName u), r⟩) nofun nofun
      refine wp_disturbed (stable_notYetWritten.and (stable_hasDir _)) ⟨hz', hdir⟩
        fun w r t hw hcall => ?_
      obtain rfl : t = w.1 := hcall
      exact ⟨rfl, hw.1.left nofun nofun, hw.2⟩

theorem wp_getFilePath_race (f : Int32) (hx : NotYetWritten x) :
    (getFilePath u f).wp (raceEnv C.toCrypto)
      (fun p y => p = filePath u f ∧ NotYetWritten y ∧ HasDir (userDirectoryName u) y) x := by
  unfold getFilePath
  rw [wp_bind]
  refine wp_mono (wp_getUserDirectory_race hx) ?_
  rintro _ y ⟨rfl, hy⟩
  exact ⟨rfl, hy⟩

theorem wp_getPlaintextFilePath_race (f : Int32) (hx : NotYetWritten x) :
    (getPlaintextFilePath u f).wp (raceEnv C.toCrypto)
      (fun p y => p = plaintextPath u f ∧ NotYetWritten y ∧ HasDir (userDirectoryName u) y) x := by
  unfold getPlaintextFilePath
  rw [wp_bind]
  refine wp_mono (wp_getUserDirectory_race hx) ?_
  rintro _ y ⟨rfl, hy⟩
  exact ⟨rfl, hy⟩

theorem Holding.left {p : Path} {s : FileSystem} {e : Event StorageI} (h : Holding p data x)
    (ho : ∀ p, e.call ≠ .openTruncated p) (hr : ∀ p q, e.call ≠ .rename p q)
    (hs : s.fileAt p = x.1.fileAt p) : Holding p data (s, x.2 ++ [.inl e]) := by
  refine ⟨(newDataAt_left ho hr).trans h.place, ?_⟩
  rw [sparesNewData_left, hs]
  exact h.content

/-- What `writeAndRename` has done when it returns. -/
def Placed (final stale : Path) (data : Bytes) (ok : Bool) (x : RaceState) : Prop :=
  ok = true ∧ Holding final data x ∧ Absent stale x ∨ ok = false ∧ ¬ SparesNewData x.2

theorem stable_placed (ok : Bool) :
    Stable (concurrentEnv C.toCrypto) StorageCall.Walks (Placed final stale data ok) := by
  rintro x y (⟨hok, hx⟩ | ⟨hok, hx⟩) hstep
  · exact .inl ⟨hok, stable_holding.and (stable_absent stale) x y hx hstep⟩
  · exact .inr ⟨hok, stable_lost x y hx hstep⟩

theorem wp_removeIfPresent_race (hne : final ≠ stale) (hx : Holding final data x) :
    (removeIfPresent stale).wp (raceEnv C.toCrypto)
      (fun _ y => Holding final data y ∧ Absent stale y) x := by
  unfold removeIfPresent
  rw [invoke_bind]
  refine wp_disturbed stable_holding hx fun y r t hy hcall => ?_
  obtain ⟨rfl, rfl⟩ : Works C.toCrypto (.exists stale) y.1 r t := hcall
  have hy' : Holding final data (y.1, y.2 ++ [.inl ⟨.exists stale, (y.1.fileAt stale).isSome⟩]) :=
    hy.left nofun nofun rfl
  cases hs : (y.1.fileAt stale).isSome with
  | false =>
      rw [hs] at hy'
      exact ⟨hy', by simpa [Absent] using hs⟩
  | true =>
      rw [hs] at hy'
      refine wp_disturbed stable_holding hy' fun z r t hz hcall => ?_
      obtain ⟨-, rfl⟩ : Works C.toCrypto (.remove stale) z.1 r t := hcall
      exact ⟨hz.left nofun nofun (FileSystem.fileAt_erase_ne _ hne),
        FileSystem.fileAt_erase_self _ _⟩

/-- Opening the temporary file starts the stretch in which data can be lost. -/
theorem holding_opened {p : Path} (hx : NotYetWritten x) (hd : HasDir p.dir x) :
    Holding p [] (x.1.put p [], x.2 ++ [.inl ⟨.openTruncated p, true⟩]) :=
  ⟨newDataAt_append _ _, .inl ⟨sparesNewData_left.mpr hx.2, FileSystem.fileAt_put_self _ _ _ hd⟩⟩

theorem wp_writeAndRename_race (hne : final ≠ stale) (hx : NotYetWritten x)
    (hd : HasDir final.dir x) :
    (writeAndRename final stale data).wp (raceEnv C.toCrypto) (Placed final stale data) x := by
  unfold writeAndRename
  rw [invoke_bind]
  refine wp_disturbed (stable_notYetWritten.and (stable_hasDir _)) ⟨hx, hd⟩ fun y r t hy hcall => ?_
  obtain ⟨hr, rfl⟩ : Works C.toCrypto (.openTruncated (tempPath final)) y.1 r t := hcall
  have hopen : r = true := hr.trans hy.2
  subst hopen
  rw [Bool.not_true, if_neg Bool.false_ne_true, invoke_bind]
  have hdir : HasDir final.dir (y.1.put (tempPath final) [],
      y.2 ++ [.inl ⟨.openTruncated (tempPath final), true⟩]) :=
    (FileSystem.hasDir_put _ _ _ _).trans hy.2
  refine wp_disturbed (stable_holding.and (stable_hasDir _))
    ⟨holding_opened hy.1 hy.2, hdir⟩ fun y r t hy hcall => ?_
  obtain ⟨-, rfl⟩ : Works C.toCrypto (.write (tempPath final) data) y.1 r t := hcall
  -- what is left of the file, if anything, now ends in the data
  have hwritten : Holding (tempPath final) data (y.1.append (tempPath final) data,
      y.2 ++ [.inl ⟨.write (tempPath final) data, r⟩]) := by
    refine ⟨(newDataAt_left (e := ⟨.write (tempPath final) data, r⟩) nofun nofun).trans
      hy.1.place, ?_⟩
    rw [sparesNewData_left, FileSystem.fileAt_append]
    refine hy.1.content.imp ?_ ?_
    · rintro ⟨hspares, hfile⟩
      rw [hfile]
      exact ⟨hspares, rfl⟩
    · rintro ⟨hlost, hfile⟩
      rw [hfile]
      exact ⟨hlost, rfl⟩
  have hdir : HasDir final.dir (y.1.append (tempPath final) data,
      y.2 ++ [.inl ⟨.write (tempPath final) data, r⟩]) :=
    (FileSystem.hasDir_append _ _ _ _).trans hy.2
  rw [invoke_bind]
  refine wp_disturbed (stable_holding.and (stable_hasDir _)) ⟨hwritten, hdir⟩
    fun y r t hy hcall => ?_
  obtain ⟨-, rfl⟩ : Works C.toCrypto (.close (tempPath final)) y.1 r t := hcall
  have hclosed := hy.1.left (s := y.1) (e := ⟨.close (tempPath final), r⟩) nofun nofun rfl
  rw [invoke_bind]
  refine wp_disturbed (stable_holding.and (stable_hasDir _)) ⟨hclosed, hy.2⟩
    fun y r t hy hcall => ?_
  obtain rfl : t = y.1 := hcall
  have hmode := hy.1.left (s := y.1) (e := ⟨.chmod (tempPath final) 0o600, r⟩) nofun nofun rfl
  rw [invoke_bind]
  refine wp_disturbed (stable_holding.and (stable_hasDir _)) ⟨hmode, hy.2⟩
    fun y r t hy hcall => ?_
  have hworks : Works C.toCrypto (.rename (tempPath final) final) y.1 r t := hcall
  have hd : y.1.hasDir final.dir = true := hy.2
  rcases hy.1.content with ⟨hspares, hfile⟩ | ⟨hlost, hfile⟩
  · simp only [Works, hfile, hd] at hworks
    obtain ⟨rfl, rfl⟩ := hworks
    have hfinal : Holding final data ((y.1.erase (tempPath final)).put final data,
        y.2 ++ [.inl ⟨.rename (tempPath final) final, true⟩]) := by
      refine ⟨newDataAt_append _ _, .inl ⟨sparesNewData_left.mpr hspares, ?_⟩⟩
      exact FileSystem.fileAt_put_self _ _ _ ((FileSystem.hasDir_erase _ _ _).trans hd)
    rw [Bool.not_true, if_neg Bool.false_ne_true, wp_bind]
    refine wp_mono (wp_removeIfPresent_race hne hfinal) ?_
    intro _ z hz
    exact .inl ⟨rfl, hz⟩
  · -- the temporary file is gone: the rename fails and the save says so
    simp only [Works, hfile] at hworks
    obtain ⟨rfl, rfl⟩ := hworks
    rw [Bool.not_false, if_pos rfl, invoke_bind]
    refine wp_disturbed stable_lost (fun h => hlost (sparesNewData_left.mp h)) ?_
    intro z r t hz hcall
    exact .inr ⟨rfl, fun h => hz (sparesNewData_left.mp h)⟩

end save

/-- The files and the data of a save: encrypted, or as plaintext when the
encryption failed. -/
inductive SavedAs (C : Crypto) (t : FaceTemplate) : Path → Path → Bytes → Prop
  | encrypted (n : ℕ) : SavedAs C t (filePath t.userId t.faceId) (plaintextPath t.userId t.faceId)
      (C.encrypt n t.userId (serialized C t))
  | plaintext : SavedAs C t (plaintextPath t.userId t.faceId) (filePath t.userId t.faceId)
      (serialized C t)

/-- How a save ends whatever the loader did: it succeeds unless the data was lost
on the way, and then the data is in place unless it was lost since. -/
def SaveEnds (C : Crypto) (t : FaceTemplate) (ok : Bool) (x : RaceState) : Prop :=
  ∃ final stale data, SavedAs C t final stale data ∧ Placed final stale data ok x

section race
variable {C : LawfulCrypto} {x : RaceState} {t : FaceTemplate}

theorem wp_serialize_race (hx : NotYetWritten x) :
    (serialize t).wp (raceEnv C.toCrypto)
      (fun d y => d = serialized C.toCrypto t ∧ NotYetWritten y) x := by
  unfold serialize
  rw [invoke_bind]
  refine wp_disturbed stable_notYetWritten hx fun y r s hy hcall => ?_
  obtain ⟨hr, rfl⟩ : Works C.toCrypto (.generateMac (payload t)) y.1 r s := hcall
  rw [if_neg (payload_ne_nil t)] at hr
  subst hr
  rw [if_neg (mac_ne_nil C _)]
  exact ⟨rfl, hy.left nofun nofun⟩

theorem wp_saveTemplate_race (hx : NotYetWritten x) :
    (saveTemplate t).wp (raceEnv C.toCrypto) (SaveEnds C.toCrypto t) x := by
  have hne := serialized_ne_nil C.toCrypto t
  unfold saveTemplate
  rw [wp_bind]
  refine wp_mono (wp_serialize_race hx) ?_
  rintro _ y ⟨rfl, hy⟩
  rw [if_neg hne, wp_bind]
  refine wp_mono (wp_getFilePath_race t.faceId hy) ?_
  rintro _ y ⟨rfl, hy, -⟩
  rw [wp_bind]
  refine wp_mono (wp_getPlaintextFilePath_race t.faceId hy) ?_
  rintro _ y ⟨rfl, hy, hdir⟩
  rw [invoke_bind]
  refine wp_disturbed (stable_notYetWritten.and (stable_hasDir _)) ⟨hy, hdir⟩
    fun y r s hy hcall => ?_
  have hencrypt : (∃ n, r = C.encrypt n t.userId (serialized C.toCrypto t) ∨ r = []) ∧ s = y.1 := by
    rcases (show _ ∨ _ from hcall) with ⟨⟨n, hr⟩, hs⟩ | ⟨hr, hs⟩
    · rw [if_neg hne] at hr
      exact ⟨⟨n, .inl hr⟩, hs⟩
    · exact ⟨⟨0, .inr hr⟩, hs⟩
  obtain ⟨⟨n, hr⟩, rfl⟩ := hencrypt
  have hy' := hy.1.left (s := y.1)
    (e := ⟨.encrypt t.userId (serialized C.toCrypto t), r⟩) nofun nofun
  rcases hr with rfl | rfl
  · rw [if_neg (C.encrypt_ne_nil n _ _ hne)]
    refine wp_mono (wp_writeAndRename_race (by simp) hy' hy.2) ?_
    intro ok z hz
    exact ⟨_, _, _, .encrypted n, hz⟩
  · rw [if_pos rfl, wp_bind]
    refine wp_mono (wp_getFilePath_race t.faceId hy') ?_
    rintro _ y ⟨rfl, hy, hdir⟩
    refine wp_mono (wp_writeAndRename_race (by simp) hy hdir) ?_
    intro ok z hz
    exact ⟨_, _, _, .plaintext, hz⟩

theorem stored_of_savedAs {s : FileSystem} {final stale : Path} {data : Bytes}
    (h : SavedAs C.toCrypto t final stale data) (hf : s.fileAt final = some data)
    (hs : s.fileAt stale = none) : stored C.toCrypto t.userId t.faceId s =
      decodeFor C.toCrypto t.userId t.faceId (serialized C.toCrypto t) := by
  cases h with
  | encrypted n =>
      refine (stored_congr _ _ _ ?_ ?_).trans (stored_placed_encrypted (s := s) n t)
      · rw [hf, fileAt_placed _ _ _ (by simp), if_pos rfl]
      · rw [hs, fileAt_placed _ _ _ (by simp), if_neg (by simp), if_pos (.inl rfl)]
  | plaintext =>
      refine (stored_congr _ _ _ ?_ ?_).trans (stored_placed_plaintext (s := s) t)
      · rw [hs, fileAt_placed _ _ _ (by simp), if_neg (by simp), if_pos (.inl rfl)]
      · rw [hf, fileAt_placed _ _ _ (by simp), if_pos rfl]

theorem stored_of_absent {s : FileSystem} {final stale : Path} {data : Bytes}
    (h : SavedAs C.toCrypto t final stale data) (hf : s.fileAt final = none)
    (hs : s.fileAt stale = none) : stored C.toCrypto t.userId t.faceId s = none := by
  cases h with
  | encrypted n => rw [stored, hf, hs, Option.bind_none, Option.bind_none, Option.none_or]
  | plaintext => rw [stored, hf, hs, Option.bind_none, Option.bind_none, Option.none_or]

theorem stable_saveEnds (ok : Bool) :
    Stable (concurrentEnv C.toCrypto) StorageCall.Walks (SaveEnds C.toCrypto t ok) := by
  rintro x y ⟨final, stale, data, hsaved, hx⟩ hstep
  exact ⟨final, stale, data, hsaved, stable_placed ok x y hx hstep⟩

/-- The save succeeded and the template is what the face loads. -/
def Enrolled (C : Crypto) (t : FaceTemplate) (ok : Bool) (s : FileSystem) : Prop :=
  ok = true ∧ ∀ o ∈ loadOutcomes C t.userId t.faceId s,
    o.map FaceTemplate.record = some t.record

/-- An enrolment that runs together with a session start is kept if and only if the
template fits the format and the loader never removes the file that holds its data. -/
theorem enrolled_iff_spared {s y : FileSystem} {tr : PairTrace StorageI} {ok : Bool}
    {ts : List FaceTemplate} (hv : t.version = C.currentVersion)
    (h : Interleaved (concurrentEnv C.toCrypto) (saveTemplate t)
      (loadAllTemplatesForUser t.userId) s tr ok ts y) :
    Enrolled C.toCrypto t ok y ↔ Fits t ∧ SparesNewData tr := by
  have hstart : NotYetWritten (s, []) := by
    refine ⟨rfl, ?_⟩
    intro pre e post p heq
    simp at heq
  obtain ⟨final, stale, data, hsaved, hend⟩ := h.wp_left (uses_loadAllTemplatesForUser t.userId)
    (wp_saveTemplate_race hstart) stable_saveEnds
  unfold Enrolled
  rw [loadOutcomes_eq]
  rcases hend with ⟨rfl, ⟨-, ⟨hspares, hfile⟩ | ⟨hlost, hfile⟩⟩, hstale⟩ | ⟨rfl, hlost⟩
  · rw [and_iff_left hspares, ← record_serialized_iff C hv,
      ← stored_of_savedAs hsaved hfile hstale]
    constructor
    · rintro ⟨-, hload⟩
      exact hload _ rfl
    · intro hload
      refine ⟨rfl, ?_⟩
      rintro o rfl
      exact hload
  · refine iff_of_false ?_ fun h => hlost h.2
    rintro ⟨-, hload⟩
    have hnone := hload none (stored_of_absent hsaved hfile hstale).symm
    cases hnone
  · refine iff_of_false ?_ fun h => hlost h.2
    rintro ⟨hok, -⟩
    cases hok

end race

/-- The save has opened its temporary file; the loader runs; the save goes on. -/
def sweptSchedule : List Bool :=
  List.replicate 7 true ++ List.replicate 7 false ++ List.replicate 5 true

/-- The two threads at an empty store, with every call answered. -/
def racedSave (w : List Bool) :
    Option (PairTrace StorageI × Bool × List FaceTemplate × FileSystem) :=
  replayPair (answer toyCrypto.toCrypto 0) w (saveTemplate sampleTemplate)
    (loadAllTemplatesForUser 0) .empty

theorem swept_fails : ∃ out, racedSave sweptSchedule = some out ∧ out.2.1 = false := by
  have hmap : (racedSave sweptSchedule).map (fun out => out.2.1) = some false := by
    decide +kernel
  exact Option.map_eq_some_iff.mp hmap

theorem fits_sampleTemplate : Fits sampleTemplate := by
  unfold Fits
  decide

theorem concurrentEnv_of_storageEnv {C : Crypto} {c : StorageCall} {s t : FileSystem} {r : c.Reply}
    (h : storageEnv C encryptionMayFail c s r t) : concurrentEnv C c s r t := by
  cases c with
  | openDirectory d => exact (show Works C (.openDirectory d) s r t from h).1
  | _ => exact h

theorem storageEnv_answer (c : StorageCall) (s : FileSystem) :
    storageEnv toyCrypto.toCrypto encryptionMayFail c s (answer toyCrypto.toCrypto 0 c s).1
      (answer toyCrypto.toCrypto 0 c s).2 :=
  storageEnv_of_works (works_answer _ 0 c s) (encryptionMayFail_ne_always c)

theorem enrolled_iff_spared_swept : ∃ tr ts y,
    Interleaved (concurrentEnv toyCrypto.toCrypto) (saveTemplate sampleTemplate)
      (loadAllTemplatesForUser 0) .empty tr false ts y ∧ ¬ SparesNewData tr := by
  obtain ⟨⟨tr, ok, ts, y⟩, hout, hok⟩ := swept_fails
  obtain rfl : ok = false := hok
  have hrun := interleaved_of_replayPair
    (fun c s => concurrentEnv_of_storageEnv (storageEnv_answer c s)) hout
  refine ⟨tr, ts, y, hrun, ?_⟩
  intro hspares
  have henrolled := (enrolled_iff_spared (C := toyCrypto) rfl hrun).mpr
    ⟨fits_sampleTemplate, hspares⟩
  cases henrolled.1

theorem enrollment_swept_away : ¬ ∀ (C : LawfulCrypto) (t : FaceTemplate) (s y : FileSystem)
    (tr : PairTrace StorageI) (ok : Bool) (ts : List FaceTemplate),
    t.version = C.currentVersion → Fits t →
    Interleaved (storageEnv C.toCrypto encryptionMayFail) (saveTemplate t)
      (loadAllTemplatesForUser t.userId) s tr ok ts y → Enrolled C.toCrypto t ok y := by
  intro h
  obtain ⟨⟨tr, ok, ts, y⟩, hout, hok⟩ := swept_fails
  obtain rfl : ok = false := hok
  have henrolled := h toyCrypto sampleTemplate .empty y tr false ts rfl fits_sampleTemplate
    (interleaved_of_replayPair storageEnv_answer hout)
  cases henrolled.1

end FaceStorageManager
end FaceHal
