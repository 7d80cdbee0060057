import FaceHal.ByteWords
import FaceHal.DecimalText
import Mathlib.Data.List.AList

/-!
# A two-level file system

The store uses one directory per user below a fixed base directory and plain
files inside it. A directory is a finite map from file names to contents; the
file system is a finite map from directory names to directories. The operations
are total: writing into a missing directory changes nothing, as a caller that
cannot open the file writes nothing.
-/
namespace FaceHal

/-- A file name and the name of the directory below the base directory. -/
structure Path where
  dir : Text
  name : Text
deriving DecidableEq, Repr

abbrev Directory : Type := AList fun _ : Text => Bytes

structure FileSystem where
  dirs : AList fun _ : Text => Directory

namespace FileSystem

def empty : FileSystem := ⟨∅⟩

def hasDir (s : FileSystem) (d : Text) : Bool := (s.dirs.lookup d).isSome

/-- The content of a file, if it exists. -/
def fileAt (s : FileSystem) (p : Path) : Option Bytes :=
  (s.dirs.lookup p.dir).bind fun dir => dir.lookup p.name

/-- The file names of a directory, if it exists. -/
def entries (s : FileSystem) (d : Text) : Option (List Text) :=
  (s.dirs.lookup d).map AList.keys

/-- Replace one directory. -/
def setDir (s : FileSystem) (d : Text) (dir : Directory) : FileSystem := ⟨s.dirs.insert d dir⟩

def mkdir (s : FileSystem) (d : Text) : FileSystem :=
  match s.dirs.lookup d with
  | some _ => s
  | none => s.setDir d ∅

def put (s : FileSystem) (p : Path) (content : Bytes) : FileSystem :=
  match s.dirs.lookup p.dir with
  | some dir => s.setDir p.dir (dir.insert p.name content)
  | none => s

def erase (s : FileSystem) (p : Path) : FileSystem :=
  match s.dirs.lookup p.dir with
  | some dir => s.setDir p.dir (dir.erase p.name)
  | none => s

def removeAll (s : FileSystem) (d : Text) : FileSystem := ⟨s.dirs.erase d⟩

section lookups
variable (s : FileSystem) (d : Text) (p q : Path) (content : Bytes)

@[simp] theorem fileAt_empty : empty.fileAt p = none := by
  simp [empty, fileAt]

@[simp] theorem hasDir_empty : empty.hasDir d = false := by
  simp [empty, hasDir]

theorem hasDir_of_fileAt {s : FileSystem} {p : Path} {content : Bytes}
    (h : s.fileAt p = some content) : s.hasDir p.dir = true := by
  unfold fileAt at h
  unfold hasDir
  cases hd : s.dirs.lookup p.dir with
  | none => simp [hd] at h
  | some dir => rfl

@[simp] theorem fileAt_setDir (dir : Directory) :
    (s.setDir d dir).fileAt p = if p.dir = d then dir.lookup p.name else s.fileAt p := by
  unfold setDir fileAt
  split_ifs with h
  · subst h
    simp
  · rw [AList.lookup_insert_ne h]

@[simp] theorem hasDir_setDir (e : Text) (dir : Directory) :
    (s.setDir d dir).hasDir e = (decide (e = d) || s.hasDir e) := by
  unfold setDir hasDir
  by_cases h : e = d
  · subst h
    simp
  · simp [AList.lookup_insert_ne h, h]

@[simp] theorem fileAt_mkdir : (s.mkdir d).fileAt p = s.fileAt p := by
  unfold mkdir
  split
  · rfl
  · next h =>
      rw [fileAt_setDir]
      split_ifs with hp
      · subst hp
        simp [fileAt, h]
      · rfl

@[simp] theorem hasDir_mkdir (e : Text) :
    (s.mkdir d).hasDir e = (decide (e = d) || s.hasDir e) := by
  unfold mkdir
  split
  · next h =>
      by_cases he : e = d
      · subst he
        simp [hasDir, h]
      · simp [he]
  · exact s.hasDir_setDir d e ∅

theorem mkdir_of_hasDir {s : FileSystem} {d : Text} (h : s.hasDir d = true) : s.mkdir d = s := by
  unfold mkdir
  split
  · rfl
  · next hd => simp [hasDir, hd] at h

theorem mkdir_mkdir (s : FileSystem) (d : Text) : (s.mkdir d).mkdir d = s.mkdir d :=
  mkdir_of_hasDir (by simp)

theorem fileAt_put : (s.put p content).fileAt q =
    if q = p ∧ s.hasDir p.dir = true then some content else s.fileAt q := by
  unfold put
  split
  · next dir hd =>
      rw [fileAt_setDir]
      have hdir : s.hasDir p.dir = true := by simp [hasDir, hd]
      by_cases hq : q = p
      · subst hq
        simp [hdir]
      · rw [if_neg (c := q = p ∧ _) (fun h => hq h.1)]
        split_ifs with hqd
        · have hn : q.name ≠ p.name := fun hn => hq (by cases q; cases p; simp_all)
          rw [AList.lookup_insert_ne hn, fileAt, hqd, hd]
          rfl
        · rfl
  · next hd => simp [hasDir, hd]

theorem fileAt_put_self (h : s.hasDir p.dir = true) :
    (s.put p content).fileAt p = some content := by
  rw [fileAt_put, if_pos ⟨rfl, h⟩]

theorem fileAt_put_ne {p q : Path} (h : q ≠ p) : (s.put p content).fileAt q = s.fileAt q := by
  rw [fileAt_put, if_neg (fun hq => h hq.1)]

@[simp] theorem hasDir_put : (s.put p content).hasDir d = s.hasDir d := by
  unfold put
  split
  · next dir hd =>
      rw [hasDir_setDir]
      by_cases h : d = p.dir
      · subst h
        simp [hasDir, hd]
      · simp [h]
  · rfl

theorem fileAt_erase : (s.erase p).fileAt q = if q = p then none else s.fileAt q := by
  unfold erase
  split
  · next dir hd =>
      rw [fileAt_setDir]
      by_cases hq : q = p
      · subst hq
        simp
      · rw [if_neg hq]
        split_ifs with hqd
        · have hn : q.name ≠ p.name := fun hn => hq (by cases q; cases p; simp_all)
          rw [AList.lookup_erase_ne hn, fileAt, hqd, hd]
          rfl
        · rfl
  · next hd =>
      split_ifs with hq
      · subst hq
        simp [fileAt, hd]
      · rfl

@[simp] theorem fileAt_erase_self : (s.erase p).fileAt p = none := by
  rw [fileAt_erase, if_pos rfl]

theorem fileAt_erase_ne {p q : Path} (h : q ≠ p) : (s.erase p).fileAt q = s.fileAt q := by
  rw [fileAt_erase, if_neg h]

@[simp] theorem hasDir_erase : (s.erase p).hasDir d = s.hasDir d := by
  unfold erase
  split
  · next dir hd =>
      rw [hasDir_setDir]
      by_cases h : d = p.dir
      · subst h
        simp [hasDir, hd]
      · simp [h]
  · rfl

theorem fileAt_removeAll :
    (s.removeAll d).fileAt p = if p.dir = d then none else s.fileAt p := by
  unfold removeAll fileAt
  split_ifs with h
  · subst h
    simp
  · rw [AList.lookup_erase_ne h]

@[simp] theorem removeAll_mkdir : (s.mkdir d).removeAll d = s.removeAll d := by
  unfold mkdir
  split
  · rfl
  · exact congrArg FileSystem.mk (AList.ext (List.kerase_cons_eq rfl))

/-- A directory lists exactly the files it holds. -/
theorem mem_entries {s : FileSystem} {d : Text} {l : List Text} (h : s.entries d = some l)
    (n : Text) : n ∈ l ↔ ∃ content, s.fileAt ⟨d, n⟩ = some content := by
  unfold entries at h
  obtain ⟨dir, hd, rfl⟩ := Option.map_eq_some_iff.mp h
  rw [← AList.mem_keys, ← AList.lookup_isSome, Option.isSome_iff_exists]
  simp [fileAt, hd]

theorem entries_isSome : (s.entries d).isSome = s.hasDir d := by
  unfold entries hasDir
  exact Option.isSome_map

end lookups
end FileSystem
end FaceHal
