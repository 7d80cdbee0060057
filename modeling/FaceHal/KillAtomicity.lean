import FaceHal.TemplateSaving
import FaceHal.Transition

/-!
# Saves and deletes that are killed

The process may die between two calls of a save or a delete; what the calls did
so far stays. Where a call is interrupted it has changed at most one of the two
files of its face, and what then loads is what loaded before or what the
finished call would leave. The exception is the window in which the encrypted
file is gone and a different template still waits in the plaintext file: there an
older template comes back. Runs that are never killed in that window never show a
superseded template again.
-/
namespace FaceHal

/-- Neither of the two calls of `removeIfPresent`. -/
def StorageCall.Keeps : StorageCall → Prop
  | .exists _ | .remove _ => False
  | _ => True

theorem StorageCall.Loads.keeps {c : StorageCall} (h : c.Loads) : c.Keeps := by
  cases c with
  | «exists» _ => exact h.elim
  | remove _ => exact h.elim
  | _ => trivial

namespace FaceStorageManager
open FaceTemplateSerializer Program

inductive KillOp where
  | save (t : FaceTemplate)
  | delete (userId faceId : Int32)

namespace KillOp

def userId : KillOp → Int32
  | .save t => t.userId
  | .delete u _ => u

def faceId : KillOp → Int32
  | .save t => t.faceId
  | .delete _ f => f

@[simp] theorem userId_save (t : FaceTemplate) : (save t).userId = t.userId := rfl
@[simp] theorem faceId_save (t : FaceTemplate) : (save t).faceId = t.faceId := rfl
@[simp] theorem userId_delete (u f : Int32) : (delete u f).userId = u := rfl
@[simp] theorem faceId_delete (u f : Int32) : (delete u f).faceId = f := rfl

def program : KillOp → Program StorageI Bool
  | .save t => saveTemplate t
  | .delete u f => deleteTemplate u f

/-- What the finished operation leaves to be loaded. -/
def result (C : Crypto) : KillOp → Option FaceTemplate
  | .save t => decodeFor C t.userId t.faceId (serialized C t)
  | .delete _ _ => none

/-- Loading will not accept what the operation leaves. -/
def Rejected (C : Crypto) : KillOp → Prop
  | .save t => t.version ≠ C.currentVersion
  | .delete _ _ => True

theorem result_eq_none_iff {C : LawfulCrypto} (op : KillOp) :
    op.result C.toCrypto = none ↔ op.Rejected C.toCrypto := by
  cases op with
  | delete u f => exact iff_of_true rfl trivial
  | save t =>
      simp only [result, Rejected, decodeFor, serialized]
      constructor
      · intro hnone hv
        rw [decode_serialized C t hv] at hnone
        simp [truncated] at hnone
      · intro hv
        cases hd : decode C.toCrypto (payload t ++ C.mac (payload t)) with
        | none => rfl
        | some x =>
            unfold decode at hd
            split_ifs at hd
            exact absurd (version_of_decodeFields hd) hv

end KillOp

/-- An operation, and the call it was killed at, if it was. -/
abbrev KillLabel : Type := KillOp × Option StorageCall

/-- One completed or interrupted operation. No file call fails. -/
def killStep (C : Crypto) : System FileSystem KillLabel
  | s, (op, none), t => ∃ ok, Run (storageEnv C encryptionMayFail) op.program s ok t
  | s, (op, some c), t => Killed (storageEnv C encryptionMayFail) op.program s c t

/-- The call is the removal of the plaintext file of the face, or the test before it. -/
def Pending (u f : Int32) (c : StorageCall) : Prop :=
  c = .exists (plaintextPath u f) ∨ c = .remove (plaintextPath u f)

theorem not_pending_of_keeps {u f : Int32} {c : StorageCall} (h : c.Keeps) :
    ¬ Pending u f c := by
  rintro (rfl | rfl)
  · exact h
  · exact h

/-- How far an operation on the face can have come when it is about to issue a call. -/
inductive Reached (C : Crypto) (s : FileSystem) (u f : Int32) (result : Option FaceTemplate) :
    StorageCall → FileSystem → Prop
  | before {c : StorageCall} {x : FileSystem} : ¬ Pending u f c →
      x.fileAt (filePath u f) = s.fileAt (filePath u f) →
      x.fileAt (plaintextPath u f) = s.fileAt (plaintextPath u f) → Reached C s u f result c x
  /-- The encrypted file is the new one, the plaintext file still the old one. -/
  | exposed {c : StorageCall} {x : FileSystem} : Pending u f c →
      (x.fileAt (filePath u f)).bind (decodeEncrypted C u f) = result →
      x.fileAt (plaintextPath u f) = s.fileAt (plaintextPath u f) → Reached C s u f result c x
  /-- The plaintext file is the new one, the encrypted file still the old one. -/
  | shadowed {c : StorageCall} {x : FileSystem} : ¬ Pending u f c →
      x.fileAt (filePath u f) = s.fileAt (filePath u f) →
      (x.fileAt (plaintextPath u f)).bind (decodeFor C u f) = result → Reached C s u f result c x
  | after {c : StorageCall} {x : FileSystem} : ¬ Pending u f c →
      stored C u f x = result → Reached C s u f result c x

/-- The encrypted file loaded, its successor will not, and the plaintext file
holds another template. -/
def Exposes (C : Crypto) (s : FileSystem) (l : KillLabel) : Prop :=
  (∃ c, l.2 = some c ∧ Pending l.1.userId l.1.faceId c) ∧ l.1.Rejected C ∧
    ∃ e p, (s.fileAt (filePath l.1.userId l.1.faceId)).bind
        (decodeEncrypted C l.1.userId l.1.faceId) = some e ∧
      (s.fileAt (plaintextPath l.1.userId l.1.faceId)).bind
        (decodeFor C l.1.userId l.1.faceId) = some p ∧ e ≠ p

/-- What loads is old or new, except where an older template is exposed. -/
theorem Reached.old_or_new_iff {C : LawfulCrypto} {s x : FileSystem} {op : KillOp} {c : StorageCall}
    (h : Reached C.toCrypto s op.userId op.faceId (op.result C.toCrypto) c x) :
    (stored C.toCrypto op.userId op.faceId x = stored C.toCrypto op.userId op.faceId s ∨
      stored C.toCrypto op.userId op.faceId x = op.result C.toCrypto) ↔
      ¬ Exposes C.toCrypto s (op, some c) := by
  have safe : ¬ Pending op.userId op.faceId c → ¬ Exposes C.toCrypto s (op, some c) := by
    rintro hc ⟨⟨d, hd, hp⟩, -⟩
    obtain rfl := Option.some.inj hd
    exact hc hp
  cases h with
  | before hc he hp => exact iff_of_true (.inl (stored_congr _ _ _ he hp)) (safe hc)
  | after hc hr => exact iff_of_true (.inr hr) (safe hc)
  | shadowed hc he hp =>
      refine iff_of_true ?_ (safe hc)
      unfold stored
      rw [he, hp]
      cases (s.fileAt (filePath op.userId op.faceId)).bind
          (decodeEncrypted C.toCrypto op.userId op.faceId) with
      | some e => exact .inl rfl
      | none => exact .inr rfl
  | exposed hc he hp =>
      unfold stored
      rw [he, hp]
      cases hres : op.result C.toCrypto with
      | some r =>
          refine iff_of_true (.inr rfl) ?_
          rintro ⟨-, hrej, -⟩
          rw [← op.result_eq_none_iff, hres] at hrej
          cases hrej
      | none =>
          rw [Option.none_or]
          have hrej : op.Rejected C.toCrypto := op.result_eq_none_iff.mp hres
          cases hE : (s.fileAt (filePath op.userId op.faceId)).bind
              (decodeEncrypted C.toCrypto op.userId op.faceId) with
          | none =>
              refine iff_of_true (.inl rfl) ?_
              rintro ⟨-, -, e, p, hE', -⟩
              rw [hE] at hE'
              cases hE'
          | some e =>
              rw [Option.some_or]
              cases hP : (s.fileAt (plaintextPath op.userId op.faceId)).bind
                  (decodeFor C.toCrypto op.userId op.faceId) with
              | none =>
                  refine iff_of_true (.inr rfl) ?_
                  rintro ⟨-, -, e', p', -, hP', -⟩
                  rw [hP] at hP'
                  cases hP'
              | some p =>
                  constructor
                  · rintro (h | h) ⟨-, -, e', p', hE', hP', hne⟩
                    · rw [hE] at hE'
                      rw [hP] at hP'
                      apply hne
                      rw [← Option.some.inj hE', ← Option.some.inj hP', Option.some.inj h]
                    · cases h
                  · intro hsafe
                    refine .inl (congrArg some ?_)
                    by_contra hne
                    exact hsafe ⟨⟨c, rfl, hc⟩, hrej, e, p, hE, hP, Ne.symm hne⟩

section always
variable {C : Crypto} {fault : StorageCall → Fault} {s : FileSystem} {α : Type}
variable {P : StorageCall → FileSystem → Prop}

theorem always_of_loads {p : Program StorageI α} (hp : p.Uses StorageCall.Loads)
    (hP : ∀ c x, c.Loads → (∀ q, x.fileAt q = s.fileAt q) → P c x) :
    p.always (storageEnv C fault) P s := by
  induction p generalizing s with
  | done a => trivial
  | call c next ih =>
      refine ⟨hP c s hp.1 fun _ => rfl, ?_⟩
      intro r t hr
      refine ih r (hp.2 r) ?_
      intro d x hd hx
      refine hP d x hd ?_
      intro q
      rw [hx, fileAt_of_loads hp.1 hr]

theorem always_reliable {c : StorageCall} (h : encryptionMayFail c = .never)
    {next : c.Reply → Program StorageI α} :
    (Program.call (I := StorageI) c next).always (storageEnv C encryptionMayFail) P s ↔
      P c s ∧ ∀ r t, Works C c s r t → (next r).always (storageEnv C encryptionMayFail) P t := by
  simp only [Program.always, storageEnv, h]

theorem always_removeIfPresent {p : Path} (hexists : P (.exists p) s) (hremove : P (.remove p) s) :
    (removeIfPresent p).always (storageEnv C encryptionMayFail) P s := by
  unfold removeIfPresent
  rw [invoke_bind, always_reliable rfl]
  refine ⟨hexists, ?_⟩
  rintro r t ⟨-, rfl⟩
  cases r with
  | false => trivial
  | true => exact ⟨hremove, fun _ _ _ => trivial⟩

theorem always_writeAndRename {final stale : Path} {data : Bytes} (h : s.hasDir final.dir = true)
    (hwrite : ∀ c x, c.Keeps → (∀ q, q ≠ tempPath final → x.fileAt q = s.fileAt q) → P c x)
    (hexists : P (.exists stale) (renamed s final data))
    (hremove : P (.remove stale) (renamed s final data)) :
    (writeAndRename final stale data).always (storageEnv C encryptionMayFail) P s := by
  have hopen : s.hasDir (tempPath final).dir = true := h
  have hput : ∀ q, q ≠ tempPath final → (s.put (tempPath final) []).fileAt q = s.fileAt q :=
    fun q hq => FileSystem.fileAt_put_ne s _ hq
  have happend : ∀ q, q ≠ tempPath final →
      ((s.put (tempPath final) []).append (tempPath final) data).fileAt q = s.fileAt q := by
    intro q hq
    rw [FileSystem.fileAt_append_ne _ _ hq, hput q hq]
  unfold writeAndRename
  rw [invoke_bind, always_reliable rfl]
  refine ⟨hwrite _ _ trivial fun _ _ => rfl, ?_⟩
  simp only [Works, and_imp, forall_eq_apply_imp_iff, forall_eq, hopen, Bool.not_true,
    Bool.false_eq_true, if_false]
  rw [invoke_bind, always_reliable rfl]
  refine ⟨hwrite _ _ trivial hput, ?_⟩
  simp only [Works, and_imp, forall_eq_apply_imp_iff, forall_eq]
  rw [invoke_bind, always_reliable rfl]
  refine ⟨hwrite _ _ trivial happend, ?_⟩
  simp only [Works, and_imp, forall_eq_apply_imp_iff, forall_eq]
  rw [invoke_bind, always_reliable rfl]
  refine ⟨hwrite _ _ trivial happend, ?_⟩
  simp only [Works, forall_const, forall_eq]
  rw [invoke_bind, always_reliable rfl]
  refine ⟨hwrite _ _ trivial happend, ?_⟩
  simp only [Works, fileAt_written data h, hasDir_written data h, and_imp,
    forall_eq_apply_imp_iff, forall_eq, Bool.not_true, Bool.false_eq_true, if_false]
  rw [always_bind]
  exact ⟨always_removeIfPresent hexists hremove, wp_removeIfPresent.mpr trivial⟩

/-- The user's directory goes in the last call, and only when it holds no template. -/
theorem always_wipeIfEmpty {u : Int32}
    (hP : ∀ c x, c.Keeps → (∀ q, x.fileAt q = s.fileAt q) → P c x) :
    (wipeIfEmpty u).always (storageEnv C encryptionMayFail) P s := by
  have hdirectory : ∀ x : FileSystem, (∀ q, x.fileAt q = s.fileAt q) →
      (getUserDirectory u).always (storageEnv C encryptionMayFail) P x := by
    intro x hx
    refine always_of_loads (uses_getUserDirectory u) ?_
    intro c y hc hy
    exact hP c y hc.keeps fun q => (hy q).trans (hx q)
  have hmkdir : ∀ x : FileSystem, (∀ q, x.fileAt q = s.fileAt q) →
      ∀ q, (x.mkdir (userDirectoryName u)).fileAt q = s.fileAt q := by
    intro x hx q
    rw [FileSystem.fileAt_mkdir, hx]
  have hremove : ∀ x : FileSystem, (∀ q, x.fileAt q = s.fileAt q) →
      (removeUser u).always (storageEnv C encryptionMayFail) P x := by
    intro x hx
    unfold removeUser
    rw [always_bind, wp_getUserDirectory encryptionMayFail_of_loadsPlaintext, invoke_bind,
      always_reliable rfl]
    refine ⟨hdirectory x hx, hP _ _ trivial (hmkdir x hx), ?_⟩
    rintro r t ⟨-, rfl⟩
    cases r with
    | false => trivial
    | true => exact ⟨hP _ _ trivial (hmkdir x hx), fun _ _ _ => trivial⟩
  unfold wipeIfEmpty
  rw [always_bind, wp_getUserDirectory encryptionMayFail_of_loadsPlaintext, invoke_bind,
    always_reliable rfl]
  refine ⟨hdirectory s fun _ => rfl, hP _ _ trivial (hmkdir s fun _ => rfl), ?_⟩
  rintro r t ⟨rfl, -⟩
  dsimp only
  split_ifs
  · rw [always_bind]
    exact ⟨hremove _ (hmkdir s fun _ => rfl), Program.wp_iff_run.mpr fun _ _ _ => trivial⟩
  · trivial

end always

section killed
variable {C : LawfulCrypto} {s x : FileSystem}

/-- An interrupted operation has come to one of the four points, and no other face
is affected. -/
def KillSpec (C : Crypto) (s : FileSystem) (op : KillOp) (c : StorageCall)
    (x : FileSystem) : Prop :=
  Reached C s op.userId op.faceId (op.result C) c x ∧
    ∀ v g, ¬ (v = op.userId ∧ g = op.faceId) → stored C v g x = stored C v g s

theorem KillSpec.unchanged {op : KillOp} {c : StorageCall}
    (hc : ¬ Pending op.userId op.faceId c)
    (he : ∀ v g, x.fileAt (filePath v g) = s.fileAt (filePath v g))
    (hp : ∀ v g, x.fileAt (plaintextPath v g) = s.fileAt (plaintextPath v g)) :
    KillSpec C.toCrypto s op c x :=
  ⟨.before hc (he _ _) (hp _ _), fun v g _ => stored_congr _ v g (he v g) (hp v g)⟩

theorem KillSpec.of_keeps {op : KillOp} {c : StorageCall} (hc : c.Keeps) (final : Path)
    (hx : ∀ q, q ≠ tempPath final → x.fileAt q = s.fileAt q) : KillSpec C.toCrypto s op c x :=
  .unchanged (not_pending_of_keeps hc) (fun _ _ => hx _ (filePath_ne_temp final))
    (fun _ _ => hx _ (plaintextPath_ne_temp final))

theorem KillSpec.of_loads {op : KillOp} {c : StorageCall} (hc : c.Loads)
    (hx : ∀ q, x.fileAt q = s.fileAt q) : KillSpec C.toCrypto s op c x :=
  .of_keeps hc.keeps ⟨[], []⟩ fun q _ => hx q

theorem always_saveTemplate (t : FaceTemplate) : (saveTemplate t).always
    (storageEnv C.toCrypto encryptionMayFail) (KillSpec C.toCrypto s (.save t)) s := by
  have hdir := s.mkdir_mkdir (userDirectoryName t.userId)
  have hhas : (s.mkdir (userDirectoryName t.userId)).hasDir (userDirectoryName t.userId) =
      true := by
    simp
  have hne := serialized_ne_nil C.toCrypto t
  have hloads : ∀ c x, StorageCall.Loads c →
      (∀ q, x.fileAt q = (s.mkdir (userDirectoryName t.userId)).fileAt q) →
      KillSpec C.toCrypto s (.save t) c x := by
    intro c x hc hx
    refine .of_loads hc fun q => ?_
    rw [hx, FileSystem.fileAt_mkdir]
  have hwrite : ∀ final c x, StorageCall.Keeps c → (∀ q, q ≠ tempPath final →
      x.fileAt q = (s.mkdir (userDirectoryName t.userId)).fileAt q) →
      KillSpec C.toCrypto s (.save t) c x := by
    intro final c x hc hx
    refine .of_keeps hc final fun q hq => ?_
    rw [hx q hq, FileSystem.fileAt_mkdir]
  have hfile : ∀ {final : Path} (data : Bytes), final.dir = userDirectoryName t.userId → ∀ p,
      (renamed (s.mkdir (userDirectoryName t.userId)) final data).fileAt p =
        if p = final then some data else if p = tempPath final then none else s.fileAt p := by
    intro final data hf p
    rw [fileAt_renamed (by rw [hf]; exact hhas), FileSystem.fileAt_mkdir]
  unfold saveTemplate
  rw [always_bind, wp_serialize, if_neg hne, always_bind,
    wp_getFilePath encryptionMayFail_of_loadsPlaintext,
    always_bind, wp_getPlaintextFilePath encryptionMayFail_of_loadsPlaintext, hdir, invoke_bind]
  refine ⟨?_, always_of_loads (uses_getFilePath _ _) fun c x hc hx => .of_loads hc hx,
    always_of_loads (uses_getPlaintextFilePath _ _) hloads, ?_⟩
  · unfold serialize
    rw [invoke_bind, always_reliable rfl]
    refine ⟨.of_keeps trivial ⟨[], []⟩ fun _ _ => rfl, ?_⟩
    intro mac y _
    split_ifs <;> trivial
  refine ⟨hwrite ⟨[], []⟩ _ _ trivial fun _ _ => rfl, ?_⟩
  intro data y hdata
  have hcases : y = s.mkdir (userDirectoryName t.userId) ∧
      ((∃ n, data = C.encrypt n t.userId (serialized C.toCrypto t)) ∨ data = []) := by
    rcases hdata with ⟨⟨n, hn⟩, hy⟩ | ⟨hn, hy⟩
    · rw [if_neg hne] at hn
      exact ⟨hy, .inl ⟨n, hn⟩⟩
    · exact ⟨hy, .inr hn⟩
  obtain ⟨rfl, ⟨n, rfl⟩ | rfl⟩ := hcases
  · have hdec : decodeEncrypted C.toCrypto t.userId t.faceId
        (C.encrypt n t.userId (serialized C.toCrypto t)) = KillOp.result C.toCrypto (.save t) := by
      rw [decodeEncrypted, if_neg (C.encrypt_ne_nil n _ _ hne), C.decrypt_encrypt n _ _ hne]
      rfl
    have hspec : ∀ c, Pending t.userId t.faceId c → KillSpec C.toCrypto s (.save t) c
        (renamed (s.mkdir (userDirectoryName t.userId)) (filePath t.userId t.faceId)
          (C.encrypt n t.userId (serialized C.toCrypto t))) := by
      intro c hc
      refine ⟨.exposed hc ?_ ?_, ?_⟩
      · rw [KillOp.userId_save, KillOp.faceId_save, hfile _ rfl, if_pos rfl]
        exact hdec
      · rw [KillOp.userId_save, KillOp.faceId_save, hfile _ rfl, if_neg (by simp), if_neg (by simp)]
      · intro v g hvg
        refine stored_congr _ v g ?_ ?_
        · rw [hfile _ rfl, if_neg (by simpa using hvg), if_neg (by simp)]
        · rw [hfile _ rfl, if_neg (by simp), if_neg (by simp)]
    beta_reduce
    rw [if_neg (C.encrypt_ne_nil n _ _ hne)]
    exact always_writeAndRename hhas (hwrite _) (hspec _ (.inl rfl)) (hspec _ (.inr rfl))
  · have hspec : ∀ c, ¬ Pending t.userId t.faceId c → KillSpec C.toCrypto s (.save t) c
        (renamed (s.mkdir (userDirectoryName t.userId)) (plaintextPath t.userId t.faceId)
          (serialized C.toCrypto t)) := by
      intro c hc
      refine ⟨.shadowed hc ?_ ?_, ?_⟩
      · rw [KillOp.userId_save, KillOp.faceId_save, hfile _ rfl, if_neg (by simp), if_neg (by simp)]
      · rw [KillOp.userId_save, KillOp.faceId_save, hfile _ rfl, if_pos rfl]
        rfl
      · intro v g hvg
        refine stored_congr _ v g ?_ ?_
        · rw [hfile _ rfl, if_neg (by simp), if_neg (by simp)]
        · rw [hfile _ rfl, if_neg (by simpa using hvg), if_neg (by simp)]
    beta_reduce
    rw [if_pos rfl, always_bind, wp_getFilePath encryptionMayFail_of_loadsPlaintext, hdir]
    refine ⟨always_of_loads (uses_getFilePath _ _) hloads, ?_⟩
    refine always_writeAndRename hhas (hwrite _) (hspec _ ?_) (hspec _ ?_)
    · simp [Pending]
    · simp [Pending]

theorem always_deleteTemplate (u f : Int32) : (deleteTemplate u f).always
    (storageEnv C.toCrypto encryptionMayFail) (KillSpec C.toCrypto s (.delete u f)) s := by
  have hdir := s.mkdir_mkdir (userDirectoryName u)
  have hbefore : ∀ c, ¬ Pending u f c →
      KillSpec C.toCrypto s (.delete u f) c (s.mkdir (userDirectoryName u)) := by
    intro c hc
    exact .unchanged hc (fun _ _ => s.fileAt_mkdir _ _) (fun _ _ => s.fileAt_mkdir _ _)
  have hexposed : ∀ c, Pending u f c → KillSpec C.toCrypto s (.delete u f) c
      ((s.mkdir (userDirectoryName u)).discard (filePath u f)) := by
    intro c hc
    refine ⟨.exposed hc ?_ ?_, ?_⟩
    · rw [FileSystem.fileAt_discard]
      exact congrArg (Option.bind · _) (if_pos rfl)
    · rw [FileSystem.fileAt_discard, if_neg (by simp), FileSystem.fileAt_mkdir]
    · intro v g hvg
      refine stored_congr _ v g ?_ ?_
      · rw [FileSystem.fileAt_discard, if_neg (by simpa using hvg), FileSystem.fileAt_mkdir]
      · rw [FileSystem.fileAt_discard, if_neg (by simp), FileSystem.fileAt_mkdir]
  have hafter : ∀ c x, StorageCall.Keeps c →
      (∀ q, x.fileAt q = (((s.mkdir (userDirectoryName u)).discard (filePath u f)).discard
        (plaintextPath u f)).fileAt q) → KillSpec C.toCrypto s (.delete u f) c x := by
    intro c x hc hx
    refine ⟨.after (not_pending_of_keeps hc) ?_, ?_⟩
    · simp [stored, hx, FileSystem.fileAt_discard, KillOp.userId, KillOp.faceId, KillOp.result]
    · intro v g hvg
      refine stored_congr _ v g ?_ ?_
      · rw [hx, FileSystem.fileAt_discard, if_neg (by simp), FileSystem.fileAt_discard,
          if_neg (by simpa using hvg), FileSystem.fileAt_mkdir]
      · rw [hx, FileSystem.fileAt_discard, if_neg (by simpa using hvg), FileSystem.fileAt_discard,
          if_neg (by simp), FileSystem.fileAt_mkdir]
  unfold deleteTemplate
  rw [always_bind, wp_getFilePath encryptionMayFail_of_loadsPlaintext, always_bind,
    wp_getPlaintextFilePath encryptionMayFail_of_loadsPlaintext, hdir, always_bind,
      wp_removeIfPresent,
    always_bind, wp_removeIfPresent, always_bind]
  refine ⟨always_of_loads (uses_getFilePath u f) fun c x hc hx => .of_loads hc hx,
    always_of_loads (uses_getPlaintextFilePath u f) fun c x hc hx => .of_loads hc fun q => ?_,
    always_removeIfPresent (hbefore _ ?_) (hbefore _ ?_),
    always_removeIfPresent (hexposed _ (.inl rfl)) (hexposed _ (.inr rfl)),
    always_wipeIfEmpty hafter, Program.wp_iff_run.mpr fun _ _ _ => trivial⟩
  · rw [hx, FileSystem.fileAt_mkdir]
  · simp [Pending]
  · simp [Pending]

theorem killSpec_of_killed {op : KillOp} {c : StorageCall}
    (h : Killed (storageEnv C.toCrypto encryptionMayFail) op.program s c x) :
    KillSpec C.toCrypto s op c x := by
  cases op with
  | save t => exact always_iff_killed.mp (always_saveTemplate t) c x h
  | delete u f => exact always_iff_killed.mp (always_deleteTemplate u f) c x h

/-- A finished operation leaves its result, and every other face as it was. -/
theorem stored_of_run {op : KillOp} {ok : Bool}
    (h : Run (storageEnv C.toCrypto encryptionMayFail) op.program s ok x) :
    stored C.toCrypto op.userId op.faceId x = op.result C.toCrypto ∧
      ∀ v g, ¬ (v = op.userId ∧ g = op.faceId) →
        stored C.toCrypto v g x = stored C.toCrypto v g s := by
  have hwp : op.program.wp (storageEnv C.toCrypto encryptionMayFail) (fun _ y =>
      stored C.toCrypto op.userId op.faceId y = op.result C.toCrypto ∧ ∀ v g,
        ¬ (v = op.userId ∧ g = op.faceId) → stored C.toCrypto v g y =
          stored C.toCrypto v g s) s := by
    cases op with
    | save t =>
        refine wp_saveTemplate.mpr ⟨fun n => ⟨?_, fun v g hvg => ?_⟩, ?_, fun v g hvg => ?_⟩
        · exact stored_placed_encrypted n t
        · exact stored_placed_ne (.inl ⟨rfl, rfl⟩) _ hvg
        · exact stored_placed_plaintext t
        · exact stored_placed_ne (.inr ⟨rfl, rfl⟩) _ hvg
    | delete u f =>
        refine wp_deleteTemplate.mpr ⟨?_, fun v g hvg => ?_⟩
        · rw [stored_deleted]
          exact if_pos ⟨rfl, rfl⟩
        · rw [stored_deleted]
          exact if_neg hvg
  exact h.wp hwp

end killed

/-- The face of the operation loads what it did before or what the finished
operation leaves, and every other face loads what it did. -/
def Atomic (C : Crypto) (s : FileSystem) (op : KillOp) (x : FileSystem) : Prop :=
  (∀ o ∈ loadOutcomes C op.userId op.faceId x, o ∈ loadOutcomes C op.userId op.faceId s ∨
    ∃ ok y, Run (storageEnv C encryptionMayFail) op.program s ok y ∧
      o ∈ loadOutcomes C op.userId op.faceId y) ∧
  ∀ v g, ¬ (v = op.userId ∧ g = op.faceId) → loadOutcomes C v g x = loadOutcomes C v g s

/-- The operation saves this template of the face. -/
def KillOp.Saves (C : Crypto) (v g : Int32) (t : FaceTemplate) (op : KillOp) : Prop :=
  op.userId = v ∧ op.faceId = g ∧ op.result C = some t

section runs
variable {C : LawfulCrypto} {s x : FileSystem}

theorem atomic_iff_stored {op : KillOp} :
    Atomic C.toCrypto s op x ↔
      (stored C.toCrypto op.userId op.faceId x = stored C.toCrypto op.userId op.faceId s ∨
        stored C.toCrypto op.userId op.faceId x = op.result C.toCrypto) ∧
      ∀ v g, ¬ (v = op.userId ∧ g = op.faceId) →
        stored C.toCrypto v g x = stored C.toCrypto v g s := by
  simp only [Atomic, loadOutcomes_eq, Set.mem_singleton_iff, forall_eq,
    Set.singleton_eq_singleton_iff]
  refine and_congr_left fun _ => or_congr_right ?_
  constructor
  · rintro ⟨ok, y, hy, h⟩
    rw [h, (stored_of_run hy).1]
  · intro h
    obtain ⟨ok, y, hy⟩ := exists_run (storageEnv_total C.toCrypto encryptionMayFail_ne_always)
      op.program s
    exact ⟨ok, y, hy, by rw [h, (stored_of_run hy).1]⟩

/-- From any state, an interrupted operation is atomic except in the window. -/
theorem atomic_killed_iff {op : KillOp} {c : StorageCall}
    (h : Killed (storageEnv C.toCrypto encryptionMayFail) op.program s c x) :
    Atomic C.toCrypto s op x ↔ ¬ Exposes C.toCrypto s (op, some c) := by
  obtain ⟨hown, hothers⟩ := killSpec_of_killed h
  rw [atomic_iff_stored, ← hown.old_or_new_iff]
  exact and_iff_left hothers

/-- The steps that are not killed in the window. -/
abbrev safeStep (C : Crypto) : System FileSystem KillLabel :=
  guarded (fun s l => ¬ Exposes C s l) (killStep C)

theorem atomic_of_safeStep {l : KillLabel} (h : safeStep C.toCrypto s l x) :
    Atomic C.toCrypto s l.1 x := by
  rcases l with ⟨op, _ | c⟩
  · obtain ⟨-, ok, hrun⟩ := h
    obtain ⟨hown, hothers⟩ := stored_of_run hrun
    exact atomic_iff_stored.mpr ⟨.inr hown, hothers⟩
  · exact (atomic_killed_iff h.2).mpr h.1

theorem hidden_of_safeStep {l : KillLabel} (h : safeStep C.toCrypto s l x) {v g : Int32}
    {t : FaceTemplate} (hs : stored C.toCrypto v g s ≠ some t) (hl : ¬ l.1.Saves C.toCrypto v g t) :
    stored C.toCrypto v g x ≠ some t := by
  obtain ⟨hown, hothers⟩ := atomic_iff_stored.mp (atomic_of_safeStep h)
  by_cases hvg : v = l.1.userId ∧ g = l.1.faceId
  · obtain ⟨rfl, rfl⟩ := hvg
    rcases hown with hold | hnew
    · rwa [hold]
    · rw [hnew]
      exact fun hres => hl ⟨rfl, rfl, hres⟩
  · rwa [hothers v g hvg]

theorem hidden_of_runs {ls : List KillLabel} (h : Runs (safeStep C.toCrypto) s ls x) {v g : Int32}
    {t : FaceTemplate} (hs : stored C.toCrypto v g s ≠ some t)
    (hl : ∀ l ∈ ls, ¬ l.1.Saves C.toCrypto v g t) : stored C.toCrypto v g x ≠ some t := by
  induction h with
  | nil s => exact hs
  | cons hstep _ ih =>
      refine ih (hidden_of_safeStep hstep hs (hl _ List.mem_cons_self)) ?_
      intro l hmem
      exact hl l (List.mem_cons_of_mem _ hmem)

/-- In a run of saves and deletes that are killed anywhere but in the window, every
step is atomic, and a template that does not load at some point is not seen after
it before it is saved again. -/
theorem kill_atomic {before after : List KillLabel}
    (hbefore : Runs (safeStep C.toCrypto) .empty before s)
    (hafter : Runs (safeStep C.toCrypto) s after x) :
    Runs (fun s l x => killStep C.toCrypto s l x ∧ Atomic C.toCrypto s l.1 x) .empty
        (before ++ after) x ∧
      ∀ v g t, some t ∉ loadOutcomes C.toCrypto v g s →
        (∀ l ∈ after, ¬ l.1.Saves C.toCrypto v g t) → some t ∉ loadOutcomes C.toCrypto v g x := by
  refine ⟨(hbefore.append hafter).mono fun _ _ _ h => ⟨h.2, atomic_of_safeStep h⟩, ?_⟩
  intro v g t ht hsaves
  rw [loadOutcomes_eq, Set.mem_singleton_iff, eq_comm] at ht ⊢
  exact hidden_of_runs hafter ht hsaves

end runs

/-- The older template is saved while encryption is unavailable. -/
def olderSaved : FileSystem :=
  ((saveTemplate sampleTemplate).eval (answerPlain toyCrypto.toCrypto) .empty).2

/-- The newer one is encrypted; the process dies before the older file is removed. -/
def newerVisible : FileSystem :=
  (saveTemplate newerTemplate).stateAfter (answer toyCrypto.toCrypto 0) 9 olderSaved

theorem works_toy (c : StorageCall) (s : FileSystem) :
    storageEnv toyCrypto.toCrypto encryptionMayFail c s
      (answer toyCrypto.toCrypto 0 c s).1 (answer toyCrypto.toCrypto 0 c s).2 :=
  storageEnv_of_works (works_answer _ 0 c s) (encryptionMayFail_ne_always c)

/-- The two calls are killed with both files of the face on disk, the delete
before it removes the encrypted one: the older template stays hidden. -/
theorem kill_atomic_killed : ∃ s,
    Runs (fun s l x => killStep toyCrypto.toCrypto s l x ∧ Atomic toyCrypto.toCrypto s l.1 x) .empty
      [(.save sampleTemplate, none), (.save newerTemplate, some (.exists (plaintextPath 0 2))),
        (.delete 0 2, some (.remove (filePath 0 2)))] s ∧
    ∀ t, t.templateData = [5] → some t ∉ loadOutcomes toyCrypto.toCrypto 0 2 s := by
  have hsave : safeStep toyCrypto.toCrypto .empty (.save sampleTemplate, none) olderSaved := by
    refine ⟨?_, _, run_eval (storageEnv_answerPlain _) _ _⟩
    rintro ⟨⟨c, hc, -⟩, -⟩
    cases hc
  have hnewer : safeStep toyCrypto.toCrypto olderSaved
      (.save newerTemplate, some (.exists (plaintextPath 0 2))) newerVisible := by
    refine ⟨?_, killed_stateAfter works_toy (by decide +kernel)⟩
    rintro ⟨-, hrejected, -⟩
    exact hrejected rfl
  have hdelete : safeStep toyCrypto.toCrypto newerVisible
      (.delete 0 2, some (.remove (filePath 0 2)))
      ((deleteTemplate 0 2).stateAfter (answer toyCrypto.toCrypto 0) 3 newerVisible) := by
    refine ⟨?_, killed_stateAfter works_toy (by decide +kernel)⟩
    rintro ⟨⟨c, hc, hpending⟩, -⟩
    obtain rfl := Option.some.inj hc
    revert hpending
    simp [Pending]
  have hbefore := Runs.cons hsave (.single hnewer)
  obtain ⟨hruns, hhidden⟩ := kill_atomic (C := toyCrypto) hbefore (.single hdelete)
  refine ⟨_, hruns, ?_⟩
  intro t ht
  refine hhidden 0 2 t ?_ ?_
  · rw [loadOutcomes_eq, Set.mem_singleton_iff]
    intro hstored
    have hdata : (stored toyCrypto.toCrypto 0 2 newerVisible).map FaceTemplate.templateData =
        some [6] := by
      decide +kernel
    rw [← hstored, Option.map_some, ht] at hdata
    cases hdata
  · rintro l hl ⟨-, -, hresult⟩
    obtain rfl := List.mem_singleton.mp hl
    cases hresult

/-- The face is deleted; the process dies at the same file. -/
def olderVisible : FileSystem :=
  (deleteTemplate 0 2).stateAfter (answer toyCrypto.toCrypto 0) 4 newerVisible

theorem delete_exposes : ¬ ∀ (C : LawfulCrypto) (ls : List KillLabel) (s : FileSystem)
    (l : KillLabel)
    (x : FileSystem), Runs (killStep C.toCrypto) .empty ls s → killStep C.toCrypto s l x →
      Atomic C.toCrypto s l.1 x := by
  intro h
  have holder : killStep toyCrypto.toCrypto .empty (.save sampleTemplate, none) olderSaved :=
    ⟨_, run_eval (storageEnv_answerPlain _) _ _⟩
  have hnewer : killStep toyCrypto.toCrypto olderSaved
      (.save newerTemplate, some (.exists (plaintextPath 0 2))) newerVisible :=
    killed_stateAfter works_toy (by decide +kernel)
  have hdelete : killStep toyCrypto.toCrypto newerVisible
      (.delete 0 2, some (.exists (plaintextPath 0 2))) olderVisible :=
    killed_stateAfter works_toy (by decide +kernel)
  have hatomic := h toyCrypto _ _ _ _ (.cons holder (.single hnewer)) hdelete
  refine (atomic_killed_iff hdelete).mp hatomic ⟨⟨_, rfl, .inl rfl⟩, trivial, ?_⟩
  have he : ((newerVisible.fileAt (filePath 0 2)).bind (decodeEncrypted toyCrypto.toCrypto 0 2)).map
      FaceTemplate.templateData = some [6] := by decide +kernel
  have hp : ((newerVisible.fileAt (plaintextPath 0 2)).bind (decodeFor toyCrypto.toCrypto 0 2)).map
      FaceTemplate.templateData = some [5] := by decide +kernel
  obtain ⟨e, he, hed⟩ := Option.map_eq_some_iff.mp he
  obtain ⟨p, hp, hpd⟩ := Option.map_eq_some_iff.mp hp
  refine ⟨e, p, he, hp, ?_⟩
  rintro rfl
  rw [hed] at hpd
  cases hpd

end FaceStorageManager
end FaceHal
