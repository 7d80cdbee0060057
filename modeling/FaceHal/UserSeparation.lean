import FaceHal.FaceEngineStub
import FaceHal.Hal

/-!
# Users and the faces the engine has

The sessions of `Hal` with the stub as their engine. The engine has the faces of
the user whose session was created last, and every call of any session works on
them. So what the engine says belongs to the user of the session as long as the
engine is only used through sessions of the user whose session was created last.

The creation of a session is one step here, with its call of `restoreEnrollments`, which
takes the engine's mutex only after the faces were loaded. `EngineRace` has the two apart.
-/
namespace FaceHal
open FaceStorageManager Program

structure StubHal where
  hal : Hal
  enrolledEmbeddings : Embeddings
  disk : FileSystem

/-- The user whose session was created last. -/
def Hal.lastUser (h : Hal) : Option Int32 := h.users.getLast?

namespace StubHal

/-- The engine and the files when a process starts on a disk. -/
def start (disk : FileSystem) : StubHal := ⟨.initial, ∅, disk⟩

/-- The engine has the same faces and the disk the same files afterwards. -/
def Kept (v : StubHal) (embeddings : Embeddings) (disk : FileSystem) : Prop :=
  embeddings = v.enrolledEmbeddings ∧ disk = v.disk

/-- What a worker's step at a stage does with the engine for a user. -/
def WorkerRun (C : Crypto) (v : StubHal) (userId : Int32) (stage : WorkerStage)
    (reply : EngineReply)
    (embeddings : Embeddings) (disk : FileSystem) : Prop :=
  match stage with
  | .authenticate => reply = FaceEngineStub.authenticate v.hal.engine v.enrolledEmbeddings ∧
      v.Kept embeddings disk
  | .analyze => reply = FaceEngineStub.analyzeFaceQuality v.hal.engine ∧ v.Kept embeddings disk
  | .enroll => Run (storageEnv C encryptionMayFail)
      (FaceEngineStub.enroll v.hal.engine v.enrolledEmbeddings userId) v.disk
      (reply, embeddings) disk
  | _ => v.Kept embeddings disk

/-- What a step does with the engine. -/
def EngineRun (C : Crypto) (v : StubHal) (l : HalLabel) (embeddings : Embeddings)
    (disk : FileSystem) : Prop :=
  match l with
  | .createSession sensorId userId =>
      if sensorId ≠ 1008 then v.Kept embeddings disk
      else Run (storageEnv C encryptionMayFail) (FaceEngineStub.restoreEnrollments userId) v.disk
        embeddings disk
  | .session _ (.enumerateEnrollments ids) =>
      ids = FaceEngineStub.getEnrolledFaceIds v.enrolledEmbeddings ∧ v.Kept embeddings disk
  | .session i (.removeEnrollments ids) => ∃ s ∈ v.hal.live i,
      Run (storageEnv C encryptionMayFail)
        (FaceEngineStub.removeEnrollments s.userId ids v.enrolledEmbeddings) v.disk embeddings disk
  | .session i (.worker k reply) => ∃ s ∈ v.hal.live i, ∃ w ∈ s.workers[k]?,
      v.WorkerRun C s.userId w.stage reply embeddings disk
  | _ => v.Kept embeddings disk

end StubHal

def stubStep (C : Crypto) : System StubHal HalLabel := fun v l v' =>
  halStep v.hal l v'.hal ∧ v.EngineRun C l v'.enrolledEmbeddings v'.disk

/-- The face of the user is stored. -/
def HasFace (C : Crypto) (disk : FileSystem) (u f : Int32) : Prop := stored C u f disk ≠ none

namespace StubHal

/-- A session enumerates the faces stored for its user, a match names one of them,
and a completed enrolment none of them. -/
def SeparatesUsers (C : Crypto) (v : StubHal) : HalLabel → Prop
  | .session i (.enumerateEnrollments ids) => ∀ s ∈ v.hal.live i,
      ids.Nodup ∧ ∀ f, f ∈ ids ↔ HasFace C v.disk s.userId f
  | .session i (.worker k reply) => ∀ s ∈ v.hal.live i, ∀ w ∈ s.workers[k]?,
      (w.stage = .authenticate → reply.res = 0 → HasFace C v.disk s.userId reply.faceId) ∧
      (w.stage = .enroll → reply.res = VendorCode.faceOk → ¬ HasFace C v.disk s.userId reply.faceId)
  | _ => True

/-- The engine is used for the user whose session was created last, and no enrolment
is completed after the greatest id was given away. -/
def UsesOwnFaces (C : Crypto) (v : StubHal) : HalLabel → Prop
  | .session i (.enumerateEnrollments _) | .session i (.removeEnrollments _) =>
      ∀ s ∈ v.hal.live i, v.hal.lastUser = some s.userId
  | .session i (.worker k _) => ∀ s ∈ v.hal.live i, ∀ w ∈ s.workers[k]?,
      (w.stage = .authenticate → v.hal.engine.isCancelled = false →
        v.hal.lastUser = some s.userId) ∧
      (w.stage = .enroll → FaceEngineStub.completes v.hal.engine = true →
        v.hal.lastUser = some s.userId ∧ ¬ HasFace C v.disk s.userId Int32.maxValue)
  | _ => True

/-- The files represent a map, and the engine has its entries for the last user. -/
structure Synced (C : Crypto) (v : StubHal) (m : TemplateMap) : Prop where
  represents : Represents C v.disk m
  mirrors : ∀ u, v.hal.lastUser = some u → Mirrors v.enrolledEmbeddings m u

end StubHal

namespace StubHal

section step
variable {C : LawfulCrypto} {v v' : StubHal} {l : HalLabel} {m : TemplateMap}

/-- Stored faces are the entries of the map. -/
theorem Synced.hasFace_iff (hs : v.Synced C.toCrypto m) {u f : Int32} :
    HasFace C.toCrypto v.disk u f ↔ m u f ≠ none := by
  rw [HasFace, ← hs.represents.loads]
  simp

theorem Synced.of_kept (hs : v.Synced C.toCrypto m) (hstep : halStep v.hal l v'.hal)
    (hl : ∀ userId, l ≠ .createSession 1008 userId)
    (hkept : v.Kept v'.enrolledEmbeddings v'.disk) : v'.Synced C.toCrypto m := by
  obtain ⟨hembeddings, hdisk⟩ := hkept
  have husers : v'.hal.users = v.hal.users := by
    rcases Hal.users_step hstep with heq | ⟨userId, rfl, -⟩
    · exact heq
    · exact absurd rfl (hl userId)
  constructor
  · rw [hdisk]
    exact hs.represents
  · rw [Hal.lastUser, husers, hembeddings]
    exact hs.mirrors

/-- What a call of a session of the last user leaves. -/
theorem synced_of_mirrors {u : Int32} (hstep : halStep v.hal l v'.hal)
    (hl : ∀ userId, l ≠ .createSession 1008 userId) (hlast : v.hal.lastUser = some u)
    (hrep : Represents C.toCrypto v'.disk m) (hm : Mirrors v'.enrolledEmbeddings m u) :
    v'.Synced C.toCrypto m := by
  have husers : v'.hal.users = v.hal.users := by
    rcases Hal.users_step hstep with heq | ⟨userId, rfl, -⟩
    · exact heq
    · exact absurd rfl (hl userId)
  refine ⟨hrep, ?_⟩
  intro u' hu'
  rw [Hal.lastUser, husers] at hu'
  obtain rfl := Option.some.inj (hlast.symm.trans hu')
  exact hm

/-- A creation gives the engine the faces of the new session's user. -/
theorem synced_created {userId : Int32} (hs : v.Synced C.toCrypto m)
    (hstep : stubStep C.toCrypto v (.createSession 1008 userId) v') :
    v'.Synced C.toCrypto (m.current userId) := by
  obtain ⟨hhal, hrun⟩ := hstep
  have hrun' : Run (storageEnv C.toCrypto encryptionMayFail)
      (FaceEngineStub.restoreEnrollments userId) v.disk v'.enrolledEmbeddings v'.disk := hrun
  have hafter := hrun'.wp (Q := fun embeddings disk =>
    Represents C.toCrypto disk (m.current userId) ∧ Mirrors embeddings (m.current userId) userId)
    (wp_restoreEnrollments hs.represents fun _ _ hrep hm => ⟨hrep, hm⟩)
  refine ⟨hafter.1, ?_⟩
  intro u hu
  obtain rfl : userId = u := by
    have hcreated : v.hal.createSession 1008 userId = v'.hal := Option.some.inj hhal
    rw [← hcreated] at hu
    simpa [Hal.lastUser, Hal.users, Hal.createSession, Session.create] using hu
  exact hafter.2

theorem separates_worker {i k : ℕ} {reply : EngineReply} {s : Session} {w : Worker}
    (hs : v.Synced C.toCrypto m) (hhal : halStep v.hal (.session i (.worker k reply)) v'.hal)
    (hauth : w.stage = .authenticate → v.hal.engine.isCancelled = false →
      v.hal.lastUser = some s.userId)
    (henroll : w.stage = .enroll → FaceEngineStub.completes v.hal.engine = true →
      v.hal.lastUser = some s.userId ∧ ¬ HasFace C.toCrypto v.disk s.userId Int32.maxValue)
    (hrun : v.WorkerRun C.toCrypto s.userId w.stage reply v'.enrolledEmbeddings v'.disk) :
    ((w.stage = .authenticate → reply.res = 0 → HasFace C.toCrypto v.disk s.userId reply.faceId) ∧
      (w.stage = .enroll → reply.res = VendorCode.faceOk →
        ¬ HasFace C.toCrypto v.disk s.userId reply.faceId)) ∧
      ∃ m', v'.Synced C.toCrypto m' := by
  unfold WorkerRun at hrun
  cases hstage : w.stage with
  | authenticate =>
      rw [hstage] at hrun
      obtain ⟨rfl, hkept⟩ := hrun
      refine ⟨⟨?_, nofun⟩, m, hs.of_kept hhal nofun hkept⟩
      intro _ hres
      unfold FaceEngineStub.authenticate at hres ⊢
      split_ifs at hres ⊢ with hcancelled
      · cases hres
      · cases hhead : v.enrolledEmbeddings.keys.head? with
        | none =>
            rw [hhead] at hres
            cases hres
        | some f =>
            have hlast := hauth hstage (by simpa using hcancelled)
            rw [hs.hasFace_iff, ← hs.mirrors s.userId hlast f]
            exact Std.TreeMap.mem_keys.mp (List.mem_of_head? hhead)
  | enroll =>
      rw [hstage] at hrun
      have hrun' : Run (storageEnv C.toCrypto encryptionMayFail)
          (FaceEngineStub.enroll v.hal.engine v.enrolledEmbeddings s.userId) v.disk
          (reply, v'.enrolledEmbeddings) v'.disk := hrun
      refine hrun'.wp (Q := fun a disk => a.2 = v'.enrolledEmbeddings → disk = v'.disk →
        ((.enroll = WorkerStage.authenticate → a.1.res = 0 →
          HasFace C.toCrypto v.disk s.userId a.1.faceId) ∧
          (WorkerStage.enroll = .enroll → a.1.res = VendorCode.faceOk →
            ¬ HasFace C.toCrypto v.disk s.userId a.1.faceId)) ∧ ∃ m', v'.Synced C.toCrypto m')
        (wp_enroll hs.represents ?_ ?_ ?_) rfl rfl
      · intro hcompletes
        obtain ⟨hlast, hmax⟩ := henroll hstage hcompletes
        refine ⟨hs.mirrors s.userId hlast, ?_⟩
        rw [hs.hasFace_iff] at hmax
        exact not_not.mp hmax
      · intro reply' hres hembeddings hdisk
        refine ⟨⟨nofun, fun _ heq => absurd heq hres⟩, m, ?_⟩
        exact hs.of_kept hhal nofun ⟨hembeddings.symm, hdisk.symm⟩
      · rintro reply' disk m' embeddings' hcompletes hrep hm hfresh rfl rfl
        obtain ⟨hlast, -⟩ := henroll hstage hcompletes
        refine ⟨⟨nofun, ?_⟩, m', synced_of_mirrors hhal nofun hlast hrep hm⟩
        intro _ _
        rw [hs.hasFace_iff]
        exact not_not.mpr hfresh
  | analyze =>
      rw [hstage] at hrun
      exact ⟨⟨nofun, nofun⟩, m, hs.of_kept hhal nofun hrun.2⟩
  | _ =>
      rw [hstage] at hrun
      exact ⟨⟨nofun, nofun⟩, m, hs.of_kept hhal nofun hrun⟩

theorem separates_step (hs : v.Synced C.toCrypto m) (hown : v.UsesOwnFaces C.toCrypto l)
    (hstep : stubStep C.toCrypto v l v') :
    v.SeparatesUsers C.toCrypto l ∧ ∃ m', v'.Synced C.toCrypto m' := by
  obtain ⟨hhal, hrun⟩ := id hstep
  cases l with
  | createSession sensorId userId =>
      by_cases hid : sensorId = 1008
      · obtain rfl := hid
        exact ⟨trivial, _, synced_created hs hstep⟩
      · have hkept : v.Kept v'.enrolledEmbeddings v'.disk := by
          unfold EngineRun at hrun
          dsimp only at hrun
          rwa [if_pos hid] at hrun
        refine ⟨trivial, m, hs.of_kept hhal ?_ hkept⟩
        rintro _ ⟨⟩
        exact hid rfl
  | cameraFrame i => exact ⟨trivial, m, hs.of_kept hhal nofun hrun⟩
  | destroy i => exact ⟨trivial, m, hs.of_kept hhal nofun hrun⟩
  | session i l' =>
      cases l' with
      | enumerateEnrollments ids =>
          obtain ⟨rfl, hkept⟩ := hrun
          refine ⟨?_, m, hs.of_kept hhal nofun hkept⟩
          intro s hlive
          refine ⟨Std.TreeMap.nodup_keys, ?_⟩
          intro f
          rw [hs.hasFace_iff, ← hs.mirrors s.userId (hown s hlive) f]
          exact Std.TreeMap.mem_keys
      | removeEnrollments ids =>
          obtain ⟨s, hlive, hrun'⟩ := hrun
          obtain ⟨m', hrep, hm⟩ := hrun'.wp (Q := fun embeddings disk => ∃ m',
            Represents C.toCrypto disk m' ∧ Mirrors embeddings m' s.userId)
            (wp_removeEnrollments hs.represents (hs.mirrors s.userId (hown s hlive))
              fun _ m' _ hrep hm => ⟨m', hrep, hm⟩)
          exact ⟨trivial, m', synced_of_mirrors hhal nofun (hown s hlive) hrep hm⟩
      | worker k reply =>
          obtain ⟨s, hlive, w, hw, hrun'⟩ := hrun
          obtain ⟨hauth, henroll⟩ := hown s hlive w hw
          obtain ⟨hseparates, hsynced⟩ := separates_worker hs hhal hauth henroll hrun'
          refine ⟨?_, hsynced⟩
          intro s' hs' w' hw'
          obtain rfl := Option.some.inj (hs'.symm.trans hlive)
          obtain rfl := Option.some.inj (hw'.symm.trans hw)
          exact hseparates
      | _ => exact ⟨trivial, m, hs.of_kept hhal nofun hrun⟩

theorem synced_start {disk : FileSystem} (hrep : Represents C.toCrypto disk m) :
    (start disk).Synced C.toCrypto m := by
  refine ⟨hrep, ?_⟩
  intro u hu
  cases hu

/-- Without file faults a session can always be created. -/
theorem exists_created (C : Crypto) (v : StubHal) (userId : Int32) :
    ∃ v', stubStep C v (.createSession 1008 userId) v' ∧
      v'.hal = v.hal.createSession 1008 userId := by
  obtain ⟨embeddings, disk, hrun⟩ := exists_run (storageEnv_total C encryptionMayFail_ne_always)
    (FaceEngineStub.restoreEnrollments userId) v.disk
  exact ⟨⟨_, embeddings, disk⟩, ⟨rfl, hrun⟩, rfl⟩

end step

/-- In a run in which the engine is only used for the user whose session was created
last, every answer belongs to the user of the session. -/
theorem users_separated (C : LawfulCrypto) {disk : FileSystem} {m : TemplateMap}
    {ls : List HalLabel} {v : StubHal} (hrep : Represents C.toCrypto disk m)
    (hrun : Runs (guarded (UsesOwnFaces C.toCrypto) (stubStep C.toCrypto)) (start disk) ls v) :
    Runs (fun v l v' => stubStep C.toCrypto v l v' ∧ v.SeparatesUsers C.toCrypto l)
      (start disk) ls v := by
  refine (hrun.strengthen (P := fun v => ∃ m, v.Synced C.toCrypto m) ?_ ⟨m, synced_start hrep⟩).1
  rintro v l v' ⟨m, hs⟩ ⟨hown, hstep⟩
  obtain ⟨hseparates, hsynced⟩ := separates_step hs hown hstep
  exact ⟨⟨hstep, hseparates⟩, hsynced⟩

/-- A template of user 10 as the stub enrols it. -/
def enrolledTemplate : FaceTemplate :=
  ⟨1, 2, 10, List.replicate FaceStorageCallbacks.embeddingSize 0, 0, []⟩

def enrolledMap : TemplateMap :=
  TemplateMap.set (fun _ _ => none) 10 2 (some enrolledTemplate.record)

def enrolledDisk : FileSystem :=
  placed .empty (plaintextPath 10 2) (filePath 10 2)
    (serialized toyCrypto.toCrypto enrolledTemplate)

theorem represents_enrolled : Represents toyCrypto.toCrypto enrolledDisk enrolledMap := by
  have hlen : enrolledTemplate.templateData.length < 2 ^ 32 := by
    rw [enrolledTemplate, List.length_replicate]
    decide
  refine (represents_empty toyCrypto.toCrypto).placed (by decide) (.inr ⟨rfl, rfl⟩) ?_
  rw [← decodeFor_serialized (C := toyCrypto) rfl hlen]
  exact congrArg (Option.map FaceTemplate.record) (stored_placed_plaintext enrolledTemplate)

theorem enrolledMap_current (u : Int32) : enrolledMap.current u = enrolledMap := by
  funext v g
  unfold TemplateMap.current enrolledMap TemplateMap.set
  split_ifs
  · rw [Option.filter_some_pos]
    simp [enrolledTemplate, FaceTemplate.record]
  · rfl
  · rfl
  · rfl

/-- A session of user 0 enumerates the face of user 10, whose session is newer. -/
theorem enumerates_otherUser : ¬ ∀ (C : LawfulCrypto) (disk : FileSystem) (m : TemplateMap)
    (ls : List HalLabel) (v : StubHal) (l : HalLabel) (v' : StubHal),
    Represents C.toCrypto disk m → Runs (stubStep C.toCrypto) (start disk) ls v →
      stubStep C.toCrypto v l v' → v.SeparatesUsers C.toCrypto l := by
  intro hall
  obtain ⟨v₁, hstep₁, hhal₁⟩ := exists_created toyCrypto.toCrypto (start enrolledDisk) 0
  obtain ⟨v₂, hstep₂, hhal₂⟩ := exists_created toyCrypto.toCrypto v₁ 10
  have hsynced := synced_created (synced_created (synced_start represents_enrolled) hstep₁) hstep₂
  rw [enrolledMap_current, enrolledMap_current] at hsynced
  rw [hhal₁] at hhal₂
  have hlive : v₂.hal.live 0 = some (.create 0) := by
    rw [hhal₂]
    rfl
  have hhal : halStep v₂.hal (.session 0 (.enumerateEnrollments v₂.enrolledEmbeddings.keys))
      (v₂.hal.put 0 (SessionView.enumerateEnrollments ⟨v₂.hal.engine, .create 0⟩
        v₂.enrolledEmbeddings.keys)) := by
    simp [halStep, HalLabel.apply, hlive, SessionLabel.isOwn, SessionLabel.apply]
  have hseparates := hall toyCrypto enrolledDisk enrolledMap _ v₂ _ ⟨_, _, _⟩ represents_enrolled
    (.cons hstep₁ (.single hstep₂)) ⟨hhal, rfl, rfl, rfl⟩
  obtain ⟨-, hfaces⟩ := hseparates _ hlive
  have hmem : (2 : Int32) ∈ v₂.enrolledEmbeddings.keys := by
    rw [Std.TreeMap.mem_keys, hsynced.mirrors 10 (by rw [hhal₂]; rfl)]
    exact nofun
  have hface := (hfaces 2).mp hmem
  rw [hsynced.hasFace_iff] at hface
  exact hface rfl

/-- The step neither asks for a face nor changes one: it is away from the engine, or it counts a
frame. -/
def Plain (h : Hal) : HalLabel → Prop
  | .createSession sensorId _ => sensorId ≠ 1008
  | .session _ (.enumerateEnrollments _) | .session _ (.removeEnrollments _) => False
  | .session i (.worker k reply) => ∀ s ∈ h.live i, ∀ w ∈ s.workers[k]?,
      w.stage.callsEngine = true → w.stage = .enroll ∧ h.engine.isCancelled = false ∧
        h.engine.enrollFrameCount + 1 < FaceEngine.enrollRequiredGoodFrames ∧
        reply = ⟨VendorCode.keep, 0, h.engine.enrollFrameCount + 1⟩
  | _ => True

instance (h : Hal) (l : HalLabel) : Decidable (Plain h l) := by
  unfold Plain
  split <;> infer_instance

theorem exists_worker {h h' : Hal} {i k : ℕ} {reply : EngineReply}
    (hstep : halStep h (.session i (.worker k reply)) h') :
    ∃ s, h.live i = some s ∧ ∃ w, s.workers[k]? = some w := by
  obtain ⟨s, hs, hput⟩ := Option.bind_eq_some_iff.mp hstep
  obtain ⟨u, hu, -⟩ := Option.map_eq_some_iff.mp (Option.ite_none_right_eq_some.mp hput).2
  obtain ⟨w, hw, -⟩ := Option.map_eq_some_iff.mp hu
  exact ⟨s, hs, w, hw⟩

theorem stubStep_plain {C : Crypto} {v : StubHal} {h : Hal} {l : HalLabel} (hplain : Plain v.hal l)
    (hstep : halStep v.hal l h) :
    v.UsesOwnFaces C l ∧ stubStep C v l ⟨h, v.enrolledEmbeddings, v.disk⟩ := by
  cases l with
  | createSession sensorId userId =>
      refine ⟨trivial, hstep, ?_⟩
      unfold EngineRun
      dsimp only
      rw [if_pos (show sensorId ≠ 1008 from hplain)]
      exact ⟨rfl, rfl⟩
  | cameraFrame i => exact ⟨trivial, hstep, rfl, rfl⟩
  | destroy i => exact ⟨trivial, hstep, rfl, rfl⟩
  | session i l' =>
      cases l' with
      | enumerateEnrollments ids => exact hplain.elim
      | removeEnrollments ids => exact hplain.elim
      | worker k reply =>
          obtain ⟨s, hs, w, hw⟩ := exists_worker hstep
          have hcounts := hplain s hs w hw
          refine ⟨?_, hstep, s, hs, w, hw, ?_⟩
          · intro s' hs' w' hw'
            obtain rfl := Option.some.inj (hs.symm.trans hs')
            obtain rfl := Option.some.inj (hw.symm.trans hw')
            refine ⟨fun hstage => ?_, fun hstage hcompletes => ?_⟩
            · rw [hstage] at hcounts
              cases (hcounts rfl).1
            · rw [hstage] at hcounts
              obtain ⟨-, -, hmore, -⟩ := hcounts rfl
              simp [FaceEngineStub.completes, hmore] at hcompletes
          · unfold WorkerRun
            cases hstage : w.stage with
            | authenticate | analyze =>
                rw [hstage] at hcounts
                cases (hcounts rfl).1
            | enroll =>
                rw [hstage] at hcounts
                obtain ⟨-, hlive, hmore, rfl⟩ := hcounts rfl
                dsimp only
                unfold FaceEngineStub.enroll
                rw [if_neg (by rw [hlive]; exact Bool.false_ne_true)]
                dsimp only
                rw [if_pos hmore]
                exact .done _ _
            | _ => exact ⟨rfl, rfl⟩
      | _ => exact ⟨trivial, hstep, rfl, rfl⟩

theorem runs_plain {C : Crypto} {v : StubHal} {h : Hal} {ls : List HalLabel}
    (hplain : replay Plain HalLabel.apply ls v.hal = some h) :
    Runs (guarded (UsesOwnFaces C) (stubStep C)) v ls ⟨h, v.enrolledEmbeddings, v.disk⟩ := by
  have hsame : ∃ v', Runs (guarded (UsesOwnFaces C) (stubStep C)) v ls v' ∧
      v' = ⟨h, v.enrolledEmbeddings, v.disk⟩ := by
    refine (runs_of_replay hplain).simulate
      (R := fun (h : Hal) (v' : StubHal) => v' = ⟨h, v.enrolledEmbeddings, v.disk⟩) ?_ rfl
    rintro h l h' _ rfl ⟨hplain, hstep⟩
    have hstub := stubStep_plain (C := C) (v := ⟨h, v.enrolledEmbeddings, v.disk⟩) hplain hstep
    exact ⟨_, hstub, rfl⟩
  obtain ⟨_, hruns, rfl⟩ := hsame
  exact hruns

/-- A frame of the session's camera gets to the engine after `tests` tests. -/
def frameToEngine (tests : ℕ) : List HalLabel :=
  [.cameraFrame 0, .session 0 (.frameClaims 0)] ++
    List.replicate tests (.session 0 (.worker 0 noReply))

def countedFrame (n : Int32) : List HalLabel :=
  frameToEngine 4 ++ [.session 0 (.worker 0 ⟨VendorCode.keep, 0, n⟩)] ++
    List.replicate 3 (.session 0 (.worker 0 noReply))

def untilMatch : List HalLabel :=
  .session 0 (.authenticate 7 0 .started) :: frameToEngine 2

def untilEnrolled : List HalLabel :=
  List.replicate 6 (.session 0 (.worker 0 noReply)) ++ [.session 0 (.enroll .started)] ++
    countedFrame 1 ++ countedFrame 2 ++ countedFrame 3 ++ countedFrame 4 ++ frameToEngine 4

/-- The worker is at a call of the engine for the user whose session was created last. -/
def AtEngine (h : Hal) (stage : WorkerStage) (u : Int32) : Prop :=
  h.lastUser = some u ∧ h.engine.isCancelled = false ∧
    ∀ s ∈ h.live 0, s.userId = u ∧ ∀ w ∈ s.workers[0]?, w.stage = stage

instance (h : Hal) (stage : WorkerStage) (u : Int32) : Decidable (AtEngine h stage u) := by
  unfold AtEngine
  infer_instance

theorem stubStep_atEngine {C : Crypto} {v : StubHal} {h : Hal} {embeddings : Embeddings}
    {disk : FileSystem} {stage : WorkerStage} {u : Int32} {reply : EngineReply}
    (hat : AtEngine v.hal stage u) (hstep : halStep v.hal (.session 0 (.worker 0 reply)) h)
    (hmax : ¬ HasFace C v.disk u Int32.maxValue)
    (hrun : v.WorkerRun C u stage reply embeddings disk) :
    v.UsesOwnFaces C (.session 0 (.worker 0 reply)) ∧
      stubStep C v (.session 0 (.worker 0 reply)) ⟨h, embeddings, disk⟩ := by
  obtain ⟨hlast, -, hworkers⟩ := hat
  obtain ⟨s, hs, w, hw⟩ := exists_worker hstep
  obtain ⟨rfl, hstages⟩ := hworkers s hs
  obtain rfl := hstages w hw
  refine ⟨fun s' hs' w' hw' => ?_, hstep, s, hs, w, hw, hrun⟩
  obtain rfl := Option.some.inj (hs.symm.trans hs')
  exact ⟨fun _ _ => hlast, fun _ _ => ⟨hlast, hmax⟩⟩

theorem keys_of_mirrors {embeddings : Embeddings} (h : Mirrors embeddings enrolledMap 10) :
    embeddings.keys = [2] := by
  refine List.perm_singleton.mp ((List.perm_ext_iff_of_nodup Std.TreeMap.nodup_keys
    (List.nodup_singleton _)).mpr fun f => ?_)
  rw [Std.TreeMap.mem_keys, h f, List.mem_singleton]
  unfold enrolledMap TemplateMap.set
  split_ifs with hf
  · exact iff_of_true nofun hf.2
  · exact iff_of_false (not_not_intro rfl) fun heq => hf ⟨rfl, heq⟩

/-- The session enumerates face 2, is matched with it and enrols face 3. -/
theorem ownUse_hal : ∃ h₂ h₃ h₄ h₅ h₆,
    halStep (Hal.initial.createSession 1008 10) (.session 0 (.enumerateEnrollments [2])) h₂ ∧
    replay Plain HalLabel.apply untilMatch h₂ = some h₃ ∧
    (AtEngine h₃ .authenticate 10 ∧ h₃.engine.enrollFrameCount = 0) ∧
    halStep h₃ (.session 0 (.worker 0 ⟨0, 2, 0⟩)) h₄ ∧
    replay Plain HalLabel.apply untilEnrolled h₄ = some h₅ ∧
    (AtEngine h₅ .enroll 10 ∧ FaceEngineStub.completes h₅.engine = true) ∧
    halStep h₅ (.session 0 (.worker 0 ⟨VendorCode.faceOk, 3, 0⟩)) h₆ := by
  let h₂ := (HalLabel.apply (Hal.initial.createSession 1008 10)
    (.session 0 (.enumerateEnrollments [2]))).get (by decide)
  let h₃ := (replay Plain HalLabel.apply untilMatch h₂).get (by decide +kernel)
  let h₄ := (HalLabel.apply h₃ (.session 0 (.worker 0 ⟨0, 2, 0⟩))).get (by decide +kernel)
  let h₅ := (replay Plain HalLabel.apply untilEnrolled h₄).get (by decide +kernel)
  let h₆ := (HalLabel.apply h₅ (.session 0 (.worker 0 ⟨VendorCode.faceOk, 3, 0⟩))).get
    (by decide +kernel)
  exact ⟨h₂, h₃, h₄, h₅, h₆, (Option.some_get _).symm, (Option.some_get _).symm,
    by decide +kernel, (Option.some_get _).symm, (Option.some_get _).symm, by decide +kernel,
    (Option.some_get _).symm⟩

/-- User 10 enumerates its face, is matched with it and gets another one. -/
theorem users_separated_ownUse : ∃ v,
    Runs (fun v l v' => stubStep toyCrypto.toCrypto v l v' ∧ v.SeparatesUsers toyCrypto.toCrypto l)
      (start enrolledDisk) ([.createSession 1008 10, .session 0 (.enumerateEnrollments [2])] ++
        untilMatch ++ [.session 0 (.worker 0 ⟨0, 2, 0⟩)] ++ untilEnrolled ++
        [.session 0 (.worker 0 ⟨VendorCode.faceOk, 3, 0⟩)]) v := by
  obtain ⟨⟨h, embeddings, disk⟩, hstep₁, rfl : h = Hal.initial.createSession 1008 10⟩ :=
    exists_created toyCrypto.toCrypto (start enrolledDisk) 10
  have hsynced := synced_created (synced_start represents_enrolled) hstep₁
  rw [enrolledMap_current] at hsynced
  have hmirrors : Mirrors embeddings enrolledMap 10 := hsynced.mirrors 10 rfl
  have hkeys := keys_of_mirrors hmirrors
  have hmax : ¬ HasFace toyCrypto.toCrypto disk 10 Int32.maxValue := fun hface =>
    hsynced.hasFace_iff.mp hface (by decide)
  have hmissing : Int32.maxValue ∉ embeddings := by
    rw [hmirrors]
    exact not_not_intro (by decide)
  obtain ⟨h₂, h₃, h₄, h₅, h₆, henumerate, huntil, ⟨hmatch, hcount⟩, hmatched, hrest,
    ⟨henroll, hcompletes⟩, hlast⟩ := ownUse_hal
  have hreply : FaceEngineStub.authenticate h₃.engine embeddings = ⟨0, 2, 0⟩ := by
    unfold FaceEngineStub.authenticate
    rw [if_neg (by rw [hmatch.2.1]; exact Bool.false_ne_true), hkeys, hcount]
    rfl
  obtain ⟨⟨reply, embeddings'⟩, disk', hrun⟩ := exists_run
    (storageEnv_total toyCrypto.toCrypto encryptionMayFail_ne_always)
    (FaceEngineStub.enroll h₅.engine embeddings 10) disk
  obtain rfl : reply = ⟨VendorCode.faceOk, 3, 0⟩ := by
    have hnext := hrun.wp (wp_enroll_nextId hsynced.represents hcompletes hmissing)
    rw [FaceEngineStub.maxId, hkeys] at hnext
    exact hnext
  have hfirst : Runs (guarded (UsesOwnFaces toyCrypto.toCrypto) (stubStep toyCrypto.toCrypto))
      (start enrolledDisk) [.createSession 1008 10, .session 0 (.enumerateEnrollments [2])]
      ⟨h₂, embeddings, disk⟩ := by
    refine .cons ⟨trivial, hstep₁⟩ (.single ⟨?_, henumerate, hkeys.symm, rfl, rfl⟩)
    intro s hs
    obtain rfl : Session.create 10 = s := Option.some.inj hs
    rfl
  have hmatches := stubStep_atEngine (v := ⟨h₃, embeddings, disk⟩) hmatch hmatched hmax
    ⟨hreply.symm, rfl, rfl⟩
  have henrols := stubStep_atEngine (v := ⟨h₅, embeddings, disk⟩) henroll hlast hmax hrun
  exact ⟨⟨h₆, embeddings', disk'⟩, users_separated toyCrypto represents_enrolled
    ((((hfirst.append (runs_plain huntil)).append (.single hmatches)).append
      (runs_plain hrest)).append (.single henrols))⟩

end StubHal
end FaceHal
