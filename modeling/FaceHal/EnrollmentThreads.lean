import FaceHal.UserSeparation

/-!
# Enrolment calls that overlap

`UserSeparation` takes a call of the engine for one step. `FaceEngine::enroll`
tests the cancelled flag, raises the shared frame count, reads it again for its test
and then saves the face or returns, without a lock around all of it, so other sessions
and the client act in between. Here each access is a step of its own, also the read and
the write of the increment, and the store may do anything.
-/
namespace FaceHal
open Program

namespace FaceEngineStub

/-- The rest of `enroll` after the frame that was missing has been counted. -/
def saveEnrollment (enrolledEmbeddings : Embeddings) (userId : Int32) :
    Program StorageI (EngineReply × Embeddings) := do
  let outFaceId := maxId enrolledEmbeddings + 1
  let mockEmbedding : Bytes := List.replicate FaceStorageCallbacks.embeddingSize 0
  if !(← FaceStorageCallbacks.saveTemplate userId outFaceId mockEmbedding) then
    return (⟨VendorCode.failed, outFaceId, 0⟩, enrolledEmbeddings)
  return (⟨VendorCode.faceOk, outFaceId, 0⟩, enrolledEmbeddings.insert outFaceId mockEmbedding)

theorem enroll_eq (e : FaceEngine) (enrolledEmbeddings : Embeddings) (userId : Int32) :
    enroll e enrolledEmbeddings userId =
      if e.isCancelled then .done (⟨-1, 0, e.enrollFrameCount⟩, enrolledEmbeddings)
      else if e.enrollFrameCount + 1 < FaceEngine.enrollRequiredGoodFrames then
        .done (⟨VendorCode.keep, 0, e.enrollFrameCount + 1⟩, enrolledEmbeddings)
      else saveEnrollment enrolledEmbeddings userId := rfl

theorem wp_saveEnrollment (E : Environment StorageI FileSystem) {embeddings : Embeddings}
    {userId : Int32} {disk : FileSystem} :
    (saveEnrollment embeddings userId).wp E
      (fun a _ => a.1.enrollFrameCount = 0) disk := by
  unfold saveEnrollment
  rw [wp_bind]
  refine wp_of_forall _ ?_
  intro saved t
  cases saved <;> rfl

end FaceEngineStub

/-- What a worker does next in its call of `FaceEngine::enroll`. -/
inductive EnrollPlace where
  | testsCancelled
  | readsCount
  /-- With the count that it read. -/
  | counts (enrollFrameCount : Int32)
  | testsCount
  | returnsKeep
  | saves
deriving DecidableEq, Repr

/-- The sessions with the calls of `enroll`, one a session as it has one worker. -/
structure EnrollHal where
  hal : Hal
  place : ℕ → EnrollPlace

inductive EnrollLabel where
  | hal (l : HalLabel)
  /-- The worker `k` of the session `i` finds the engine not cancelled. -/
  | passesTest (i k : ℕ)
  | readsCount (i k : ℕ)
  | counts (i k : ℕ)
  | testsCount (i k : ℕ)
deriving DecidableEq, Repr

namespace EnrollHal

def initial : EnrollHal := ⟨.initial, fun _ => .testsCancelled⟩

/-- The worker calls `enroll`. -/
def isEnrolling (c : EnrollHal) (i k : ℕ) : Bool :=
  (c.hal.live i).any fun s => (s.workers[k]?).any fun w => w.stage = .enroll

def goto (c : EnrollHal) (i : ℕ) (place : EnrollPlace) : EnrollHal :=
  ⟨c.hal, Function.update c.place i place⟩

/-- A call of `enroll` begins at its test, so it ends where the next one begins. -/
def afterStep (c : EnrollHal) (l : HalLabel) (h : Hal) : EnrollHal :=
  match l with
  | .session i (.worker k _) =>
      if c.isEnrolling i k then goto ⟨h, c.place⟩ i .testsCancelled else ⟨h, c.place⟩
  | _ => ⟨h, c.place⟩

/-- `mEnrollFrameCount++`, with the count that was read for it. -/
def countFrame (c : EnrollHal) (i : ℕ) (enrollFrameCount : Int32) : EnrollHal :=
  let engine := { c.hal.engine with enrollFrameCount := enrollFrameCount + 1 }
  goto ⟨⟨engine, c.hal.sessions⟩, c.place⟩ i .testsCount

/-- Where the test of the count leads. -/
def afterCount (c : EnrollHal) : EnrollPlace :=
  if c.hal.engine.enrollFrameCount < FaceEngine.enrollRequiredGoodFrames then .returnsKeep
  else .saves

end EnrollHal

def EnrollLabel.apply (c : EnrollHal) : EnrollLabel → Option EnrollHal
  | .hal l => (l.apply c.hal).map (c.afterStep l)
  | .passesTest i k =>
      if c.isEnrolling i k ∧ c.place i = .testsCancelled ∧ c.hal.engine.isCancelled = false then
        some (c.goto i .readsCount)
      else none
  | .readsCount i k =>
      if c.isEnrolling i k ∧ c.place i = .readsCount then
        some (c.goto i (.counts c.hal.engine.enrollFrameCount))
      else none
  | .counts i k =>
      match c.place i with
      | .counts enrollFrameCount =>
          if c.isEnrolling i k then some (c.countFrame i enrollFrameCount) else none
      | _ => none
  | .testsCount i k =>
      if c.isEnrolling i k ∧ c.place i = .testsCount then some (c.goto i c.afterCount) else none

namespace EnrollHal
variable {c : EnrollHal} {i k : ℕ}

theorem isEnrolling_iff : c.isEnrolling i k = true ↔
    ∃ s w, c.hal.live i = some s ∧ s.workers[k]? = some w ∧ w.stage = .enroll := by
  unfold isEnrolling
  cases hs : c.hal.live i with
  | none => simp
  | some s =>
      cases hw : s.workers[k]? with
      | none => simp [hw]
      | some w => simp [hw]

@[simp] theorem hal_afterStep (l : HalLabel) (h : Hal) : (c.afterStep l h).hal = h := by
  unfold afterStep
  split
  · split_ifs <;> rfl
  · rfl

/-- A call that goes on is where it was, and no worker of its session has ended one. -/
theorem place_afterStep {l : HalLabel} {h : Hal}
    (hplace : (c.afterStep l h).place i ≠ .testsCancelled) :
    (c.afterStep l h).place i = c.place i ∧
      ∀ k reply, l = .session i (.worker k reply) → c.isEnrolling i k = false := by
  unfold afterStep at hplace ⊢
  split at hplace
  · next j k reply =>
      split_ifs at hplace ⊢ with hcalls
      · by_cases hij : i = j
        · obtain rfl := hij
          exact absurd (Function.update_self ..) hplace
        · refine ⟨Function.update_of_ne hij .., ?_⟩
          rintro k' reply' ⟨⟩
          exact absurd rfl hij
      · refine ⟨rfl, ?_⟩
        rintro k' reply' ⟨⟩
        simpa using hcalls
  · next hl => exact ⟨rfl, fun k reply heq => absurd heq (hl i k reply)⟩

end EnrollHal

section apply
variable {c c' : EnrollHal} {i k : ℕ}

theorem passesTest_apply (h : EnrollLabel.apply c (.passesTest i k) = some c') :
    c.isEnrolling i k = true ∧ c.place i = .testsCancelled ∧ c'.hal = c.hal ∧
      c'.place = Function.update c.place i .readsCount := by
  unfold EnrollLabel.apply at h
  dsimp only at h
  split_ifs at h with hguard
  obtain rfl := Option.some.inj h
  exact ⟨hguard.1, hguard.2.1, rfl, rfl⟩

theorem readsCount_apply (h : EnrollLabel.apply c (.readsCount i k) = some c') :
    c.isEnrolling i k = true ∧ c.place i = .readsCount ∧ c'.hal = c.hal ∧
      c'.place = Function.update c.place i (.counts c.hal.engine.enrollFrameCount) := by
  unfold EnrollLabel.apply at h
  dsimp only at h
  split_ifs at h with hguard
  obtain rfl := Option.some.inj h
  exact ⟨hguard.1, hguard.2, rfl, rfl⟩

theorem counts_apply (h : EnrollLabel.apply c (.counts i k) = some c') :
    ∃ enrollFrameCount, c.isEnrolling i k = true ∧ c.place i = .counts enrollFrameCount ∧
      c'.hal.sessions = c.hal.sessions ∧
      c'.hal.engine.enrollFrameCount = enrollFrameCount + 1 ∧
      c'.place = Function.update c.place i .testsCount := by
  unfold EnrollLabel.apply at h
  cases hplace : c.place i with
  | counts enrollFrameCount =>
      simp only [hplace] at h
      split_ifs at h with hcalls
      obtain rfl := Option.some.inj h
      exact ⟨enrollFrameCount, hcalls, rfl, rfl, rfl, rfl⟩
  | _ => simp [hplace] at h

theorem testsCount_apply (h : EnrollLabel.apply c (.testsCount i k) = some c') :
    c.isEnrolling i k = true ∧ c.place i = .testsCount ∧ c'.hal = c.hal ∧
      c'.place = Function.update c.place i c.afterCount := by
  unfold EnrollLabel.apply at h
  dsimp only at h
  split_ifs at h with hguard
  obtain rfl := Option.some.inj h
  exact ⟨hguard.1, hguard.2, rfl, rfl⟩

end apply

/-- The calls of `enroll` together with the faces of the engine and the files. -/
structure EnrollStub extends EnrollHal where
  enrolledEmbeddings : Embeddings
  disk : FileSystem

namespace EnrollStub

def start (disk : FileSystem) : EnrollStub := ⟨.initial, ∅, disk⟩

def stub (v : EnrollStub) : StubHal := ⟨v.hal, v.enrolledEmbeddings, v.disk⟩

section runs
variable (E : Environment StorageI FileSystem) (v : EnrollStub)

/-- How a call of `enroll` ends. -/
def EnrollRun (i : ℕ) (userId : Int32) (reply : EngineReply) (embeddings : Embeddings)
    (disk : FileSystem) : Prop :=
  match v.place i with
  | .testsCancelled => v.hal.engine.isCancelled = true ∧
      reply = ⟨-1, 0, v.hal.engine.enrollFrameCount⟩ ∧ v.stub.Kept embeddings disk
  | .readsCount | .counts _ | .testsCount => False
  | .returnsKeep => reply = ⟨VendorCode.keep, 0, v.hal.engine.enrollFrameCount⟩ ∧
      v.stub.Kept embeddings disk
  | .saves => Run E (FaceEngineStub.saveEnrollment v.enrolledEmbeddings userId) v.disk
      (reply, embeddings) disk

/-- What a worker's step at a stage does with the engine for a user. -/
def WorkerRun (i : ℕ) (userId : Int32) (stage : WorkerStage) (reply : EngineReply)
    (embeddings : Embeddings) (disk : FileSystem) : Prop :=
  match stage with
  | .authenticate => reply = FaceEngineStub.authenticate v.hal.engine v.enrolledEmbeddings ∧
      v.stub.Kept embeddings disk
  | .analyze => reply = FaceEngineStub.analyzeFaceQuality v.hal.engine ∧
      v.stub.Kept embeddings disk
  | .enroll => v.EnrollRun E i userId reply embeddings disk
  | _ => v.stub.Kept embeddings disk

/-- What a step does with the engine. -/
def EngineRun (l : HalLabel) (embeddings : Embeddings) (disk : FileSystem) : Prop :=
  match l with
  | .createSession sensorId userId =>
      if sensorId ≠ 1008 then v.stub.Kept embeddings disk
      else Run E (FaceEngineStub.restoreEnrollments userId) v.disk embeddings disk
  | .session _ (.enumerateEnrollments ids) =>
      ids = FaceEngineStub.getEnrolledFaceIds v.enrolledEmbeddings ∧ v.stub.Kept embeddings disk
  | .session i (.removeEnrollments ids) => ∃ s ∈ v.hal.live i,
      Run E (FaceEngineStub.removeEnrollments s.userId ids v.enrolledEmbeddings) v.disk
        embeddings disk
  | .session i (.worker k reply) => ∃ s ∈ v.hal.live i, ∃ w ∈ s.workers[k]?,
      v.WorkerRun E i s.userId w.stage reply embeddings disk
  | _ => v.stub.Kept embeddings disk

end runs

end EnrollStub

def enrollStep (E : Environment StorageI FileSystem) : System EnrollStub EnrollLabel :=
  fun v l v' => l.apply v.toEnrollHal = some v'.toEnrollHal ∧
    match l with
    | .hal l => v.EngineRun E l v'.enrolledEmbeddings v'.disk
    | _ => v.stub.Kept v'.enrolledEmbeddings v'.disk

/-- Besides the workers, a session only resets the count. -/
theorem enrollFrameCount_of_own {v v' : SessionView} {l : SessionLabel} (hown : l.isOwn = true)
    (h : sessionStep v l v') (hl : ∀ k reply, l ≠ .worker k reply) :
    v'.engine.enrollFrameCount = v.engine.enrollFrameCount ∨ v'.engine.enrollFrameCount = 0 := by
  cases engineChange_of_own hown h with
  | started _ _ _ _ heq => exact .inl (by rw [heq]; rfl)
  | cancelled _ heq => exact .inr (by rw [heq]; rfl)
  | answered k w reply _ _ => exact absurd rfl (hl k reply)
  | switched _ _ _ _ _ heq => exact .inl (by rw [heq])

namespace Hal
variable {h h' : Hal}

theorem workerStep_of_step {i k : ℕ} {reply : EngineReply}
    (hstep : halStep h (.session i (.worker k reply)) h') :
    ∃ s w, h.live i = some s ∧ s.workers[k]? = some w ∧
      h' = h.put i (SessionView.workerStep ⟨h.engine, s⟩ k w reply) := by
  obtain ⟨s, v, hs, -, hv, rfl⟩ := session_step hstep
  obtain ⟨w, hw, rfl⟩ := Option.map_eq_some_iff.mp hv
  exact ⟨s, w, hs, hw, rfl⟩

theorem step_workerStep {i k : ℕ} {s : Session} {w : Worker} (hs : h.live i = some s)
    (hw : s.workers[k]? = some w) (reply : EngineReply) :
    halStep h (.session i (.worker k reply))
      (h.put i (SessionView.workerStep ⟨h.engine, s⟩ k w reply)) := by
  refine Option.bind_eq_some_iff.mpr ⟨s, hs, ?_⟩
  rw [if_pos (show SessionLabel.isOwn (.worker k reply) = true from rfl)]
  refine Option.map_eq_some_iff.mpr ⟨_, Option.map_eq_some_iff.mpr ⟨w, hw, rfl⟩, rfl⟩

theorem enrollFrameCount_step {l : HalLabel} (hstep : halStep h l h') :
    (h'.engine.enrollFrameCount = h.engine.enrollFrameCount ∨ h'.engine.enrollFrameCount = 0) ∨
      ∃ i k reply s w, l = .session i (.worker k reply) ∧ h.live i = some s ∧
        s.workers[k]? = some w ∧ w.stage.callsEngine = true ∧
        h'.engine.enrollFrameCount = reply.enrollFrameCount := by
  cases l with
  | createSession sensorId userId =>
      obtain rfl := Option.some.inj hstep
      unfold createSession
      split_ifs <;> exact .inl (.inl rfl)
  | session i l' =>
      by_cases hworker : ∃ k reply, l' = .worker k reply
      · obtain ⟨k, reply, rfl⟩ := hworker
        obtain ⟨s, w, hs, hw, rfl⟩ := workerStep_of_step hstep
        have hcount : (h.put i (SessionView.workerStep ⟨h.engine, s⟩ k w
            reply)).engine.enrollFrameCount =
              if w.stage.callsEngine then reply.enrollFrameCount
              else h.engine.enrollFrameCount :=
          congrArg FaceEngine.enrollFrameCount (engine_workerStep ⟨h.engine, s⟩ k w reply)
        by_cases hcalls : w.stage.callsEngine = true
        · rw [if_pos hcalls] at hcount
          exact .inr ⟨i, k, reply, s, w, rfl, hs, hw, hcalls, hcount⟩
        · rw [if_neg hcalls] at hcount
          exact .inl (.inl hcount)
      · obtain ⟨s, v, hs, hown, hv, rfl⟩ := session_step hstep
        refine .inl (enrollFrameCount_of_own hown hv ?_)
        rintro k reply rfl
        exact hworker ⟨k, reply, rfl⟩
  | cameraFrame i =>
      cases engine_step hstep with
      | kept _ _ _ heq => exact .inl (.inl (by rw [heq]))
  | destroy i =>
      obtain ⟨s, hs, -, rfl⟩ := destroy_step hstep
      rw [engine_destroy]
      exact .inl (.inr rfl)

end Hal

namespace EnrollStub
variable {E : Environment StorageI FileSystem} {v v' : EnrollStub}

theorem enrollFrameCount_of_enrollRun {i : ℕ} {userId : Int32} {reply : EngineReply}
    {embeddings : Embeddings} {disk : FileSystem}
    (h : v.EnrollRun E i userId reply embeddings disk) :
    reply.enrollFrameCount = v.hal.engine.enrollFrameCount ∨ reply.enrollFrameCount = 0 := by
  unfold EnrollRun at h
  cases hplace : v.place i with
  | testsCancelled =>
      rw [hplace] at h
      obtain ⟨-, rfl, -⟩ := h
      exact .inl rfl
  | readsCount | counts _ | testsCount =>
      rw [hplace] at h
      exact h.elim
  | returnsKeep =>
      rw [hplace] at h
      obtain ⟨rfl, -⟩ := h
      exact .inl rfl
  | saves =>
      rw [hplace] at h
      have hrun : Run E (FaceEngineStub.saveEnrollment v.enrolledEmbeddings userId) v.disk
          (reply, embeddings) disk := h
      exact .inr (hrun.wp (FaceEngineStub.wp_saveEnrollment E))

theorem enrollFrameCount_of_workerRun {i : ℕ} {userId : Int32} {stage : WorkerStage}
    {reply : EngineReply} {embeddings : Embeddings} {disk : FileSystem}
    (hstage : stage.callsEngine = true)
    (h : v.WorkerRun E i userId stage reply embeddings disk) :
    reply.enrollFrameCount = v.hal.engine.enrollFrameCount ∨ reply.enrollFrameCount = 0 := by
  cases stage with
  | authenticate =>
      obtain ⟨rfl, -⟩ := h
      unfold FaceEngineStub.authenticate
      split_ifs
      · exact .inl rfl
      · split <;> exact .inl rfl
  | analyze =>
      obtain ⟨rfl, -⟩ := h
      exact .inl rfl
  | enroll => exact enrollFrameCount_of_enrollRun h
  | _ => cases hstage

/-- With the stub the count never goes up but where a frame is counted. -/
theorem enrollFrameCount_hal {l : HalLabel} (hstep : enrollStep E v (.hal l) v') :
    v'.hal.engine.enrollFrameCount = v.hal.engine.enrollFrameCount ∨
      v'.hal.engine.enrollFrameCount = 0 := by
  obtain ⟨happly, hrun⟩ := hstep
  obtain ⟨h, hhal, hafter⟩ := Option.map_eq_some_iff.mp happly
  rw [← hafter, EnrollHal.hal_afterStep]
  rcases Hal.enrollFrameCount_step hhal with hkept | ⟨i, k, reply, s, w, rfl, hs, hw, hcalls, heq⟩
  · exact hkept
  · obtain ⟨s', hs', w', hw', hworker⟩ := hrun
    obtain rfl := Option.some.inj (hs'.symm.trans hs)
    obtain rfl := Option.some.inj (hw'.symm.trans hw)
    rw [heq]
    exact enrollFrameCount_of_workerRun hcalls hworker

end EnrollStub

/-- Nobody is inside a call of `enroll`. -/
def StubHal.outside (v : StubHal) : EnrollStub :=
  ⟨⟨v.hal, fun _ => .testsCancelled⟩, v.enrolledEmbeddings, v.disk⟩

section refinement
variable {C : Crypto} {v v' : StubHal}

theorem afterStep_outside (h h' : Hal) (l : HalLabel) :
    EnrollHal.afterStep ⟨h, fun _ => .testsCancelled⟩ l h' = ⟨h', fun _ => .testsCancelled⟩ := by
  unfold EnrollHal.afterStep
  split
  · split_ifs
    · exact congrArg (EnrollHal.mk h') (Function.update_eq_self _ _)
    · rfl
  · rfl

theorem workerStep_enroll {w : Worker} (hw : w.stage = .enroll) (e : FaceEngine)
    (enrollFrameCount : Int32) (s : Session) (k : ℕ) (reply : EngineReply) :
    SessionView.workerStep ⟨{ e with enrollFrameCount := enrollFrameCount }, s⟩ k w reply =
      SessionView.workerStep ⟨e, s⟩ k w reply := by
  unfold SessionView.workerStep
  rw [hw]
  rfl

theorem engineRun_outside {l : HalLabel} {embeddings : Embeddings} {disk : FileSystem}
    (h : v.EngineRun C l embeddings disk)
    (hl : ∀ i k reply s w, l = .session i (.worker k reply) → v.hal.live i = some s →
      s.workers[k]? = some w → w.stage ≠ .enroll) :
    v.outside.EngineRun (storageEnv C encryptionMayFail) l embeddings disk := by
  cases l with
  | session i l' =>
      cases l' with
      | worker k reply =>
          obtain ⟨s, hs, w, hw, hrun⟩ := h
          refine ⟨s, hs, w, hw, ?_⟩
          have hstage := hl i k reply s w rfl hs hw
          cases hw' : w.stage with
          | enroll => exact absurd hw' hstage
          | _ =>
              rw [hw'] at hrun
              exact hrun
      | _ => exact h
  | _ => exact h

/-- Inside the call of one worker, with a count. -/
def StubHal.inside (v : StubHal) (i : ℕ) (enrollFrameCount : Int32) (place : EnrollPlace) :
    EnrollStub :=
  ⟨⟨⟨{ v.hal.engine with enrollFrameCount := enrollFrameCount }, v.hal.sessions⟩,
    Function.update (fun _ => .testsCancelled) i place⟩, v.enrolledEmbeddings, v.disk⟩

theorem isEnrolling_inside {i k : ℕ} {s : Session} {w : Worker} (hs : v.hal.live i = some s)
    (hw : s.workers[k]? = some w) (hstage : w.stage = .enroll) (enrollFrameCount : Int32)
    (place : EnrollPlace) : (v.inside i enrollFrameCount place).isEnrolling i k = true := by
  have hlive : (v.inside i enrollFrameCount place).hal.live i = some s := hs
  unfold EnrollHal.isEnrolling
  rw [hlive, Option.any_some, hw, Option.any_some, hstage]
  rfl

theorem place_inside (v : StubHal) (i : ℕ) (enrollFrameCount : Int32) (place : EnrollPlace) :
    (v.inside i enrollFrameCount place).place i = place := by
  simp [StubHal.inside]

section inside
variable {i k : ℕ} {s : Session} {w : Worker} {enrollFrameCount : Int32}
variable (E : Environment StorageI FileSystem)

theorem goto_inside {place place' : EnrollPlace} {l : EnrollLabel}
    (hl : ∀ l', l ≠ .hal l')
    (happly : l.apply (v.inside i enrollFrameCount place).toEnrollHal =
      some ((v.inside i enrollFrameCount place).goto i place')) :
    enrollStep E (v.inside i enrollFrameCount place) l (v.inside i enrollFrameCount place') := by
  refine ⟨happly.trans (congrArg some (congrArg (EnrollHal.mk _) (Function.update_idem ..))), ?_⟩
  cases l with
  | hal l' => exact absurd rfl (hl l')
  | _ => exact ⟨rfl, rfl⟩

theorem passes_inside (hs : v.hal.live i = some s) (hw : s.workers[k]? = some w)
    (hstage : w.stage = .enroll) (hcancelled : v.hal.engine.isCancelled = false) :
    enrollStep E (v.inside i enrollFrameCount .testsCancelled) (.passesTest i k)
      (v.inside i enrollFrameCount .readsCount) :=
  goto_inside E (by simp)
    (if_pos ⟨isEnrolling_inside hs hw hstage _ _, place_inside .., hcancelled⟩)

theorem readsCount_inside (hs : v.hal.live i = some s) (hw : s.workers[k]? = some w)
    (hstage : w.stage = .enroll) :
    enrollStep E (v.inside i enrollFrameCount .readsCount) (.readsCount i k)
      (v.inside i enrollFrameCount (.counts enrollFrameCount)) :=
  goto_inside E (by simp) (if_pos ⟨isEnrolling_inside hs hw hstage _ _, place_inside ..⟩)

theorem counts_inside (hs : v.hal.live i = some s) (hw : s.workers[k]? = some w)
    (hstage : w.stage = .enroll) :
    enrollStep E (v.inside i enrollFrameCount (.counts enrollFrameCount)) (.counts i k)
      (v.inside i (enrollFrameCount + 1) .testsCount) := by
  refine ⟨?_, rfl, rfl⟩
  unfold EnrollLabel.apply
  simp only [place_inside, isEnrolling_inside hs hw hstage, if_true]
  refine congrArg some (congrArg (EnrollHal.mk _) ?_)
  exact Function.update_idem ..

theorem testsCount_inside (hs : v.hal.live i = some s) (hw : s.workers[k]? = some w)
    (hstage : w.stage = .enroll) :
    enrollStep E (v.inside i enrollFrameCount .testsCount) (.testsCount i k)
      (v.inside i enrollFrameCount
        (if enrollFrameCount < FaceEngine.enrollRequiredGoodFrames then .returnsKeep
          else .saves)) :=
  goto_inside E (by simp) (if_pos ⟨isEnrolling_inside hs hw hstage _ _, place_inside ..⟩)

end inside

theorem ends_inside {i k : ℕ} {reply : EngineReply} {s : Session} {w : Worker}
    {enrollFrameCount : Int32} {place : EnrollPlace} (E : Environment StorageI FileSystem)
    (hhal : halStep v.hal (.session i (.worker k reply)) v'.hal) (hs : v.hal.live i = some s)
    (hw : s.workers[k]? = some w) (hstage : w.stage = .enroll)
    (hrun : (v.inside i enrollFrameCount place).EnrollRun E i s.userId reply
      v'.enrolledEmbeddings v'.disk) :
    enrollStep E (v.inside i enrollFrameCount place) (.hal (.session i (.worker k reply)))
      v'.outside := by
  obtain ⟨s', w', hs', hw', hput⟩ := Hal.workerStep_of_step hhal
  obtain rfl := Option.some.inj (hs'.symm.trans hs)
  obtain rfl := Option.some.inj (hw'.symm.trans hw)
  refine ⟨Option.map_eq_some_iff.mpr ⟨v'.hal, ?_, ?_⟩, s', hs, w', hw, ?_⟩
  · have hlive : (v.inside i enrollFrameCount place).hal.live i = some s' := hs
    refine (Hal.step_workerStep hlive hw reply).trans (congrArg some ?_)
    rw [hput, ← workerStep_enroll hstage v.hal.engine enrollFrameCount s' k reply]
    rfl
  · unfold EnrollHal.afterStep
    dsimp only
    rw [if_pos (isEnrolling_inside hs hw hstage enrollFrameCount place)]
    refine congrArg (EnrollHal.mk v'.hal) ?_
    unfold StubHal.inside
    dsimp only
    rw [Function.update_idem]
    exact Function.update_eq_self _ _
  · rw [hstage]
    exact hrun

/-- A call of the engine in one step is a run of the steps it consists of. -/
theorem runs_of_stubStep {l : HalLabel} (hstep : stubStep C v l v') :
    ∃ ls, Runs (enrollStep (storageEnv C encryptionMayFail)) v.outside ls v'.outside := by
  obtain ⟨hhal, hrun⟩ := hstep
  by_cases hl : ∀ i k reply s w, l = .session i (.worker k reply) → v.hal.live i = some s →
      s.workers[k]? = some w → w.stage ≠ .enroll
  · refine ⟨[.hal l], .single ⟨?_, engineRun_outside hrun hl⟩⟩
    refine Option.map_eq_some_iff.mpr ⟨v'.hal, hhal, ?_⟩
    exact afterStep_outside _ _ _
  · push Not at hl
    obtain ⟨i, k, reply, s, w, rfl, hs, hw, hstage⟩ := hl
    obtain ⟨s', hs', w', hw', hworker⟩ := hrun
    obtain rfl := Option.some.inj (hs'.symm.trans hs)
    obtain rfl := Option.some.inj (hw'.symm.trans hw)
    rw [hstage] at hworker
    have henroll : Run (storageEnv C encryptionMayFail)
        (FaceEngineStub.enroll v.hal.engine v.enrolledEmbeddings s'.userId) v.disk
        (reply, v'.enrolledEmbeddings) v'.disk := hworker
    rw [FaceEngineStub.enroll_eq] at henroll
    have hstart : v.outside = v.inside i v.hal.engine.enrollFrameCount .testsCancelled := by
      unfold StubHal.outside StubHal.inside
      rw [show Function.update (fun _ => EnrollPlace.testsCancelled) i .testsCancelled =
        fun _ => .testsCancelled from Function.update_eq_self _ _]
    rw [hstart]
    by_cases hcancelled : v.hal.engine.isCancelled = true
    · rw [if_pos hcancelled, run_done] at henroll
      obtain ⟨heq, hdisk⟩ := henroll
      obtain ⟨rfl, hembeddings⟩ := Prod.mk.inj heq
      refine ⟨[_], .single (ends_inside _ hhal hs hw hstage ?_)⟩
      unfold EnrollStub.EnrollRun
      rw [place_inside]
      exact ⟨hcancelled, rfl, hembeddings, hdisk⟩
    · rw [if_neg hcancelled] at henroll
      have hpasses : enrollStep (storageEnv C encryptionMayFail)
          (v.inside i v.hal.engine.enrollFrameCount .testsCancelled) (.passesTest i k)
          (v.inside i v.hal.engine.enrollFrameCount .readsCount) :=
        passes_inside _ hs hw hstage (by simpa using hcancelled)
      refine ⟨[_, _, _, _, _], .cons hpasses (.cons (readsCount_inside _ hs hw hstage)
        (.cons (counts_inside _ hs hw hstage) (.cons (testsCount_inside _ hs hw hstage)
          (.single (ends_inside _ hhal hs hw hstage ?_)))))⟩
      unfold EnrollStub.EnrollRun
      rw [place_inside]
      split_ifs at henroll ⊢ with hmore
      · rw [run_done] at henroll
        obtain ⟨heq, hdisk⟩ := henroll
        obtain ⟨rfl, hembeddings⟩ := Prod.mk.inj heq
        exact ⟨rfl, hembeddings, hdisk⟩
      · exact henroll

end refinement
end FaceHal
