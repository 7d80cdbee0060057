import FaceHal.SessionRuns

/-!
# Sessions that share the engine

`Face::createSession` makes sessions at any time and each lives until its last
reference is gone; a detached worker holds one. All of them use one engine, with
one slot for the session that frames are passed to and one cancelled flag. Every
session by itself takes the steps of `sessionStep`, and what the others do is a
change of the engine between them.
-/
namespace FaceHal

structure SessionObject where
  session : Session
  /-- The destructor has not run. -/
  alive : Bool
deriving DecidableEq, Repr

structure Hal where
  engine : FaceEngine
  /-- The sessions in the order of creation. -/
  sessions : List SessionObject
deriving DecidableEq, Repr

/-- The session does this itself: no frame is passed to it and no other session acts. -/
def SessionLabel.isOwn : SessionLabel → Bool
  | .frameArrives | .engineChanged _ => false
  | _ => true

inductive HalLabel where
  | createSession (sensorId userId : Int32)
  | session (i : ℕ) (l : SessionLabel)
  /-- The camera of the session delivers a frame. -/
  | cameraFrame (i : ℕ)
  /-- The last reference to the session is gone. -/
  | destroy (i : ℕ)
deriving DecidableEq, Repr

namespace Hal

def initial : Hal := ⟨.initial, []⟩

/-- The session, if it lives. -/
def live (h : Hal) (i : ℕ) : Option Session :=
  (h.sessions[i]?).bind fun o => if o.alive then some o.session else none

/-- What a step of the session `i` leaves. -/
def put (h : Hal) (i : ℕ) (v : SessionView) : Hal := ⟨v.engine, h.sessions.set i ⟨v.session, true⟩⟩

def createSession (h : Hal) (sensorId userId : Int32) : Hal :=
  if sensorId ≠ 1008 then h
  else
    ⟨h.engine.setSessionFrameCallback (some h.sessions.length),
      h.sessions ++ [⟨.create userId, true⟩]⟩

/-- `Session::~Session` of the session `i`, which is `s`. -/
def destroy (h : Hal) (i : ℕ) (s : Session) : Hal :=
  let v := SessionView.cancel ⟨h.engine.setSessionFrameCallback none, s⟩
  ⟨v.engine, h.sessions.set i ⟨v.session, false⟩⟩

/-- `FaceEngine::onCameraFrame` passes a frame of any camera to the session in the slot. -/
def onCameraFrame (h : Hal) : Hal :=
  match h.engine.sessionFrameCallback with
  | none => h
  | some j =>
      match h.live j with
      | none => h
      | some s => h.put j (SessionView.frameArrives ⟨h.engine, s⟩)

end Hal

namespace HalLabel

def apply (h : Hal) : HalLabel → Option Hal
  | .createSession sensorId userId => some (h.createSession sensorId userId)
  | .session i l => (h.live i).bind fun s =>
      if l.isOwn then (l.apply ⟨h.engine, s⟩).map (h.put i) else none
  | .cameraFrame i => (h.live i).map fun _ => h.onCameraFrame
  | .destroy i => (h.live i).bind fun s => if s.workers = [] then some (h.destroy i s) else none

/-- The session that takes the step. -/
def actor : HalLabel → Option ℕ
  | .createSession _ _ => none
  | .session i _ => some i
  | .cameraFrame _ => none
  | .destroy i => some i

end HalLabel

def halStep : System Hal HalLabel := fun h l h' => l.apply h = some h'

/-- An engine call of a worker at the stage answers with the frame count. -/
def WorkerStage.callsEngine : WorkerStage → Bool
  | .authenticate | .analyze | .enroll => true
  | _ => false

theorem engine_workerStep (v : SessionView) (i : ℕ) (w : Worker) (reply : EngineReply) :
    (v.workerStep i w reply).engine = { v.engine with
      enrollFrameCount := if w.stage.callsEngine then reply.enrollFrameCount
        else v.engine.enrollFrameCount } := by
  unfold SessionView.workerStep
  cases w.stage with
  | testCancelled | testAuthenticating | testDetecting | testEnrolling =>
      simp only [WorkerStage.callsEngine, Bool.false_eq_true, if_false]
      split_ifs <;> rfl
  | authenticate | analyze | enroll =>
      simp only [WorkerStage.callsEngine, if_true]
      split_ifs <;> rfl
  | _ => rfl

theorem engine_cancel (v : SessionView) : v.cancel.engine = v.engine.cancelAll := by
  unfold SessionView.cancel
  dsimp only
  split_ifs <;> rfl

theorem engine_startCamera (v : SessionView) (start : CameraStart) (clear : Session → Session) :
    (v.startCamera start clear).engine = v.engine := by
  unfold SessionView.startCamera
  split_ifs
  · rfl
  · cases start <;> rfl

/-- What a step of a session does to the engine. -/
inductive EngineChange (v : SessionView) (e : FaceEngine) : SessionLabel → Prop
  | started {l : SessionLabel} (operation : RequestedOperation) : l.starts = some operation →
      l.cancels v.session = false → l ≠ .close → e = v.engine.startOperation → EngineChange v e l
  | cancelled {l : SessionLabel} :
      (l.cancels v.session || decide (l = .close)) = true → e = v.engine.cancelAll →
      EngineChange v e l
  | answered (k : ℕ) (w : Worker) (reply : EngineReply) : v.session.workers[k]? = some w →
      e = { v.engine with
        enrollFrameCount := if w.stage.callsEngine then reply.enrollFrameCount
          else v.engine.enrollFrameCount } → EngineChange v e (.worker k reply)
  | switched {l : SessionLabel} (requireAttention requireDiversePoses : Bool) : l.starts = none →
      l.cancels v.session = false → l ≠ .close →
      e = { v.engine with
        requireAttention := requireAttention
        requireDiversePoses := requireDiversePoses } → EngineChange v e l

theorem engineChange_of_own {v v' : SessionView} {l : SessionLabel} (hown : l.isOwn = true)
    (h : sessionStep v l v') : EngineChange v v'.engine l := by
  unfold sessionStep at h
  cases l with
  | enroll start | authenticate operationId now start | detectInteraction start
  | authenticateWithContext operationId context now start =>
      obtain rfl := Option.some.inj h
      refine .started _ rfl rfl (by simp) ?_
      simp only [SessionView.enroll, SessionView.authenticate, SessionView.detectInteraction,
        SessionView.authenticateWithContext, engine_startCamera]
      rfl
  | worker k reply =>
      obtain ⟨w, hw, rfl⟩ := Option.map_eq_some_iff.mp h
      exact .answered k w reply hw (engine_workerStep v k w reply)
  | onContextChanged context now =>
      obtain rfl := Option.some.inj h
      unfold SessionView.onContextChanged
      dsimp only
      split_ifs with hc
      · refine .cancelled ?_ (engine_cancel _)
        rw [show SessionLabel.cancels v.session (.onContextChanged context now) = true from hc]
        rfl
      · exact .switched _ _ rfl (Bool.eq_false_iff.mpr hc) (by simp) rfl
  | frameClaims k =>
      obtain ⟨frameOperation, -, rfl⟩ := Option.map_eq_some_iff.mp h
      unfold SessionView.frameClaims
      dsimp only
      split_ifs
      all_goals exact .switched _ _ rfl rfl (by simp) rfl
  | setFeature feature enabled =>
      obtain rfl := Option.some.inj h
      cases feature
      all_goals exact .switched _ _ rfl rfl (by simp) rfl
  | frameArrives | engineChanged engine => cases hown
  | cancel =>
      obtain rfl := Option.some.inj h
      exact .cancelled rfl (engine_cancel v)
  | close =>
      obtain rfl := Option.some.inj h
      exact .cancelled rfl (engine_cancel v)
  | _ =>
      obtain rfl := Option.some.inj h
      exact .switched _ _ rfl rfl (by simp) rfl

/-- A session leaves the slot alone. The cancelled flag is set by `cancel()` and
reset when an operation starts. -/
theorem engine_of_own {v v' : SessionView} {l : SessionLabel} (hown : l.isOwn = true)
    (h : sessionStep v l v') :
    v'.engine.sessionFrameCallback = v.engine.sessionFrameCallback ∧
      v'.engine.cancelled = (l.cancels v.session || decide (l = .close) ||
        v.engine.cancelled && l.starts.isNone) := by
  cases engineChange_of_own hown h with
  | started operation hstarts hcancels hclose heq =>
      rw [heq, hcancels, hstarts]
      exact ⟨rfl, by simp [FaceEngine.startOperation, hclose]⟩
  | cancelled hcancels heq =>
      rw [heq, hcancels]
      exact ⟨rfl, rfl⟩
  | answered k w reply hw heq =>
      rw [heq]
      exact ⟨rfl, by simp [SessionLabel.cancels, SessionLabel.starts]⟩
  | switched requireAttention requireDiversePoses hstarts hcancels hclose heq =>
      rw [heq, hcancels, hstarts]
      exact ⟨rfl, by simp [hclose]⟩

theorem userId_startCamera (v : SessionView) (start : CameraStart) {clear : Session → Session}
    (hclear : ∀ s, (clear s).userId = s.userId) :
    (v.startCamera start clear).session.userId = v.session.userId := by
  unfold SessionView.startCamera
  split_ifs
  · rfl
  · cases start with
    | started => rfl
    | failed code => exact hclear _

theorem userId_cancel (v : SessionView) : v.cancel.session.userId = v.session.userId := by
  unfold SessionView.cancel
  dsimp only
  split_ifs <;> rfl

theorem userId_workerStep (v : SessionView) (i : ℕ) (w : Worker) (reply : EngineReply) :
    (v.workerStep i w reply).session.userId = v.session.userId := by
  unfold SessionView.workerStep
  cases w.stage with
  | testCancelled | testAuthenticating | testDetecting | testEnrolling =>
      dsimp only
      split_ifs <;> rfl
  | authenticate | analyze | enroll =>
      dsimp only
      split_ifs <;> rfl
  | _ => rfl

theorem userId_authenticate (v : SessionView) (operationId : Int64) (now : ℕ)
    (start : CameraStart) :
    (v.authenticate operationId now start).session.userId = v.session.userId := by
  have hinfer : ∀ s, (SessionView.inferReason s).userId = s.userId := by
    intro s
    obtain ⟨reason, heq⟩ := inferReason_eq s
    rw [heq]
  refine (userId_startCamera _ start ?_).trans ?_
  · exact fun _ => rfl
  · exact hinfer _

theorem userId_step {v v' : SessionView} {l : SessionLabel} (h : sessionStep v l v') :
    v'.session.userId = v.session.userId := by
  unfold sessionStep at h
  cases l with
  | enroll start | detectInteraction start =>
      obtain rfl := Option.some.inj h
      exact userId_startCamera _ start fun _ => rfl
  | authenticate operationId now start =>
      obtain rfl := Option.some.inj h
      exact userId_authenticate v operationId now start
  | authenticateWithContext operationId context now start =>
      obtain rfl := Option.some.inj h
      exact userId_authenticate _ operationId now start
  | cancel =>
      obtain rfl := Option.some.inj h
      exact userId_cancel v
  | close =>
      obtain rfl := Option.some.inj h
      exact userId_cancel v
  | onContextChanged context now =>
      obtain rfl := Option.some.inj h
      obtain ⟨reason, display, hs⟩ := SessionView.contextStep_fst v.session context now
      have hfst : (SessionView.contextStep v.session context now).1.userId =
          v.session.userId := by rw [hs]
      unfold SessionView.onContextChanged
      dsimp only
      split_ifs
      · exact (userId_cancel _).trans hfst
      · exact hfst
  | setFeature feature enabled =>
      obtain rfl := Option.some.inj h
      cases feature <;> rfl
  | frameArrives =>
      obtain rfl := Option.some.inj h
      unfold SessionView.frameArrives
      split_ifs <;> rfl
  | frameClaims i =>
      obtain ⟨frameOperation, -, rfl⟩ := Option.map_eq_some_iff.mp h
      unfold SessionView.frameClaims
      dsimp only
      split_ifs <;> rfl
  | worker i reply =>
      obtain ⟨w, -, rfl⟩ := Option.map_eq_some_iff.mp h
      exact userId_workerStep v i w reply
  | _ =>
      obtain rfl := Option.some.inj h
      rfl

namespace Hal
variable {h h' : Hal} {i j : ℕ} {s s' : Session} {v : SessionView}

theorem session_step {l : SessionLabel} (hstep : halStep h (.session i l) h') :
    ∃ s v, h.live i = some s ∧ l.isOwn = true ∧ l.apply ⟨h.engine, s⟩ = some v ∧ h' = h.put i v := by
  obtain ⟨s, hs, hl⟩ := Option.bind_eq_some_iff.mp hstep
  split_ifs at hl with hown
  obtain ⟨v, hv, rfl⟩ := Option.map_eq_some_iff.mp hl
  exact ⟨s, v, hs, hown, hv, rfl⟩

theorem destroy_step (hstep : halStep h (.destroy i) h') :
    ∃ s, h.live i = some s ∧ s.workers = [] ∧ h' = h.destroy i s := by
  obtain ⟨s, hs, hl⟩ := Option.bind_eq_some_iff.mp hstep
  split_ifs at hl with hworkers
  exact ⟨s, hs, hworkers, (Option.some.inj hl).symm⟩

theorem engine_destroy (h : Hal) (i : ℕ) (s : Session) :
    (h.destroy i s).engine = (h.engine.setSessionFrameCallback none).cancelAll := engine_cancel _

theorem not_live_initial : Hal.initial.live i ≠ some s := by
  intro hs
  cases show none = some s from hs

theorem live_lt (hs : h.live i = some s) : i < h.sessions.length := by
  obtain ⟨o, ho, -⟩ := Option.bind_eq_some_iff.mp hs
  exact (List.getElem?_eq_some_iff.mp ho).choose

theorem live_put (hi : i < h.sessions.length) :
    (h.put i v).live j = if i = j then some v.session else h.live j := by
  unfold live put
  by_cases hij : i = j
  · obtain rfl := hij
    rw [List.getElem?_set_self hi]
    simp
  · rw [List.getElem?_set_ne hij, if_neg hij]

theorem live_destroy (hi : i < h.sessions.length) :
    (h.destroy i s).live j = if i = j then none else h.live j := by
  unfold live destroy
  by_cases hij : i = j
  · obtain rfl := hij
    rw [List.getElem?_set_self hi]
    simp
  · rw [List.getElem?_set_ne hij, if_neg hij]

theorem live_createSession {sensorId userId : Int32}
    (hs : (h.createSession sensorId userId).live i = some s) :
    h.live i = some s ∨ sensorId = 1008 ∧ i = h.sessions.length ∧ s = .create userId := by
  unfold createSession at hs
  by_cases hid : sensorId ≠ 1008
  · rw [if_pos hid] at hs
    exact .inl hs
  · rw [if_neg hid] at hs
    obtain ⟨o, ho, hs⟩ := Option.bind_eq_some_iff.mp hs
    rcases Nat.lt_or_ge i h.sessions.length with hi | hi
    · rw [List.getElem?_append_left hi] at ho
      exact .inl (Option.bind_eq_some_iff.mpr ⟨o, ho, hs⟩)
    · rw [List.getElem?_append_right hi] at ho
      have hlast : i - h.sessions.length = 0 := by
        have hlt := (List.getElem?_eq_some_iff.mp ho).choose
        rw [List.length_singleton] at hlt
        omega
      rw [hlast] at ho
      obtain rfl := Option.some.inj ho
      exact .inr ⟨by simpa using hid, by omega, (Option.some.inj hs).symm⟩

theorem live_createSession_of_live {sensorId userId : Int32} (hs : h.live i = some s) :
    (h.createSession sensorId userId).live i = some s := by
  unfold createSession
  by_cases hid : sensorId ≠ 1008
  · rwa [if_pos hid]
  · rw [if_neg hid]
    unfold live at hs ⊢
    rwa [List.getElem?_append_left (live_lt hs)]

theorem onCameraFrame_eq (h : Hal) : h.onCameraFrame = h ∨
    ∃ j s, h.live j = some s ∧ h.engine.sessionFrameCallback = some j ∧
      h.onCameraFrame = h.put j (SessionView.frameArrives ⟨h.engine, s⟩) := by
  unfold onCameraFrame
  cases hslot : h.engine.sessionFrameCallback with
  | none => exact .inl rfl
  | some j =>
      cases hs : h.live j with
      | none => exact .inl (by simp only [hs])
      | some s => exact .inr ⟨j, s, hs, rfl, by simp only [hs]⟩

theorem live_step {l : HalLabel} (hstep : halStep h l h') (hs' : h'.live i = some s') :
    (h.live i = some s' ∨ h.live i = none ∧ ∃ userId, s' = .create userId) ∨
    ∃ s l', h.live i = some s ∧ sessionStep ⟨h.engine, s⟩ l' ⟨h'.engine, s'⟩ := by
  have hput : ∀ j s v l', h.live j = some s → sessionStep ⟨h.engine, s⟩ l' v → h' = h.put j v →
      (h.live i = some s' ∨ h.live i = none ∧ ∃ userId, s' = .create userId) ∨
      ∃ s l', h.live i = some s ∧ sessionStep ⟨h.engine, s⟩ l' ⟨h'.engine, s'⟩ := by
    rintro j s v l' hs hv rfl
    rw [live_put (live_lt hs)] at hs'
    by_cases hij : j = i
    · rw [if_pos hij] at hs'
      obtain rfl := Option.some.inj hs'
      obtain rfl := hij
      exact .inr ⟨s, l', hs, hv⟩
    · rw [if_neg hij] at hs'
      exact .inl (.inl hs')
  unfold halStep at hstep
  cases l with
  | createSession sensorId userId =>
      obtain rfl := Option.some.inj hstep
      rcases live_createSession hs' with hs | ⟨-, rfl, rfl⟩
      · exact .inl (.inl hs)
      · refine .inl (.inr ⟨?_, userId, rfl⟩)
        simp [live]
  | session j l' =>
      obtain ⟨s, v, hs, -, hv, rfl⟩ := session_step hstep
      exact hput j s v l' hs hv rfl
  | cameraFrame j =>
      obtain ⟨-, -, rfl⟩ := Option.map_eq_some_iff.mp hstep
      rcases onCameraFrame_eq h with heq | ⟨j', s, hs, -, heq⟩
      · rw [heq] at hs'
        exact .inl (.inl hs')
      · exact hput j' s _ .frameArrives hs rfl heq
  | destroy j =>
      obtain ⟨s, hs, -, rfl⟩ := destroy_step hstep
      rw [live_destroy (live_lt hs)] at hs'
      by_cases hij : j = i
      · rw [if_pos hij] at hs'
        cases hs'
      · rw [if_neg hij] at hs'
        exact .inl (.inl hs')

/-- What any session has been through is a run of one session. -/
theorem session_runs {ls : List HalLabel} (hrun : Runs halStep .initial ls h)
    (hs : h.live i = some s) :
    ∃ v ls', v.Fresh ∧ Runs sessionStep v ls' ⟨h.engine, s⟩ := by
  refine hrun.invariant (P := fun h => ∀ i s, h.live i = some s →
    ∃ v ls', v.Fresh ∧ Runs sessionStep v ls' ⟨h.engine, s⟩) ?_
    (fun i s hs => absurd hs not_live_initial) i s hs
  rintro h l h' ih hstep i s' hs'
  rcases live_step hstep hs' with (hs | ⟨-, userId, rfl⟩) | ⟨s, l', hs, hl⟩
  · obtain ⟨v, ls', hfresh, hruns⟩ := ih i s' hs
    have hchange : sessionStep ⟨h.engine, s'⟩ (.engineChanged h'.engine) ⟨h'.engine, s'⟩ := rfl
    exact ⟨v, _, hfresh, hruns.append (.single hchange)⟩
  · exact ⟨⟨h'.engine, .create userId⟩, [], rfl, .nil _⟩
  · obtain ⟨v, ls', hfresh, hruns⟩ := ih i s hs
    exact ⟨v, _, hfresh, hruns.append (.single hl)⟩

/-- What a step does to the slot and to the cancelled flag. -/
inductive EngineEffect (h h' : Hal) : HalLabel → Prop
  | created (userId : Int32) : h'.engine.sessionFrameCallback = some h.sessions.length →
      h'.engine.cancelled = h.engine.cancelled → EngineEffect h h' (.createSession 1008 userId)
  | stepped (i : ℕ) (l : SessionLabel) (s : Session) : h.live i = some s →
      h'.engine.sessionFrameCallback = h.engine.sessionFrameCallback →
      h'.engine.cancelled = (l.cancels s || decide (l = .close) ||
        h.engine.cancelled && l.starts.isNone) → EngineEffect h h' (.session i l)
  | destroyed (i : ℕ) (s : Session) : h.live i = some s → h'.engine.sessionFrameCallback = none →
      h'.engine.cancelled = true → EngineEffect h h' (.destroy i)
  | kept {l : HalLabel} : (∀ i l', l ≠ .session i l') → (∀ i, l ≠ .destroy i) →
      (∀ userId, l ≠ .createSession 1008 userId) → h'.engine = h.engine → EngineEffect h h' l

theorem engine_step {l : HalLabel} (hstep : halStep h l h') : EngineEffect h h' l := by
  unfold halStep at hstep
  cases l with
  | createSession sensorId userId =>
      obtain rfl := Option.some.inj hstep
      unfold createSession
      by_cases hid : sensorId ≠ 1008
      · rw [if_pos hid]
        refine .kept nofun nofun ?_ rfl
        rintro _ ⟨⟩
        exact hid rfl
      · rw [if_neg hid]
        obtain rfl : sensorId = 1008 := by simpa using hid
        exact .created userId rfl rfl
  | session i l' =>
      obtain ⟨s, v, hs, hown, hv, rfl⟩ := session_step hstep
      obtain ⟨hslot, hcancelled⟩ := engine_of_own hown hv
      exact .stepped i l' s hs hslot hcancelled
  | cameraFrame i =>
      obtain ⟨-, -, rfl⟩ := Option.map_eq_some_iff.mp hstep
      refine .kept nofun nofun nofun ?_
      rcases onCameraFrame_eq h with heq | ⟨j, s, -, -, heq⟩
      · rw [heq]
      · rw [heq]
        unfold put SessionView.frameArrives
        dsimp only
        split_ifs <;> rfl
  | destroy i =>
      obtain ⟨s, hs, -, rfl⟩ := destroy_step hstep
      refine .destroyed i s hs ?_ ?_
      · rw [engine_destroy]
        rfl
      · rw [engine_destroy]
        rfl

/-- What becomes of a session that lives in a step of the system. -/
theorem live_cases {l : HalLabel} (hstep : halStep h l h') (hs : h.live i = some s) :
    h'.live i = some s ∨ (l = .destroy i ∧ s.workers = []) ∨
      ∃ v l', sessionStep ⟨h.engine, s⟩ l' v ∧ h'.live i = some v.session ∧
        (l = .session i l' ∨ l' = .frameArrives) := by
  unfold halStep at hstep
  cases l with
  | createSession sensorId userId =>
      obtain rfl := Option.some.inj hstep
      exact .inl (live_createSession_of_live hs)
  | session j l' =>
      obtain ⟨t, v, ht, -, hv, rfl⟩ := session_step hstep
      rw [live_put (live_lt ht)]
      by_cases hij : j = i
      · obtain rfl := hij
        obtain rfl := Option.some.inj (ht.symm.trans hs)
        exact .inr (.inr ⟨v, l', hv, if_pos rfl, .inl rfl⟩)
      · exact .inl ((if_neg hij).trans hs)
  | cameraFrame j =>
      obtain ⟨-, -, rfl⟩ := Option.map_eq_some_iff.mp hstep
      rcases onCameraFrame_eq h with heq | ⟨j', t, ht, -, heq⟩
      · rw [heq]
        exact .inl hs
      · rw [heq, live_put (live_lt ht)]
        by_cases hij : j' = i
        · obtain rfl := hij
          obtain rfl := Option.some.inj (ht.symm.trans hs)
          exact .inr (.inr ⟨_, .frameArrives, rfl, if_pos rfl, .inr rfl⟩)
        · exact .inl ((if_neg hij).trans hs)
  | destroy j =>
      obtain ⟨t, ht, hworkers, rfl⟩ := destroy_step hstep
      by_cases hij : j = i
      · obtain rfl := hij
        obtain rfl := Option.some.inj (ht.symm.trans hs)
        exact .inr (.inl ⟨rfl, hworkers⟩)
      · rw [live_destroy (live_lt ht), if_neg hij]
        exact .inl hs

theorem live_of_step {l : HalLabel} (hstep : halStep h l h') (hs : h.live i = some s)
    (hl : l ≠ .destroy i) : ∃ s', h'.live i = some s' := by
  rcases live_cases hstep hs with hsame | ⟨hdestroy, -⟩ | ⟨v, -, -, hv, -⟩
  · exact ⟨s, hsame⟩
  · exact absurd hdestroy hl
  · exact ⟨v.session, hv⟩

/-- The slot never holds a session that was destroyed. -/
theorem slot_live {ls : List HalLabel} (hrun : Runs halStep .initial ls h)
    (hslot : h.engine.sessionFrameCallback = some i) : ∃ s, h.live i = some s := by
  refine hrun.invariant (P := fun h => ∀ i, h.engine.sessionFrameCallback = some i →
    ∃ s, h.live i = some s) ?_ nofun i hslot
  intro h l h' ih hstep i hslot
  have hkept : h'.engine.sessionFrameCallback = h.engine.sessionFrameCallback → l ≠ .destroy i →
      ∃ s, h'.live i = some s := by
    intro heq hl
    obtain ⟨s, hs⟩ := ih i (heq ▸ hslot)
    exact live_of_step hstep hs hl
  cases engine_step hstep with
  | created userId hnew _ =>
      obtain rfl := Option.some.inj (hnew.symm.trans hslot)
      obtain rfl := Option.some.inj hstep
      exact ⟨.create userId, by simp [live, createSession]⟩
  | stepped j l' s _ heq _ => exact hkept heq nofun
  | destroyed j s _ hnone _ =>
      rw [hnone] at hslot
      cases hslot
  | kept _ hl _ heq => exact hkept (by rw [heq]) (hl i)

/-- The user of every session that was created. -/
def users (h : Hal) : List Int32 := h.sessions.map fun o => o.session.userId

theorem users_set {t : Session} {alive : Bool} (hs : h.live i = some s) (ht : t.userId = s.userId) :
    (h.sessions.set i ⟨t, alive⟩).map (fun o => o.session.userId) = h.users := by
  obtain ⟨o, ho, hsome⟩ := Option.bind_eq_some_iff.mp hs
  split_ifs at hsome
  obtain rfl := Option.some.inj hsome
  have hi : h.users[i]? = some o.session.userId := by
    unfold users
    rw [List.getElem?_map, ho]
    rfl
  rw [List.map_set, show (h.sessions.map fun o => o.session.userId) = h.users from rfl]
  obtain ⟨hlt, heq⟩ := List.getElem?_eq_some_iff.mp hi
  rw [ht, ← heq, List.set_getElem_self]

theorem users_step {l : HalLabel} (hstep : halStep h l h') :
    h'.users = h.users ∨ ∃ userId, l = .createSession 1008 userId ∧
      h'.users = h.users ++ [userId] := by
  unfold halStep at hstep
  cases l with
  | createSession sensorId userId =>
      obtain rfl := Option.some.inj hstep
      unfold createSession
      by_cases hid : sensorId ≠ 1008
      · rw [if_pos hid]
        exact .inl rfl
      · rw [if_neg hid]
        obtain rfl : sensorId = 1008 := by simpa using hid
        exact .inr ⟨userId, rfl, by simp [users, Session.create]⟩
  | session i l' =>
      obtain ⟨s, v, hs, -, hv, rfl⟩ := session_step hstep
      exact .inl (users_set hs (userId_step hv))
  | cameraFrame i =>
      obtain ⟨-, -, rfl⟩ := Option.map_eq_some_iff.mp hstep
      rcases onCameraFrame_eq h with heq | ⟨j, s, hs, -, heq⟩
      · rw [heq]
        exact .inl rfl
      · have harrives : sessionStep ⟨h.engine, s⟩ .frameArrives
            (SessionView.frameArrives ⟨h.engine, s⟩) := rfl
        rw [heq]
        exact .inl (users_set hs (userId_step harrives))
  | destroy i =>
      obtain ⟨s, hs, -, rfl⟩ := destroy_step hstep
      exact .inl (users_set hs (userId_cancel _))

end Hal
end FaceHal
