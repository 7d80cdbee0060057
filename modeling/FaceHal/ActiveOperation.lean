import FaceHal.SessionRuns

/-!
# Operations and the running camera

An operation waits for frames, so a session with a flag set should have a running
camera. The calls of the client keep it that way: an operation starts the camera
or takes its flag back, and `cancel` clears every flag before it stops the camera.
Two other steps stop the camera without a look at the flags: a camera event, and
a worker that is done with its own operation while another one goes on. The
property is kept by exactly the steps that do neither while a flag is set.
-/
namespace FaceHal
open Session SessionView

/-- Every operation whose flag is set has a running camera. -/
def Session.Attended (s : Session) : Prop := ∀ kind, s.flag kind = true → s.cameraRunning = true

/-- The worker is done with its operation and stops the camera next. -/
def WorkerStage.stopsCamera : WorkerStage → Bool
  | .stopAfterMatch _ | .stopAfterDetection | .stopAfterEnrollment _ => true
  | _ => false

/-- The step stops the camera without clearing the flags. -/
def SessionLabel.stopsCamera (v : SessionView) : SessionLabel → Bool
  | .cameraLost => true
  | .worker i _ => (v.session.workers[i]?).any fun w => w.stage.stopsCamera
  | _ => false

/-- Such a step is taken only while no flag is set. -/
def StopsIdle (v : SessionView) (l : SessionLabel) : Prop :=
  l.stopsCamera v = true → v.isBusy = false

instance (v : SessionView) (l : SessionLabel) : Decidable (StopsIdle v l) :=
  inferInstanceAs (Decidable (_ → _))

section steps
variable {v v' : SessionView} {s t : Session}

theorem attended_idle (h : ∀ kind, s.flag kind = false) : s.Attended := by
  intro kind hset
  rw [h kind] at hset
  cases hset

theorem Session.Attended.mono (h : s.Attended)
    (hflag : ∀ kind, t.flag kind = true → s.flag kind = true)
    (hcamera : t.cameraRunning = s.cameraRunning) : t.Attended := by
  intro kind hset
  rw [hcamera]
  exact h kind (hflag kind hset)

theorem Session.Attended.congr (h : s.Attended) (ha : t.isAuthenticating = s.isAuthenticating)
    (he : t.isEnrolling = s.isEnrolling) (hd : t.isDetectingInteraction = s.isDetectingInteraction)
    (hcamera : t.cameraRunning = s.cameraRunning) : t.Attended := by
  refine h.mono ?_ hcamera
  intro kind hset
  rwa [flag_congr ha he hd] at hset

theorem flag_of_not_busy (h : v.isBusy = false) (kind : OperationKind) :
    v.session.flag kind = false := by
  by_contra hset
  have hbusy := isBusy_iff.mpr ⟨kind, by simpa using hset⟩
  rw [h] at hbusy
  cases hbusy

/-- The camera of an operation runs, or its flag is taken back. The other flags
stand only if the camera ran before. -/
theorem attended_startCamera {start : CameraStart} {kind : OperationKind}
    (h : v.session.cameraRunning = false → ∀ kind', kind' ≠ kind → v.session.flag kind' = false) :
    (v.startCamera start (Session.clear kind)).session.Attended := by
  unfold startCamera
  split_ifs with hrunning
  · intro _ _
    exact hrunning
  · cases start with
    | started =>
        intro _ _
        rfl
    | failed code =>
        refine attended_idle ?_
        intro kind'
        have hclear : (v.session.clear kind).flag kind' = false := by
          rw [flag_clear]
          by_cases hk : kind = kind'
          · simp [hk]
          · rw [h (by simpa using hrunning) kind' (Ne.symm hk), Bool.false_and]
        rw [← hclear]
        exact flag_congr rfl rfl rfl kind'

theorem attended_start {u : SessionView} {start : CameraStart} (kind : OperationKind)
    (h : v.session.Attended) (hcamera : u.session.cameraRunning = v.session.cameraRunning)
    (hflag : ∀ kind', kind' ≠ kind → u.session.flag kind' = v.session.flag kind') :
    (u.startCamera start (Session.clear kind)).session.Attended := by
  refine attended_startCamera ?_
  intro hstopped kind' hk
  rw [hflag kind' hk]
  by_contra hset
  have hrunning := h kind' (by simpa using hset)
  rw [← hcamera, hstopped] at hrunning
  cases hrunning

theorem attended_authenticate (h : v.session.Attended) {u : SessionView}
    (hu : ∃ reason, u.session = { v.session with currentOperationReason := reason })
    (operationId : Int64) (now : ℕ) (start : CameraStart) :
    (u.authenticate operationId now start).session.Attended := by
  obtain ⟨reason, hu⟩ := hu
  obtain ⟨reason', hinfer⟩ := inferReason_eq { u.session with
    operations := u.session.operations ++ [.authenticate operationId]
    currentChallenge := operationId.toUInt64
    isAuthenticating := true
    authStartTime := now }
  refine attended_start .authenticate h ?_ ?_
  · simp only [session_onSession, session_onEngine, begin, hinfer]
    rw [hu]
  · intro kind' hk
    simp only [session_onSession, session_onEngine, begin, hinfer]
    cases kind' with
    | authenticate => exact absurd rfl hk
    | _ => simp [flag, hu]

theorem attended_onContextChanged (h : v.session.Attended) (context : OperationContext) (now : ℕ) :
    (v.onContextChanged context now).session.Attended := by
  obtain ⟨reason, display, hs⟩ := contextStep_fst v.session context now
  unfold onContextChanged
  dsimp only
  split_ifs
  · exact attended_idle (canceled_cancel _).flag
  · rw [session_onSession, hs]
    exact h.congr rfl rfl rfl rfl

/-- A worker leaves flags alone or clears them, and stops the camera only at the
end of its operation. -/
theorem workerStep_camera (v : SessionView) (i : ℕ) {w : Worker} (reply : EngineReply)
    (hw : w.stage.stopsCamera = false) :
    (∀ kind, (v.workerStep i w reply).session.flag kind = true → v.session.flag kind = true) ∧
      (v.workerStep i w reply).session.cameraRunning = v.session.cameraRunning := by
  have same : ∀ {t : Session}, t.isAuthenticating = v.session.isAuthenticating →
      t.isEnrolling = v.session.isEnrolling →
      t.isDetectingInteraction = v.session.isDetectingInteraction →
      ∀ kind, t.flag kind = true → v.session.flag kind = true := by
    intro t ha he hd kind hset
    rwa [flag_congr ha he hd] at hset
  have cleared : ∀ {t : Session} (kind : OperationKind),
      t.isAuthenticating = (v.session.clear kind).isAuthenticating →
      t.isEnrolling = (v.session.clear kind).isEnrolling →
      t.isDetectingInteraction = (v.session.clear kind).isDetectingInteraction →
      ∀ kind', t.flag kind' = true → v.session.flag kind' = true := by
    intro t kind ha he hd kind' hset
    rw [flag_congr ha he hd] at hset
    exact flag_of_clear hset
  unfold workerStep
  cases hstage : w.stage with
  | testCancelled | testAuthenticating | testDetecting | testEnrolling =>
      dsimp only
      split_ifs
      all_goals exact ⟨same rfl rfl rfl, rfl⟩
  | authenticate | analyze | enroll =>
      dsimp only
      split_ifs
      all_goals exact ⟨same rfl rfl rfl, rfl⟩
  | clearAuthenticating => exact ⟨cleared .authenticate rfl rfl rfl, rfl⟩
  | clearDetecting => exact ⟨cleared .detectInteraction rfl rfl rfl, rfl⟩
  | clearEnrolling => exact ⟨cleared .enroll rfl rfl rfl, rfl⟩
  | stopAfterMatch | stopAfterDetection | stopAfterEnrollment =>
      rw [hstage] at hw
      cases hw
  | _ => exact ⟨same rfl rfl rfl, rfl⟩

theorem workerStep_stops (v : SessionView) (i : ℕ) {w : Worker} (reply : EngineReply)
    (hw : w.stage.stopsCamera = true) :
    (∀ kind, (v.workerStep i w reply).session.flag kind = v.session.flag kind) ∧
      (v.workerStep i w reply).session.cameraRunning = false := by
  unfold workerStep
  cases hstage : w.stage with
  | stopAfterMatch | stopAfterDetection | stopAfterEnrollment =>
      exact ⟨flag_congr rfl rfl rfl, rfl⟩
  | _ =>
      rw [hstage] at hw
      cases hw

theorem attended_stopped_iff (hflag : ∀ kind, t.flag kind = v.session.flag kind)
    (hcamera : t.cameraRunning = false) : t.Attended ↔ v.isBusy = false := by
  constructor
  · intro h
    by_contra hbusy
    obtain ⟨kind, hset⟩ := isBusy_iff.mp (by simpa using hbusy)
    have hrunning := h kind ((hflag kind).trans hset)
    rw [hcamera] at hrunning
    cases hrunning
  · intro hidle
    refine attended_idle ?_
    intro kind
    rw [hflag, flag_of_not_busy hidle]

/-- A step keeps the property if and only if it does not stop the camera under an
operation. -/
theorem attended_step_iff {l : SessionLabel} (hv : v.session.Attended) (h : sessionStep v l v') :
    v'.session.Attended ↔ StopsIdle v l := by
  have keeps : l.stopsCamera v = false → v'.session.Attended →
      (v'.session.Attended ↔ StopsIdle v l) := by
    intro hl hkept
    refine iff_of_true hkept ?_
    intro hstops
    rw [hl] at hstops
    cases hstops
  unfold sessionStep at h
  cases l with
  | enroll start =>
      obtain rfl := Option.some.inj h
      refine keeps rfl (attended_start .enroll hv rfl ?_)
      intro kind' hk
      cases kind' with
      | enroll => exact absurd rfl hk
      | _ => rfl
  | authenticate operationId now start =>
      obtain rfl := Option.some.inj h
      exact keeps rfl (attended_authenticate hv ⟨v.session.currentOperationReason, rfl⟩ _ _ _)
  | authenticateWithContext operationId context now start =>
      obtain rfl := Option.some.inj h
      exact keeps rfl (attended_authenticate hv ⟨context.reason, rfl⟩ _ _ _)
  | detectInteraction start =>
      obtain rfl := Option.some.inj h
      refine keeps rfl (attended_start .detectInteraction hv rfl ?_)
      intro kind' hk
      cases kind' with
      | detectInteraction => exact absurd rfl hk
      | _ => rfl
  | cancel =>
      obtain rfl := Option.some.inj h
      exact keeps rfl (attended_idle (canceled_cancel v).flag)
  | close =>
      obtain rfl := Option.some.inj h
      refine keeps rfl (attended_idle ?_)
      intro kind
      exact (flag_congr rfl rfl rfl kind).trans ((canceled_cancel v).flag kind)
  | onContextChanged context now =>
      obtain rfl := Option.some.inj h
      exact keeps rfl (attended_onContextChanged hv context now)
  | frameArrives =>
      obtain rfl := Option.some.inj h
      refine keeps rfl ?_
      unfold frameArrives
      split_ifs
      · exact hv
      · exact hv.congr rfl rfl rfl rfl
  | frameClaims i =>
      obtain ⟨frameOperation, -, rfl⟩ := Option.map_eq_some_iff.mp h
      refine keeps rfl ?_
      unfold frameClaims
      dsimp only
      split_ifs
      all_goals exact hv.congr rfl rfl rfl rfl
  | worker i reply =>
      obtain ⟨w, hi, rfl⟩ := Option.map_eq_some_iff.mp h
      cases hw : w.stage.stopsCamera with
      | false =>
          obtain ⟨hflag, hcamera⟩ := workerStep_camera v i reply hw
          exact keeps (by simp [SessionLabel.stopsCamera, hi, hw]) (hv.mono hflag hcamera)
      | true =>
          obtain ⟨hflag, hcamera⟩ := workerStep_stops v i reply hw
          have hstops : (SessionLabel.worker i reply).stopsCamera v = true := by
            simp [SessionLabel.stopsCamera, hi, hw]
          rw [attended_stopped_iff hflag hcamera, StopsIdle, hstops]
          simp
  | cameraLost =>
      obtain rfl := Option.some.inj h
      have hstopped := attended_stopped_iff (v := v)
        (t := { v.session with cameraRunning := false }) (flag_congr rfl rfl rfl) rfl
      rw [session_onSession, hstopped]
      simp [StopsIdle, SessionLabel.stopsCamera]
  | setFeature feature enabled =>
      obtain rfl := Option.some.inj h
      refine keeps rfl ?_
      cases feature with
      | _ => exact hv.congr rfl rfl rfl rfl
  | engineChanged engine =>
      obtain rfl := Option.some.inj h
      exact keeps rfl hv
  | generateChallenge _ | revokeChallenge _ | enumerateEnrollments _ | removeEnrollments _ =>
      obtain rfl := Option.some.inj h
      exact keeps rfl (hv.congr rfl rfl rfl rfl)
  | getFeatures | getAuthenticatorId | resetLockout =>
      obtain rfl := Option.some.inj h
      exact keeps rfl (hv.congr rfl rfl rfl rfl)

end steps

/-- As long as no step stops the camera under an operation, every operation in
progress has a running camera. -/
theorem attended_of_runs {v v' : SessionView} {ls : List SessionLabel} (hv : v.Fresh)
    (h : Runs (guarded StopsIdle sessionStep) v ls v') : v'.session.Attended := by
  refine h.invariant (P := fun v => v.session.Attended) ?_ ?_
  · rintro v l v' hv ⟨hl, hstep⟩
    exact (attended_step_iff hv hstep).mpr hl
  · refine attended_idle ?_
    intro kind
    rw [hv]
    cases kind <;> rfl

/-- The run of a frame that is matched. -/
theorem matchedFrame_attended : ∃ v', replay StopsIdle (fun v l => l.apply v) matchedFrame
    newSession = some v' ∧ v'.session.Attended := by
  obtain ⟨v', hv'⟩ : ∃ v', replay StopsIdle (fun v l => l.apply v) matchedFrame newSession =
      some v' := ⟨_, rfl⟩
  exact ⟨v', hv', attended_of_runs (v := newSession) rfl (runs_of_replay hv')⟩

/-- The camera is disconnected during an enrolment. -/
theorem disconnected_enroll_waits : ¬ ∀ (v v' : SessionView) (ls : List SessionLabel), v.Fresh →
    Runs sessionStep v ls v' → v'.session.workers = [] → v'.session.Attended := by
  intro h
  have hrun : Runs sessionStep newSession [.enroll .started, .cameraLost] _ :=
    .cons rfl (.single rfl)
  exact absurd (h newSession _ _ rfl hrun rfl .enroll rfl) (by decide)

end FaceHal
