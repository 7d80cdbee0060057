import FaceHal.SessionThreads

/-!
# Functions of a session that run alone

`SessionThreads` and `SessionRuns` embed the same functions, at two sizes of step. Where no
other thread acts in between, a program ends in a state that the step of the client gives,
and the program of a worker in one that the steps of the worker give one after the other.
The histories that `SessionRuns` keeps are left out.
-/
namespace FaceHal
open Program

namespace SessionView

/-- The view without the histories and without what the threads hold. -/
def forget (v : SessionView) : SessionView :=
  v.onSession fun s => { s with
    frames := []
    workers := []
    posted := s.posted.map fun p => ⟨p.callback, none, none⟩
    operations := [] }

theorem forget_postCallback (v : SessionView) (callback : Callback) (operation : Option ℕ)
    (frameOperation : Option ℕ) :
    (v.postCallback callback operation frameOperation).forget = v.forget.answer callback := by
  simp [forget, answer, postCallback, onSession]

theorem forget_clear (v : SessionView) (kind : OperationKind) :
    (v.onSession (Session.clear kind)).forget = v.forget.onSession (Session.clear kind) := by
  cases kind <;> rfl

theorem forget_inferReason (v : SessionView) :
    (v.onSession inferReason).forget = v.forget.onSession inferReason := by
  unfold forget onSession inferReason
  dsimp only
  split_ifs <;> rfl

end SessionView

theorem Session.setFlag_false (kind : OperationKind) :
    Session.setFlag kind false = Session.clear kind := by
  cases kind <;> rfl

namespace SessionProgram
variable {α : Type} {v : SessionView}

theorem wp_access_bind {c : SessionAccess} {f : c.Reply → Program SessionI α}
    {Q : α → SessionView → Prop} :
    (access c >>= f).wp sessionAccesses Q v ↔
      ∀ r, c.Gives v r → (f r).wp sessionAccesses Q (c.effect v r) := by
  constructor
  · exact fun h r hr => h r _ ⟨hr, rfl⟩
  · rintro h r t ⟨hr, rfl⟩
    exact h r hr

theorem wp_access {c : SessionAccess} {Q : c.Reply → SessionView → Prop} :
    (access c).wp sessionAccesses Q v ↔ ∀ r, c.Gives v r → Q r (c.effect v r) := wp_access_bind

theorem wp_load_bind {c : SessionAccess} {f : c.Reply → Program SessionI α}
    {Q : α → SessionView → Prop} (value : c.Reply) (hvalue : ∀ r, c.Gives v r → r = value)
    (hsame : c.effect v value = v) (h : (f value).wp sessionAccesses Q v) :
    (access c >>= f).wp sessionAccesses Q v := by
  refine wp_access_bind.mpr fun r hr => ?_
  rw [hvalue r hr, hsame]
  exact h

theorem wp_loadFlag_orM {kind : OperationKind} {q : Program SessionI Bool} {b : Bool}
    (hq : q.wp sessionAccesses (fun r w => r = b ∧ w = v) v) :
    (access (.loadFlag kind) <||> q).wp sessionAccesses
      (fun r w => r = (v.session.flag kind || b) ∧ w = v) v := by
  refine (wp_bind _ _ _ _).mpr (wp_access.mpr ?_)
  rintro r rfl
  cases hflag : v.session.flag kind with
  | true => exact ⟨rfl, rfl⟩
  | false => exact hq

theorem wp_isBusy : (access (.loadFlag .authenticate) <||> access (.loadFlag .enroll) <||>
    access (.loadFlag .detectInteraction)).wp sessionAccesses
      (fun r w => r = v.isBusy ∧ w = v) v := by
  have hlast : (access (.loadFlag .detectInteraction)).wp sessionAccesses
      (fun r w => r = v.session.flag .detectInteraction ∧ w = v) v :=
    wp_access.mpr fun r hr => ⟨hr, rfl⟩
  refine wp_mono (wp_loadFlag_orM (wp_loadFlag_orM hlast)) ?_
  rintro r w ⟨rfl, rfl⟩
  exact ⟨(Bool.or_assoc ..).symm, rfl⟩

theorem wp_cancel (v : SessionView) :
    cancel.wp sessionAccesses (fun _ w => w.forget = v.cancel.forget) v := by
  unfold cancel SessionView.cancel
  rw [wp_bind]
  refine wp_mono wp_isBusy ?_
  rintro busy w ⟨rfl, rfl⟩
  split_ifs
  · refine wp_access_bind.mpr fun _ _ => wp_access_bind.mpr fun _ _ => ?_
    refine wp_access_bind.mpr fun _ _ => wp_access_bind.mpr fun _ _ => ?_
    refine wp_access_bind.mpr fun _ _ => wp_access_bind.mpr fun _ _ => ?_
    refine wp_access.mpr fun _ _ => ?_
    simp [SessionView.forget, SessionAccess.effect, SessionView.onSession, SessionView.onEngine,
      Session.setFlag, SessionView.answer, SessionView.postCallback]
  · refine wp_access_bind.mpr fun _ _ => wp_access_bind.mpr fun _ _ => ?_
    refine wp_access_bind.mpr fun _ _ => wp_access_bind.mpr fun _ _ => ?_
    refine wp_access_bind.mpr fun _ _ => wp_access.mpr fun _ _ => ?_
    rfl

theorem wp_close (v : SessionView) :
    close.wp sessionAccesses (fun _ w => w.forget = v.close.forget) v := by
  unfold close SessionView.close
  rw [wp_bind]
  refine wp_mono (wp_cancel v) fun _ w hw => wp_access.mpr fun _ _ => ?_
  rw [SessionView.answer, SessionView.forget_postCallback, ← hw]
  exact SessionView.forget_postCallback ..

theorem wp_startCamera (kind : OperationKind) {w : SessionView} (hw : v.forget = w.forget) :
    (startCamera kind).wp sessionAccesses
      (fun _ x => ∃ start, x.forget = (w.startCamera start (Session.clear kind)).forget) v := by
  have hcamera : v.session.cameraRunning = w.session.cameraRunning :=
    congrArg (fun x => x.session.cameraRunning) hw
  have hruns : (v.onSession fun s => { s with cameraRunning := true }).forget =
      (w.onSession fun s => { s with cameraRunning := true }).forget :=
    congrArg (fun x => x.onSession fun s => { s with cameraRunning := true }) hw
  unfold startCamera SessionView.startCamera
  refine wp_access_bind.mpr fun start hstart => ?_
  cases start with
  | started =>
      refine ⟨.started, ?_⟩
      split_ifs with hon
      · have hsame : (w.onSession fun s => { s with cameraRunning := true }) = w := by
          rw [SessionView.onSession, ← hon]
        rw [hsame] at hruns
        exact hruns
      · exact hruns
  | failed code =>
      have hoff : w.session.cameraRunning ≠ true := fun hon => nomatch hstart (hcamera.trans hon)
      refine wp_access_bind.mpr fun _ _ => wp_access.mpr fun _ _ => ⟨.failed code, ?_⟩
      rw [if_neg hoff]
      dsimp only
      rw [SessionView.forget_postCallback, SessionView.forget_clear, ← hw]
      refine (SessionView.forget_postCallback ..).trans ?_
      rw [← SessionView.forget_clear, ← Session.setFlag_false]
      rfl

theorem wp_enroll (v : SessionView) :
    enroll.wp sessionAccesses (fun _ w => ∃ start, w.forget = (v.enroll start).forget) v := by
  refine wp_access_bind.mpr fun _ _ => wp_access_bind.mpr fun _ _ => ?_
  exact wp_startCamera .enroll rfl

theorem wp_detectInteraction (v : SessionView) : detectInteraction.wp sessionAccesses
    (fun _ w => ∃ start, w.forget = (v.detectInteraction start).forget) v := by
  refine wp_access_bind.mpr fun _ _ => wp_access_bind.mpr fun _ _ => ?_
  exact wp_startCamera .detectInteraction rfl

theorem wp_inferReason (v : SessionView) : inferReason.wp sessionAccesses
    (fun _ w => w = v.onSession SessionView.inferReason) v := by
  refine wp_load_bind v.session.currentOperationReason (fun _ h => h) rfl ?_
  unfold SessionView.inferReason SessionView.onSession
  dsimp only
  split_ifs with hunknown hlock
  · refine wp_load_bind v.session.currentDisplayState (fun _ h => h) rfl ?_
    rw [if_pos hlock]
    exact wp_access.mpr fun _ _ => rfl
  · refine wp_load_bind v.session.currentDisplayState (fun _ h => h) rfl ?_
    rw [if_neg hlock]
    exact wp_access.mpr fun _ _ => rfl
  · rfl

theorem wp_authenticate (v : SessionView) (operationId : Int64) :
    (authenticate operationId).wp sessionAccesses
      (fun _ w => ∃ now start, w.forget = (v.authenticate operationId now start).forget) v := by
  refine wp_access_bind.mpr fun _ _ => wp_access_bind.mpr fun _ _ => ?_
  refine wp_access_bind.mpr fun _ _ => wp_access_bind.mpr fun now _ => ?_
  refine wp_access_bind.mpr fun _ _ => ?_
  rw [wp_bind]
  refine wp_mono (wp_inferReason _) ?_
  rintro _ w rfl
  refine wp_mono (wp_startCamera .authenticate ?_) fun _ x hx => ⟨now, hx⟩
  rw [SessionView.forget_inferReason, SessionView.forget_inferReason]
  rfl

theorem wp_authenticateWithContext (v : SessionView) (operationId : Int64)
    (context : OperationContext) :
    (authenticateWithContext operationId context).wp sessionAccesses (fun _ w => ∃ now start,
      w.forget = (v.authenticateWithContext operationId context now start).forget) v :=
  wp_access_bind.mpr fun _ _ => wp_authenticate _ operationId

section context
variable (context : OperationContext)

theorem wp_promptOver (v : SessionView) : (promptOver context).wp sessionAccesses
    (fun b w => w = v ∧ ∃ now, b = true ↔ v.session.isAuthenticating = true ∧
      v.session.currentOperationReason = .biometricPrompt ∧ context.reason ≠ .biometricPrompt ∧
      ¬ now - v.session.authStartTime < 1000) v := by
  refine wp_load_bind v.session.isAuthenticating (fun _ h => h) rfl ?_
  split_ifs with hauth
  · refine wp_load_bind v.session.currentOperationReason (fun _ h => h) rfl ?_
    split_ifs with hprompt
    · refine wp_access_bind.mpr fun now _ => ?_
      refine wp_load_bind v.session.authStartTime (fun _ h => h) rfl ⟨rfl, now, ?_⟩
      simp [hauth, hprompt]
    · refine ⟨rfl, 0, ?_⟩
      simp only [hauth, true_and, ← and_assoc, hprompt, false_and, Bool.false_eq_true]
  · refine ⟨rfl, 0, ?_⟩
    simp [hauth]

theorem wp_displayOff (v : SessionView) : (displayOff context).wp sessionAccesses
    (fun b w => w = v ∧ (b = true ↔
      (context.displayState = .aod ∨ context.displayState = .noUi) ∧
        v.session.currentOperationReason ≠ .biometricPrompt)) v := by
  unfold displayOff
  split_ifs with hoff
  · refine wp_load_bind v.session.currentOperationReason (fun _ h => h) rfl ⟨rfl, ?_⟩
    simp [hoff]
  · exact ⟨rfl, by simp [hoff]⟩

theorem wp_correctReason (v : SessionView) : (correctReason context).wp sessionAccesses
    (fun _ w => w = v.onSession fun s =>
      if context.displayState = .lockscreen ∧ s.isAuthenticating ∧
          s.currentOperationReason ≠ .keyguard then
        { s with currentOperationReason := .keyguard }
      else s) v := by
  unfold correctReason
  split_ifs with hlock
  · refine wp_load_bind v.session.isAuthenticating (fun _ h => h) rfl ?_
    split_ifs with hauth
    · refine wp_load_bind v.session.currentOperationReason (fun _ h => h) rfl ?_
      split_ifs with hreason
      · refine wp_access.mpr fun _ _ => ?_
        simp [SessionView.onSession, SessionAccess.effect, hlock, hauth, hreason]
      · change v = _
        simp [SessionView.onSession, hreason]
    · change v = _
      simp [SessionView.onSession, hauth]
  · change v = _
    simp [SessionView.onSession, hlock]

theorem wp_lockscreenOver (v : SessionView) : (lockscreenOver context).wp sessionAccesses
    (fun b w => w = v ∧ b = (v.session.isAuthenticating && decide
      (v.session.currentOperationReason = .keyguard ∨ v.session.currentDisplayState = .lockscreen) &&
        context.displayState != .lockscreen)) v := by
  refine wp_load_bind v.session.isAuthenticating (fun _ h => h) rfl ?_
  split_ifs with hauth
  · refine wp_load_bind v.session.currentOperationReason (fun _ h => h) rfl ?_
    split_ifs with hreason
    · exact ⟨rfl, by simp [hauth, hreason]⟩
    · refine wp_load_bind v.session.currentDisplayState (fun _ h => h) rfl ?_
      split_ifs with hdisplay
      · exact ⟨rfl, by simp [hauth, hdisplay]⟩
      · exact ⟨rfl, by simp [hreason, hdisplay]⟩
  · exact ⟨rfl, by simp [hauth]⟩

theorem wp_followContext (v : SessionView)
    (hstored : context.reason ≠ .unknown → v.session.currentOperationReason = context.reason) :
    (followContext context).wp sessionAccesses
      (fun _ w => ∃ now, w.forget = (v.onContextChanged context now).forget) v := by
  have hfirst : (if context.reason ≠ .unknown then
      { v.session with currentOperationReason := context.reason } else v.session) = v.session := by
    split_ifs with hreason
    · rw [← hstored hreason]
    · rfl
  unfold followContext SessionView.onContextChanged SessionView.contextStep
  rw [hfirst, wp_bind]
  refine wp_mono (wp_promptOver context v) ?_
  rintro isOver w ⟨rfl, now, hisOver⟩
  refine wp_mono (Q := fun _ x => x.forget = _) ?_ fun _ x hx => ⟨now, hx⟩
  dsimp only
  by_cases hover : w.session.isAuthenticating = true ∧
      w.session.currentOperationReason = .biometricPrompt ∧ context.reason ≠ .biometricPrompt ∧
      ¬ now - w.session.authStartTime < 1000
  · rw [if_pos (hisOver.mpr hover), if_pos hover, wp_bind]
    exact wp_mono (wp_cancel w) fun _ x hx => hx
  · rw [if_neg (mt hisOver.mp hover), if_neg hover]
    refine wp_access_bind.mpr fun _ _ => ?_
    rw [wp_bind]
    refine wp_mono (wp_displayOff context _) ?_
    rintro isOff x ⟨rfl, hisOff⟩
    by_cases hoff : (context.displayState = .aod ∨ context.displayState = .noUi) ∧
        w.session.currentOperationReason ≠ .biometricPrompt
    · rw [if_pos (hisOff.mpr hoff), if_pos hoff, wp_bind]
      exact wp_mono (wp_cancel _) fun _ x hx => hx
    · rw [if_neg (mt hisOff.mp hoff), if_neg hoff, wp_bind]
      refine wp_mono (wp_correctReason context _) ?_
      rintro _ x rfl
      rw [wp_bind]
      refine wp_mono (wp_lockscreenOver context _) ?_
      rintro isOver x ⟨rfl, hisOver⟩
      cases isOver with
      | true =>
          refine wp_mono (wp_cancel _) fun _ x hx => hx.trans ?_
          exact congrArg SessionView.forget (if_pos hisOver.symm).symm
      | false =>
          have hstays := Bool.eq_false_iff.mp hisOver.symm
          exact congrArg SessionView.forget (if_neg hstays).symm

theorem wp_onContextChanged (v : SessionView) : (onContextChanged context).wp sessionAccesses
    (fun _ w => ∃ now, w.forget = (v.onContextChanged context now).forget) v := by
  unfold onContextChanged
  split_ifs with hreason
  · refine wp_access_bind.mpr fun _ _ => ?_
    refine wp_mono (wp_followContext context _ fun _ => rfl) ?_
    rintro _ w ⟨now, hw⟩
    refine ⟨now, hw.trans ?_⟩
    unfold SessionView.onContextChanged SessionView.contextStep
    rw [if_pos hreason, if_pos hreason]
    rfl
  · exact wp_followContext context v fun h => absurd h hreason

end context

theorem onSession_claimed (h : v.session.processingFrame = true) :
    (v.onSession fun s => { s with processingFrame := true }) = v := by
  rw [SessionView.onSession, ← h]

theorem forget_frame (hruns : v.engine.isCancelled = false) (i : ℕ)
    (frameOperation : Option ℕ) : (v.frameArrives.frameClaims i frameOperation).forget =
      (v.onSession fun s => { s with processingFrame := true }).forget := by
  have harrives : v.frameArrives = v.onSession fun s =>
      { s with frames := s.frames ++ [s.operationInProgress] } := if_neg (by simp [hruns])
  rw [harrives]
  unfold SessionView.frameClaims
  dsimp only
  split_ifs with hprocessing
  · rw [onSession_claimed (v := v) hprocessing]
    rfl
  · rfl

theorem wp_onCameraFrame (v : SessionView) (frame : List UInt8) (width height angle : Int32) :
    (onCameraFrame frame width height angle).wp sessionAccesses (fun r w =>
      if v.engine.isCancelled then r = -1 ∧ w = v.frameArrives
      else r = (if v.session.processingFrame then -1 else 0) ∧
        ∀ i frameOperation, w.forget = (v.frameArrives.frameClaims i frameOperation).forget) v := by
  refine wp_load_bind v.engine.isCancelled (fun _ h => h) rfl ?_
  cases hcancelled : v.engine.isCancelled with
  | true => exact ⟨rfl, (if_pos hcancelled).symm⟩
  | false =>
      simp only [forget_frame hcancelled]
      refine wp_access_bind.mpr ?_
      rintro claimed rfl
      cases hprocessing : v.session.processingFrame with
      | true =>
          rw [onSession_claimed hprocessing]
          exact ⟨rfl, fun _ _ => rfl⟩
      | false =>
          refine wp_access_bind.mpr fun reported _ => wp_access_bind.mpr fun scaled _ => ?_
          obtain ⟨data, w, h⟩ := scaled
          exact wp_access_bind.mpr fun _ _ => ⟨rfl, fun _ _ => rfl⟩

/-- The session with this worker only. -/
def withWorker (v : SessionView) (w : Worker) : SessionView :=
  v.onSession fun s => { s with workers := [w] }

/-- Steps of its one worker take the session to an end that looks like `y`. -/
def WorkerEnds (v y : SessionView) : Prop :=
  ∃ ls v', Runs sessionStep v ls v' ∧ (∀ l ∈ ls, ∃ reply, l = .worker 0 reply) ∧
    v'.session.workers = [] ∧ y.forget = v'.forget

section worker
variable {u y : SessionView} {w w' : Worker} {frameOperation operation : Option ℕ}

theorem WorkerEnds.step (reply : EngineReply)
    (hstep : (withWorker v w).workerStep 0 w reply = withWorker u w')
    (h : WorkerEnds (withWorker u w') y) : WorkerEnds (withWorker v w) y := by
  obtain ⟨ls, v', hruns, hlabels, hnone, hy⟩ := h
  have hfirst : sessionStep (withWorker v w) (.worker 0 reply) (withWorker u w') :=
    congrArg some hstep
  refine ⟨.worker 0 reply :: ls, v', .cons hfirst hruns, ?_, hnone, hy⟩
  intro l hl
  rcases List.mem_cons.mp hl with rfl | hl
  · exact ⟨reply, rfl⟩
  · exact hlabels l hl

theorem WorkerEnds.congr {x : SessionView} (h : WorkerEnds v y) (hx : x.forget = y.forget) :
    WorkerEnds v x := by
  obtain ⟨ls, v', hruns, hlabels, hnone, hy⟩ := h
  exact ⟨ls, v', hruns, hlabels, hnone, hx.trans hy⟩

theorem workerEnds_release : WorkerEnds (withWorker v ⟨.release, frameOperation, operation⟩)
    (SessionAccess.effect v .resetProcessingFrame ()) :=
  ⟨[.worker 0 noReply], _, .single rfl, by simp, rfl, rfl⟩

theorem workerEnds_post (callback : Callback) :
    WorkerEnds (withWorker v ⟨.post callback, frameOperation, operation⟩)
      (SessionAccess.effect (v.answer callback) .resetProcessingFrame ()) := by
  have hrelease : WorkerEnds (withWorker (v.postCallback callback operation frameOperation)
      ⟨.release, frameOperation, operation⟩)
      (SessionAccess.effect (v.answer callback) .resetProcessingFrame ()) := by
    refine workerEnds_release.congr ?_
    simp [SessionView.forget, SessionAccess.effect, SessionView.onSession, SessionView.answer,
      SessionView.postCallback]
  exact .step noReply rfl hrelease

/-- From the end of a recognition on, the worker of `SessionRuns` does what the program does. -/
theorem wp_afterAuthenticate (reply : EngineReply) :
    (afterAuthenticate v.session.userId reply).wp sessionAccesses
      (fun _ x => WorkerEnds (withWorker v ⟨.authenticate, frameOperation, operation⟩)
        (SessionAccess.effect x .resetProcessingFrame ()))
      (v.onEngine fun e => { e with enrollFrameCount := reply.enrollFrameCount }) := by
  unfold afterAuthenticate
  let v₁ := v.onEngine fun e => { e with enrollFrameCount := reply.enrollFrameCount }
  split_ifs with hmatch hres hfailed
  · refine wp_access_bind.mpr fun _ _ => wp_access_bind.mpr fun _ _ => ?_
    refine wp_access_bind.mpr fun _ _ => wp_load_bind _ (fun _ h => h) rfl ?_
    refine wp_access.mpr fun _ _ => ?_
    let v₂ := v₁.onSession fun s => { s with isAuthenticating := false }
    let v₃ := v₂.onSession fun s => { s with currentOperationReason := .unknown }
    let v₄ := v₃.onSession fun s => { s with cameraRunning := false }
    let callback := Callback.onAuthenticationSucceeded reply.faceId
      (SessionView.authToken v₄.session)
    let y := SessionAccess.effect (v₄.answer callback) .resetProcessingFrame ()
    have hpost : WorkerEnds (withWorker v₄ ⟨.post callback, frameOperation, operation⟩) y :=
      workerEnds_post callback
    have hread : WorkerEnds
        (withWorker v₄ ⟨.readChallenge reply.faceId, frameOperation, operation⟩) y :=
      .step reply rfl hpost
    have hstop : WorkerEnds
        (withWorker v₃ ⟨.stopAfterMatch reply.faceId, frameOperation, operation⟩) y :=
      .step reply rfl hread
    have hreason : WorkerEnds
        (withWorker v₂ ⟨.clearReason reply.faceId, frameOperation, operation⟩) y :=
      .step reply rfl hstop
    have hclear : WorkerEnds
        (withWorker v₁ ⟨.clearAuthenticating reply.faceId, frameOperation, operation⟩) y :=
      .step reply rfl hreason
    exact .step reply (if_pos hmatch) hclear
  · refine wp_access.mpr fun _ _ => ?_
    have hpost : WorkerEnds
        (withWorker v₁ ⟨.post .onAuthenticationFailed, frameOperation, operation⟩)
        (SessionAccess.effect (v₁.answer .onAuthenticationFailed) .resetProcessingFrame ()) :=
      workerEnds_post _
    exact .step reply ((if_neg hmatch).trans ((if_pos hres).trans (if_pos hfailed))) hpost
  · refine wp_access.mpr fun _ _ => ?_
    let callback := Callback.onAuthenticationFrame (mapVendorCode reply.res).1
      (mapVendorCode reply.res).2
    have hpost : WorkerEnds (withWorker v₁ ⟨.post callback, frameOperation, operation⟩)
        (SessionAccess.effect (v₁.answer callback) .resetProcessingFrame ()) := workerEnds_post _
    exact .step reply ((if_neg hmatch).trans ((if_pos hres).trans (if_neg hfailed))) hpost
  · have hrelease : WorkerEnds (withWorker v₁ ⟨.release, frameOperation, operation⟩)
        (SessionAccess.effect v₁ .resetProcessingFrame ()) := workerEnds_release
    exact .step reply ((if_neg hmatch).trans (if_neg hres)) hrelease

theorem wp_afterAnalyze (reply : EngineReply) : (afterAnalyze reply).wp sessionAccesses
    (fun _ x => WorkerEnds (withWorker v ⟨.analyze, frameOperation, operation⟩)
      (SessionAccess.effect x .resetProcessingFrame ()))
    (v.onEngine fun e => { e with enrollFrameCount := reply.enrollFrameCount }) := by
  unfold afterAnalyze
  let v₁ := v.onEngine fun e => { e with enrollFrameCount := reply.enrollFrameCount }
  split_ifs with hok
  · refine wp_access_bind.mpr fun _ _ => wp_access_bind.mpr fun _ _ => wp_access.mpr fun _ _ => ?_
    let v₂ := v₁.onSession fun s => { s with isDetectingInteraction := false }
    let v₃ := v₂.onSession fun s => { s with cameraRunning := false }
    let y := SessionAccess.effect (v₃.answer .onInteractionDetected) .resetProcessingFrame ()
    have hpost : WorkerEnds
        (withWorker v₃ ⟨.post .onInteractionDetected, frameOperation, operation⟩) y :=
      workerEnds_post _
    have hstop : WorkerEnds (withWorker v₂ ⟨.stopAfterDetection, frameOperation, operation⟩) y :=
      .step reply rfl hpost
    have hclear : WorkerEnds (withWorker v₁ ⟨.clearDetecting, frameOperation, operation⟩) y :=
      .step reply rfl hstop
    exact .step reply (if_pos hok) hclear
  · have hrelease : WorkerEnds (withWorker v₁ ⟨.release, frameOperation, operation⟩)
        (SessionAccess.effect v₁ .resetProcessingFrame ()) := workerEnds_release
    exact .step reply (if_neg hok) hrelease

theorem wp_afterEnroll (reply : EngineReply) : (afterEnroll reply).wp sessionAccesses
    (fun _ x => WorkerEnds (withWorker v ⟨.enroll, frameOperation, operation⟩)
      (SessionAccess.effect x .resetProcessingFrame ()))
    (v.onEngine fun e => { e with enrollFrameCount := reply.enrollFrameCount }) := by
  let v₁ := v.onEngine fun e => { e with enrollFrameCount := reply.enrollFrameCount }
  refine wp_load_bind v₁.engine.enrollFrameCount (fun _ h => h) rfl ?_
  split_ifs with hok hkeep
  · refine wp_access_bind.mpr fun _ _ => wp_access_bind.mpr fun _ _ => wp_access.mpr fun _ _ => ?_
    let v₂ := v₁.onSession fun s => { s with isEnrolling := false }
    let v₃ := v₂.onSession fun s => { s with cameraRunning := false }
    let callback := Callback.onEnrollmentProgress reply.faceId 0
    let y := SessionAccess.effect (v₃.answer callback) .resetProcessingFrame ()
    have hpost : WorkerEnds (withWorker v₃ ⟨.post callback, frameOperation, operation⟩) y :=
      workerEnds_post _
    have hstop : WorkerEnds
        (withWorker v₂ ⟨.stopAfterEnrollment reply.faceId, frameOperation, operation⟩) y :=
      .step reply rfl hpost
    have hclear : WorkerEnds
        (withWorker v₁ ⟨.clearEnrolling reply.faceId, frameOperation, operation⟩) y :=
      .step reply rfl hstop
    exact .step reply (if_pos hok) hclear
  · refine wp_access.mpr fun _ _ => ?_
    let callback := Callback.onEnrollmentProgress reply.faceId
      (FaceEngine.enrollRequiredGoodFrames - v₁.engine.enrollFrameCount)
    let y := SessionAccess.effect (v₁.answer callback) .resetProcessingFrame ()
    have hpost : WorkerEnds (withWorker v₁ ⟨.post callback, frameOperation, operation⟩) y :=
      workerEnds_post _
    have hread : WorkerEnds
        (withWorker v₁ ⟨.readFrameCount reply.faceId, frameOperation, operation⟩) y :=
      .step reply rfl hpost
    exact .step reply ((if_neg hok).trans (if_pos hkeep)) hread
  · refine wp_access.mpr fun _ _ => ?_
    let callback := Callback.onEnrollmentFrame (mapVendorCode reply.res).1
      (mapVendorCode reply.res).2
    have hpost : WorkerEnds (withWorker v₁ ⟨.post callback, frameOperation, operation⟩)
        (SessionAccess.effect (v₁.answer callback) .resetProcessingFrame ()) := workerEnds_post _
    exact .step reply ((if_neg hok).trans (if_neg hkeep)) hpost

theorem wp_recognize (call : RecognitionCall) {Q : EngineReply → SessionView → Prop}
    (h : ∀ reply : EngineReply,
      Q reply (v.onEngine fun e => { e with enrollFrameCount := reply.enrollFrameCount })) :
    (recognize call).wp sessionAccesses Q v :=
  wp_access_bind.mpr fun _ _ => wp_access.mpr fun reply _ => h reply

/-- The three tests, and the branch that is taken. -/
theorem wp_processFrame (frame : WorkerFrame) :
    (processFrame v.session.userId frame).wp sessionAccesses
      (fun _ x => WorkerEnds (withWorker v ⟨.testAuthenticating, frameOperation, operation⟩)
        (SessionAccess.effect x .resetProcessingFrame ())) v := by
  refine wp_load_bind v.session.isAuthenticating (fun _ h => h) rfl ?_
  split_ifs with hauth
  · refine (wp_bind _ _ _ _).mpr (wp_recognize _ fun reply => ?_)
    exact wp_mono (wp_afterAuthenticate reply) fun _ x hx => .step reply (if_pos hauth) hx
  · have hdetect : ∀ y, WorkerEnds (withWorker v ⟨.testDetecting, frameOperation, operation⟩) y →
        WorkerEnds (withWorker v ⟨.testAuthenticating, frameOperation, operation⟩) y :=
      fun y hy => .step noReply (if_neg hauth) hy
    refine wp_load_bind v.session.isDetectingInteraction (fun _ h => h) rfl ?_
    split_ifs with hdetecting
    · refine (wp_bind _ _ _ _).mpr (wp_recognize _ fun reply => ?_)
      exact wp_mono (wp_afterAnalyze reply) fun _ x hx =>
        hdetect _ (.step reply (if_pos hdetecting) hx)
    · have henroll : ∀ y, WorkerEnds (withWorker v ⟨.testEnrolling, frameOperation, operation⟩) y →
          WorkerEnds (withWorker v ⟨.testAuthenticating, frameOperation, operation⟩) y :=
        fun y hy => hdetect y (.step noReply (if_neg hdetecting) hy)
      refine wp_load_bind v.session.isEnrolling (fun _ h => h) rfl ?_
      split_ifs with henrolling
      · refine (wp_bind _ _ _ _).mpr (wp_recognize _ fun reply => ?_)
        exact wp_mono (wp_afterEnroll reply) fun _ x hx =>
          henroll _ (.step reply (if_pos henrolling) hx)
      · exact henroll _ (.step noReply (if_neg henrolling) workerEnds_release)

/-- A worker that runs alone ends where the steps of the worker of `SessionRuns` do. -/
theorem wp_worker (frame : WorkerFrame) : (worker v.session.userId frame).wp sessionAccesses
    (fun _ x => WorkerEnds (withWorker v ⟨.testCancelled, frameOperation, operation⟩) x) v := by
  refine wp_load_bind v.engine.isCancelled (fun _ h => h) rfl ?_
  split_ifs with hcancelled
  · refine wp_access_bind.mpr fun _ _ => ?_
    exact .step noReply (if_pos hcancelled) workerEnds_release
  · rw [wp_bind]
    exact wp_mono (wp_processFrame frame) fun _ x hx =>
      wp_access.mpr fun _ _ => .step noReply (if_neg hcancelled) hx

end worker

end SessionProgram
end FaceHal
