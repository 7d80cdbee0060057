import FaceHal.SessionRuns

/-!
# Reason and display state of an authentication

An authentication has a reason from its start to its end: one that the client gave
or one inferred from the display. A context change either cancels it or leaves it
with the display state just reported and with the reason that belongs to it. The
worker that ends a match clears the flag and forgets the reason in two writes,
which count as one step here: no call comes between them.
-/
namespace FaceHal
open Session SessionView

/-- The reason that is taken for the display state. -/
def inferredReason (display : DisplayState) : OperationReason :=
  if display = .lockscreen then .keyguard else .biometricPrompt

def OperationReason.orInferred (reason : OperationReason) (display : DisplayState) :
    OperationReason :=
  if reason = .unknown then inferredReason display else reason

/-- The label is a call of the client. -/
def SessionLabel.isCall : SessionLabel → Bool
  | .frameArrives | .frameClaims _ | .worker _ _ | .cameraLost | .engineChanged _ => false
  | _ => true

/-- The reason that an authentication asked for in the session begins with. -/
def SessionLabel.givenReason (s : Session) : SessionLabel → Option OperationReason
  | .authenticate _ _ _ => some s.currentOperationReason
  | .authenticateWithContext _ context _ _ => some context.reason
  | _ => none

/-- The call has a context or infers a reason. -/
def SessionLabel.setsContext : SessionLabel → Bool
  | .authenticate _ _ _ | .authenticateWithContext _ _ _ _ | .onContextChanged _ _ => true
  | _ => false

/-- The worker has cleared the flag after a match and forgets the reason next. -/
def WorkerStage.clearsReason : WorkerStage → Bool
  | .clearReason _ => true
  | _ => false

/-- Clearing the flag and forgetting the reason is one step. -/
def OneAtATime (v : SessionView) (l : SessionLabel) : Prop :=
  l.isCall = true → ∀ w ∈ v.session.workers, w.stage.clearsReason = false

instance (v : SessionView) (l : SessionLabel) : Decidable (OneAtATime v l) :=
  inferInstanceAs (Decidable (_ → _))

/-- The prompt that was authenticated for has gone, and not in its first second. -/
def PromptOver (s : Session) (context : OperationContext) (now : ℕ) : Prop :=
  s.isAuthenticating = true ∧ s.currentOperationReason = .biometricPrompt ∧
    context.reason = .unknown ∧ ¬ now - s.authStartTime < 1000

instance (s : Session) (context : OperationContext) (now : ℕ) :
    Decidable (PromptOver s context now) :=
  inferInstanceAs (Decidable (_ ∧ _ ∧ _ ∧ _))

section context
variable {s : Session} {context : OperationContext} {now : ℕ}

theorem orInferred_ne_unknown (reason : OperationReason) (display : DisplayState) :
    reason.orInferred display ≠ .unknown := by
  unfold OperationReason.orInferred inferredReason
  split_ifs with h
  · simp
  · simp
  · exact h

theorem inferReason_orInferred (s : Session) : inferReason s =
    { s with
      currentOperationReason := s.currentOperationReason.orInferred s.currentDisplayState } := by
  unfold inferReason OperationReason.orInferred inferredReason
  split_ifs <;> rfl

/-- The reason after a context was reported. -/
def OperationReason.after (reason : OperationReason) (context : OperationContext) :
    OperationReason :=
  if context.reason = .unknown then reason else context.reason

/-- A context change by its outcomes: a prompt is over, the display is off, an
authentication goes on at the lock screen, or one for the lock screen ends. -/
theorem contextStep_eq (s : Session) (context : OperationContext) (now : ℕ) :
    contextStep s context now =
      if PromptOver s context now then (s, true)
      else if (context.displayState = .aod ∨ context.displayState = .noUi) ∧
          s.currentOperationReason.after context ≠ .biometricPrompt then
        ({ s with
          currentOperationReason := s.currentOperationReason.after context
          currentDisplayState := context.displayState }, true)
      else if context.displayState = .lockscreen ∧ s.isAuthenticating = true then
        ({ s with
          currentOperationReason := .keyguard
          currentDisplayState := context.displayState }, false)
      else
        ({ s with
          currentOperationReason := s.currentOperationReason.after context
          currentDisplayState := context.displayState },
          s.isAuthenticating && decide (s.currentOperationReason.after context = .keyguard)) := by
  have hreport : (if context.reason ≠ .unknown then
      { s with currentOperationReason := context.reason } else s) =
      { s with currentOperationReason := s.currentOperationReason.after context } := by
    unfold OperationReason.after
    by_cases hreason : context.reason = .unknown <;> simp [hreason]
  have hover : s.isAuthenticating = true ∧
      s.currentOperationReason.after context = .biometricPrompt ∧
      context.reason ≠ .biometricPrompt ∧ ¬ now - s.authStartTime < 1000 ↔
      PromptOver s context now := by
    unfold PromptOver OperationReason.after
    by_cases hreason : context.reason = .unknown
    · simp [hreason]
    · simp only [hreason, false_and, and_false, iff_false]
      rintro ⟨-, hprompt, hother, -⟩
      exact hother hprompt
  unfold contextStep
  rw [hreport]
  dsimp only
  rw [if_congr hover rfl rfl]
  by_cases hgone : PromptOver s context now
  · rw [if_pos hgone, if_pos hgone, OperationReason.after, if_pos hgone.2.2.1]
  rw [if_neg hgone, if_neg hgone]
  by_cases hoff : (context.displayState = .aod ∨ context.displayState = .noUi) ∧
      s.currentOperationReason.after context ≠ .biometricPrompt
  · rw [if_pos hoff, if_pos hoff]
  rw [if_neg hoff, if_neg hoff]
  by_cases hlock : context.displayState = .lockscreen
  · by_cases hauth : s.isAuthenticating = true
    · by_cases hkeyguard : s.currentOperationReason.after context = .keyguard
      · simp [hlock, hkeyguard]
      · simp [hlock, hauth, hkeyguard]
    · simp [hauth]
  · simp [hlock]

end context

/-- `CameraClient::start` returns false. -/
def SessionView.failsToStart (v : SessionView) (start : CameraStart) : Bool :=
  !v.session.cameraRunning && start != .started

/-- The operation whose flag the worker's next step clears, unless it ends a match. -/
def WorkerStage.ends : WorkerStage → Option OperationKind
  | .clearDetecting => some .detectInteraction
  | .clearEnrolling _ => some .enroll
  | _ => none

/-- The operation that the step ends by a failed start or a result that is no match. -/
def SessionLabel.ends (v : SessionView) : SessionLabel → Option OperationKind
  | .enroll start => if v.failsToStart start then some .enroll else none
  | .authenticate _ _ start | .authenticateWithContext _ _ _ start =>
      if v.failsToStart start then some .authenticate else none
  | .detectInteraction start => if v.failsToStart start then some .detectInteraction else none
  | .worker i _ => (v.session.workers[i]?).bind fun w => w.stage.ends
  | _ => none

/-- The workers that forget a reason are the same. -/
def SameForgetting (s t : Session) : Prop :=
  ∀ w, w.stage.clearsReason = true → (w ∈ t.workers ↔ w ∈ s.workers)

/-- What a step does to the reason, the flags and the workers that forget a reason. -/
inductive ContextEffect (v : SessionView) (t : Session) (l : SessionLabel) : Prop
  | begins (reason : OperationReason) (hl : l.givenReason v.session = some reason)
      (hreason : t.currentOperationReason = reason.orInferred v.session.currentDisplayState)
      (hworkers : SameForgetting v.session t)
      (hauth : l.ends v = some .authenticate ∨
        t.isAuthenticating = true ∧ ∀ kind, v.session.flag kind = true → t.flag kind = true)
  | cancels (hflag : ∀ kind, t.flag kind = false)
      (hreason : t.currentOperationReason = .unknown) (hworkers : SameForgetting v.session t)
  | context (context : OperationContext) (now : ℕ) (hl : l = .onContextChanged context now)
      (hkept : (contextStep v.session context now).2 = false)
      (ht : t = (contextStep v.session context now).1)
  | matched (w : Worker) (hauth : t.isAuthenticating = false)
      (hreason : t.currentOperationReason = v.session.currentOperationReason)
      (hw : w.stage.clearsReason = true) (hworkers : w ∈ t.workers)
  | forgets (w : Worker) (hw : w.stage.clearsReason = true) (hworker : w ∈ v.session.workers)
      (hflag : ∀ kind, t.flag kind = v.session.flag kind)
      (hreason : t.currentOperationReason = .unknown)
      (hworkers : ∀ w ∈ t.workers, w.stage.clearsReason = false)
  | ends (kind : OperationKind) (hl : l.ends v = some kind) (hkind : kind ≠ .authenticate)
      (hflag : ∀ kind', kind' ≠ kind → t.flag kind' = v.session.flag kind')
      (hreason : t.currentOperationReason = v.session.currentOperationReason)
      (hworkers : SameForgetting v.session t)
  | kept (hl : l.setsContext = false)
      (hflag : ∀ kind, v.session.flag kind = true → t.flag kind = true)
      (hauth : t.isAuthenticating = v.session.isAuthenticating)
      (hstarts : ∀ operation, l.starts = some operation → t.flag operation.kind = true)
      (hreason : t.currentOperationReason = v.session.currentOperationReason)
      (hworkers : SameForgetting v.session t)

section effect
variable {v v' : SessionView}

theorem startCamera_cases (v : SessionView) (start : CameraStart) (clear : Session → Session) :
    (v.failsToStart start = true ∧ ∃ code : Int32, code ≠ 0 ∧ v.startCamera start clear =
      (v.onSession clear).postCallback (.onError .vendor code)
        (some (v.onSession clear).session.lastOperation) none) ∨
    v.failsToStart start = false ∧
      v.startCamera start clear = v.onSession fun s => { s with cameraRunning := true } := by
  unfold startCamera failsToStart
  cases hcamera : v.session.cameraRunning with
  | true =>
      refine .inr ⟨rfl, ?_⟩
      rw [if_pos rfl, onSession, ← hcamera]
  | false =>
      cases start with
      | started => exact .inr ⟨rfl, rfl⟩
      | failed code =>
          refine .inl ⟨rfl, _, ?_, rfl⟩
          split_ifs with hzero
          · decide
          · exact hzero

theorem SameForgetting.of_workers {s t : Session} (h : t.workers = s.workers) :
    SameForgetting s t := by
  intro w _
  rw [h]

theorem cancels_cancel {l : SessionLabel} {u : SessionView}
    (hu : u.session.workers = v.session.workers) : ContextEffect v u.cancel.session l := by
  have hcanceled := canceled_cancel u
  refine .cancels hcanceled.flag ?_ (.of_workers (hcanceled.workers.trans hu))
  unfold cancel
  rfl

theorem context_start {l : SessionLabel} {k : OperationKind} {u : SessionView}
    {start : CameraStart} (hkind : k ≠ .authenticate)
    (hl : l.setsContext = false)
    (hstarts : ∀ operation, l.starts = some operation → operation.kind = k)
    (hends : v.failsToStart start = true → l.ends v = some k)
    (hcamera : u.session.cameraRunning = v.session.cameraRunning)
    (hset : u.session.flag k = true)
    (hflag : ∀ kind', kind' ≠ k → u.session.flag kind' = v.session.flag kind')
    (hreason : u.session.currentOperationReason = v.session.currentOperationReason)
    (hworkers : u.session.workers = v.session.workers) :
    ContextEffect v (u.startCamera start (Session.clear k)).session l := by
  rcases startCamera_cases u start (Session.clear k) with
    ⟨hfails, code, -, heq⟩ | ⟨-, heq⟩
  · rw [heq]
    refine .ends k (hends ?_) hkind ?_ ?_ ?_
    · rwa [failsToStart, ← hcamera]
    · intro kind' hne
      rw [← hflag kind' hne]
      have hclear : (u.session.clear k).flag kind' = u.session.flag kind' := by
        rw [flag_clear, decide_eq_true (Ne.symm hne), Bool.and_true]
      exact (flag_congr rfl rfl rfl kind').trans hclear
    · rw [← hreason]
      cases k <;> rfl
    · refine .of_workers (Eq.trans ?_ hworkers)
      exact workers_clear k
  · rw [heq]
    have hsame : ∀ kind', ({ u.session with cameraRunning := true } : Session).flag kind' =
        u.session.flag kind' := flag_congr rfl rfl rfl
    refine .kept hl ?_ ?_ ?_ hreason (.of_workers hworkers)
    · intro kind' hv
      rw [session_onSession, hsame]
      by_cases hne : kind' = k
      · rw [hne, hset]
      · rw [hflag kind' hne, hv]
    · exact hflag .authenticate (Ne.symm hkind)
    · intro operation hop
      rw [hstarts operation hop]
      exact (hsame k).trans hset

theorem context_authenticate {l : SessionLabel} {u : SessionView} {reason : OperationReason}
    {operationId : Int64} {now : ℕ} {start : CameraStart}
    (hu : u.session = { v.session with currentOperationReason := reason })
    (hl : l.givenReason v.session = some reason)
    (hends : v.failsToStart start = true → l.ends v = some .authenticate) :
    ContextEffect v (u.authenticate operationId now start).session l := by
  have hstep : ∃ w : SessionView, u.authenticate operationId now start =
      w.startCamera start (Session.clear .authenticate) ∧
      w.session.cameraRunning = v.session.cameraRunning ∧ w.session.isAuthenticating = true ∧
      (∀ kind, v.session.flag kind = true → w.session.flag kind = true) ∧
      w.session.currentOperationReason = reason.orInferred v.session.currentDisplayState ∧
      w.session.workers = v.session.workers := by
    refine ⟨_, rfl, ?_⟩
    simp only [session_onSession, session_onEngine, begin, inferReason_orInferred]
    rw [hu]
    refine ⟨rfl, trivial, ?_, rfl, rfl⟩
    intro kind hset
    cases kind with
    | authenticate => rfl
    | _ => exact hset
  obtain ⟨w, heq, hcamera, hauth, hflag, hreason, hworkers⟩ := hstep
  rw [heq]
  rcases startCamera_cases w start (Session.clear .authenticate) with
    ⟨hfails, code, -, heq⟩ | ⟨-, heq⟩
  · rw [heq]
    refine .begins reason hl hreason (.of_workers hworkers) (.inl (hends ?_))
    rwa [failsToStart, ← hcamera]
  · rw [heq]
    exact .begins reason hl hreason (.of_workers hworkers) (.inr ⟨hauth, hflag⟩)

theorem sameForgetting_replace {s t : Session} {w w' : Worker} (hs : s.workers = [w])
    (ht : t.workers = [w']) (hw : w.stage.clearsReason = false)
    (hw' : w'.stage.clearsReason = false) : SameForgetting s t := by
  intro x hx
  rw [hs, ht, List.mem_singleton, List.mem_singleton]
  refine iff_of_false ?_ ?_
  · rintro rfl
    rw [hw'] at hx
    cases hx
  · rintro rfl
    rw [hw] at hx
    cases hx

theorem context_worker {i : ℕ} {w : Worker} {reply : EngineReply} (hw : v.session.workers = [w])
    (hi : i = 0) (hends : (SessionLabel.worker i reply).ends v = w.stage.ends) :
    ContextEffect v (v.workerStep i w reply).session (.worker i reply) := by
  subst hi
  have kept : ∀ {t : Session} {w' : Worker}, w.stage.clearsReason = false →
      t.workers = v.session.workers.set 0 w' → w'.stage.clearsReason = false →
      (∀ kind, t.flag kind = v.session.flag kind) →
      t.currentOperationReason = v.session.currentOperationReason →
      ContextEffect v t (.worker 0 reply) := by
    intro t w' hstage hworkers hw' hflag hreason
    rw [hw] at hworkers
    refine .kept rfl ?_ (hflag .authenticate) nofun hreason
      (sameForgetting_replace hw hworkers hstage hw')
    intro kind hset
    rw [hflag, hset]
  have ends : ∀ {t : Session} {w' : Worker} {k : OperationKind}, w.stage.ends = some k →
      w.stage.clearsReason = false → t.workers = v.session.workers.set 0 w' →
      w'.stage.clearsReason = false → k ≠ .authenticate →
      (∀ kind', kind' ≠ k → t.flag kind' = v.session.flag kind') →
      t.currentOperationReason = v.session.currentOperationReason →
      ContextEffect v t (.worker 0 reply) := by
    intro t w' k hkind hstage hworkers hw' hne hflag hreason
    rw [hw] at hworkers
    exact .ends k (hends.trans hkind) hne hflag hreason
      (sameForgetting_replace hw hworkers hstage hw')
  unfold workerStep
  cases hstage : w.stage with
  | testCancelled | testAuthenticating | testDetecting | testEnrolling =>
      dsimp only
      split_ifs
      all_goals exact kept (by rw [hstage]; rfl) rfl rfl (flag_congr rfl rfl rfl) rfl
  | authenticate | analyze | enroll =>
      dsimp only
      split_ifs
      all_goals exact kept (by rw [hstage]; rfl) rfl rfl (flag_congr rfl rfl rfl) rfl
  | clearAuthenticating faceId =>
      refine .matched { w with stage := .clearReason faceId } rfl rfl rfl ?_
      change _ ∈ v.session.workers.set 0 _
      rw [hw]
      exact List.mem_singleton_self _
  | clearReason faceId =>
      refine .forgets w (by rw [hstage]; rfl) (by rw [hw]; exact List.mem_singleton_self _)
        (flag_congr rfl rfl rfl) rfl ?_
      change ∀ x ∈ v.session.workers.set 0 _, _
      rw [hw]
      intro x hx
      obtain rfl := List.mem_singleton.mp hx
      rfl
  | clearDetecting =>
      refine ends (k := .detectInteraction) (by rw [hstage]; rfl) (by rw [hstage]; rfl) rfl rfl
        nofun ?_ rfl
      intro kind' hne
      cases kind' with
      | detectInteraction => exact absurd rfl hne
      | _ => rfl
  | clearEnrolling faceId =>
      refine ends (k := .enroll) (by rw [hstage]; rfl) (by rw [hstage]; rfl) rfl rfl nofun ?_ rfl
      intro kind' hne
      cases kind' with
      | enroll => exact absurd rfl hne
      | _ => rfl
  | release =>
      refine .kept rfl (fun _ h => h) rfl nofun rfl ?_
      intro x hx
      change x ∈ v.session.workers.eraseIdx 0 ↔ _
      rw [hw]
      refine iff_of_false List.not_mem_nil ?_
      rintro hmem
      obtain rfl := List.mem_singleton.mp hmem
      rw [hstage] at hx
      cases hx
  | _ => exact kept (by rw [hstage]; rfl) rfl rfl (flag_congr rfl rfl rfl) rfl

theorem context_of_step {l : SessionLabel} (hv : v.session.Claimed) (h : sessionStep v l v') :
    ContextEffect v v'.session l := by
  have kept : ∀ {t : Session}, l.setsContext = false → l.starts = none →
      (∀ kind, t.flag kind = v.session.flag kind) →
      t.currentOperationReason = v.session.currentOperationReason →
      SameForgetting v.session t → ContextEffect v t l := by
    intro t hl hstarts hflag hreason hworkers
    refine .kept hl ?_ (hflag .authenticate) ?_ hreason hworkers
    · intro kind hset
      rw [hflag, hset]
    · rw [hstarts]
      exact nofun
  have same : ∀ {t : Session}, l.setsContext = false → l.starts = none →
      t.isAuthenticating = v.session.isAuthenticating → t.isEnrolling = v.session.isEnrolling →
      t.isDetectingInteraction = v.session.isDetectingInteraction →
      t.currentOperationReason = v.session.currentOperationReason →
      t.workers = v.session.workers → ContextEffect v t l :=
    fun hl hstarts ha he hd hreason hworkers =>
      kept hl hstarts (flag_congr ha he hd) hreason (.of_workers hworkers)
  unfold sessionStep at h
  cases l with
  | enroll start =>
      obtain rfl := Option.some.inj h
      refine context_start (v := v) (k := .enroll) nofun rfl ?_ (fun hfails => if_pos hfails)
        rfl rfl ?_ rfl rfl
      · rintro _ ⟨⟩
        rfl
      · intro kind' hne
        cases kind' with
        | enroll => exact absurd rfl hne
        | _ => rfl
  | authenticate operationId now start =>
      obtain rfl := Option.some.inj h
      exact context_authenticate (u := v) rfl rfl fun hfails => if_pos hfails
  | authenticateWithContext operationId context now start =>
      obtain rfl := Option.some.inj h
      exact context_authenticate rfl rfl fun hfails => if_pos hfails
  | detectInteraction start =>
      obtain rfl := Option.some.inj h
      refine context_start (v := v) (k := .detectInteraction) nofun rfl ?_
        (fun hfails => if_pos hfails) rfl rfl ?_ rfl rfl
      · rintro _ ⟨⟩
        rfl
      · intro kind' hne
        cases kind' with
        | detectInteraction => exact absurd rfl hne
        | _ => rfl
  | cancel =>
      obtain rfl := Option.some.inj h
      exact cancels_cancel rfl
  | close =>
      obtain rfl := Option.some.inj h
      have hcanceled := canceled_cancel v
      exact .cancels hcanceled.flag rfl (.of_workers hcanceled.workers)
  | onContextChanged context now =>
      obtain rfl := Option.some.inj h
      obtain ⟨reason, display, hs⟩ := contextStep_fst v.session context now
      unfold onContextChanged
      cases hc : (contextStep v.session context now).2 with
      | false =>
          dsimp only
          rw [if_neg (by simp [hc])]
          exact .context context now rfl hc rfl
      | true =>
          dsimp only
          rw [if_pos hc]
          refine cancels_cancel ?_
          rw [session_onSession, hs]
  | frameArrives =>
      obtain rfl := Option.some.inj h
      unfold frameArrives
      split_ifs
      all_goals exact same rfl rfl rfl rfl rfl rfl rfl
  | frameClaims i =>
      obtain ⟨frameOperation, -, rfl⟩ := Option.map_eq_some_iff.mp h
      unfold frameClaims
      dsimp only
      split_ifs with hprocessing
      · exact same rfl rfl rfl rfl rfl rfl rfl
      · refine kept rfl rfl (flag_congr rfl rfl rfl) rfl ?_
        intro w hw
        simp only [session_onSession, List.mem_append, List.mem_singleton, or_iff_left_iff_imp]
        rintro rfl
        cases hw
  | worker i reply =>
      obtain ⟨w, hi, rfl⟩ := Option.map_eq_some_iff.mp h
      obtain ⟨hzero, hw⟩ := hv.only hi
      exact context_worker hw hzero (by rw [SessionLabel.ends, hi, Option.bind_some])
  | setFeature feature enabled =>
      obtain rfl := Option.some.inj h
      cases feature
      all_goals exact same rfl rfl rfl rfl rfl rfl rfl
  | _ =>
      obtain rfl := Option.some.inj h
      exact same rfl rfl rfl rfl rfl rfl rfl

end effect

/-- An authentication has a reason, and none is under way while it is forgotten. -/
structure Session.Informed (s : Session) : Prop where
  claimed : s.Claimed
  known : s.isAuthenticating = true → s.currentOperationReason ≠ .unknown
  forgetting : ∀ w ∈ s.workers, w.stage.clearsReason = true → s.isAuthenticating = false

section policy
variable {s : Session} {context : OperationContext} {now : ℕ} {v v' : SessionView}
  {ls : List SessionLabel}

theorem after_ne_unknown {reason : OperationReason} (h : reason ≠ .unknown) :
    reason.after context ≠ .unknown := by
  unfold OperationReason.after
  split_ifs with hreason
  · exact h
  · exact hreason

/-- An authentication that goes on has the display state and the reason of the context. -/
theorem contextStep_goes_on (hknown : s.currentOperationReason ≠ .unknown)
    (hauth : s.isAuthenticating = true) (hkept : (contextStep s context now).2 = false) :
    (contextStep s context now).1.currentDisplayState = context.displayState ∧
      (contextStep s context now).1.currentOperationReason =
        inferredReason context.displayState := by
  rw [contextStep_eq] at hkept ⊢
  by_cases hgone : PromptOver s context now
  · rw [if_pos hgone] at hkept
    cases hkept
  rw [if_neg hgone] at hkept ⊢
  by_cases hoff : (context.displayState = .aod ∨ context.displayState = .noUi) ∧
      s.currentOperationReason.after context ≠ .biometricPrompt
  · rw [if_pos hoff] at hkept
    cases hkept
  rw [if_neg hoff] at hkept ⊢
  by_cases hlock : context.displayState = .lockscreen
  · rw [if_pos ⟨hlock, hauth⟩]
    exact ⟨rfl, by rw [inferredReason, if_pos hlock]⟩
  rw [if_neg fun h => hlock h.1] at hkept ⊢
  refine ⟨rfl, ?_⟩
  have hother : s.currentOperationReason.after context ≠ .keyguard := by
    simpa [hauth] using hkept
  have hsome : s.currentOperationReason.after context ≠ .unknown := after_ne_unknown hknown
  change s.currentOperationReason.after context = _
  rw [inferredReason, if_neg hlock]
  cases hreason : s.currentOperationReason.after context with
  | unknown => exact absurd hreason hsome
  | keyguard => exact absurd hreason hother
  | biometricPrompt => rfl

/-- What an authentication has stays while the flag, the reason and the workers do. -/
theorem Session.Informed.of_same {t : Session} (hs : s.Informed) (hclaimed : t.Claimed)
    (hauth : t.isAuthenticating = s.isAuthenticating)
    (hreason : t.currentOperationReason = s.currentOperationReason)
    (hworkers : SameForgetting s t) : t.Informed := by
  refine ⟨hclaimed, ?_, ?_⟩
  · rw [hauth, hreason]
    exact hs.known
  · intro w hw hstage
    rw [hauth]
    exact hs.forgetting w ((hworkers w hstage).mp hw) hstage

theorem informed_step {l : SessionLabel} (hv : v.session.Informed)
    (h : guarded OneAtATime sessionStep v l v') : v'.session.Informed := by
  have hclaimed := claimed_step hv.claimed h.2
  have unforgetting : l.isCall = true → SameForgetting v.session v'.session →
      ∀ w ∈ v'.session.workers, w.stage.clearsReason = true →
        v'.session.isAuthenticating = false := by
    intro hcall hworkers w hw hstage
    have hnone := h.1 hcall w ((hworkers w hstage).mp hw)
    rw [hstage] at hnone
    cases hnone
  cases context_of_step hv.claimed h.2 with
  | begins reason hl hreason hworkers _ =>
      refine ⟨hclaimed, ?_, unforgetting ?_ hworkers⟩
      · intro _
        rw [hreason]
        exact orInferred_ne_unknown _ _
      · cases l with
        | authenticate | authenticateWithContext => rfl
        | _ => cases hl
  | cancels hflag _ _ =>
      have hidle : v'.session.isAuthenticating = false := hflag .authenticate
      refine ⟨hclaimed, ?_, fun _ _ _ => hidle⟩
      rw [hidle]
      exact nofun
  | context context now hl hkept ht =>
      obtain ⟨reason, display, hs⟩ := contextStep_fst v.session context now
      have hauth : v'.session.isAuthenticating = v.session.isAuthenticating := by rw [ht, hs]
      refine ⟨hclaimed, ?_, unforgetting (by rw [hl]; rfl) (.of_workers (by rw [ht, hs]))⟩
      intro hset
      rw [hauth] at hset
      obtain ⟨-, hreason⟩ := contextStep_goes_on (hv.known hset) hset hkept
      rw [ht, hreason, inferredReason]
      split_ifs <;> simp
  | matched w hauth _ _ _ =>
      refine ⟨hclaimed, ?_, fun _ _ _ => hauth⟩
      rw [hauth]
      exact nofun
  | forgets w hw hworker hflag _ hworkers =>
      refine ⟨hclaimed, ?_, ?_⟩
      · have hidle : v'.session.isAuthenticating = false :=
          (hflag .authenticate).trans (hv.forgetting w hworker hw)
        rw [hidle]
        exact nofun
      · intro x hx hstage
        rw [hworkers x hx] at hstage
        cases hstage
  | ends kind _ hkind hflag hreason hworkers =>
      exact hv.of_same hclaimed (hflag .authenticate (Ne.symm hkind)) hreason hworkers
  | kept _ _ hauth _ hreason hworkers => exact hv.of_same hclaimed hauth hreason hworkers

theorem SessionView.Fresh.informed (h : v.Fresh) : v.session.Informed := by
  rw [h]
  refine ⟨.inl ⟨rfl, rfl⟩, ?_, ?_⟩
  · intro hset
    cases hset
  · intro w hw
    cases hw

/-- What holds of a session `t` that a context was reported to. -/
structure FollowsContext (s : Session) (context : OperationContext) (t : Session) : Prop where
  display : t.isAuthenticating = true → t.currentDisplayState = context.displayState
  keyguard : t.isAuthenticating = true →
    (t.currentOperationReason = .keyguard ↔ context.displayState = .lockscreen)
  displayOff : t.isAuthenticating = true →
    context.displayState = .aod ∨ context.displayState = .noUi →
      t.currentOperationReason = .biometricPrompt
  ended : ∀ kind, s.flag kind = true → t.flag kind = false →
    t.posted = s.posted ++ [⟨.onError .canceled 0, some s.lastOperation, none⟩] ∧
      (∀ kind', t.flag kind' = false) ∧ t.cameraRunning = false

/-- The session is cancelled with everything active, or the context is stored. -/
theorem onContextChanged_cases (v : SessionView) (context : OperationContext) (now : ℕ) :
    (contextStep v.session context now).2 = true ∧
        v.session.Canceled (v.onContextChanged context now).session ∧
        (v.onContextChanged context now).session.cameraRunning = false ∨
      (contextStep v.session context now).2 = false ∧
        (v.onContextChanged context now).session = (contextStep v.session context now).1 := by
  cases hc : (contextStep v.session context now).2 with
  | true =>
      have heq : v.onContextChanged context now =
          (v.onSession fun _ => (contextStep v.session context now).1).cancel := if_pos hc
      rw [heq]
      exact .inl ⟨rfl, canceled_of_alike (alike_contextStep v.session context now), rfl⟩
  | false =>
      have hstays : ¬ (contextStep v.session context now).2 = true := by simp [hc]
      have heq : v.onContextChanged context now =
          v.onSession fun _ => (contextStep v.session context now).1 := if_neg hstays
      rw [heq]
      exact .inr ⟨rfl, rfl⟩

theorem followsContext (hv : v.session.Informed) (context : OperationContext) (now : ℕ) :
    FollowsContext v.session context (v.onContextChanged context now).session := by
  rcases onContextChanged_cases v context now with ⟨-, hcanceled, hcamera⟩ | ⟨hkept, heq⟩
  · have hidle : (v.onContextChanged context now).session.isAuthenticating = false :=
      hcanceled.flag .authenticate
    refine ⟨?_, ?_, ?_, ?_⟩
    iterate 3
      rw [hidle]
      exact nofun
    intro kind hset _
    refine ⟨?_, hcanceled.flag, hcamera⟩
    rcases hcanceled.posted with ⟨hclear, -⟩ | ⟨-, hposted⟩
    · rw [hclear] at hset
      cases hset
    · exact hposted
  · have halike := alike_contextStep v.session context now
    rw [heq]
    have goes_on : (contextStep v.session context now).1.isAuthenticating = true →
        (contextStep v.session context now).1.currentDisplayState = context.displayState ∧
          (contextStep v.session context now).1.currentOperationReason =
            inferredReason context.displayState := by
      intro hauth
      have hset : v.session.isAuthenticating = true := (halike.flag .authenticate).symm.trans hauth
      exact contextStep_goes_on (hv.known hset) hset hkept
    refine ⟨fun hauth => (goes_on hauth).1, ?_, ?_, ?_⟩
    · intro hauth
      rw [(goes_on hauth).2, inferredReason]
      split_ifs with hlock <;> simp [hlock]
    · intro hauth hoff
      rw [(goes_on hauth).2, inferredReason, if_neg]
      rintro hlock
      rw [hlock] at hoff
      simp at hoff
    · intro kind hset hclear
      rw [halike.flag, hset] at hclear
      cases hclear

/-- While an authentication is active it has a reason. A reported context either
is the one that the authentication goes on with, or ends all operations. -/
theorem context_policy (hfresh : v.Fresh) (h : Runs (guarded OneAtATime sessionStep) v ls v') :
    Runs (fun v l v' => sessionStep v l v' ∧ ∀ context now, l = .onContextChanged context now →
        FollowsContext v.session context v'.session) v ls v' ∧
      (v'.session.isAuthenticating = true → v'.session.currentOperationReason ≠ .unknown) := by
  have hkeeps : ∀ u l u', u.session.Informed → guarded OneAtATime sessionStep u l u' →
      (sessionStep u l u' ∧ ∀ context now, l = .onContextChanged context now →
        FollowsContext u.session context u'.session) ∧ u'.session.Informed := by
    intro u l u' hu hstep
    refine ⟨⟨hstep.2, ?_⟩, informed_step hu hstep⟩
    rintro context now rfl
    obtain rfl := Option.some.inj hstep.2
    exact followsContext hu context now
  obtain ⟨hruns, hend⟩ := h.strengthen hkeeps hfresh.informed
  exact ⟨hruns, hend.known⟩

/-- A prompt survives a display that goes off and ends one second later. -/
def promptRun : List SessionLabel :=
  [.authenticateWithContext 7 ⟨.biometricPrompt, .unknown⟩ 0 .started,
    .onContextChanged ⟨.biometricPrompt, .aod⟩ 500, .onContextChanged ⟨.unknown, .noUi⟩ 1500]

theorem prompt_policy : ∃ v', replay OneAtATime (fun v l => l.apply v) promptRun newSession =
    some v' ∧ Runs (fun v l v' => sessionStep v l v' ∧ ∀ context now,
        l = .onContextChanged context now → FollowsContext v.session context v'.session)
      newSession promptRun v' ∧
    (v'.session.isAuthenticating = true → v'.session.currentOperationReason ≠ .unknown) := by
  obtain ⟨v', hv'⟩ : ∃ v', replay OneAtATime (fun v l => l.apply v) promptRun newSession =
      some v' := ⟨_, rfl⟩
  exact ⟨v', hv', context_policy (v := newSession) rfl (runs_of_replay hv')⟩

end policy
end FaceHal
