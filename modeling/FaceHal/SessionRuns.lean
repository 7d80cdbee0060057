import FaceHal.Session
import FaceHal.Transition
import Mathlib.Data.List.Basic

/-!
# Runs of one session

Every call of the client, every step of a worker and everything the outside may do
to the session or the engine is one labelled step. Engine calls answer anything,
and the engine's own state may change between any two steps, as it does when other
sessions use it. A client is polite if it starts an operation only after the
previous one has reported its end.
-/
namespace FaceHal

inductive SessionLabel where
  | enroll (start : CameraStart)
  | authenticate (operationId : Int64) (now : ℕ) (start : CameraStart)
  | authenticateWithContext (operationId : Int64) (context : OperationContext) (now : ℕ)
      (start : CameraStart)
  | detectInteraction (start : CameraStart)
  | cancel
  | close
  | onContextChanged (context : OperationContext) (now : ℕ)
  | generateChallenge (value : UInt64)
  | revokeChallenge (challenge : Int64)
  | enumerateEnrollments (ids : List Int32)
  | removeEnrollments (ids : List Int32)
  | getFeatures
  | setFeature (feature : Feature) (enabled : Bool)
  | getAuthenticatorId
  | resetLockout
  | frameArrives
  | frameClaims (i : ℕ)
  | worker (i : ℕ) (reply : EngineReply)
  /-- The camera was disconnected or closed from outside. -/
  | cameraLost
  /-- Something else used the engine. -/
  | engineChanged (engine : FaceEngine)
deriving DecidableEq, Repr

namespace SessionLabel

def apply (v : SessionView) : SessionLabel → Option SessionView
  | .enroll start => some (v.enroll start)
  | .authenticate operationId now start => some (v.authenticate operationId now start)
  | .authenticateWithContext operationId context now start =>
      some (v.authenticateWithContext operationId context now start)
  | .detectInteraction start => some (v.detectInteraction start)
  | .cancel => some v.cancel
  | .close => some v.close
  | .onContextChanged context now => some (v.onContextChanged context now)
  | .generateChallenge value => some (v.generateChallenge value)
  | .revokeChallenge challenge => some (v.revokeChallenge challenge)
  | .enumerateEnrollments ids => some (v.enumerateEnrollments ids)
  | .removeEnrollments ids => some (v.removeEnrollments ids)
  | .getFeatures => some v.getFeatures
  | .setFeature feature enabled => some (v.setFeature feature enabled)
  | .getAuthenticatorId => some v.getAuthenticatorId
  | .resetLockout => some v.resetLockout
  | .frameArrives => some v.frameArrives
  | .frameClaims i => (v.session.frames[i]?).map (v.frameClaims i)
  | .worker i reply => (v.session.workers[i]?).map fun w => v.workerStep i w reply
  | .cameraLost => some (v.onSession fun s => { s with cameraRunning := false })
  | .engineChanged engine => some { v with engine := engine }

/-- The operation that a call starts. -/
def starts : SessionLabel → Option RequestedOperation
  | .enroll _ => some .enroll
  | .authenticate operationId _ _ => some (.authenticate operationId)
  | .authenticateWithContext operationId _ _ _ => some (.authenticate operationId)
  | .detectInteraction _ => some .detectInteraction
  | _ => none

end SessionLabel

def sessionStep : System SessionView SessionLabel := fun v l v' => l.apply v = some v'

/-- The client starts an operation only after the previous one has ended. -/
def Polite (v : SessionView) (l : SessionLabel) : Prop :=
  l.starts ≠ none → v.session.operations = [] ∨ v.session.hasEnded v.session.lastOperation = true

instance (v : SessionView) (l : SessionLabel) : Decidable (Polite v l) :=
  inferInstanceAs (Decidable (_ → _ ∨ _))

/-- A session just created, whatever the engine was used for before. -/
def SessionView.Fresh (v : SessionView) : Prop := v.session = .create v.session.userId

namespace Session
variable {s t : Session} {p : Post} {k : ℕ}

/-- The flag of a kind of operation. -/
def flag (s : Session) : OperationKind → Bool
  | .enroll => s.isEnrolling
  | .authenticate => s.isAuthenticating
  | .detectInteraction => s.isDetectingInteraction

theorem flag_congr (ha : t.isAuthenticating = s.isAuthenticating)
    (he : t.isEnrolling = s.isEnrolling) (hd : t.isDetectingInteraction = s.isDetectingInteraction)
    (kind : OperationKind) : t.flag kind = s.flag kind := by
  cases kind with
  | enroll => exact he
  | authenticate => exact ha
  | detectInteraction => exact hd

/-- Reset the flag of one kind of operation. -/
def clear (kind : OperationKind) (s : Session) : Session :=
  match kind with
  | .enroll => { s with isEnrolling := false }
  | .authenticate => { s with isAuthenticating := false }
  | .detectInteraction => { s with isDetectingInteraction := false }

theorem flag_clear (s : Session) (kind kind' : OperationKind) :
    (s.clear kind).flag kind' = (s.flag kind' && decide (kind ≠ kind')) := by
  cases kind <;> cases kind' <;> simp [clear, flag]

theorem flag_of_clear {kind kind' : OperationKind} (h : (s.clear kind).flag kind' = true) :
    s.flag kind' = true := by
  rw [flag_clear, Bool.and_eq_true] at h
  exact h.1

section clear
variable (kind : OperationKind)

@[simp] theorem processingFrame_clear : (s.clear kind).processingFrame = s.processingFrame := by
  cases kind <;> rfl

@[simp] theorem frames_clear : (s.clear kind).frames = s.frames := by
  cases kind <;> rfl

@[simp] theorem workers_clear : (s.clear kind).workers = s.workers := by
  cases kind <;> rfl

@[simp] theorem operations_clear : (s.clear kind).operations = s.operations := by
  cases kind <;> rfl

@[simp] theorem currentChallenge_clear : (s.clear kind).currentChallenge = s.currentChallenge := by
  cases kind <;> rfl

@[simp] theorem posted_clear : (s.clear kind).posted = s.posted := by
  cases kind <;> rfl

end clear

/-- `onSessionClosed` was posted. -/
def Closed (s : Session) : Prop := ∃ p ∈ s.posted, p.callback = .onSessionClosed

/-- One worker holds the claim, or none does. -/
def Claimed (s : Session) : Prop :=
  s.processingFrame = false ∧ s.workers = [] ∨ s.processingFrame = true ∧ ∃ w, s.workers = [w]

theorem Claimed.only (h : s.Claimed) {i : ℕ} {w : Worker} (hi : s.workers[i]? = some w) :
    i = 0 ∧ s.workers = [w] := by
  rcases h with ⟨-, hw⟩ | ⟨-, w₀, hw⟩
  · rw [hw] at hi
    cases hi
  · have hlt : i < s.workers.length := (List.getElem?_eq_some_iff.mp hi).choose
    rw [hw, List.length_singleton] at hlt
    obtain rfl : i = 0 := by omega
    rw [hw] at hi
    obtain rfl := Option.some.inj hi
    exact ⟨rfl, hw⟩

/-- The claim stays with one worker at whatever stage. -/
theorem Claimed.replace {w w' : Worker} (h : s.Claimed) (hw : s.workers = [w])
    (hp : t.processingFrame = s.processingFrame) (hw' : t.workers = [w']) : t.Claimed := by
  rcases h with ⟨-, hnil⟩ | ⟨hclaim, -⟩
  · rw [hw] at hnil
    cases hnil
  · exact .inr ⟨hp.trans hclaim, w', hw'⟩

theorem hasEnded_iff : s.hasEnded k = true ↔
    ∃ p ∈ s.posted, p.callback.isTerminal = true ∧ p.operation = some k := by
  simp [hasEnded]

theorem hasEnded_append (h : t.posted = s.posted ++ [p]) :
    t.hasEnded k = (s.hasEnded k || (p.callback.isTerminal && decide (p.operation = some k))) := by
  simp [hasEnded, h]

theorem hasEnded_congr (h : t.posted = s.posted) : t.hasEnded k = s.hasEnded k := by
  rw [hasEnded, h]
  rfl

theorem closed_append (h : t.posted = s.posted ++ [p]) (hp : p.callback ≠ .onSessionClosed) :
    t.Closed ↔ s.Closed := by
  simp [Closed, h, hp]

theorem not_hasEnded (h : s.hasEnded k = false) :
    ∀ q ∈ s.posted, q.callback.isTerminal = true → q.operation ≠ some k := by
  intro q hq ht hk
  have hended := hasEnded_iff.mpr ⟨q, hq, ht, hk⟩
  rw [h] at hended
  cases hended

theorem operationFor_spec {kind : OperationKind} (h : s.operationFor kind = some k) :
    ∃ operation, s.operations[k]? = some operation ∧ operation.kind = kind := by
  have hk := List.find?_some h
  cases hop : s.operations[k]? with
  | none => simp [hop] at hk
  | some operation => exact ⟨operation, rfl, by simpa [hop] using hk⟩

theorem operationFor_last {kind : OperationKind} {operation : RequestedOperation}
    (hlen : s.operations.length = k + 1) (hop : s.operations[k]? = some operation)
    (hkind : operation.kind = kind) : s.operationFor kind = some k := by
  unfold operationFor
  rw [hlen, List.range_succ, List.reverse_append, List.reverse_singleton, List.singleton_append,
    List.find?_cons_of_pos]
  simp [hop, hkind]

end Session

namespace SessionView
variable {v : SessionView}

@[simp] theorem session_onSession (f : Session → Session) :
    (v.onSession f).session = f v.session := rfl

@[simp] theorem session_onEngine (f : FaceEngine → FaceEngine) :
    (v.onEngine f).session = v.session := rfl

theorem isBusy_iff : v.isBusy = true ↔ ∃ kind, v.session.flag kind = true := by
  constructor
  · intro h
    simp only [isBusy, Bool.or_eq_true] at h
    rcases h with (h | h) | h
    · exact ⟨.authenticate, h⟩
    · exact ⟨.enroll, h⟩
    · exact ⟨.detectInteraction, h⟩
  · rintro ⟨kind, h⟩
    cases kind with
    | enroll => simp [isBusy, show v.session.isEnrolling = true from h]
    | authenticate => simp [isBusy, show v.session.isAuthenticating = true from h]
    | detectInteraction => simp [isBusy, show v.session.isDetectingInteraction = true from h]

theorem contextStep_fst (s : Session) (context : OperationContext) (now : ℕ) :
    ∃ reason display, (contextStep s context now).1 =
      { s with currentOperationReason := reason, currentDisplayState := display } := by
  unfold contextStep
  dsimp only
  split_ifs
  all_goals exact ⟨_, _, rfl⟩

end SessionView

/-- The fields that tell how operations stand are the same. -/
structure Session.Alike (s t : Session) : Prop where
  flag : ∀ kind, t.flag kind = s.flag kind
  processingFrame : t.processingFrame = s.processingFrame
  currentChallenge : t.currentChallenge = s.currentChallenge
  frames : t.frames = s.frames
  workers : t.workers = s.workers
  operations : t.operations = s.operations
  posted : t.posted = s.posted

/-- An operation was asked for; its flag and the callbacks are told separately. -/
structure Session.Began (s : Session) (operation : RequestedOperation) (t : Session) : Prop where
  processingFrame : t.processingFrame = s.processingFrame
  frames : t.frames = s.frames
  workers : t.workers = s.workers
  operations : t.operations = s.operations ++ [operation]
  challenge : ∀ operationId, operation = .authenticate operationId →
    t.currentChallenge = operationId.toUInt64
  kept : operation.kind ≠ .authenticate → t.currentChallenge = s.currentChallenge

/-- All flags are clear, and `onError(CANCELED)` was posted if one was set. -/
structure Session.Canceled (s t : Session) : Prop where
  flag : ∀ kind, t.flag kind = false
  processingFrame : t.processingFrame = s.processingFrame
  currentChallenge : t.currentChallenge = s.currentChallenge
  frames : t.frames = s.frames
  workers : t.workers = s.workers
  operations : t.operations = s.operations
  posted : (∀ kind, s.flag kind = false) ∧ t.posted = s.posted ∨
    (∃ kind, s.flag kind = true) ∧
      t.posted = s.posted ++ [⟨.onError .canceled 0, some s.lastOperation, none⟩]

/-- The call runs `cancel()` and nothing else. -/
def SessionLabel.cancels (s : Session) : SessionLabel → Bool
  | .cancel => true
  | .onContextChanged context now => (SessionView.contextStep s context now).2
  | _ => false

/-- A callback that belongs to no operation, other than the last one of a session. -/
def Callback.isAnswer (callback : Callback) : Bool :=
  !callback.isTerminal && !callback.isReport && callback ≠ .onSessionClosed

inductive SessionEffect (v : SessionView) (t : Session) : SessionLabel → Prop
  | started {l : SessionLabel} {operation : RequestedOperation} :
      l.starts = some operation → v.session.Began operation t →
      (∀ kind, t.flag kind = (v.session.flag kind || decide (operation.kind = kind))) →
      t.posted = v.session.posted → SessionEffect v t l
  | failed {l : SessionLabel} {operation : RequestedOperation} (code : Int32) :
      l.starts = some operation → v.session.Began operation t →
      (∀ kind, t.flag kind = (v.session.flag kind && decide (operation.kind ≠ kind))) →
      t.posted = v.session.posted ++
        [⟨.onError .vendor code, some v.session.operations.length, none⟩] →
      SessionEffect v t l
  | canceled {l : SessionLabel} : l.cancels v.session = true → v.session.Canceled t →
      SessionEffect v t l
  | closed (u : Session) : v.session.Canceled u →
      t = { u with posted := u.posted ++ [⟨.onSessionClosed, none, none⟩] } →
        SessionEffect v t .close
  | answered {l : SessionLabel} (callback : Callback) (challenge : UInt64) :
      callback.isAnswer = true →
      (challenge = v.session.currentChallenge ∨ l = .generateChallenge challenge) →
      t = { v.session with
        currentChallenge := challenge
        posted := v.session.posted ++ [⟨callback, none, none⟩] } → SessionEffect v t l
  | arrived : t = { v.session with frames := v.session.frames ++ [v.session.operationInProgress] } →
      SessionEffect v t .frameArrives
  | dropped (i : ℕ) : v.session.processingFrame = true →
      t = { v.session with frames := v.session.frames.eraseIdx i } →
        SessionEffect v t (.frameClaims i)
  | claimed (i : ℕ) (frameOperation : Option ℕ) : v.session.processingFrame = false →
      v.session.frames[i]? = some frameOperation →
      t = { v.session with
        frames := v.session.frames.eraseIdx i
        processingFrame := true
        workers := v.session.workers ++ [⟨.testCancelled, frameOperation, none⟩] } →
      SessionEffect v t (.frameClaims i)
  | worker (i : ℕ) (w : Worker) (reply : EngineReply) : v.session.workers[i]? = some w →
      t = (v.workerStep i w reply).session → SessionEffect v t (.worker i reply)
  | alike {l : SessionLabel} : v.session.Alike t → SessionEffect v t l

section inversion
open SessionView
variable {v : SessionView}

theorem canceled_cancel (v : SessionView) : v.session.Canceled v.cancel.session := by
  have hflag : ∀ kind, v.cancel.session.flag kind = false := by
    intro kind
    cases kind <;> rfl
  cases hb : v.isBusy with
  | true =>
      have hposted : v.cancel.session.posted = v.session.posted ++
          [⟨.onError .canceled 0, some v.session.lastOperation, none⟩] := by
        simp [cancel, hb, postCallback]
      refine ⟨hflag, ?_, ?_, ?_, ?_, ?_, .inr ⟨isBusy_iff.mp hb, hposted⟩⟩
      all_goals simp [cancel, hb, postCallback]
  | false =>
      have hidle : ∀ kind, v.session.flag kind = false := by
        intro kind
        by_contra hset
        have hbusy := isBusy_iff.mpr ⟨kind, by simpa using hset⟩
        rw [hb] at hbusy
        cases hbusy
      have hposted : v.cancel.session.posted = v.session.posted := by simp [cancel, hb]
      refine ⟨hflag, ?_, ?_, ?_, ?_, ?_, .inl ⟨hidle, hposted⟩⟩
      all_goals simp [cancel, hb]

theorem effect_startCamera {l : SessionLabel} (operation : RequestedOperation) {u : SessionView}
    {start : CameraStart} (hl : l.starts = some operation)
    (hbegan : v.session.Began operation u.session) (hposted : u.session.posted = v.session.posted)
    (hset : ∀ kind, u.session.flag kind = (v.session.flag kind || decide (operation.kind = kind))) :
    SessionEffect v (u.startCamera start (Session.clear operation.kind)).session l := by
  unfold startCamera
  split_ifs with hrunning
  · exact .started hl hbegan hset hposted
  cases start with
  | started =>
      refine .started hl ?_ ?_ hposted
      · exact ⟨hbegan.1, hbegan.2, hbegan.3, hbegan.4, hbegan.5, hbegan.6⟩
      · intro kind
        rw [← hset kind]
        exact Session.flag_congr rfl rfl rfl kind
  | failed code =>
      refine .failed (if code = 0 then VendorCode.cameraNoDevice else code) hl ?_ ?_ ?_
      · refine ⟨?_, ?_, ?_, ?_, ?_, ?_⟩
        · simpa [postCallback] using hbegan.processingFrame
        · simpa [postCallback] using hbegan.frames
        · simpa [postCallback] using hbegan.workers
        · simpa [postCallback] using hbegan.operations
        · simpa [postCallback] using hbegan.challenge
        · simpa [postCallback] using hbegan.kept
      · intro kind
        refine (Session.flag_congr (s := u.session.clear operation.kind) rfl rfl rfl kind).trans ?_
        rw [Session.flag_clear, hset]
        cases v.session.flag kind <;> by_cases hk : operation.kind = kind <;> simp [hk]
      · simp [postCallback, Session.lastOperation, hbegan.operations, hposted]

theorem effect_enroll (v : SessionView) (start : CameraStart) :
    SessionEffect v (v.enroll start).session (.enroll start) := by
  refine effect_startCamera .enroll rfl ⟨rfl, rfl, rfl, rfl, nofun, fun _ => rfl⟩ rfl ?_
  intro kind
  cases kind <;> simp [Session.flag, begin, onEngine, RequestedOperation.kind]

theorem effect_detectInteraction (v : SessionView) (start : CameraStart) :
    SessionEffect v (v.detectInteraction start).session (.detectInteraction start) := by
  refine effect_startCamera .detectInteraction rfl ⟨rfl, rfl, rfl, rfl, nofun, fun _ => rfl⟩ rfl ?_
  intro kind
  cases kind <;> simp [Session.flag, begin, onEngine, RequestedOperation.kind]

theorem inferReason_eq (s : Session) :
    ∃ reason, inferReason s = { s with currentOperationReason := reason } := by
  unfold inferReason
  split_ifs
  all_goals exact ⟨_, rfl⟩

theorem effect_authenticate {l : SessionLabel} {operationId : Int64}
    (hl : l.starts = some (.authenticate operationId)) {u : SessionView}
    (hu : ∃ reason, u.session = { v.session with currentOperationReason := reason }) (now : ℕ)
    (start : CameraStart) : SessionEffect v (u.authenticate operationId now start).session l := by
  obtain ⟨reason, hu⟩ := hu
  have hinfer := inferReason_eq { u.session with
    operations := u.session.operations ++ [.authenticate operationId]
    currentChallenge := operationId.toUInt64
    isAuthenticating := true
    authStartTime := now }
  obtain ⟨reason', hinfer⟩ := hinfer
  refine effect_startCamera (.authenticate operationId) hl ?_ ?_ ?_
  · simp only [session_onSession, session_onEngine, begin, hinfer]
    refine ⟨?_, ?_, ?_, ?_, ?_, ?_⟩
    · simp [hu]
    · simp [hu]
    · simp [hu]
    · simp [hu]
    · rintro _ ⟨⟩
      rfl
    · intro hkind
      exact absurd rfl hkind
  · simp only [session_onSession, session_onEngine, begin, hinfer]
    simp [hu]
  · intro kind
    simp only [session_onSession, session_onEngine, begin, hinfer]
    cases kind <;> simp [Session.flag, RequestedOperation.kind, hu]

/-- `cancel()` after a context was stored cancels what was active before. -/
theorem canceled_of_alike {u : Session} (h : v.session.Alike u) :
    v.session.Canceled (v.onSession fun _ => u).cancel.session := by
  have hcancel := canceled_cancel (v.onSession fun _ => u)
  rw [session_onSession] at hcancel
  refine ⟨hcancel.flag, ?_, ?_, ?_, ?_, ?_, ?_⟩
  · exact hcancel.processingFrame.trans h.processingFrame
  · exact hcancel.currentChallenge.trans h.currentChallenge
  · exact hcancel.frames.trans h.frames
  · exact hcancel.workers.trans h.workers
  · exact hcancel.operations.trans h.operations
  · have hposted := hcancel.posted
    unfold Session.lastOperation at hposted ⊢
    rw [h.posted, h.operations] at hposted
    simpa only [h.flag] using hposted

theorem alike_contextStep (s : Session) (context : OperationContext) (now : ℕ) :
    s.Alike (contextStep s context now).1 := by
  obtain ⟨reason, display, hs⟩ := contextStep_fst s context now
  rw [hs]
  exact ⟨Session.flag_congr rfl rfl rfl, rfl, rfl, rfl, rfl, rfl, rfl⟩

theorem effect_onContextChanged (v : SessionView) (context : OperationContext) (now : ℕ) :
    SessionEffect v (v.onContextChanged context now).session (.onContextChanged context now) := by
  have halike := alike_contextStep v.session context now
  unfold onContextChanged
  cases hc : (contextStep v.session context now).2 with
  | false =>
      dsimp only
      rw [if_neg (by simp [hc])]
      exact .alike halike
  | true =>
      dsimp only
      rw [if_pos hc]
      exact .canceled hc (canceled_of_alike halike)

theorem effect_of_step {l : SessionLabel} {v' : SessionView} (h : sessionStep v l v') :
    SessionEffect v v'.session l := by
  have alike : v.session.Alike v.session := ⟨fun _ => rfl, rfl, rfl, rfl, rfl, rfl, rfl⟩
  unfold sessionStep at h
  cases l with
  | enroll start =>
      obtain rfl := Option.some.inj h
      exact effect_enroll v start
  | authenticate operationId now start =>
      obtain rfl := Option.some.inj h
      exact effect_authenticate (u := v) rfl ⟨v.session.currentOperationReason, rfl⟩ now start
  | authenticateWithContext operationId context now start =>
      obtain rfl := Option.some.inj h
      exact effect_authenticate (u := v.onSession fun s =>
        { s with currentOperationReason := context.reason }) rfl ⟨context.reason, rfl⟩ now start
  | detectInteraction start =>
      obtain rfl := Option.some.inj h
      exact effect_detectInteraction v start
  | cancel =>
      obtain rfl := Option.some.inj h
      exact .canceled rfl (canceled_cancel v)
  | close =>
      obtain rfl := Option.some.inj h
      exact .closed _ (canceled_cancel v) rfl
  | onContextChanged context now =>
      obtain rfl := Option.some.inj h
      exact effect_onContextChanged v context now
  | generateChallenge value =>
      obtain rfl := Option.some.inj h
      exact .answered _ value rfl (.inr rfl) rfl
  | revokeChallenge challenge =>
      obtain rfl := Option.some.inj h
      exact .answered (.onChallengeRevoked challenge) _ rfl (.inl rfl) rfl
  | enumerateEnrollments ids =>
      obtain rfl := Option.some.inj h
      exact .answered (.onEnrollmentsEnumerated ids) _ rfl (.inl rfl) rfl
  | removeEnrollments ids =>
      obtain rfl := Option.some.inj h
      exact .answered (.onEnrollmentsRemoved ids) _ rfl (.inl rfl) rfl
  | getFeatures =>
      obtain rfl := Option.some.inj h
      exact .answered (.onFeaturesRetrieved _) _ rfl (.inl rfl) rfl
  | setFeature feature enabled =>
      obtain rfl := Option.some.inj h
      refine .answered (.onFeatureSet feature) _ rfl (.inl rfl) ?_
      cases feature <;> rfl
  | getAuthenticatorId =>
      obtain rfl := Option.some.inj h
      exact .answered (.onAuthenticatorIdRetrieved 0) _ rfl (.inl rfl) rfl
  | resetLockout =>
      obtain rfl := Option.some.inj h
      exact .answered .onLockoutCleared _ rfl (.inl rfl) rfl
  | frameArrives =>
      obtain rfl := Option.some.inj h
      unfold frameArrives
      split_ifs
      · exact .alike alike
      · exact .arrived rfl
  | frameClaims i =>
      obtain ⟨frameOperation, hi, rfl⟩ := Option.map_eq_some_iff.mp h
      by_cases hp : v.session.processingFrame = true
      · have hdrop : v.frameClaims i frameOperation =
            v.onSession fun s => { s with frames := s.frames.eraseIdx i } := if_pos hp
        rw [hdrop]
        exact .dropped i hp rfl
      · have hclaim : v.frameClaims i frameOperation = v.onSession fun s =>
            { s with
              frames := s.frames.eraseIdx i
              processingFrame := true
              workers := s.workers ++ [⟨.testCancelled, frameOperation, none⟩] } := if_neg hp
        rw [hclaim]
        exact .claimed i frameOperation (by simpa using hp) hi rfl
  | worker i reply =>
      obtain ⟨w, hi, rfl⟩ := Option.map_eq_some_iff.mp h
      exact .worker i w reply hi rfl
  | cameraLost =>
      obtain rfl := Option.some.inj h
      exact .alike ⟨Session.flag_congr rfl rfl rfl, rfl, rfl, rfl, rfl, rfl, rfl⟩
  | engineChanged engine =>
      obtain rfl := Option.some.inj h
      exact .alike alike

/-- A worker moves on, or gives up the claim and is gone. -/
theorem workerStep_workers (v : SessionView) (i : ℕ) (w : Worker) (reply : EngineReply) :
    (w.stage = .release ∧ (v.workerStep i w reply).session.workers = v.session.workers.eraseIdx i ∧
      (v.workerStep i w reply).session.processingFrame = false) ∨
    ∃ w', (v.workerStep i w reply).session.workers = v.session.workers.set i w' ∧
      (v.workerStep i w reply).session.processingFrame = v.session.processingFrame := by
  unfold workerStep
  cases hw : w.stage with
  | release => exact .inl ⟨rfl, rfl, rfl⟩
  | testCancelled | testAuthenticating | testDetecting | testEnrolling =>
      dsimp only
      split_ifs
      all_goals exact .inr ⟨_, rfl, rfl⟩
  | authenticate | analyze | enroll =>
      dsimp only
      split_ifs
      all_goals exact .inr ⟨_, rfl, rfl⟩
  | _ => exact .inr ⟨_, rfl, rfl⟩

/-- The claim of `mProcessingFrame` keeps workers apart. -/
theorem claimed_step {l : SessionLabel} {v' : SessionView} (hv : v.session.Claimed)
    (h : sessionStep v l v') : v'.session.Claimed := by
  cases effect_of_step h with
  | started _ hb _ _ => rwa [Session.Claimed, hb.processingFrame, hb.workers]
  | failed _ _ hb _ _ => rwa [Session.Claimed, hb.processingFrame, hb.workers]
  | canceled _ hc => rwa [Session.Claimed, hc.processingFrame, hc.workers]
  | closed u hc ht =>
      rw [ht]
      rwa [Session.Claimed, hc.processingFrame, hc.workers]
  | answered _ _ _ _ ht =>
      rw [ht]
      exact hv
  | arrived ht =>
      rw [ht]
      exact hv
  | dropped i _ ht =>
      rw [ht]
      exact hv
  | claimed i frameOperation hp _ ht =>
      rw [ht]
      rcases hv with ⟨-, hw⟩ | ⟨hp', -⟩
      · exact .inr ⟨rfl, _, by rw [hw]; rfl⟩
      · rw [hp] at hp'
        cases hp'
  | worker i w reply hi ht =>
      rw [ht]
      obtain ⟨rfl, hw⟩ := hv.only hi
      have hp : v.session.processingFrame = true := by
        rcases hv with ⟨-, hnil⟩ | ⟨hp, -⟩
        · rw [hw] at hnil
          cases hnil
        · exact hp
      rcases workerStep_workers v 0 w reply with ⟨-, hws, hpf⟩ | ⟨w', hws, hpf⟩
      · rw [hw] at hws
        exact .inl ⟨hpf, hws⟩
      · rw [hw] at hws
        exact .inr ⟨hpf.trans hp, w', hws⟩
  | alike ha => rwa [Session.Claimed, ha.processingFrame, ha.workers]

end inversion

/-- A session of user 0 on an engine not used yet. -/
def newSession : SessionView := ⟨.initial, .create 0⟩

/-- An answer that no step reads. -/
def noReply : EngineReply := ⟨0, 0, 0⟩

/-- A frame of the operation reaches the stage after `tests` tests. -/
def frameReaches (tests : ℕ) : List SessionLabel :=
  [.frameArrives, .frameClaims 0] ++ List.replicate tests (.worker 0 noReply)

/-- A frame that is matched. -/
def matchedFrame : List SessionLabel :=
  [.authenticate 7 0 .started] ++ frameReaches 2 ++
    [.worker 0 ⟨0, 1, 0⟩] ++ List.replicate 6 (.worker 0 noReply)

end FaceHal
