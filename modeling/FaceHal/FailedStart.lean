import FaceHal.ContextPolicy

/-!
# Operations whose camera does not start

An operation writes its flag, the challenge, the reason and the engine's cancelled
flag before it starts the camera. If the camera does not start, only the flag of
the operation is written again. The call leaves everything as it was only where
the other writes changed nothing and the flag was clear.
-/
namespace FaceHal
open Session SessionView

namespace SessionLabel

/-- The call asks for an operation and `CameraClient::start` returns false. -/
def fails (v : SessionView) : SessionLabel → Bool
  | .enroll start | .authenticate _ _ start | .authenticateWithContext _ _ _ start
  | .detectInteraction start => v.failsToStart start
  | _ => false

/-- The reason that the call leaves behind. -/
def reasonLeft (s : Session) (l : SessionLabel) : OperationReason :=
  match l.givenReason s with
  | some reason => reason.orInferred s.currentDisplayState
  | none => s.currentOperationReason

end SessionLabel

/-- What a failed start leaves in place of `v`. -/
structure FailedStart (v : SessionView) (operation : RequestedOperation)
    (reason : OperationReason) (v' : SessionView) : Prop where
  flag : ∀ kind, v'.session.flag kind =
    (v.session.flag kind && decide (operation.kind ≠ kind))
  reason : v'.session.currentOperationReason = reason
  challenge : ∀ operationId, operation = .authenticate operationId →
    v'.session.currentChallenge = operationId.toUInt64
  kept : operation.kind ≠ .authenticate → v'.session.currentChallenge = v.session.currentChallenge
  cancelled : v'.engine.cancelled = false
  posted : ∃ code : Int32, code ≠ 0 ∧ v'.session.posted = v.session.posted ++
    [⟨.onError .vendor code, some v.session.operations.length, none⟩]

/-- One error was posted, and what later calls decide by is the same. -/
structure RollsBack (v v' : SessionView) : Prop where
  posted : ∃ code : Int32, code ≠ 0 ∧ v'.session.posted = v.session.posted ++
    [⟨.onError .vendor code, some v.session.operations.length, none⟩]
  flag : ∀ kind, v'.session.flag kind = v.session.flag kind
  reason : v'.session.currentOperationReason = v.session.currentOperationReason
  challenge : v'.session.currentChallenge = v.session.currentChallenge
  cancelled : v'.engine.cancelled = v.engine.cancelled

/-- The call changes nothing but the flag of its operation, and the flag is clear. -/
def WritesOnlyFlag (v : SessionView) (l : SessionLabel) : Prop :=
  v.engine.cancelled = false ∧ l.reasonLeft v.session = v.session.currentOperationReason ∧
    ∀ operation, l.starts = some operation → v.session.flag operation.kind = false ∧
      ∀ operationId, operation = .authenticate operationId →
        operationId.toUInt64 = v.session.currentChallenge

section
variable {v v' u : SessionView} {operation : RequestedOperation} {reason : OperationReason}
  {start : CameraStart} {l : SessionLabel}

theorem failedStart_startCamera (hfails : u.failsToStart start = true)
    (hbegan : v.session.Began operation u.session)
    (hset : ∀ kind, u.session.flag kind =
      (v.session.flag kind || decide (operation.kind = kind)))
    (hreason : u.session.currentOperationReason = reason) (hcancelled : u.engine.cancelled = false)
    (hposted : u.session.posted = v.session.posted) :
    FailedStart v operation reason (u.startCamera start (Session.clear operation.kind)) := by
  rcases startCamera_cases u start (Session.clear operation.kind) with
    ⟨-, code, hcode, heq⟩ | ⟨hstarts, -⟩
  · rw [heq]
    refine ⟨?_, ?_, ?_, ?_, hcancelled, code, hcode, ?_⟩
    · intro kind
      have hclear := flag_clear u.session operation.kind kind
      rw [hset] at hclear
      refine (flag_congr (s := u.session.clear operation.kind) rfl rfl rfl kind).trans ?_
      rw [hclear]
      by_cases hkind : operation.kind = kind <;> simp [hkind]
    · rw [← hreason]
      cases operation.kind <;> rfl
    · intro operationId hop
      exact (currentChallenge_clear _).trans (hbegan.challenge operationId hop)
    · intro hkind
      exact (currentChallenge_clear _).trans (hbegan.kept hkind)
    · simp [postCallback, lastOperation, hbegan.operations, hposted]
  · rw [hfails] at hstarts
    cases hstarts

theorem failedStart_authenticate {operationId : Int64} {now : ℕ}
    (hu : u.session = { v.session with currentOperationReason := reason })
    (hfails : v.failsToStart start = true) :
    FailedStart v (.authenticate operationId) (reason.orInferred v.session.currentDisplayState)
      (u.authenticate operationId now start) := by
  unfold authenticate
  refine failedStart_startCamera ?_ ?_ ?_ ?_ rfl ?_
  all_goals
    simp only [session_onSession, session_onEngine, begin, inferReason_orInferred, failsToStart]
  · simpa only [hu, failsToStart] using hfails
  · rw [hu]
    refine ⟨rfl, rfl, rfl, rfl, ?_, fun hkind => absurd rfl hkind⟩
    rintro _ ⟨⟩
    rfl
  · rw [hu]
    intro kind
    cases kind <;> simp [flag, RequestedOperation.kind]
  · rw [hu]
  · rw [hu]

/-- Every failed start leaves the same things behind. -/
theorem failedStart_of_step (h : sessionStep v l v') (hl : l.fails v = true) :
    ∃ operation, l.starts = some operation ∧
      FailedStart v operation (l.reasonLeft v.session) v' := by
  unfold sessionStep at h
  cases l with
  | enroll start =>
      obtain rfl := Option.some.inj h
      refine ⟨.enroll, rfl, failedStart_startCamera hl
        ⟨rfl, rfl, rfl, rfl, by simp, fun _ => rfl⟩ ?_ rfl rfl rfl⟩
      intro kind
      cases kind <;> simp [flag, begin, onEngine, RequestedOperation.kind]
  | authenticate operationId now start =>
      obtain rfl := Option.some.inj h
      exact ⟨.authenticate operationId, rfl, failedStart_authenticate (u := v) rfl hl⟩
  | authenticateWithContext operationId context now start =>
      obtain rfl := Option.some.inj h
      exact ⟨.authenticate operationId, rfl, failedStart_authenticate rfl hl⟩
  | detectInteraction start =>
      obtain rfl := Option.some.inj h
      refine ⟨.detectInteraction, rfl, failedStart_startCamera hl
        ⟨rfl, rfl, rfl, rfl, by simp, fun _ => rfl⟩ ?_ rfl rfl rfl⟩
      intro kind
      cases kind <;> simp [flag, begin, onEngine, RequestedOperation.kind]
  | _ => cases hl

theorem rollsBack_iff (hop : l.starts = some operation)
    (h : FailedStart v operation (l.reasonLeft v.session) v') :
    RollsBack v v' ↔ WritesOnlyFlag v l := by
  constructor
  · intro hback
    refine ⟨?_, ?_, ?_⟩
    · rw [← hback.cancelled, h.cancelled]
    · rw [← hback.reason, h.reason]
    · intro operation' hop'
      obtain rfl := Option.some.inj (hop.symm.trans hop')
      refine ⟨?_, ?_⟩
      · have hflag := h.flag operation.kind
        rw [hback.flag] at hflag
        simpa using hflag
      · intro operationId hid
        rw [← hback.challenge, h.challenge operationId hid]
  · rintro ⟨hcancelled, hreason, hwrites⟩
    obtain ⟨hclear, hchallenge⟩ := hwrites operation hop
    refine ⟨h.posted, ?_, h.reason.trans hreason, ?_, h.cancelled.trans hcancelled.symm⟩
    · intro kind
      rw [h.flag]
      by_cases hkind : operation.kind = kind
      · rw [← hkind, hclear, Bool.false_and]
      · simp [hkind]
    · cases operation with
      | authenticate operationId =>
          rw [h.challenge operationId rfl, hchallenge operationId rfl]
      | _ => exact h.kept nofun

/-- A failed start always posts its error. It leaves the rest as it was if and only
if the flag was clear, the engine was not cancelled, and an authentication came
with the challenge and the reason that the session had already. -/
theorem failedStart_rollsBack_iff (h : sessionStep v l v') (hl : l.fails v = true) :
    (∃ code : Int32, code ≠ 0 ∧ v'.session.posted = v.session.posted ++
      [⟨.onError .vendor code, some v.session.operations.length, none⟩]) ∧
    (RollsBack v v' ↔ WritesOnlyFlag v l) := by
  obtain ⟨operation, hop, hfailed⟩ := failedStart_of_step h hl
  exact ⟨hfailed.posted, rollsBack_iff hop hfailed⟩

/-- A session that authenticates for the keyguard and has lost its camera. -/
def authenticating : SessionView :=
  (newSession.authenticateWithContext 7 ⟨.keyguard, .lockscreen⟩ 100 .started).onSession
    fun s => { s with cameraRunning := false }

/-- An enrolment that does not start leaves the authentication, its challenge and its reason as they
were. One that comes after a cancellation does not: the engine forgets the cancellation. -/
theorem failedEnroll_rollsBack_busy :
    authenticating.session.flag .authenticate = true ∧
    authenticating.session.currentChallenge = 7 ∧
    authenticating.session.currentOperationReason = .keyguard ∧
    RollsBack authenticating (authenticating.enroll (.failed 53)) ∧
    ¬ RollsBack authenticating.cancel (authenticating.cancel.enroll (.failed 53)) := by
  refine ⟨rfl, rfl, rfl, ?_, fun hback => ?_⟩
  · refine (failedStart_rollsBack_iff (l := .enroll (.failed 53)) rfl (by decide)).2.mpr ?_
    refine ⟨rfl, rfl, ?_⟩
    rintro _ ⟨⟩
    exact ⟨rfl, nofun⟩
  · have hwrites :=
      (failedStart_rollsBack_iff (l := .enroll (.failed 53)) rfl (by decide)).2.mp hback
    cases hwrites.1

theorem failedAuthenticate_keeps_reason : ¬ ∀ (v₀ v v' : SessionView) (ls : List SessionLabel)
    (l : SessionLabel), v₀.Fresh → Runs sessionStep v₀ ls v → sessionStep v l v' →
      l.fails v = true → RollsBack v v' := by
  intro h
  have hback := h newSession newSession _ [] (.authenticate 7 0 (.failed 53)) rfl (.nil _) rfl
    (by decide)
  have hreason := hback.reason
  revert hreason
  decide

end
end FaceHal
