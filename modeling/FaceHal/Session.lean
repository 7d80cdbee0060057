import FaceHal.SessionCallback

/-!
# Sessions and their frame workers

A session has three operation flags, the challenge and the context of the current
authentication, and a camera. The calls of the client are functions on the
session and the engine it shares. A camera frame is taken in two steps, the
cancelled test and the claim of `mProcessingFrame`, and is then processed by a
detached worker. The worker is a program counter: one step of it is one access to
the state it shares with the client's calls, one engine call or one callback.

Fields under "history" record which operation a flag, a worker or a callback
belongs to. No function reads them to decide anything else.
-/
namespace FaceHal

inductive OperationReason where
  | unknown
  | biometricPrompt
  | keyguard
deriving DecidableEq, Repr

inductive DisplayState where
  | unknown
  | lockscreen
  | noUi
  | screensaver
  | aod
deriving DecidableEq, Repr

structure OperationContext where
  reason : OperationReason
  displayState : DisplayState
deriving DecidableEq, Repr

/-- Where a frame worker is. The names say what its next step does. -/
inductive WorkerStage where
  | testCancelled
  | testAuthenticating
  | authenticate
  | clearAuthenticating (faceId : Int32)
  | clearReason (faceId : Int32)
  | stopAfterMatch (faceId : Int32)
  | readChallenge (faceId : Int32)
  | testDetecting
  | analyze
  | clearDetecting
  | stopAfterDetection
  | testEnrolling
  | enroll
  | readFrameCount (faceId : Int32)
  | clearEnrolling (faceId : Int32)
  | stopAfterEnrollment (faceId : Int32)
  | post (callback : Callback)
  | release
deriving DecidableEq, Repr

structure Worker where
  stage : WorkerStage
  /-- History: the operation in progress when the frame was delivered. -/
  frameOperation : Option ℕ
  /-- History: the operation whose flag the worker found set. -/
  operation : Option ℕ
deriving DecidableEq, Repr

structure Session where
  userId : Int32
  isAuthenticating : Bool
  isEnrolling : Bool
  isDetectingInteraction : Bool
  processingFrame : Bool
  currentChallenge : UInt64
  currentOperationReason : OperationReason
  currentDisplayState : DisplayState
  /-- In milliseconds of the steady clock. -/
  authStartTime : ℕ
  cameraRunning : Bool
  /-- Calls of `onCameraFrame` that have passed the cancelled test, each with the
  operation in progress at that moment. -/
  frames : List (Option ℕ)
  workers : List Worker
  posted : List Post
  /-- History: the operations asked for so far. -/
  operations : List RequestedOperation
deriving DecidableEq, Repr

namespace Session

/-- The session that the constructor makes. -/
def create (userId : Int32) : Session :=
  ⟨userId, false, false, false, false, 0, .unknown, .unknown, 0, false, [], [], [], []⟩

/-- The number of the operation asked for last. -/
def lastOperation (s : Session) : ℕ := s.operations.length - 1

/-- The operation has reported its end. -/
def hasEnded (s : Session) (k : ℕ) : Bool :=
  s.posted.any fun p => p.callback.isTerminal && p.operation = some k

/-- The operation in progress, if one is. -/
def operationInProgress (s : Session) : Option ℕ :=
  if s.operations = [] ∨ s.hasEnded s.lastOperation then none else some s.lastOperation

/-- The last operation of a kind, which is the one its flag was set for. -/
def operationFor (s : Session) (kind : OperationKind) : Option ℕ :=
  (List.range s.operations.length).reverse.find? fun k =>
    (s.operations[k]?).any fun operation => operation.kind = kind

end Session

/-- What a call or a worker of one session acts on. -/
structure SessionView where
  engine : FaceEngine
  session : Session
deriving DecidableEq, Repr

/-- What `CameraClient::start` gives for a camera that does not run. -/
inductive CameraStart where
  | started
  | failed (lastStartFailureVendorCode : Int32)
deriving DecidableEq, Repr

namespace SessionView

def onSession (v : SessionView) (f : Session → Session) : SessionView :=
  { v with session := f v.session }

def onEngine (v : SessionView) (f : FaceEngine → FaceEngine) : SessionView :=
  { v with engine := f v.engine }

def postCallback (v : SessionView) (callback : Callback) (operation : Option ℕ)
    (frameOperation : Option ℕ) : SessionView :=
  v.onSession fun s => { s with posted := s.posted ++ [⟨callback, operation, frameOperation⟩] }

/-- A callback that answers a call. -/
def answer (v : SessionView) (callback : Callback) : SessionView :=
  v.postCallback callback none none

def isBusy (v : SessionView) : Bool :=
  v.session.isAuthenticating || v.session.isEnrolling || v.session.isDetectingInteraction

def cancel (v : SessionView) : SessionView :=
  let v :=
    if v.isBusy then v.postCallback (.onError .canceled 0)
      (some v.session.lastOperation) none else v
  let v := v.onSession fun s =>
    { s with
      isAuthenticating := false
      isEnrolling := false
      isDetectingInteraction := false
      currentOperationReason := .unknown }
  let v := v.onEngine FaceEngine.cancelAll
  v.onSession fun s => { s with cameraRunning := false }

def close (v : SessionView) : SessionView := v.cancel.answer .onSessionClosed

/-- The end of the three operations: start the camera, or give the operation up. -/
def startCamera (v : SessionView) (start : CameraStart) (clearFlag : Session → Session) :
    SessionView :=
  if v.session.cameraRunning then v
  else
    match start with
    | .started => v.onSession fun s => { s with cameraRunning := true }
    | .failed code =>
        let code := if code = 0 then VendorCode.cameraNoDevice else code
        let v := v.onSession clearFlag
        v.postCallback (.onError .vendor code) (some v.session.lastOperation) none

/-- History: a new operation begins. -/
def begin (v : SessionView) (operation : RequestedOperation) : SessionView :=
  v.onSession fun s => { s with operations := s.operations ++ [operation] }

def enroll (v : SessionView) (start : CameraStart) : SessionView :=
  let v := v.begin .enroll
  let v := v.onEngine FaceEngine.startOperation
  let v := v.onSession fun s => { s with isEnrolling := true }
  v.startCamera start fun s => { s with isEnrolling := false }

def inferReason (s : Session) : Session :=
  if s.currentOperationReason = .unknown then
    if s.currentDisplayState = .lockscreen then { s with currentOperationReason := .keyguard }
    else { s with currentOperationReason := .biometricPrompt }
  else s

def authenticate (v : SessionView) (operationId : Int64) (now : ℕ) (start : CameraStart) :
    SessionView :=
  let v := v.begin (.authenticate operationId)
  let v := v.onSession fun s => { s with currentChallenge := operationId.toUInt64 }
  let v := v.onEngine FaceEngine.startOperation
  let v := v.onSession fun s => { s with isAuthenticating := true, authStartTime := now }
  let v := v.onSession inferReason
  v.startCamera start fun s => { s with isAuthenticating := false }

def authenticateWithContext (v : SessionView) (operationId : Int64) (context : OperationContext)
    (now : ℕ) (start : CameraStart) : SessionView :=
  let v := v.onSession fun s => { s with currentOperationReason := context.reason }
  v.authenticate operationId now start

def detectInteraction (v : SessionView) (start : CameraStart) : SessionView :=
  let v := v.begin .detectInteraction
  let v := v.onEngine FaceEngine.startOperation
  let v := v.onSession fun s => { s with isDetectingInteraction := true }
  v.startCamera start fun s => { s with isDetectingInteraction := false }

/-- What `onContextChanged` stores and whether it then calls `cancel()`. A prompt
is not cancelled in the first second. -/
def contextStep (s : Session) (context : OperationContext) (now : ℕ) : Session × Bool :=
  let s :=
    if context.reason ≠ .unknown then { s with currentOperationReason := context.reason } else s
  if s.isAuthenticating ∧ s.currentOperationReason = .biometricPrompt ∧
      context.reason ≠ .biometricPrompt ∧ ¬ now - s.authStartTime < 1000 then
    (s, true)
  else
    let s := { s with currentDisplayState := context.displayState }
    if (context.displayState = .aod ∨ context.displayState = .noUi) ∧
        s.currentOperationReason ≠ .biometricPrompt then
      (s, true)
    else
      let s :=
        if context.displayState = .lockscreen ∧ s.isAuthenticating ∧
            s.currentOperationReason ≠ .keyguard then
          { s with currentOperationReason := .keyguard }
        else s
      (s, s.isAuthenticating && decide (s.currentOperationReason = .keyguard ∨
        s.currentDisplayState = .lockscreen) && context.displayState != .lockscreen)

def onContextChanged (v : SessionView) (context : OperationContext) (now : ℕ) : SessionView :=
  let (s, cancels) := contextStep v.session context now
  let v := v.onSession fun _ => s
  if cancels then v.cancel else v

/-- `value` is what the random generator gave. -/
def generateChallenge (v : SessionView) (value : UInt64) : SessionView :=
  let v := v.onSession fun s => { s with currentChallenge := value }
  v.answer (.onChallengeGenerated v.session.currentChallenge.toInt64)

def revokeChallenge (v : SessionView) (challenge : Int64) : SessionView :=
  v.answer (.onChallengeRevoked challenge)

/-- `ids` is what the engine lists. -/
def enumerateEnrollments (v : SessionView) (ids : List Int32) : SessionView :=
  v.answer (.onEnrollmentsEnumerated ids)

def removeEnrollments (v : SessionView) (ids : List Int32) : SessionView :=
  v.answer (.onEnrollmentsRemoved ids)

def getFeatures (v : SessionView) : SessionView :=
  let features :=
    (if v.engine.requireAttention then [Feature.requireAttention] else []) ++
      if v.engine.requireDiversePoses then [Feature.requireDiversePoses] else []
  v.answer (.onFeaturesRetrieved features)

def setFeature (v : SessionView) (feature : Feature) (enabled : Bool) : SessionView :=
  let v :=
    match feature with
    | .requireAttention => v.onEngine fun e => e.setRequireAttention enabled
    | .requireDiversePoses => v.onEngine fun e => e.setRequireDiversePoses enabled
    | .debug => v
  v.answer (.onFeatureSet feature)

def getAuthenticatorId (v : SessionView) : SessionView := v.answer (.onAuthenticatorIdRetrieved 0)

def resetLockout (v : SessionView) : SessionView := v.answer .onLockoutCleared

/-- The first step of `onCameraFrame`. -/
def frameArrives (v : SessionView) : SessionView :=
  if v.engine.isCancelled then v
  else v.onSession fun s => { s with frames := s.frames ++ [s.operationInProgress] }

/-- The claim of `mProcessingFrame`, and the worker if it succeeds. -/
def frameClaims (v : SessionView) (i : ℕ) (frameOperation : Option ℕ) : SessionView :=
  let v := v.onSession fun s => { s with frames := s.frames.eraseIdx i }
  if v.session.processingFrame then v
  else v.onSession fun s =>
    { s with
      processingFrame := true
      workers := s.workers ++ [⟨.testCancelled, frameOperation, none⟩] }

/-- The worker goes on at another stage. -/
def goto (v : SessionView) (i : ℕ) (w : Worker) (stage : WorkerStage) : SessionView :=
  v.onSession fun s => { s with workers := s.workers.set i { w with stage := stage } }

/-- The worker goes into a branch for the operation that set the flag. -/
def enter (v : SessionView) (i : ℕ) (w : Worker) (stage : WorkerStage)
    (kind : OperationKind) : SessionView :=
  v.onSession fun s => { s with
    workers := s.workers.set i { w with stage := stage, operation := s.operationFor kind } }

/-- The token that a match is reported with. -/
def authToken (s : Session) : HardwareAuthToken :=
  ⟨s.currentChallenge.toInt64, s.userId.toInt64, 0, 0⟩

/-- One step of the worker `w`, the `i`-th. The reply is used by the engine calls. -/
def workerStep (v : SessionView) (i : ℕ) (w : Worker) (reply : EngineReply) : SessionView :=
  match w.stage with
  | .testCancelled =>
      if v.engine.isCancelled then v.goto i w .release else v.goto i w .testAuthenticating
  | .testAuthenticating =>
      if v.session.isAuthenticating then v.enter i w .authenticate .authenticate
      else v.goto i w .testDetecting
  | .authenticate =>
      let v := v.onEngine fun e => { e with enrollFrameCount := reply.enrollFrameCount }
      if reply.res = 0 then v.goto i w (.clearAuthenticating reply.faceId)
      else if 0 < reply.res then
        if reply.res = 1 ∨ reply.res = VendorCode.failed then
          v.goto i w (.post .onAuthenticationFailed)
        else
          let (info, vendorCode) := mapVendorCode reply.res
          v.goto i w (.post (.onAuthenticationFrame info vendorCode))
      else v.goto i w .release
  | .clearAuthenticating faceId =>
      (v.onSession fun s => { s with isAuthenticating := false }).goto i w (.clearReason faceId)
  | .clearReason faceId =>
      (v.onSession fun s => { s with currentOperationReason := .unknown }).goto i w
        (.stopAfterMatch faceId)
  | .stopAfterMatch faceId =>
      (v.onSession fun s => { s with cameraRunning := false }).goto i w (.readChallenge faceId)
  | .readChallenge faceId =>
      v.goto i w (.post (.onAuthenticationSucceeded faceId (authToken v.session)))
  | .testDetecting =>
      if v.session.isDetectingInteraction then v.enter i w .analyze .detectInteraction
      else v.goto i w .testEnrolling
  | .analyze =>
      let v := v.onEngine fun e => { e with enrollFrameCount := reply.enrollFrameCount }
      if reply.res = VendorCode.faceOk then v.goto i w .clearDetecting else v.goto i w .release
  | .clearDetecting =>
      (v.onSession fun s => { s with isDetectingInteraction := false }).goto i w .stopAfterDetection
  | .stopAfterDetection =>
      (v.onSession fun s => { s with cameraRunning := false }).goto i w
      (.post .onInteractionDetected)
  | .testEnrolling =>
      if v.session.isEnrolling then v.enter i w .enroll .enroll
      else v.goto i w .release
  | .enroll =>
      let v := v.onEngine fun e => { e with enrollFrameCount := reply.enrollFrameCount }
      if reply.res = VendorCode.faceOk then v.goto i w (.clearEnrolling reply.faceId)
      else if reply.res = VendorCode.keep then v.goto i w (.readFrameCount reply.faceId)
      else
        let (info, vendorCode) := mapVendorCode reply.res
        v.goto i w (.post (.onEnrollmentFrame info vendorCode))
  | .readFrameCount faceId =>
      let remaining := FaceEngine.enrollRequiredGoodFrames - v.engine.enrollFrameCount
      v.goto i w (.post (.onEnrollmentProgress faceId remaining))
  | .clearEnrolling faceId =>
      (v.onSession fun s => { s with isEnrolling := false }).goto i w (.stopAfterEnrollment faceId)
  | .stopAfterEnrollment faceId =>
      (v.onSession fun s => { s with cameraRunning := false }).goto i w
        (.post (.onEnrollmentProgress faceId 0))
  | .post callback => (v.postCallback callback w.operation w.frameOperation).goto i w .release
  | .release =>
      v.onSession fun s => { s with processingFrame := false, workers := s.workers.eraseIdx i }

end SessionView
end FaceHal
