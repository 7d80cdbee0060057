import FaceHal.FrameScaling
import FaceHal.ProgramRuns
import FaceHal.SessionRuns

/-!
# The functions of a session as threads run them

In `SessionRuns` a call of the client is one step. Here every function is a program over
single accesses to what the threads of a session share, and a recognition lasts from its
begin to its end, so others act in between.
-/
namespace FaceHal

/-- What a worker is started with. -/
structure WorkerFrame where
  data : List UInt8
  width : ℤ
  height : ℤ
  angle : Int32
deriving DecidableEq

inductive RecognitionCall where
  | authenticate (frame : WorkerFrame) (userId : Int32)
  | analyzeFaceQuality (frame : WorkerFrame)
  | enroll (userId : Int32) (frame : WorkerFrame)
deriving DecidableEq

inductive SessionAccess where
  | isCancelled
  /-- `mProcessingFrame.compare_exchange_strong(false, true)` -/
  | claimProcessingFrame
  | resetProcessingFrame
  /-- `none` where the camera client is missing or does not know. -/
  | getOptimalResolution
  /-- The frame and the size that `onCameraFrame` goes on with. -/
  | scale (frame : List UInt8) (width height : Int32) (reported : Option (Int32 × Int32))
  /-- Start a detached worker. -/
  | createWorker (frame : WorkerFrame)
  | beginRecognition (call : RecognitionCall)
  | endRecognition (call : RecognitionCall)
  | loadFlag (kind : OperationKind)
  | storeFlag (kind : OperationKind) (value : Bool)
  | loadReason
  | storeReason (reason : OperationReason)
  | loadDisplayState
  | storeDisplayState (displayState : DisplayState)
  | loadChallenge
  | storeChallenge (challenge : UInt64)
  | now
  | loadAuthStartTime
  | storeAuthStartTime (time : ℕ)
  | startOperation
  | cancelAll
  | loadEnrollFrameCount
  | startCamera
  | stopCamera
  | post (callback : Callback)
deriving DecidableEq

namespace SessionAccess

@[reducible] def Reply : SessionAccess → Type
  | .isCancelled => Bool
  | .claimProcessingFrame => Bool
  | .resetProcessingFrame => Unit
  | .getOptimalResolution => Option (Int32 × Int32)
  | .scale _ _ _ _ => List UInt8 × ℤ × ℤ
  | .createWorker _ => Unit
  | .beginRecognition _ => Unit
  | .endRecognition _ => EngineReply
  | .loadFlag _ => Bool
  | .storeFlag _ _ => Unit
  | .loadReason => OperationReason
  | .storeReason _ => Unit
  | .loadDisplayState => DisplayState
  | .storeDisplayState _ => Unit
  | .loadChallenge => UInt64
  | .storeChallenge _ => Unit
  | .now => ℕ
  | .loadAuthStartTime => ℕ
  | .storeAuthStartTime _ => Unit
  | .startOperation => Unit
  | .cancelAll => Unit
  | .loadEnrollFrameCount => Int32
  | .startCamera => CameraStart
  | .stopCamera => Unit
  | .post _ => Unit

end SessionAccess

abbrev SessionI : Interface := ⟨SessionAccess, SessionAccess.Reply⟩

def access (c : SessionAccess) : Program SessionI c.Reply := @Program.perform SessionI c

namespace SessionProgram

def recognize (call : RecognitionCall) : Program SessionI EngineReply := do
  access (.beginRecognition call)
  access (.endRecognition call)

/-- The worker after `authenticate`. -/
def afterAuthenticate (userId : Int32) (reply : EngineReply) : Program SessionI Unit := do
  if reply.res = 0 then
    access (.storeFlag .authenticate false)
    access (.storeReason .unknown)
    access .stopCamera
    let challenge ← access .loadChallenge
    access (.post (.onAuthenticationSucceeded reply.faceId
      ⟨challenge.toInt64, userId.toInt64, 0, 0⟩))
  else if 0 < reply.res then
    if reply.res = 1 ∨ reply.res = VendorCode.failed then
      access (.post .onAuthenticationFailed)
    else
      let (info, vendorCode) := mapVendorCode reply.res
      access (.post (.onAuthenticationFrame info vendorCode))

/-- The worker after `analyzeFaceQuality`. -/
def afterAnalyze (reply : EngineReply) : Program SessionI Unit := do
  if reply.res = VendorCode.faceOk then
    access (.storeFlag .detectInteraction false)
    access .stopCamera
    access (.post .onInteractionDetected)

/-- The worker after `enroll`. -/
def afterEnroll (reply : EngineReply) : Program SessionI Unit := do
  let enrollFrameCount ← access .loadEnrollFrameCount
  let remaining := FaceEngine.enrollRequiredGoodFrames - enrollFrameCount
  if reply.res = VendorCode.faceOk then
    access (.storeFlag .enroll false)
    access .stopCamera
    access (.post (.onEnrollmentProgress reply.faceId 0))
  else if reply.res = VendorCode.keep then
    access (.post (.onEnrollmentProgress reply.faceId remaining))
  else
    let (info, vendorCode) := mapVendorCode reply.res
    access (.post (.onEnrollmentFrame info vendorCode))

/-- The three branches of the worker. -/
def processFrame (userId : Int32) (frame : WorkerFrame) : Program SessionI Unit := do
  if ← access (.loadFlag .authenticate) then
    afterAuthenticate userId (← recognize (.authenticate frame userId))
  else if ← access (.loadFlag .detectInteraction) then
    afterAnalyze (← recognize (.analyzeFaceQuality frame))
  else if ← access (.loadFlag .enroll) then
    afterEnroll (← recognize (.enroll userId frame))

/-- The thread that `onCameraFrame` starts. -/
def worker (userId : Int32) (frame : WorkerFrame) : Program SessionI Unit := do
  if ← access .isCancelled then
    access .resetProcessingFrame
    return
  processFrame userId frame
  access .resetProcessingFrame

def onCameraFrame (frame : List UInt8) (width height angle : Int32) : Program SessionI Int32 := do
  if ← access .isCancelled then
    return -1
  if !(← access .claimProcessingFrame) then
    return -1
  let reported ← access .getOptimalResolution
  let (frameCopy, processingWidth, processingHeight) ←
    access (.scale frame width height reported)
  access (.createWorker ⟨frameCopy, processingWidth, processingHeight, angle⟩)
  return 0

def cancel : Program SessionI Unit := do
  if ← access (.loadFlag .authenticate) <||> access (.loadFlag .enroll) <||>
      access (.loadFlag .detectInteraction) then
    access (.post (.onError .canceled 0))
  access (.storeFlag .authenticate false)
  access (.storeFlag .enroll false)
  access (.storeFlag .detectInteraction false)
  access (.storeReason .unknown)
  access .cancelAll
  access .stopCamera

def close : Program SessionI Unit := do
  cancel
  access (.post .onSessionClosed)

/-- The end of the three operations. -/
def startCamera (kind : OperationKind) : Program SessionI Unit := do
  match ← access .startCamera with
  | .started => return
  | .failed code =>
      let v := if code = 0 then VendorCode.cameraNoDevice else code
      access (.storeFlag kind false)
      access (.post (.onError .vendor v))

def enroll : Program SessionI Unit := do
  access .startOperation
  access (.storeFlag .enroll true)
  startCamera .enroll

def inferReason : Program SessionI Unit := do
  if (← access .loadReason) = .unknown then
    if (← access .loadDisplayState) = .lockscreen then
      access (.storeReason .keyguard)
    else
      access (.storeReason .biometricPrompt)

def authenticate (operationId : Int64) : Program SessionI Unit := do
  access (.storeChallenge operationId.toUInt64)
  access .startOperation
  access (.storeFlag .authenticate true)
  access (.storeAuthStartTime (← access .now))
  inferReason
  startCamera .authenticate

def authenticateWithContext (operationId : Int64) (context : OperationContext) :
    Program SessionI Unit := do
  access (.storeReason context.reason)
  authenticate operationId

def detectInteraction : Program SessionI Unit := do
  access .startOperation
  access (.storeFlag .detectInteraction true)
  startCamera .detectInteraction

/-- The prompt that an authentication was for is no longer active. -/
def promptOver (context : OperationContext) : Program SessionI Bool := do
  if ← access (.loadFlag .authenticate) then
    if (← access .loadReason) = .biometricPrompt ∧ context.reason ≠ .biometricPrompt then
      let now ← access .now
      return !(now - (← access .loadAuthStartTime) < 1000)
  return false

/-- The display was turned off, and no prompt is shown. -/
def displayOff (context : OperationContext) : Program SessionI Bool := do
  if context.displayState = .aod ∨ context.displayState = .noUi then
    return (← access .loadReason) != .biometricPrompt
  return false

/-- An authentication goes on at the lock screen. -/
def correctReason (context : OperationContext) : Program SessionI Unit := do
  if context.displayState = .lockscreen then
    if ← access (.loadFlag .authenticate) then
      if (← access .loadReason) ≠ .keyguard then
        access (.storeReason .keyguard)

/-- The lock screen that an authentication was for is no longer active. -/
def lockscreenOver (context : OperationContext) : Program SessionI Bool := do
  if ← access (.loadFlag .authenticate) then
    if (← access .loadReason) = .keyguard then
      return context.displayState != .lockscreen
    if (← access .loadDisplayState) = .lockscreen then
      return context.displayState != .lockscreen
  return false

/-- `onContextChanged` once the reason is stored. -/
def followContext (context : OperationContext) : Program SessionI Unit := do
  if ← promptOver context then
    cancel
    return
  access (.storeDisplayState context.displayState)
  if ← displayOff context then
    cancel
    return
  correctReason context
  if ← lockscreenOver context then
    cancel

def onContextChanged (context : OperationContext) : Program SessionI Unit := do
  if context.reason ≠ .unknown then
    access (.storeReason context.reason)
  followContext context

end SessionProgram

/-- What a thread of a session is called for. -/
inductive SessionEntry where
  | onCameraFrame (frame : List UInt8) (width height angle : Int32)
  | cancel
  | close
  | enroll
  | authenticate (operationId : Int64)
  | authenticateWithContext (operationId : Int64) (context : OperationContext)
  | detectInteraction
  | onContextChanged (context : OperationContext)
deriving DecidableEq

def SessionEntry.program : SessionEntry → Program SessionI Unit
  | .onCameraFrame frame width height angle => do
      let _ ← SessionProgram.onCameraFrame frame width height angle
  | .cancel => SessionProgram.cancel
  | .close => SessionProgram.close
  | .enroll => SessionProgram.enroll
  | .authenticate operationId => SessionProgram.authenticate operationId
  | .authenticateWithContext operationId context =>
      SessionProgram.authenticateWithContext operationId context
  | .detectInteraction => SessionProgram.detectInteraction
  | .onContextChanged context => SessionProgram.onContextChanged context

def Session.setFlag (kind : OperationKind) (value : Bool) (s : Session) : Session :=
  match kind with
  | .enroll => { s with isEnrolling := value }
  | .authenticate => { s with isAuthenticating := value }
  | .detectInteraction => { s with isDetectingInteraction := value }

namespace SessionAccess

/-- The replies to an access. Where the scaling has no defined result, it may give any. -/
def Gives (v : SessionView) : (c : SessionAccess) → c.Reply → Prop
  | .isCancelled, r => r = v.engine.isCancelled
  | .claimProcessingFrame, r => r = !v.session.processingFrame
  | .scale frame width height reported, r => ∀ scaled,
      Session.frameToProcess frame width height reported = some scaled →
        r = (scaled.1.cells, scaled.2)
  | .loadFlag kind, r => r = v.session.flag kind
  | .loadReason, r => r = v.session.currentOperationReason
  | .loadDisplayState, r => r = v.session.currentDisplayState
  | .loadChallenge, r => r = v.session.currentChallenge
  | .loadAuthStartTime, r => r = v.session.authStartTime
  | .loadEnrollFrameCount, r => r = v.engine.enrollFrameCount
  | .startCamera, r => v.session.cameraRunning = true → r = .started
  | _, _ => True

def effect (v : SessionView) : (c : SessionAccess) → c.Reply → SessionView
  | .claimProcessingFrame, claimed =>
      if claimed then v.onSession fun s => { s with processingFrame := true } else v
  | .resetProcessingFrame, _ => v.onSession fun s => { s with processingFrame := false }
  | .endRecognition _, reply =>
      v.onEngine fun e => { e with enrollFrameCount := reply.enrollFrameCount }
  | .storeFlag kind value, _ => v.onSession (Session.setFlag kind value)
  | .storeReason reason, _ => v.onSession fun s => { s with currentOperationReason := reason }
  | .storeDisplayState displayState, _ =>
      v.onSession fun s => { s with currentDisplayState := displayState }
  | .storeChallenge challenge, _ => v.onSession fun s => { s with currentChallenge := challenge }
  | .storeAuthStartTime time, _ => v.onSession fun s => { s with authStartTime := time }
  | .startOperation, _ => v.onEngine FaceEngine.startOperation
  | .cancelAll, _ => v.onEngine FaceEngine.cancelAll
  | .startCamera, start =>
      if start = .started then v.onSession fun s => { s with cameraRunning := true } else v
  | .stopCamera, _ => v.onSession fun s => { s with cameraRunning := false }
  | .post callback, _ => v.answer callback
  | _, _ => v

end SessionAccess

def sessionAccesses : Environment SessionI SessionView :=
  fun c v r v' => c.Gives v r ∧ v' = c.effect v r

/-- Every access returns; when `stop()` of the camera does is the subject of `CameraProgress`. -/
theorem sessionAccesses_answer (c : SessionAccess) (v : SessionView) :
    ∃ r v', sessionAccesses c v r v' := by
  have hgives : ∃ r, c.Gives v r := by
    cases c with
    | isCancelled | claimProcessingFrame | loadFlag _ | loadReason | loadDisplayState |
        loadChallenge | loadAuthStartTime | loadEnrollFrameCount => exact ⟨_, rfl⟩
    | scale frame width height reported =>
        cases hscaled : Session.frameToProcess frame width height reported with
        | none => exact ⟨([], 0, 0), fun _ h => nomatch h.symm.trans hscaled⟩
        | some scaled =>
            exact ⟨(scaled.1.cells, scaled.2), fun _ h => by
              rw [Option.some.inj (hscaled.symm.trans h)]⟩
    | startCamera => exact ⟨.started, fun _ => rfl⟩
    | getOptimalResolution => exact ⟨none, trivial⟩
    | now => exact ⟨0, trivial⟩
    | endRecognition _ => exact ⟨noReply, trivial⟩
    | _ => exact ⟨(), trivial⟩
  obtain ⟨r, hr⟩ := hgives
  exact ⟨r, c.effect v r, hr, rfl⟩

end FaceHal
