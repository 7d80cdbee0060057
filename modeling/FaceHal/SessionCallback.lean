import FaceHal.FaceEngine

/-!
# What a session reports

The callbacks that a session posts to its client. Some of them end the operation
they belong to, others report on it while it goes on, and the rest answer calls
that are not operations.
-/
namespace FaceHal

inductive Error where
  | canceled
  | vendor
deriving DecidableEq, Repr

inductive AcquiredInfo where
  | good
  | insufficient
  | tooBright
  | tooDark
  | tooClose
  | tooFar
  | faceTooHigh
  | faceTooLow
  | faceTooRight
  | faceTooLeft
  | tooMuchMotion
  | notDetected
  | panTooExtreme
  | faceObscured
  | vendor
deriving DecidableEq, Repr

inductive Feature where
  | requireAttention
  | requireDiversePoses
  | debug
deriving DecidableEq, Repr

structure HardwareAuthToken where
  challenge : Int64
  userId : Int64
  authenticatorId : Int64
  timestampMilliSeconds : Int64
deriving DecidableEq, Repr

/-- The cases of `AcquiredInfoMapper::mapVendorCode`. -/
def acquiredInfos : List (Int32 × AcquiredInfo) :=
  [(VendorCode.faceOk, .good), (VendorCode.keep, .good), (VendorCode.failed, .insufficient),
    (VendorCode.faceNotFound, .notDetected), (VendorCode.faceTooSmall, .tooFar),
    (VendorCode.faceTooLarge, .tooClose), (VendorCode.faceOffsetLeft, .faceTooRight),
    (VendorCode.faceOffsetRight, .faceTooLeft), (VendorCode.faceOffsetUp, .faceTooLow),
    (VendorCode.faceOffsetDown, .faceTooHigh), (VendorCode.faceRotatedLeft, .panTooExtreme),
    (VendorCode.faceRotatedRight, .panTooExtreme), (VendorCode.faceBlur, .tooMuchMotion),
    (VendorCode.faceNotComplete, .faceObscured), (VendorCode.darklight, .tooDark),
    (VendorCode.highlight, .tooBright), (VendorCode.halfShadow, .insufficient),
    (VendorCode.faceMulti, .insufficient)]

/-- The acquired info of an engine result and the vendor code passed on with it. -/
def mapVendorCode (res : Int32) : AcquiredInfo × Int32 :=
  ((acquiredInfos.lookup res).getD .vendor, res)

inductive Callback where
  | onError (error : Error) (vendorCode : Int32)
  | onAuthenticationSucceeded (enrollmentId : Int32) (hat : HardwareAuthToken)
  | onAuthenticationFailed
  | onAuthenticationFrame (acquiredInfo : AcquiredInfo) (vendorCode : Int32)
  | onInteractionDetected
  | onEnrollmentProgress (enrollmentId remaining : Int32)
  | onEnrollmentFrame (acquiredInfo : AcquiredInfo) (vendorCode : Int32)
  | onChallengeGenerated (challenge : Int64)
  | onChallengeRevoked (challenge : Int64)
  | onEnrollmentsEnumerated (enrollmentIds : List Int32)
  | onEnrollmentsRemoved (enrollmentIds : List Int32)
  | onFeaturesRetrieved (features : List Feature)
  | onFeatureSet (feature : Feature)
  | onAuthenticatorIdRetrieved (authenticatorId : Int64)
  | onLockoutCleared
  | onSessionClosed
deriving DecidableEq, Repr

namespace Callback

/-- The callback reports the end of an operation. -/
def isTerminal : Callback → Bool
  | .onError _ _ | .onAuthenticationSucceeded _ _ | .onInteractionDetected => true
  | .onEnrollmentProgress _ remaining => remaining = 0
  | _ => false

/-- A frame, progress, failure or success callback. -/
def isReport : Callback → Bool
  | .onAuthenticationSucceeded _ _ | .onAuthenticationFailed | .onAuthenticationFrame _ _ => true
  | .onInteractionDetected | .onEnrollmentProgress _ _ | .onEnrollmentFrame _ _ => true
  | _ => false

end Callback

/-- A callback in the order of posting, with the operation it reports on and the
operation that was in progress when the frame behind it was delivered. -/
structure Post where
  callback : Callback
  operation : Option ℕ
  frameOperation : Option ℕ
deriving DecidableEq, Repr

inductive OperationKind where
  | enroll
  | authenticate
  | detectInteraction
deriving DecidableEq, Repr

/-- The operation that a session was asked for. -/
inductive RequestedOperation where
  | enroll
  | authenticate (operationId : Int64)
  | detectInteraction
deriving DecidableEq, Repr

def RequestedOperation.kind : RequestedOperation → OperationKind
  | .enroll => .enroll
  | .authenticate _ => .authenticate
  | .detectInteraction => .detectInteraction

end FaceHal
