import Mathlib.Data.Nat.Notation

/-!
# The engine as sessions see it

`FaceEngine` is a process-wide singleton. The part of it in its header is a
cancelled flag, the count of enrolment frames, two feature switches and a single
slot for the session that camera frames are passed to. The recognition itself is
in a library: a call of it is answered by a reply.
-/
namespace FaceHal

namespace VendorCode

def faceOk : Int32 := 0
def failed : Int32 := 3
def faceNotFound : Int32 := 5
def faceTooSmall : Int32 := 6
def faceTooLarge : Int32 := 7
def faceOffsetLeft : Int32 := 8
def faceOffsetRight : Int32 := 10
def faceOffsetUp : Int32 := 11
def faceOffsetDown : Int32 := 12
def faceRotatedLeft : Int32 := 15
def faceRotatedRight : Int32 := 17
def keep : Int32 := 19
def faceMulti : Int32 := 27
def faceBlur : Int32 := 28
def faceNotComplete : Int32 := 29
def darklight : Int32 := 30
def highlight : Int32 := 31
def halfShadow : Int32 := 32
def cameraNoDevice : Int32 := 50
def cameraIdSelectFailed : Int32 := 51
def cameraManagerFailed : Int32 := 52
def cameraOpenFailed : Int32 := 53
def cameraImageReaderFailed : Int32 := 54
def cameraWindowFailed : Int32 := 55
def cameraSessionFailed : Int32 := 56
def cameraRequestFailed : Int32 := 57
def cameraStreamingFailed : Int32 := 58
def requireReenrollment : Int32 := 1059

end VendorCode

structure FaceEngine where
  cancelled : Bool
  enrollFrameCount : Int32
  requireAttention : Bool
  requireDiversePoses : Bool
  /-- The session whose callback is in the slot. -/
  sessionFrameCallback : Option ℕ
deriving DecidableEq, Repr

namespace FaceEngine

def enrollRequiredGoodFrames : Int32 := 5

/-- The engine when the process starts. -/
def initial : FaceEngine := ⟨false, 0, true, false, none⟩

def resetEnrollment (e : FaceEngine) : FaceEngine := { e with enrollFrameCount := 0 }

def cancelAll (e : FaceEngine) : FaceEngine := { e with cancelled := true }.resetEnrollment

def startOperation (e : FaceEngine) : FaceEngine := { e with cancelled := false }

def isCancelled (e : FaceEngine) : Bool := e.cancelled

def setSessionFrameCallback (e : FaceEngine) (cb : Option ℕ) : FaceEngine :=
  { e with sessionFrameCallback := cb }

def setRequireAttention (e : FaceEngine) (enabled : Bool) : FaceEngine :=
  { e with requireAttention := enabled }

def setRequireDiversePoses (e : FaceEngine) (enabled : Bool) : FaceEngine :=
  { e with requireDiversePoses := enabled }

end FaceEngine

/-- What comes back from `authenticate`, `analyzeFaceQuality` or `enroll`, with
the frame count that the engine leaves. -/
structure EngineReply where
  res : Int32
  faceId : Int32
  enrollFrameCount : Int32
deriving DecidableEq, Repr

end FaceHal
