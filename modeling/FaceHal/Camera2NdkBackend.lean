import FaceHal.FaceEngine
import FaceHal.ProgramRuns

/-!
# The camera backend

`Camera2NdkBackend` keeps the objects of the camera NDK in fields that one mutex
guards. This module has the fields, the NDK calls and the body of `start`, which
runs from beginning to end while the mutex is held. Every NDK call may fail; a call
that fails creates nothing. The threads that call the backend are in
`CameraThreads`.

What does not decide which objects exist is left out: the camera id and its
orientation, the image size and the three tables of callbacks.
-/
namespace FaceHal

inductive HandleKind where
  | manager
  | reader
  | device
  | output
  | container
  | session
  | request
  | target
deriving DecidableEq, Repr

/-- An object of the NDK. No two objects have the same number. -/
structure Handle where
  kind : HandleKind
  id : ℕ
deriving DecidableEq, Repr

inductive NdkCall where
  /-- The call that creates an object of this kind: `ACameraManager_create`,
  `AImageReader_new`, `ACameraManager_openCamera` and so on. It is given these objects,
  a window as its reader, or a null pointer. -/
  | create (kind : HandleKind) (given : List (HandleKind × Option ℕ))
  /-- The call that deletes, frees or closes an object. -/
  | delete (h : Handle)
  | getWindow (rdr : ℕ)
  /-- Whether an id was cached when the process started. -/
  | warmedCameraId
  | clearWarmedCameraId
  | waitForNonEmptyCameraList (timeoutMs : ℕ)
  /-- Whether an id was found and is not empty. -/
  | selectFrontCamera
  | containerAdd (outC out : ℕ)
  | addTarget (req tgt : ℕ)
  /-- The reader is the one whose window is the target of the request. -/
  | setRepeatingRequest (sess req : ℕ) (rdr : Option ℕ)
deriving DecidableEq

@[reducible] def NdkCall.Reply : NdkCall → Type
  | .create _ _ => Option ℕ
  | .delete _ => Unit
  | .clearWarmedCameraId => Unit
  | _ => Bool

abbrev NdkI : Interface := ⟨NdkCall, NdkCall.Reply⟩

/-- Issue one call of the NDK. -/
def ndk (c : NdkCall) : Program NdkI c.Reply := @Program.perform NdkI c

/-- What has become of the NDK: the objects created and released so far, and the
readers that frames were requested for. -/
structure Ndk where
  created : List Handle
  released : List Handle
  streaming : List ℕ

def ndkEnv : Environment NdkI Ndk
  | .create k _, w, r, w' => r = none ∧ w' = w ∨
      r = some w.created.length ∧ w' = { w with created := w.created ++ [⟨k, w.created.length⟩] }
  | .delete h, w, _, w' => w' = { w with released := w.released ++ [h] }
  | .setRepeatingRequest _ _ rdr, w, r, w' => r = false ∧ w' = w ∨
      r = true ∧ w' = { w with streaming := rdr.toList ++ w.streaming }
  | _, w, _, w' => w' = w

/-- Answer the calls as a list of successes and failures says; the calls after its
end succeed. -/
def answerFrom : (c : NdkCall) → Ndk × List Bool → c.Reply × (Ndk × List Bool)
  | .create k _, (w, replies) =>
      if replies.headD true then
        (some w.created.length,
          { w with created := w.created ++ [⟨k, w.created.length⟩] }, replies.tail)
      else (none, w, replies.tail)
  | .delete h, (w, replies) => ((), { w with released := w.released ++ [h] }, replies)
  | .clearWarmedCameraId, x => ((), x)
  | .setRepeatingRequest _ _ rdr, (w, replies) =>
      if replies.headD true then
        (true, { w with streaming := rdr.toList ++ w.streaming }, replies.tail)
      else (false, w, replies.tail)
  | .getWindow _, (w, replies) | .warmedCameraId, (w, replies)
  | .waitForNonEmptyCameraList _, (w, replies) | .selectFrontCamera, (w, replies)
  | .containerAdd _ _, (w, replies) | .addTarget _ _, (w, replies) =>
      (replies.headD true, w, replies.tail)

theorem ndkEnv_answerFrom (c : NdkCall) (x : Ndk × List Bool) :
    ndkEnv c x.1 (answerFrom c x).1 (answerFrom c x).2.1 := by
  obtain ⟨w, replies⟩ := x
  cases c with
  | create k given =>
      unfold answerFrom
      dsimp only
      split_ifs
      · exact .inr ⟨rfl, rfl⟩
      · exact .inl ⟨rfl, rfl⟩
  | setRepeatingRequest sess req rdr =>
      unfold answerFrom
      dsimp only
      split_ifs
      · exact .inr ⟨rfl, rfl⟩
      · exact .inl ⟨rfl, rfl⟩
  | _ => rfl

/-- The fields that hold objects of the NDK. The window belongs to the reader. -/
structure CameraHandles where
  mgr : Option ℕ := none
  rdr : Option ℕ := none
  win : Bool := false
  dev : Option ℕ := none
  out : Option ℕ := none
  outC : Option ℕ := none
  sess : Option ℕ := none
  req : Option ℕ := none
  tgt : Option ℕ := none
deriving DecidableEq, Repr

def CameraHandles.get (h : CameraHandles) : HandleKind → Option ℕ
  | .manager => h.mgr
  | .reader => h.rdr
  | .device => h.dev
  | .output => h.out
  | .container => h.outC
  | .session => h.sess
  | .request => h.req
  | .target => h.tgt

/-- `mWin`, as the reader that it belongs to. -/
def CameraHandles.window (h : CameraHandles) : HandleKind × Option ℕ :=
  (.reader, if h.win then h.rdr else none)

/-- The order in which `teardown` releases objects. -/
def releaseOrder : List HandleKind :=
  [.session, .target, .request, .container, .output, .device, .reader, .manager]

/-- The objects that the fields hold, in that order. -/
def CameraHandles.inOrder (h : CameraHandles) : List Handle :=
  releaseOrder.filterMap fun k => (h.get k).map (⟨k, ·⟩)

/-- A thread: one that calls the backend, or the thread on which a reader delivers
its images, one after the other. -/
inductive ThreadId where
  | other (n : ℕ)
  | image (rdr : ℕ)
deriving DecidableEq, Repr

/-- The fields that the mutex guards. `mCallback` counts as set or not. `closedBy` is
no field of the source: it lists the sessions whose closing has set `mSessionClosed`
since that was cleared. -/
structure CameraBackend where
  callback : Bool
  isRunning : Bool
  handles : CameraHandles
  lastStartFailure : Int32
  inCallback : Bool
  isStopping : Bool
  sessionClosed : Bool
  callbackThreadId : Option ThreadId
  closedBy : List ℕ

namespace CameraBackend

def initial : CameraBackend := ⟨false, false, {}, 0, false, false, false, none, []⟩

/-- `noteFailure` and a return that leads to the teardown. -/
def failed (b : CameraBackend) (vendorCode : Int32) : Program NdkI (CameraBackend × Bool) :=
  return ({ b with lastStartFailure := vendorCode }, false)

/-- Wait for a camera and select one; the reply is the code of a failure. -/
def probeCamera (timeoutMs : ℕ) : Program NdkI (Option Int32) := do
  if !(← ndk (.waitForNonEmptyCameraList timeoutMs)) then
    return some VendorCode.cameraNoDevice
  if !(← ndk .selectFrontCamera) then
    return some VendorCode.cameraIdSelectFailed
  return none

/-- The loop that opens the device. The source goes on after a failed attempt only
if it is the first one and the id was the cached one: there is one retry then, and
none otherwise. -/
def openDevice (mgr : ℕ) : ℕ → CameraBackend → Program NdkI (CameraBackend × Bool)
  | retries, b => do
      let some rdr ← ndk (.create .reader []) | failed b VendorCode.cameraImageReaderFailed
      let b := { b with handles := { b.handles with rdr := some rdr } }
      if !(← ndk (.getWindow rdr)) then
        ndk (.delete ⟨.reader, rdr⟩)
        let b := { b with handles := { b.handles with rdr := none, win := false } }
        failed b VendorCode.cameraWindowFailed
      else
        let b := { b with handles := { b.handles with win := true } }
        match ← ndk (.create .device [(.manager, some mgr)]) with
        | some dev => return ({ b with handles := { b.handles with dev := some dev } }, true)
        | none =>
            ndk (.delete ⟨.reader, rdr⟩)
            let b := { b with handles := { b.handles with rdr := none, win := false } }
            match retries with
            | 0 => failed b VendorCode.cameraOpenFailed
            | retries + 1 =>
                ndk .clearWarmedCameraId
                match ← probeCamera 8000 with
                | some vendorCode => failed b vendorCode
                | none => openDevice mgr retries b

/-- Set up the capture session on the open device. -/
def openSession (b : CameraBackend) : Program NdkI (CameraBackend × Bool) := do
  let some out ← ndk (.create .output [b.handles.window]) | failed b VendorCode.cameraSessionFailed
  let b := { b with handles := { b.handles with out := some out } }
  let some outC ← ndk (.create .container []) | failed b VendorCode.cameraSessionFailed
  let b := { b with handles := { b.handles with outC := some outC } }
  if !(← ndk (.containerAdd outC out)) then
    failed b VendorCode.cameraSessionFailed
  else
    let b := { b with sessionClosed := false, closedBy := [] }
    let some sess ← ndk (.create .session [(.device, b.handles.dev), (.container, outC)])
      | failed b VendorCode.cameraSessionFailed
    let b := { b with handles := { b.handles with sess := some sess } }
    let some req ← ndk (.create .request [(.device, b.handles.dev)])
      | failed b VendorCode.cameraRequestFailed
    let b := { b with handles := { b.handles with req := some req } }
    let some tgt ← ndk (.create .target [b.handles.window])
      | failed b VendorCode.cameraRequestFailed
    let b := { b with handles := { b.handles with tgt := some tgt } }
    if !(← ndk (.addTarget req tgt)) then
      failed b VendorCode.cameraRequestFailed
    else if !(← ndk (.setRepeatingRequest sess req b.handles.rdr)) then
      failed b VendorCode.cameraStreamingFailed
    else
      return ({ b with isRunning := true }, true)

/-- `start` after the check of `mIsRunning`, up to the teardown where it fails. -/
def openCamera (b : CameraBackend) (cb : Bool) : Program NdkI (CameraBackend × Bool) := do
  let b := { b with callback := cb, lastStartFailure := 0 }
  let some mgr ← ndk (.create .manager []) | failed b VendorCode.cameraManagerFailed
  let b := { b with handles := { b.handles with mgr := some mgr } }
  let usedWarmId ← ndk .warmedCameraId
  match ← if usedWarmId then pure none else probeCamera 10000 with
  | some vendorCode => failed b vendorCode
  | none =>
      let (b, opened) ← openDevice mgr (if usedWarmId then 1 else 0) b
      if opened then openSession b else return (b, false)

end CameraBackend
end FaceHal
