import FaceHal.Camera2NdkBackend
import FaceHal.Transition
import Mathlib.Logic.Function.Basic

/-!
# The threads that use the camera backend

A state is the guarded fields, the NDK and the place of every thread in the code of
the backend. A step is one critical section of the mutex, one call of the NDK made
without the mutex, or the end of a wait on the condition variable. A call of `start`
or `stop` begins with its first critical section. The destructor's call of `stop` is
one of these; `CameraDestruction` has the destructor itself and the end of the object.

`start` and `stop` may be called by any thread that is in no other code of the
backend, and by an image thread inside the frame callback. A reader delivers its
images on a thread of its own, one at a time, from the moment frames were requested
until the reader is deleted. A session or device that was opened may be reported
closed, disconnected or in error at any time.
-/
namespace FaceHal

/-- Which code has to go on after a teardown. -/
inductive AfterTeardown where
  /-- `start` returns false. -/
  | startFails
  /-- `stop` clears `mIsStopping` and returns. -/
  | stopReturns
  /-- The detached thread clears `mIsStopping` and ends. -/
  | deferredEnds
deriving DecidableEq, Repr

/-- The place of a thread in `start`, in `stop` or in the detached thread. -/
inductive CallStage where
  | none
  /-- `start` waits for the end of a stop. -/
  | startWait (cb : Bool)
  /-- `stop` waits for the end of another stop. -/
  | stopWait
  /-- The wait for `!mInCallback` before the teardown, in `stop` or deferred. -/
  | callbackWait (deferred : Bool)
  /-- In `teardown` without the mutex, with these objects still to be released. -/
  | releasing (after : AfterTeardown) (objects : List Handle)
  /-- In `teardown`, waiting up to a second for `mSessionClosed`. -/
  | awaitClosed (after : AfterTeardown) (sess : ℕ) (objects : List Handle)
deriving DecidableEq, Repr

/-- The place of an image thread in `onImageAvailable`. -/
inductive ImageStage where
  | away
  /-- Before the check of `mIsRunning`. -/
  | entered
  /-- After the check, before the guard is constructed. -/
  | checked
  /-- The guard is there, the image not yet acquired. -/
  | guarded
  /-- The image is being packed. -/
  | holding
  /-- The image is deleted, the second check is to come. -/
  | packed
  /-- In the frame callback. -/
  | inside
  /-- The guard is still to be destroyed. -/
  | leaving
deriving DecidableEq, Repr

inductive NoticeKind where
  | sessionClosed
  | deviceDisconnected
  | deviceError
deriving DecidableEq, Repr

/-- A notification of the NDK for a session or a device. -/
structure Notice where
  kind : NoticeKind
  id : ℕ
deriving DecidableEq, Repr

inductive NoticeStage where
  | none
  /-- The handler has been called. -/
  | arrived (notice : Notice)
  /-- The handler has set `shouldStop` and calls `stop`. -/
  | stopping (notice : Notice)
deriving DecidableEq, Repr

def NoticeStage.stops : NoticeStage → Bool
  | .stopping _ => true
  | _ => false

structure Thread where
  image : ImageStage := .away
  notice : NoticeStage := .none
  call : CallStage := .none
deriving DecidableEq, Repr

structure Camera where
  backend : CameraBackend
  ndk : Ndk
  thread : ThreadId → Thread

/-- `replies` are the answers of the NDK inside `start`, `spawned` the number of the
thread that a deferred teardown would run on. -/
inductive CameraLabel where
  | start (t : ThreadId) (cb : Bool) (replies : List Bool)
  | stop (t : ThreadId) (spawned : ℕ)
  /-- A call in progress goes on. -/
  | proceed (t : ThreadId) (replies : List Bool)
  | imageAvailable (rdr : ℕ)
  /-- `onImageAvailable` goes on; `ok` is whether the image was acquired or packed. -/
  | image (rdr : ℕ) (ok : Bool)
  | notify (n : ℕ) (notice : Notice)
  /-- The critical section of a handler. -/
  | handle (n : ℕ)
deriving DecidableEq

/-- The object that a notification is about. -/
def Notice.handle (n : Notice) : Handle :=
  match n.kind with
  | .sessionClosed => ⟨.session, n.id⟩
  | .deviceDisconnected | .deviceError => ⟨.device, n.id⟩

namespace Camera

def initial : Camera := ⟨.initial, ⟨[], [], []⟩, fun _ => {}⟩

def setThread (c : Camera) (t : ThreadId) (th : Thread) : Camera :=
  { c with thread := Function.update c.thread t th }

def setCall (c : Camera) (t : ThreadId) (stage : CallStage) : Camera :=
  c.setThread t { c.thread t with call := stage }

/-- A call ends, and with it the handler that made it, if one did. -/
def returns (c : Camera) (t : ThreadId) : Camera :=
  c.setThread t { c.thread t with call := .none, notice := .none }

/-- `teardown` up to the point where it gives up the mutex. -/
def teardown (c : Camera) (t : ThreadId) (after : AfterTeardown) : Camera :=
  { c.setCall t (.releasing after c.backend.handles.inOrder) with
    backend := { c.backend with handles := {} } }

/-- `start` once no stop is in progress. -/
def openOrFail (c : Camera) (t : ThreadId) (cb : Bool) (replies : List Bool) : Camera :=
  if c.backend.isRunning then c.returns t
  else
    let out := (c.backend.openCamera cb).eval answerFrom (c.ndk, replies)
    let opened := { c with backend := out.1.1, ndk := out.2.1 }
    if out.1.2 then opened.returns t else opened.teardown t .startFails

def start (c : Camera) (t : ThreadId) (cb : Bool) (replies : List Bool) : Camera :=
  if c.backend.isStopping then c.setCall t (.startWait cb) else c.openOrFail t cb replies

/-- `stop` when it is called from the frame callback of the current guard. -/
def Defers (c : Camera) (t : ThreadId) : Prop :=
  c.backend.inCallback = true ∧ c.backend.callbackThreadId = some t

instance (c : Camera) (t : ThreadId) : Decidable (c.Defers t) := inferInstanceAs (Decidable (_ ∧ _))

def stop (c : Camera) (t : ThreadId) (spawned : ℕ) : Option Camera :=
  let b := c.backend
  if !b.isRunning && !b.isStopping && b.handles.mgr.isNone then some (c.returns t)
  else if b.isStopping then some (c.setCall t .stopWait)
  else
    let stopping := { c with backend := { b with isRunning := false, isStopping := true } }
    if c.Defers t then
      if c.thread (.other spawned) = {} then
        some ((stopping.returns t).setCall (.other spawned) (.callbackWait true))
      else none
    else if b.inCallback then some (stopping.setCall t (.callbackWait false))
    else some (stopping.teardown t .stopReturns)

/-- The end of a teardown, back under the mutex. -/
def finish (c : Camera) (t : ThreadId) : AfterTeardown → Camera
  | .startFails => c.returns t
  | .stopReturns | .deferredEnds =>
      { c.returns t with backend := { c.backend with isStopping := false } }

def proceed (c : Camera) (t : ThreadId) (replies : List Bool) : Option Camera :=
  match (c.thread t).call with
  | .none => none
  | .startWait cb => if c.backend.isStopping then none else some (c.openOrFail t cb replies)
  | .stopWait => if c.backend.isStopping then none else some (c.returns t)
  | .callbackWait deferred =>
      if c.backend.inCallback then none
      else some (c.teardown t (if deferred then .deferredEnds else .stopReturns))
  | .releasing after [] => some (c.finish t after)
  | .releasing after (h :: objects) =>
      some { c.setCall t (if h.kind = .session then .awaitClosed after h.id objects
          else .releasing after objects) with
        ndk := { c.ndk with released := c.ndk.released ++ [h] } }
  -- the flag or the timeout
  | .awaitClosed after _ objects => some (c.setCall t (.releasing after objects))

/-- The next part of `onImageAvailable` on the thread of the reader. -/
def image (c : Camera) (rdr : ℕ) (ok : Bool) : Option Camera :=
  let t := ThreadId.image rdr
  let th := c.thread t
  let b := c.backend
  match th.image with
  | .away => none
  | .entered => some (c.setThread t { th with image := if b.isRunning then .checked else .away })
  | .checked =>
      some { c.setThread t { th with image := .guarded } with
        backend := { b with inCallback := true, callbackThreadId := some t } }
  | .guarded => some (c.setThread t { th with image := if ok then .holding else .leaving })
  | .holding => some (c.setThread t { th with image := if ok then .packed else .leaving })
  | .packed =>
      some (c.setThread t
        { th with image := if b.isRunning && b.callback then .inside else .leaving })
  | .inside =>
      if th.call = .none then some (c.setThread t { th with image := .leaving }) else none
  | .leaving =>
      some { c.setThread t { th with image := .away } with
        backend := { b with inCallback := false, callbackThreadId := none } }

/-- `onSessionClosed`, `onDeviceDisconnected` and `onDeviceError`. -/
def handle (c : Camera) (n : ℕ) : Option Camera :=
  let t := ThreadId.other n
  let th := c.thread t
  match th.notice with
  | .arrived notice =>
      let b := c.backend
      let stage := if b.isRunning && !b.isStopping then .stopping notice else .none
      some { c.setThread t { th with notice := stage } with
        backend := if notice.kind = .sessionClosed then
            { b with sessionClosed := true, closedBy := notice.id :: b.closedBy }
          else b }
  | _ => none

/-- Whether the thread may call `start`. -/
def MayStart (c : Camera) : ThreadId → Prop
  | .other n => c.thread (.other n) = {}
  | .image rdr => (c.thread (.image rdr)).image = .inside ∧ (c.thread (.image rdr)).call = .none

/-- Whether the thread may call `stop`; a handler that has decided to does. -/
def MayStop (c : Camera) (t : ThreadId) : Prop :=
  c.MayStart t ∨ (c.thread t).call = .none ∧ (c.thread t).notice.stops = true

instance (c : Camera) (t : ThreadId) : Decidable (c.MayStart t) :=
  match t with
  | .other n => inferInstanceAs (Decidable (c.thread (.other n) = {}))
  | .image _ => inferInstanceAs (Decidable (_ ∧ _))

instance (c : Camera) (t : ThreadId) : Decidable (c.MayStop t) :=
  inferInstanceAs (Decidable (_ ∨ _ ∧ _))

def apply (c : Camera) : CameraLabel → Option Camera
  | .start t cb replies => if c.MayStart t then some (c.start t cb replies) else none
  | .stop t spawned => if c.MayStop t then c.stop t spawned else none
  | .proceed t replies => c.proceed t replies
  | .imageAvailable rdr =>
      if rdr ∈ c.ndk.streaming ∧ ⟨.reader, rdr⟩ ∉ c.ndk.released ∧
          (c.thread (.image rdr)).image = .away then
        some (c.setThread (.image rdr) { c.thread (.image rdr) with image := .entered })
      else none
  | .image rdr ok => c.image rdr ok
  | .notify n notice =>
      if notice.handle ∈ c.ndk.created ∧ c.thread (.other n) = {} then
        some (c.setThread (.other n) { c.thread (.other n) with notice := .arrived notice })
      else none
  | .handle n => c.handle n

end Camera

def cameraStep : System Camera CameraLabel := fun c l c' => c.apply l = some c'

end FaceHal
