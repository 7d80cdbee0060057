import FaceHal.CameraWarmUp
import FaceHal.ProgramRefinement

/-!
# Which camera is opened, and with which size

`start` again, with the fields that `CameraBackend` leaves out: the id of the camera, the
angle of its frames and the size of the images. What the NDK sees of it is `openCamera`,
so the account of the objects holds of it. An id that was cached when the process started
is used without a wait; if it cannot be opened it is forgotten, and another one is
selected. The angle is then that of the new camera, the size stays that of the first.
-/
namespace FaceHal
open Program Camera2NdkBackend

/-- The fields of the backend that say what it opens. -/
structure CameraSelection where
  cameraId : Text := []
  width : Int32 := 640
  height : Int32 := 480
  frameAngle : Int32 := 0

/-- All fields that `start` works on. -/
structure StartingBackend where
  backend : CameraBackend
  selection : CameraSelection

def StartingBackend.withHandles (x : StartingBackend) (handles : CameraHandles) : StartingBackend :=
  { x with backend := { x.backend with handles := handles } }

namespace StartingBackend

def failed (x : StartingBackend) (vendorCode : Int32) : Program CameraI (StartingBackend × Bool) :=
  return ({ x with backend := { x.backend with lastStartFailure := vendorCode } }, false)

/-- Wait for a camera and select one; `mCameraId` is written, and there may be a failure. -/
def selectCamera (mgr timeoutMs : ℕ) (sel : CameraSelection) :
    Program CameraI (CameraSelection × Option Int32) := do
  if !(← CameraProbe.waitForNonEmptyCameraList mgr timeoutMs) then
    return (sel, some VendorCode.cameraNoDevice)
  else
    match ← CameraProbe.selectFrontCameraId mgr with
    | none => return (sel, some VendorCode.cameraIdSelectFailed)
    | some [] => return ({ sel with cameraId := [] }, some VendorCode.cameraIdSelectFailed)
    | some id => return ({ sel with cameraId := id }, none)

/-- The loop that opens the device, with the retries left. -/
def openDevice (mgr : ℕ) : ℕ → StartingBackend → Program CameraI (StartingBackend × Bool)
  | retries, x => do
      let some rdr ← camera (.newReader x.selection.width x.selection.height)
        | failed x VendorCode.cameraImageReaderFailed
      let x := x.withHandles { x.backend.handles with rdr := some rdr }
      if !(← camera (.ndk (.getWindow rdr))) then
        camera (.ndk (.delete ⟨.reader, rdr⟩))
        let x := x.withHandles { x.backend.handles with rdr := none, win := false }
        failed x VendorCode.cameraWindowFailed
      else
        let x := x.withHandles { x.backend.handles with win := true }
        match ← camera (.openCamera mgr x.selection.cameraId) with
        | some dev => return (x.withHandles { x.backend.handles with dev := some dev }, true)
        | none =>
            camera (.ndk (.delete ⟨.reader, rdr⟩))
            let x := x.withHandles { x.backend.handles with rdr := none, win := false }
            match retries with
            | 0 => failed x VendorCode.cameraOpenFailed
            | retries + 1 =>
                camera .clearWarmedCameraId
                match ← selectCamera mgr 8000 x.selection with
                | (sel, some vendorCode) => failed { x with selection := sel } vendorCode
                | (sel, none) =>
                    let frameAngle ← CameraProbe.getPreviewRotationDegrees mgr sel.cameraId
                    openDevice mgr retries
                      { x with selection := { sel with frameAngle := frameAngle } }

/-- No camera id and no size appears in the calls of this part. -/
def openSession (x : StartingBackend) : Program CameraI (StartingBackend × Bool) := do
  let (backend, opened) ← (CameraBackend.openSession x.backend).expand fun c => camera (.ndk c)
  return ({ x with backend := backend }, opened)

/-- The id that was cached, or one that is selected. -/
def firstCamera (mgr : ℕ) (warmed : Option Text) (sel : CameraSelection) :
    Program CameraI (CameraSelection × Option Int32) :=
  match warmed with
  | some id => return ({ sel with cameraId := id }, none)
  | none => selectCamera mgr 10000 sel

/-- The rest of `start` once `mCameraId` is set. -/
def openSelected (mgr retries : ℕ) (x : StartingBackend) :
    Program CameraI (StartingBackend × Bool) := do
  let frameAngle ← CameraProbe.getPreviewRotationDegrees mgr x.selection.cameraId
  let size ← CameraProbe.getMaxSupportedResolution mgr x.selection.cameraId
  let (width, height) := size.getD (640, 480)
  let (x, opened) ← openDevice mgr retries
    { x with selection := ⟨x.selection.cameraId, width, height, frameAngle⟩ }
  if opened then openSession x else return (x, false)

/-- `start` after the check of `mIsRunning`, up to the teardown where it fails. -/
def openCamera (x : StartingBackend) (cb : Bool) : Program CameraI (StartingBackend × Bool) := do
  let x := { x with backend := { x.backend with callback := cb, lastStartFailure := 0 } }
  let some mgr ← camera (.ndk (.create .manager [])) | failed x VendorCode.cameraManagerFailed
  let x := x.withHandles { x.backend.handles with mgr := some mgr }
  let warmed ← camera .readWarmedCameraId
  match ← firstCamera mgr warmed x.selection with
  | (sel, some vendorCode) => failed { x with selection := sel } vendorCode
  | (sel, none) => openSelected mgr (if warmed.isSome then 1 else 0) { x with selection := sel }

/-- The call makes and deletes no object of the NDK. -/
def Probes : CameraCall → Prop
  | .ndk _ | .newReader _ _ | .openCamera _ _ => False
  | _ => True

section uses
open CameraProbe

theorem uses_camera {c : CameraCall} (hc : Probes c) : (camera c).Uses Probes :=
  ⟨hc, fun _ => trivial⟩

theorem uses_releaseList (list : Option CameraIdList) : (releaseList list).Uses Probes := by
  cases list with
  | none => trivial
  | some list => exact ⟨trivial, fun _ => trivial⟩

theorem uses_pollCameraList (mgr passes : ℕ) : (pollCameraList mgr passes).Uses Probes := by
  induction passes with
  | zero => trivial
  | succ passes ih =>
      refine ⟨trivial, ?_⟩
      rintro ⟨ok, list⟩
      change (if _ then _ else _ : Program CameraI Bool).Uses Probes
      split_ifs
      · exact uses_bind (uses_releaseList list) fun _ => trivial
      · exact uses_bind (uses_releaseList list) fun _ => trivial
      · exact uses_bind (uses_releaseList list) fun _ => ⟨trivial, fun _ => ih⟩

theorem uses_findFront (mgr : ℕ) (ids : List Text) : (findFront mgr ids).Uses Probes := by
  induction ids with
  | nil => trivial
  | cons id rest ih =>
      refine ⟨trivial, ?_⟩
      rintro (_ | chars)
      · exact ih
      · refine ⟨trivial, fun entry => ⟨trivial, fun _ => ?_⟩⟩
        change (if _ then _ else _ : Program CameraI Text).Uses Probes
        split_ifs
        · trivial
        · exact ih

theorem uses_selectFrontCameraId (mgr : ℕ) : (selectFrontCameraId mgr).Uses Probes := by
  refine ⟨trivial, ?_⟩
  rintro ⟨ok, _ | ⟨list, ids⟩⟩
  · trivial
  · change (if _ then _ else _ : Program CameraI (Option Text)).Uses Probes
    split_ifs
    · exact ⟨trivial, fun _ => trivial⟩
    · cases ids with
      | nil => exact ⟨trivial, fun _ => trivial⟩
      | cons firstId rest =>
          exact uses_bind (uses_findFront mgr (firstId :: rest)) fun _ =>
            ⟨trivial, fun _ => trivial⟩

theorem uses_getPreviewRotationDegrees (mgr : ℕ) (cameraId : Text) :
    (getPreviewRotationDegrees mgr cameraId).Uses Probes := by
  refine ⟨trivial, ?_⟩
  rintro (_ | chars)
  · trivial
  · exact ⟨trivial, fun _ => ⟨trivial, fun _ => ⟨trivial, fun _ => trivial⟩⟩⟩

theorem uses_getMaxSupportedResolution (mgr : ℕ) (cameraId : Text) :
    (getMaxSupportedResolution mgr cameraId).Uses Probes := by
  refine ⟨trivial, ?_⟩
  rintro (_ | chars)
  · trivial
  · exact ⟨trivial, fun _ => ⟨trivial, fun _ => trivial⟩⟩

end uses

section refinement
variable {P : CameraProvider}

theorem silent_of_probes {α : Type} {p : Program CameraI α} (hp : p.Uses Probes) :
    Silent (cameraEnv P) CameraService.ndk p := by
  refine silent_of_uses (fun c hc s r t h => ?_) hp
  cases c with
  | ndk _ | newReader _ _ | openCamera _ _ => exact hc.elim
  | getCameraIdList mgr => obtain ⟨-, ⟨-, rfl⟩ | ⟨_, -, -, rfl⟩⟩ := h <;> rfl
  | getCameraCharacteristics mgr id => obtain ⟨-, -, rfl⟩ | ⟨_, -, -, rfl⟩ := h <;> rfl
  | getConstEntry _ _ => obtain ⟨-, rfl⟩ := h; rfl
  | readWarmedCameraId => obtain ⟨rfl, -⟩ := h; rfl
  | _ => obtain rfl : t = _ := h; rfl

theorem refines_ndk (c : NdkCall) :
    Refines (cameraEnv P) ndkEnv CameraService.ndk (camera (.ndk c)) (ndk c) (· = ·) := by
  refine refines_perform (I := CameraI) (J := NdkI) (c := CameraCall.ndk c) (d := c) ?_
  rintro s r t ⟨w, hw, rfl⟩
  exact ⟨r, hw, rfl⟩

theorem refines_newReader (width height : Int32) :
    Refines (cameraEnv P) ndkEnv CameraService.ndk (camera (.newReader width height))
      (ndk (.create .reader [])) (· = ·) := by
  refine refines_perform (I := CameraI) (J := NdkI) (c := CameraCall.newReader width height)
    (d := NdkCall.create .reader []) ?_
  rintro s r t (⟨rfl, rfl⟩ | ⟨rfl, rfl⟩)
  · exact ⟨none, .inl ⟨rfl, rfl⟩, rfl⟩
  · exact ⟨_, .inr ⟨rfl, rfl⟩, rfl⟩

theorem refines_openCamera (mgr : ℕ) (cameraId : Text) (given : List (HandleKind × Option ℕ)) :
    Refines (cameraEnv P) ndkEnv CameraService.ndk (camera (.openCamera mgr cameraId))
      (ndk (.create .device given)) (· = ·) := by
  refine refines_perform (I := CameraI) (J := NdkI) (c := CameraCall.openCamera mgr cameraId)
    (d := NdkCall.create .device given) ?_
  rintro s r t (⟨rfl, rfl⟩ | ⟨rfl, rfl⟩)
  · exact ⟨none, .inl ⟨rfl, rfl⟩, rfl⟩
  · exact ⟨_, .inr ⟨rfl, rfl⟩, rfl⟩

theorem refines_ask {α : Type} {p : Program CameraI α} (hp : p.Uses Probes) (c : NdkCall)
    (answer : α → c.Reply) (hc : ∀ w r, ndkEnv c w r w) :
    Refines (cameraEnv P) ndkEnv CameraService.ndk p (ndk c) fun a r => r = answer a :=
  refines_answer answer (silent_of_probes hp) hc

theorem refines_selectCamera (mgr timeoutMs : ℕ) (sel : CameraSelection) :
    Refines (cameraEnv P) ndkEnv CameraService.ndk (selectCamera mgr timeoutMs sel)
      (CameraBackend.probeCamera timeoutMs) fun a b => a.2 = b := by
  unfold selectCamera CameraBackend.probeCamera
  refine refines_bind (refines_ask (uses_pollCameraList mgr _)
    (.waitForNonEmptyCameraList timeoutMs) (fun found => found) fun _ _ => rfl) ?_
  rintro _ found rfl
  cases found with
  | false => exact refines_done rfl
  | true =>
      refine refines_bind (refines_ask (uses_selectFrontCameraId mgr) .selectFrontCamera
        (fun id => decide (id.getD [] ≠ [])) fun _ _ => rfl) ?_
      rintro id _ rfl
      rcases id with _ | _ | ⟨c, cs⟩
      · exact refines_done rfl
      · exact refines_done rfl
      · exact refines_done rfl

/-- The loop, by induction on the retries left. -/
theorem refines_openDevice (mgr retries : ℕ) (x : StartingBackend) :
    Refines (cameraEnv P) ndkEnv CameraService.ndk (openDevice mgr retries x)
      (CameraBackend.openDevice mgr retries x.backend) fun a b => (a.1.backend, a.2) = b := by
  induction retries using Nat.strong_induction_on generalizing x with
  | _ retries ih =>
      unfold openDevice CameraBackend.openDevice
      refine refines_bind (refines_newReader _ _) ?_
      rintro (_ | rdr) _ rfl
      · exact refines_done rfl
      refine refines_bind (refines_ndk _) ?_
      rintro gotWindow _ rfl
      cases gotWindow with
      | false =>
          refine refines_bind (refines_ndk _) ?_
          rintro _ _ rfl
          exact refines_done rfl
      | true =>
          refine refines_bind (refines_openCamera mgr _ _) ?_
          rintro (_ | dev) _ rfl
          · refine refines_bind (refines_ndk _) ?_
            rintro _ _ rfl
            cases retries with
            | zero => exact refines_done rfl
            | succ retries =>
                refine refines_bind (refines_ask (uses_camera (c := .clearWarmedCameraId) trivial)
                  .clearWarmedCameraId (fun _ => ()) fun _ _ => rfl) ?_
                rintro _ _ rfl
                refine refines_bind (refines_selectCamera mgr 8000 _) ?_
                rintro ⟨sel, _ | vendorCode⟩ _ rfl
                · refine refines_silent
                    (silent_of_probes (uses_getPreviewRotationDegrees mgr _)) fun angle => ?_
                  exact ih retries (Nat.lt_succ_self retries) _
                · exact refines_done rfl
          · exact refines_done rfl

theorem refines_openSession (x : StartingBackend) :
    Refines (cameraEnv P) ndkEnv CameraService.ndk (openSession x)
      (CameraBackend.openSession x.backend) fun a b => (a.1.backend, a.2) = b := by
  unfold openSession
  conv => arg 5; rw [← bind_pure (CameraBackend.openSession x.backend)]
  refine refines_bind (refines_expand refines_ndk _) ?_
  rintro b _ rfl
  exact refines_done rfl

theorem refines_openSelected (mgr retries : ℕ) (x : StartingBackend) :
    Refines (cameraEnv P) ndkEnv CameraService.ndk (openSelected mgr retries x) (do
        let (b, opened) ← CameraBackend.openDevice mgr retries x.backend
        if opened then CameraBackend.openSession b else return (b, false))
      fun a b => (a.1.backend, a.2) = b := by
  refine refines_silent (silent_of_probes (uses_getPreviewRotationDegrees mgr _)) fun angle => ?_
  refine refines_silent (silent_of_probes (uses_getMaxSupportedResolution mgr _)) fun size => ?_
  refine refines_bind (refines_openDevice mgr retries _) ?_
  rintro ⟨x', opened⟩ _ rfl
  cases opened with
  | false => exact refines_done rfl
  | true => exact refines_openSession x'

/-- What the NDK sees of `start` is what it does in the model without the ids, angles and
sizes. -/
theorem refines_start (x : StartingBackend) (cb : Bool) :
    Refines (cameraEnv P) ndkEnv CameraService.ndk (openCamera x cb)
      (x.backend.openCamera cb) fun a b => (a.1.backend, a.2) = b := by
  unfold openCamera CameraBackend.openCamera
  refine refines_bind (refines_ndk _) ?_
  rintro (_ | mgr) _ rfl
  · exact refines_done rfl
  refine refines_bind (refines_ask (uses_camera (c := .readWarmedCameraId) trivial)
    .warmedCameraId Option.isSome fun _ _ => rfl) ?_
  rintro warmed _ rfl
  cases warmed with
  | none =>
      refine refines_bind (refines_selectCamera mgr 10000 _) ?_
      rintro ⟨sel, _ | vendorCode⟩ _ rfl
      · exact refines_openSelected mgr 0 _
      · exact refines_done rfl
  | some id => exact refines_openSelected mgr 1 _

end refinement

end StartingBackend
end FaceHal
