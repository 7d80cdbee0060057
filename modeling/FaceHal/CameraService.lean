import FaceHal.HandleOwnership
import FaceHal.ProgramContracts
import FaceHal.StreamConfigurations
import FaceHal.DecimalText

/-!
# The camera service as the backend probes it

The calls by which the backend finds a camera: the list of ids, the characteristics of a
camera with their entries, and the id that is cached when the process starts. A list
and the characteristics are objects that the caller has to give back. Creating a reader
and opening a device are here with the size and the id that `Camera2NdkBackend` leaves
out; the other calls of the NDK are those of that module.

A call for characteristics that fails makes no object. Time passes in sleeps only.
-/
namespace FaceHal

inductive MetadataTag where
  | lensFacing
  | sensorOrientation
  | availableStreamConfigurations
deriving DecidableEq, Repr

/-- What an entry is a list of. A stream configuration is four numbers of the entry. -/
@[reducible] def MetadataTag.Element : MetadataTag → Type
  | .lensFacing => UInt8
  | .sensorOrientation => Int32
  | .availableStreamConfigurations => Camera2NdkBackend.StreamConfiguration

/-- The entries of a camera that are asked for, if it has them. -/
structure CameraCharacteristics where
  lensFacing : Option (List UInt8)
  sensorOrientation : Option (List Int32)
  availableStreamConfigurations : Option (List Camera2NdkBackend.StreamConfiguration)

def CameraCharacteristics.entry (m : CameraCharacteristics) :
    (tag : MetadataTag) → Option (List tag.Element)
  | .lensFacing => m.lensFacing
  | .sensorOrientation => m.sensorOrientation
  | .availableStreamConfigurations => m.availableStreamConfigurations

/-- `ACameraIdList`. -/
structure CameraIdList where
  id : ℕ
  cameraIds : List Text

inductive CameraCall where
  /-- A call of the NDK in which no camera id and no size appears. -/
  | ndk (c : NdkCall)
  | newReader (width height : Int32)
  | openCamera (mgr : ℕ) (cameraId : Text)
  | getCameraIdList (mgr : ℕ)
  | deleteCameraIdList (list : ℕ)
  | getCameraCharacteristics (mgr : ℕ) (cameraId : Text)
  | getConstEntry (chars : ℕ) (tag : MetadataTag)
  | freeMetadata (chars : ℕ)
  | sleepFor (ms : ℕ)
  /-- `gWarmedCameraId`, if it is valid and not empty. -/
  | readWarmedCameraId
  | cacheWarmedCameraId (cameraId : Text)
  | clearWarmedCameraId

@[reducible] def CameraCall.Reply : CameraCall → Type
  | .ndk c => c.Reply
  | .newReader _ _ | .openCamera _ _ | .getCameraCharacteristics _ _ => Option ℕ
  -- whether the status is `ACAMERA_OK`, and the list unless it is null
  | .getCameraIdList _ => Bool × Option CameraIdList
  | .getConstEntry _ tag => Option (List tag.Element)
  | .readWarmedCameraId => Option Text
  | _ => Unit

abbrev CameraI : Interface := ⟨CameraCall, CameraCall.Reply⟩

/-- Issue one call of the camera service. -/
def camera (c : CameraCall) : Program CameraI c.Reply := @Program.perform CameraI c

/-- A reader and the size it was made with. -/
structure ReaderSize where
  rdr : ℕ
  width : Int32
  height : Int32
deriving DecidableEq, Repr

structure CameraService where
  ndk : Ndk
  /-- The lists that were not deleted. -/
  lists : List ℕ
  /-- The characteristics that were not freed. -/
  metadata : List (ℕ × CameraCharacteristics)
  /-- The lists and characteristics made so far. -/
  issued : ℕ
  warmedCameraId : Text
  cameraWarmValid : Bool
  /-- The time spent in sleeps, in milliseconds. -/
  slept : ℕ
  /-- History: the readers and devices made so far, newest first. -/
  readers : List ReaderSize
  devices : List (ℕ × Text)

/-- What the service may answer: to a list of ids by the time, and for a camera. -/
structure CameraProvider where
  answers : ℕ → Bool × Option (List Text) → Prop
  characteristics : Text → Option CameraCharacteristics → Prop

def Ndk.create (w : Ndk) (kind : HandleKind) : Ndk :=
  { w with created := w.created ++ [⟨kind, w.created.length⟩] }

def cameraEnv (P : CameraProvider) : Environment CameraI CameraService
  | .ndk c, s, r, t => ∃ w, ndkEnv c s.ndk r w ∧ t = { s with ndk := w }
  | .newReader width height, s, r, t => r = none ∧ t = s ∨
      r = some s.ndk.created.length ∧ t = { s with
        ndk := s.ndk.create .reader
        readers := ⟨s.ndk.created.length, width, height⟩ :: s.readers }
  | .openCamera _ cameraId, s, r, t => r = none ∧ t = s ∨
      r = some s.ndk.created.length ∧ t = { s with
        ndk := s.ndk.create .device
        devices := (s.ndk.created.length, cameraId) :: s.devices }
  | .getCameraIdList _, s, r, t => P.answers s.slept (r.1, r.2.map CameraIdList.cameraIds) ∧
      (r.2 = none ∧ t = s ∨ ∃ l, r.2 = some l ∧ l.id = s.issued ∧
        t = { s with lists := s.issued :: s.lists, issued := s.issued + 1 })
  | .deleteCameraIdList list, s, _, t => t = { s with lists := s.lists.erase list }
  | .getCameraCharacteristics _ cameraId, s, r, t =>
      r = none ∧ P.characteristics cameraId none ∧ t = s ∨
      ∃ m, r = some s.issued ∧ P.characteristics cameraId (some m) ∧
        t = { s with metadata := (s.issued, m) :: s.metadata, issued := s.issued + 1 }
  | .getConstEntry chars tag, s, r, t => r = (s.metadata.lookup chars).bind (·.entry tag) ∧ t = s
  | .freeMetadata chars, s, _, t =>
      t = { s with metadata := s.metadata.eraseP fun m => m.1 = chars }
  | .sleepFor ms, s, _, t => t = { s with slept := s.slept + ms }
  | .readWarmedCameraId, s, r, t => t = s ∧
      r = if s.cameraWarmValid ∧ s.warmedCameraId ≠ [] then some s.warmedCameraId else none
  | .cacheWarmedCameraId cameraId, s, _, t =>
      t = { s with warmedCameraId := cameraId, cameraWarmValid := true }
  | .clearWarmedCameraId, s, _, t => t = { s with warmedCameraId := [], cameraWarmValid := false }

/-- The objects that a call is given are open, and no pointer to one is null. -/
def NdkCall.Open : NdkCall → Ndk → Prop
  | .create _ given, w => ∀ g ∈ given, ∃ n, g.2 = some n ∧ w.Live ⟨g.1, n⟩
  | .delete h, w => w.Live h
  | .getWindow rdr, w => w.Live ⟨.reader, rdr⟩
  | .containerAdd outC out, w => w.Live ⟨.container, outC⟩ ∧ w.Live ⟨.output, out⟩
  | .addTarget req tgt, w => w.Live ⟨.request, req⟩ ∧ w.Live ⟨.target, tgt⟩
  | .setRepeatingRequest sess req _, w => w.Live ⟨.session, sess⟩ ∧ w.Live ⟨.request, req⟩
  -- these stand for the functions of `CameraProbe`, or are given no object
  | .warmedCameraId, _ | .clearWarmedCameraId, _ | .waitForNonEmptyCameraList _, _
  | .selectFrontCamera, _ => True

/-- The objects that a call is given are open. -/
def CameraCall.Open : CameraCall → CameraService → Prop
  | .ndk c, s => c.Open s.ndk
  | .getCameraIdList mgr, s | .getCameraCharacteristics mgr _, s | .openCamera mgr _, s =>
      s.ndk.Live ⟨.manager, mgr⟩
  | .deleteCameraIdList list, s => list ∈ s.lists
  | .getConstEntry chars _, s | .freeMetadata chars, s => chars ∈ s.metadata.map Prod.fst
  -- given no object
  | .newReader _ _, _ | .sleepFor _, _ | .readWarmedCameraId, _ | .cacheWarmedCameraId _, _
  | .clearWarmedCameraId, _ => True

end FaceHal
