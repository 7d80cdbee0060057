import FaceHal.CameraStart

/-!
# The camera that a start has opened

When `start` succeeds, the device it holds is the camera whose id is in its fields, and the
angle is that of this camera. The size of the reader is the largest of the camera that was
tried first: of the same one, unless an id cached earlier could not be opened and another
camera was selected. Also if it fails, `start` forgets a cached id only if it has found one.
What was made to find the camera is given back, on the paths that fail as well, and the
waits end after 10 seconds, or after 8 seconds if an id was cached.
-/
namespace FaceHal
open Program Camera2NdkBackend

/-- The cached id, if there is one. -/
def CameraService.warmed (s : CameraService) : Option Text :=
  if s.cameraWarmValid ∧ s.warmedCameraId ≠ [] then some s.warmedCameraId else none

namespace StartingBackend
open CameraProbe

/-- The service while `start` holds this manager and has given everything else back. -/
structure Kept (s : CameraService) (mgr : ℕ) (t : CameraService) : Prop where
  ndk : t.ndk.Sound
  live : t.ndk.Live ⟨.manager, mgr⟩
  lists : t.lists = s.lists
  metadata : t.metadata = s.metadata

theorem Kept.trans {s t u : CameraService} {mgr : ℕ} (h : Kept s mgr t) (hu : Kept t mgr u) :
    Kept s mgr u := ⟨hu.ndk, hu.live, hu.lists.trans h.lists, hu.metadata.trans h.metadata⟩

theorem Kept.later {s t : CameraService} {mgr : ℕ} (h : Kept s mgr t) (issued slept : ℕ) :
    Kept s mgr (t.later issued slept) := ⟨h.ndk, h.live, h.lists, h.metadata⟩

theorem live_create {w : Ndk} {h : Handle} (hlive : w.Live h) (kind : HandleKind) :
    (w.create kind).Live h := ⟨List.mem_append_left _ hlive.1, hlive.2⟩

section rules
variable {P : CameraProvider} {s : CameraService} {α : Type} {mgr : ℕ}

theorem safe_newReader {width height : Int32} {next : Option ℕ → Program CameraI α}
    {Q : α → CameraService → Prop} (hnone : (next none).safe (cameraEnv P) CameraCall.Open Q s)
    (hsome : (next (some s.ndk.created.length)).safe (cameraEnv P) CameraCall.Open Q
      { s with
        ndk := s.ndk.create .reader
        readers := ⟨s.ndk.created.length, width, height⟩ :: s.readers }) :
    (Program.call (I := CameraI) (.newReader width height) next).safe (cameraEnv P)
      CameraCall.Open Q s := by
  refine ⟨trivial, ?_⟩
  rintro r t (⟨rfl, rfl⟩ | ⟨rfl, rfl⟩)
  · exact hnone
  · exact hsome

theorem safe_openCamera {cameraId : Text} {next : Option ℕ → Program CameraI α}
    {Q : α → CameraService → Prop} (hmgr : s.ndk.Live ⟨.manager, mgr⟩)
    (hnone : (next none).safe (cameraEnv P) CameraCall.Open Q s)
    (hsome : (next (some s.ndk.created.length)).safe (cameraEnv P) CameraCall.Open Q
      { s with
        ndk := s.ndk.create .device
        devices := (s.ndk.created.length, cameraId) :: s.devices }) :
    (Program.call (I := CameraI) (.openCamera mgr cameraId) next).safe (cameraEnv P)
      CameraCall.Open Q s := by
  refine ⟨hmgr, ?_⟩
  rintro r t (⟨rfl, rfl⟩ | ⟨rfl, rfl⟩)
  · exact hnone
  · exact hsome

/-- How a camera is found that was not cached. -/
inductive Found (P : CameraProvider) (τ : ℕ) (sel : CameraSelection) :
    CameraSelection × Option Int32 → Prop
  | failed (sel' : CameraSelection) (vendorCode : Int32) : Found P τ sel (sel', some vendorCode)
  | selected {id : Text} : id ≠ [] → Selected P τ (some id) →
      Found P τ sel ({ sel with cameraId := id }, none)

theorem safe_selectCamera (hmgr : s.ndk.Live ⟨.manager, mgr⟩) (passes : ℕ)
    (sel : CameraSelection) :
    (selectCamera mgr (passes * kStepMs) sel).safe (cameraEnv P) CameraCall.Open
      (fun out t => Found P t.slept sel out ∧ ∃ issued slept,
        slept ≤ s.slept + passes * kStepMs ∧ t = s.later issued slept) s := by
  have hpasses : (passes * kStepMs + kStepMs - 1) / kStepMs = passes := by
    simp only [kStepMs]
    omega
  unfold selectCamera waitForNonEmptyCameraList
  rw [hpasses, safe_bind]
  refine safe_mono (safe_pollCameraList hmgr passes) ?_
  rintro found t ⟨sleeps, issued, hpolled, rfl⟩
  have htime : s.slept + sleeps * kStepMs ≤ s.slept + passes * kStepMs :=
    Nat.add_le_add_left (Nat.mul_le_mul_right kStepMs hpolled.sleeps_le) s.slept
  cases found with
  | false => exact ⟨.failed sel _, issued, _, htime, rfl⟩
  | true =>
      change (selectFrontCameraId mgr >>= _).safe _ _ _ _
      rw [safe_bind]
      have hlater : (s.later issued (s.slept + sleeps * kStepMs)).ndk.Live ⟨.manager, mgr⟩ := hmgr
      refine safe_mono (safe_selectFrontCameraId hlater) ?_
      rintro id t ⟨hid, issued', rfl⟩
      rcases id with _ | _ | ⟨c, cs⟩
      · exact ⟨.failed _ _, issued', _, htime, rfl⟩
      · exact ⟨.failed _ _, issued', _, htime, rfl⟩
      · exact ⟨.selected (List.cons_ne_nil c cs) hid, issued', _, htime, rfl⟩

end rules

/-- Which camera the loop has opened: the first one, or one that was selected again. -/
inductive Tried (P : CameraProvider) (s : CameraService) (sel : CameraSelection) :
    ℕ → CameraSelection → CameraService → Prop
  | first {retries : ℕ} {t : CameraService} : t.slept = s.slept →
      t.warmedCameraId = s.warmedCameraId → t.cameraWarmValid = s.cameraWarmValid →
      Tried P s sel retries sel t
  | again {retries : ℕ} {t : CameraService} {id : Text} {m : Option CameraCharacteristics} :
      id ≠ [] → Selected P t.slept (some id) → P.characteristics id m →
      t.warmedCameraId = [] → t.cameraWarmValid = false →
      Tried P s sel (retries + 1) { sel with cameraId := id, frameAngle := rotationOf m } t

/-- The loop goes on after the cache was cleared and a camera selected. -/
theorem Tried.retried {P : CameraProvider} {s u t : CameraService} {sel sel' : CameraSelection}
    {retries : ℕ} {id : Text} {m : Option CameraCharacteristics}
    (h : Tried P u { sel with cameraId := id, frameAngle := rotationOf m } retries sel' t)
    (hid : id ≠ []) (hselected : Selected P u.slept (some id)) (hm : P.characteristics id m)
    (hwarmed : u.warmedCameraId = []) (hvalid : u.cameraWarmValid = false) :
    Tried P s sel (retries + 1) sel' t := by
  cases h with
  | first hslept hwarmed' hvalid' =>
      exact .again hid (hslept ▸ hselected) hm (hwarmed'.trans hwarmed) (hvalid'.trans hvalid)
  | again hid' hselected' hm' hwarmed' hvalid' => exact .again hid' hselected' hm' hwarmed' hvalid'

/-- The cached id is as it was, or was dropped where there is a retry. -/
def Cache (s : CameraService) (retries : ℕ) (t : CameraService) : Prop :=
  t.warmedCameraId = s.warmedCameraId ∧ t.cameraWarmValid = s.cameraWarmValid ∨
    retries ≠ 0 ∧ t.warmedCameraId = [] ∧ t.cameraWarmValid = false

theorem Cache.dropped {u t : CameraService} {retries : ℕ} (h : Cache u retries t)
    (hwarmed : u.warmedCameraId = []) (hvalid : u.cameraWarmValid = false) :
    t.warmedCameraId = [] ∧ t.cameraWarmValid = false := by
  rcases h with ⟨hw, hv⟩ | ⟨-, hw, hv⟩
  · exact ⟨hw.trans hwarmed, hv.trans hvalid⟩
  · exact ⟨hw, hv⟩

/-- The backend holds the reader and the device that were made last, both are open, and the
id and the size in its fields are theirs. -/
structure Holds (x : StartingBackend) (t : CameraService) : Prop where
  reader : ∃ rdr, x.backend.handles.rdr = some rdr ∧ t.ndk.Live ⟨.reader, rdr⟩ ∧
    t.readers.head? = some ⟨rdr, x.selection.width, x.selection.height⟩
  window : x.backend.handles.win = true
  device : ∃ dev, x.backend.handles.dev = some dev ∧ t.ndk.Live ⟨.device, dev⟩ ∧
    t.devices.head? = some (dev, x.selection.cameraId)

section device
variable {P : CameraProvider} {s : CameraService} {mgr : ℕ}

theorem notOpened {p : Prop} (h : false = true) : p := absurd h Bool.false_ne_true

/-- The loop, by induction on the retries left. -/
theorem safe_openDevice (hs : s.ndk.Sound) (hmgr : s.ndk.Live ⟨.manager, mgr⟩) (retries : ℕ)
    (x : StartingBackend) :
    (openDevice mgr retries x).safe (cameraEnv P) CameraCall.Open (fun out t =>
      Kept s mgr t ∧ t.slept ≤ s.slept + retries * 8000 ∧ Cache s retries t ∧
      (out.2 = true → Tried P s x.selection retries out.1.selection t ∧ Holds out.1 t)) s := by
  induction retries using Nat.strong_induction_on generalizing s x with
  | _ retries ih =>
      have hreader := hs.create .reader
      have hlive := live_create hmgr .reader
      have hgone : Ndk.Sound (s.ndk.roundTrip .reader) :=
        hreader.release (hs.live_create .reader).1
      have hmgrGone : (s.ndk.roundTrip .reader).Live ⟨.manager, mgr⟩ :=
        (hs.live_roundTrip .reader _).mpr hmgr
      unfold openDevice camera
      rw [perform_bind]
      refine safe_newReader ?_ ?_
      · exact ⟨⟨hs, hmgr, rfl, rfl⟩, Nat.le_add_right s.slept _, .inl ⟨rfl, rfl⟩, notOpened⟩
      refine ⟨hs.live_create .reader, ?_⟩
      rintro gotWindow t ⟨w, rfl, rfl⟩
      cases gotWindow with
      | false =>
          refine ⟨hs.live_create .reader, ?_⟩
          rintro ⟨⟩ t ⟨w, rfl, rfl⟩
          exact ⟨⟨hgone, hmgrGone, rfl, rfl⟩, Nat.le_add_right s.slept _, .inl ⟨rfl, rfl⟩, notOpened⟩
      | true =>
          refine safe_openCamera hlive ?_ ?_
          · refine ⟨hs.live_create .reader, ?_⟩
            rintro ⟨⟩ t ⟨w, rfl, rfl⟩
            cases retries with
            | zero =>
                exact ⟨⟨hgone, hmgrGone, rfl, rfl⟩, Nat.le_add_right s.slept _, .inl ⟨rfl, rfl⟩,
                  notOpened⟩
            | succ retries =>
                refine ⟨trivial, ?_⟩
                rintro ⟨⟩ t rfl
                change (selectCamera mgr (80 * kStepMs) _ >>= _).safe _ _ _ _
                rw [safe_bind]
                refine safe_mono (safe_selectCamera hmgrGone 80 _) ?_
                rintro ⟨sel, failure⟩ t ⟨hfound, issued, slept, htime, rfl⟩
                cases hfound with
                | failed _ vendorCode =>
                    refine ⟨⟨hgone, hmgrGone, rfl, rfl⟩, ?_,
                      .inr ⟨Nat.succ_ne_zero _, rfl, rfl⟩, notOpened⟩
                    simp only [kStepMs] at htime
                    change slept ≤ _
                    change slept ≤ s.slept + _ at htime
                    omega
                | @selected id hid hselected =>
                    change (getPreviewRotationDegrees mgr id >>= _).safe _ _ _ _
                    rw [safe_bind]
                    refine safe_mono (safe_getPreviewRotationDegrees hmgrGone id) ?_
                    rintro angle t ⟨⟨m, hm, rfl⟩, issued', rfl⟩
                    refine safe_mono (ih retries (Nat.lt_succ_self retries) hgone hmgrGone _) ?_
                    rintro out t ⟨hkept, hslept, hcache, hopened⟩
                    refine ⟨⟨hkept.ndk, hkept.live, hkept.lists, hkept.metadata⟩, ?_,
                      .inr ⟨Nat.succ_ne_zero _, hcache.dropped rfl rfl⟩, ?_⟩
                    · simp only [kStepMs] at htime
                      change slept ≤ s.slept + _ at htime
                      change t.slept ≤ slept + _ at hslept
                      rw [Nat.succ_mul]
                      omega
                    · intro hout
                      obtain ⟨htried, hholds⟩ := hopened hout
                      exact ⟨Tried.retried htried hid hselected hm rfl rfl, hholds⟩
          · refine ⟨⟨hreader.create .device, live_create hlive .device, rfl, rfl⟩,
              Nat.le_add_right s.slept _, .inl ⟨rfl, rfl⟩,
              fun _ => ⟨.first rfl rfl rfl, ?_, rfl, ?_⟩⟩
            · exact ⟨_, rfl, live_create (hs.live_create .reader) .device, rfl⟩
            · exact ⟨_, rfl, hreader.live_create .device, rfl⟩

/-- Objects were made since and none released. -/
structure Extends (w w' : Ndk) : Prop where
  sound : w'.Sound
  live : ∀ h, w.Live h → w'.Live h

theorem extends_create {w w' : Ndk} (h : Extends w w') (kind : HandleKind) :
    Extends w (w'.create kind) :=
  ⟨h.sound.create kind, fun x hx => live_create (h.live x hx) kind⟩

theorem safe_create {w : Ndk} {kind : HandleKind} {given : List (HandleKind × Option ℕ)}
    {next : Option ℕ → Program NdkI α} {Q : α → Ndk → Prop}
    (hgiven : ∀ g ∈ given, ∃ n, g.2 = some n ∧ w.Live ⟨g.1, n⟩)
    (hnone : (next none).safe ndkEnv NdkCall.Open Q w)
    (hsome : (next (some w.created.length)).safe ndkEnv NdkCall.Open Q (w.create kind)) :
    (Program.call (I := NdkI) (.create kind given) next).safe ndkEnv NdkCall.Open Q w := by
  refine ⟨hgiven, ?_⟩
  rintro r w' (⟨rfl, rfl⟩ | ⟨rfl, rfl⟩)
  · exact hnone
  · exact hsome

/-- What the fields hold that setting up the session is given. -/
structure Given (b : CameraBackend) (w : Ndk) (rdr dev : ℕ) : Prop where
  reader : b.handles.rdr = some rdr
  window : b.handles.win = true
  device : b.handles.dev = some dev
  readerLive : w.Live ⟨.reader, rdr⟩
  deviceLive : w.Live ⟨.device, dev⟩

/-- Setting up the session uses the reader, the device and what it makes itself. -/
theorem safe_openSession_ndk {b : CameraBackend} {w : Ndk} {rdr dev : ℕ} (hs : w.Sound)
    (hb : Given b w rdr dev) :
    (CameraBackend.openSession b).safe ndkEnv NdkCall.Open (fun out w' =>
      out.1.handles.rdr = b.handles.rdr ∧ out.1.handles.win = b.handles.win ∧
        out.1.handles.dev = b.handles.dev ∧ Extends w w') w := by
  have hwindow : ∀ {u : Ndk} {h : CameraHandles}, Extends w u → h.rdr = b.handles.rdr →
      h.win = b.handles.win → ∀ g ∈ [h.window], ∃ n, g.2 = some n ∧ u.Live ⟨g.1, n⟩ := by
    intro u h hu hrdr hwin g hg
    obtain rfl := List.mem_singleton.mp hg
    refine ⟨rdr, ?_, hu.live _ hb.readerLive⟩
    unfold CameraHandles.window
    rw [hwin, hb.window, hrdr, hb.reader]
    rfl
  have hw : Extends w w := ⟨hs, fun _ h => h⟩
  unfold CameraBackend.openSession ndk
  rw [perform_bind]
  refine safe_create (hwindow hw rfl rfl) ⟨rfl, rfl, rfl, hw⟩ ?_
  have hout := extends_create hw .output
  have houtLive := hs.live_create .output
  refine safe_create (by simp) ⟨rfl, rfl, rfl, hout⟩ ?_
  have houtC := extends_create hout .container
  have houtCLive := hout.sound.live_create .container
  refine ⟨⟨houtCLive, live_create houtLive .container⟩, ?_⟩
  rintro added _ rfl
  cases added with
  | false => exact ⟨rfl, rfl, rfl, houtC⟩
  | true =>
      refine safe_create ?_ ⟨rfl, rfl, rfl, houtC⟩ ?_
      · intro g hg
        rcases List.mem_pair.mp hg with rfl | rfl
        · exact ⟨dev, hb.device, houtC.live _ hb.deviceLive⟩
        · exact ⟨_, rfl, houtCLive⟩
      have hsess := extends_create houtC .session
      have hsessLive := houtC.sound.live_create .session
      refine safe_create ?_ ⟨rfl, rfl, rfl, hsess⟩ ?_
      · intro g hg
        obtain rfl := List.mem_singleton.mp hg
        exact ⟨dev, hb.device, hsess.live _ hb.deviceLive⟩
      have hreq := extends_create hsess .request
      have hreqLive := hsess.sound.live_create .request
      refine safe_create (hwindow hreq rfl rfl) ⟨rfl, rfl, rfl, hreq⟩ ?_
      have htgt := extends_create hreq .target
      have htgtLive := hreq.sound.live_create .target
      refine ⟨⟨live_create hreqLive .target, htgtLive⟩, ?_⟩
      rintro added _ rfl
      cases added with
      | false => exact ⟨rfl, rfl, rfl, htgt⟩
      | true =>
          refine ⟨⟨live_create (live_create hsessLive .request) .target,
            live_create hreqLive .target⟩, ?_⟩
          rintro started w' (⟨rfl, rfl⟩ | ⟨rfl, rfl⟩)
          · exact ⟨rfl, rfl, rfl, htgt⟩
          · exact ⟨rfl, rfl, rfl, ⟨htgt.sound.numbered, htgt.sound.released⟩, htgt.live⟩

theorem safe_expand_ndk {p : Program NdkI α} {Q : α → Ndk → Prop}
    (hp : p.safe ndkEnv NdkCall.Open Q s.ndk) :
    (p.expand fun c => camera (.ndk c)).safe (cameraEnv P) CameraCall.Open (fun a t =>
      Q a t.ndk ∧ t = { s with ndk := t.ndk }) s := by
  induction p generalizing s with
  | done a => exact ⟨hp, rfl⟩
  | call c next ih =>
      refine ⟨hp.1, ?_⟩
      rintro r t ⟨w, hw, rfl⟩
      exact ih r (s := { s with ndk := w }) (hp.2 r w hw)

theorem safe_openSession {x : StartingBackend} (hs : s.ndk.Sound) (hx : Holds x s) :
    (openSession x).safe (cameraEnv P) CameraCall.Open (fun out t =>
      Holds out.1 t ∧ out.1.selection = x.selection ∧ Extends s.ndk t.ndk ∧
        t = { s with ndk := t.ndk }) s := by
  obtain ⟨rdr, hrdr, hrdrLive, hsize⟩ := hx.reader
  obtain ⟨dev, hdev, hdevLive, hid⟩ := hx.device
  unfold openSession
  rw [safe_bind]
  refine safe_mono (safe_expand_ndk (safe_openSession_ndk hs
    ⟨hrdr, hx.window, hdev, hrdrLive, hdevLive⟩)) ?_
  rintro ⟨b, opened⟩ t ⟨⟨hrdr', hwin', hdev', hextends⟩, heq⟩
  refine ⟨⟨⟨rdr, hrdr'.trans hrdr, hextends.live _ hrdrLive, ?_⟩, hwin'.trans hx.window,
    ⟨dev, hdev'.trans hdev, hextends.live _ hdevLive, ?_⟩⟩, rfl, hextends, heq⟩
  · rw [heq]
    exact hsize
  · rw [heq]
    exact hid

/-- The size that is asked for. -/
def sizeOf (m : Option CameraCharacteristics) : Int32 × Int32 :=
  (resolutionOf largestAmong m).getD (640, 480)

/-- What is set up for the camera that was chosen first, and for the one that is open. -/
structure Runs (P : CameraProvider) (s : CameraService) (retries : ℕ) (firstId : Text)
    (x : StartingBackend) (t : CameraService) : Prop where
  holds : x.Holds t
  angle : ∃ m, P.characteristics x.selection.cameraId m ∧ x.selection.frameAngle = rotationOf m
  size : ∃ m, P.characteristics firstId m ∧ (x.selection.width, x.selection.height) = sizeOf m
  /-- The first camera is open and the cache as it was, or there was a retry. -/
  chosen : x.selection.cameraId = firstId ∧ t.warmedCameraId = s.warmedCameraId ∧
      t.cameraWarmValid = s.cameraWarmValid ∨
    retries ≠ 0 ∧ x.selection.cameraId ≠ [] ∧ Selected P t.slept (some x.selection.cameraId) ∧
      t.warmedCameraId = [] ∧ t.cameraWarmValid = false

theorem Tried.runs {t : CameraService} {sel : CameraSelection} {retries : ℕ} {x : StartingBackend}
    (h : Tried P s sel retries x.selection t) (hholds : x.Holds t)
    (hangle : ∃ m, P.characteristics sel.cameraId m ∧ sel.frameAngle = rotationOf m)
    (hsize : ∃ m, P.characteristics sel.cameraId m ∧ (sel.width, sel.height) = sizeOf m) :
    Runs P s retries sel.cameraId x t := by
  obtain ⟨b, sel'⟩ := x
  cases h with
  | first _ hwarmed hvalid => exact ⟨hholds, hangle, hsize, .inl ⟨rfl, hwarmed, hvalid⟩⟩
  | again hid hselected hm hwarmed hvalid =>
      exact ⟨hholds, ⟨_, hm, rfl⟩, hsize,
        .inr ⟨Nat.succ_ne_zero _, hid, hselected, hwarmed, hvalid⟩⟩

theorem Runs.openSession {t u : CameraService} {firstId : Text} {retries : ℕ}
    {x x' : StartingBackend} (h : Runs P s retries firstId x t) (hholds : Holds x' u)
    (hsel : x'.selection = x.selection) (hu : u = { t with ndk := u.ndk }) :
    Runs P s retries firstId x' u := by
  obtain ⟨b', sel'⟩ := x'
  obtain rfl : sel' = x.selection := hsel
  refine ⟨hholds, h.angle, h.size, ?_⟩
  rw [hu]
  exact h.chosen

theorem Runs.from {u t : CameraService} {firstId : Text} {retries : ℕ} {x : StartingBackend}
    (h : Runs P u retries firstId x t) (hwarmed : u.warmedCameraId = s.warmedCameraId)
    (hvalid : u.cameraWarmValid = s.cameraWarmValid) : Runs P s retries firstId x t :=
  ⟨h.holds, h.angle, h.size, h.chosen.imp_left fun ⟨hid, hw, hv⟩ =>
    ⟨hid, hw.trans hwarmed, hv.trans hvalid⟩⟩

theorem safe_openSelected (hs : s.ndk.Sound) (hmgr : s.ndk.Live ⟨.manager, mgr⟩) (retries : ℕ)
    (x : StartingBackend) :
    (openSelected mgr retries x).safe (cameraEnv P) CameraCall.Open (fun out t =>
      Kept s mgr t ∧ t.slept ≤ s.slept + retries * 8000 ∧ Cache s retries t ∧
      (out.2 = true → Runs P s retries x.selection.cameraId out.1 t)) s := by
  unfold openSelected
  rw [safe_bind]
  refine safe_mono (safe_getPreviewRotationDegrees hmgr _) ?_
  rintro angle t ⟨⟨m, hm, rfl⟩, issued, rfl⟩
  rw [safe_bind]
  have hlater : ∀ n, (s.later n s.slept).ndk.Sound ∧ (s.later n s.slept).ndk.Live ⟨.manager, mgr⟩ :=
    fun _ => ⟨hs, hmgr⟩
  refine safe_mono (safe_chooseResolution (hlater issued).2 _ largestAmong) ?_
  rintro size t ⟨⟨m', hm', rfl⟩, issued', rfl⟩
  change (openDevice mgr retries ⟨x.backend, ⟨x.selection.cameraId, (sizeOf m').1,
    (sizeOf m').2, rotationOf m⟩⟩ >>= _).safe _ _ _ _
  rw [safe_bind]
  refine safe_mono (safe_openDevice (hlater issued').1 (hlater issued').2 retries _) ?_
  rintro ⟨x', opened⟩ t ⟨hkept, hslept, hcache, hopened⟩
  have hkept' : Kept s mgr t := ⟨hkept.ndk, hkept.live, hkept.lists, hkept.metadata⟩
  cases opened with
  | false => exact ⟨hkept', hslept, hcache, nofun⟩
  | true =>
      obtain ⟨htried, hholds⟩ := hopened rfl
      refine safe_mono (safe_openSession hkept.ndk hholds) ?_
      rintro ⟨x'', opened'⟩ u ⟨hholds', hsel, hextends, heq⟩
      have hruns := htried.runs hholds ⟨m, hm, rfl⟩ ⟨m', hm', rfl⟩
      refine ⟨⟨hextends.sound, hextends.live _ hkept.live, ?_, ?_⟩, ?_, ?_,
        fun _ => (hruns.openSession hholds' hsel heq).from rfl rfl⟩
      all_goals rw [heq]
      · exact hkept.lists
      · exact hkept.metadata
      · exact hslept
      · exact hcache

end device

/-- Every `start` uses open objects only, whatever the service answers, and gives back the
lists and characteristics that it got. It sleeps 10 seconds at most, 8 if an id was cached,
and leaves the cache as it was or drops an id that was there. If it succeeds, its reader and
its device are open with the size and the id in its fields. -/
theorem start_opens (P : CameraProvider) (x : StartingBackend) (cb : Bool) (s : CameraService)
    (hs : s.Sound) :
    (openCamera x cb).safe (cameraEnv P) CameraCall.Open (fun out t => t.Sound ∧
      t.lists = s.lists ∧ t.metadata = s.metadata ∧
      t.slept ≤ s.slept + (if s.warmed.isSome then 8000 else 10000) ∧
      Cache s (if s.warmed.isSome then 1 else 0) t ∧
      (out.2 = true → ∃ firstId, (s.warmed = some firstId ∨
          s.warmed = none ∧ firstId ≠ [] ∧ ∃ τ, Selected P τ (some firstId)) ∧
        Runs P s (if s.warmed.isSome then 1 else 0) firstId out.1 t)) s := by
  have hstep : ∀ c u r t, CameraCall.Open c u → CameraService.Sound u → cameraEnv P c u r t →
      CameraService.Sound t := fun c u r t hopen hu h => hu.step hopen h
  refine safe_invariant hstep hs ?_
  unfold openCamera camera
  rw [perform_bind]
  refine safe_createManager hs
    ⟨rfl, rfl, Nat.le_add_right s.slept _, .inl ⟨rfl, rfl⟩, notOpened⟩ fun hmgr => ?_
  have hndk := hs.ndk.create .manager
  refine ⟨trivial, ?_⟩
  rintro warmed t ⟨rfl, hwarmed⟩
  obtain rfl : warmed = s.warmed := hwarmed
  cases hcache : s.warmed with
  | some id =>
      change (openSelected _ 1 _).safe _ _ _ _
      refine safe_mono (safe_openSelected hndk hmgr 1 _) ?_
      rintro out t ⟨hkept, hslept, hcache, hruns⟩
      refine ⟨hkept.lists, hkept.metadata, hslept, hcache, fun hout => ?_⟩
      exact ⟨id, .inl rfl, (hruns hout).from rfl rfl⟩
  | none =>
      change (selectCamera _ (100 * kStepMs) _ >>= _).safe _ _ _ _
      rw [safe_bind]
      refine safe_mono (safe_selectCamera hmgr 100 _) ?_
      rintro ⟨sel, failure⟩ t ⟨hfound, issued, slept, htime, rfl⟩
      cases hfound with
      | failed _ vendorCode => exact ⟨rfl, rfl, htime, .inl ⟨rfl, rfl⟩, nofun⟩
      | @selected id hid hselected =>
          change (openSelected _ 0 _).safe _ _ _ _
          have hlater : ((CameraService.later { s with ndk := s.ndk.create .manager } issued
              slept).ndk).Sound := hndk
          refine safe_mono (safe_openSelected hlater hmgr 0 _) ?_
          rintro out t ⟨hkept, hslept, hcache, hruns⟩
          refine ⟨hkept.lists, hkept.metadata, ?_, hcache, fun hout => ?_⟩
          · rw [Nat.zero_mul] at hslept
            exact hslept.trans htime
          · exact ⟨id, .inr ⟨rfl, hid, _, hselected⟩, (hruns hout).from rfl rfl⟩

/-- Nothing was set up before. -/
def unstarted : StartingBackend := ⟨.initial, {}⟩

theorem start_opens_cold : (openCamera unstarted true).safe (cameraEnv lateProvider)
    CameraCall.Open (fun out t => t.Sound ∧ t.lists = [] ∧ t.metadata = [] ∧ t.slept ≤ 10000 ∧
      Cache coldService 0 t ∧ (out.2 = true → ∃ firstId, firstId ≠ [] ∧
        Runs lateProvider coldService 0 firstId out.1 t)) coldService := by
  refine safe_mono (start_opens lateProvider unstarted true coldService coldService_sound) ?_
  rintro out t ⟨ht, hlists, hmetadata, hslept, hcache, hruns⟩
  rw [show coldService.warmed = none from rfl] at hslept
  refine ⟨ht, hlists, hmetadata, hslept.trans (Nat.le_of_eq (Nat.zero_add 10000)), hcache,
    fun hout => ?_⟩
  obtain ⟨firstId, hfirst | ⟨-, hfirst, -⟩, hruns⟩ := hruns hout
  · cases hfirst
  · exact ⟨firstId, hfirst, hruns⟩

end StartingBackend
end FaceHal
