import FaceHal.CameraService

/-!
# Finding a camera

The functions that wait for a camera, choose one and read its characteristics. Each of
them gives back every list and all characteristics on each of its paths and uses neither
afterwards, and says what it found by the answers alone.
-/
namespace FaceHal
open Program

/-- `ACAMERA_LENS_FACING_FRONT`. -/
def lensFacingFront : UInt8 := 0

namespace CameraProbe
open Camera2NdkBackend

def kStepMs : ℕ := 100

def releaseList : Option CameraIdList → Program CameraI Unit
  | none => return ()
  | some list => camera (.deleteCameraIdList list.id)

/-- The loop of `WaitForNonEmptyCameraList`, with the passes left. -/
def pollCameraList (mgr : ℕ) : ℕ → Program CameraI Bool
  | 0 => return false
  | passes + 1 => do
      let (ok, list) ← camera (.getCameraIdList mgr)
      if ok ∧ (list.any fun l => l.cameraIds ≠ []) then
        releaseList list
        return true
      else if !ok then
        releaseList list
        return false
      else
        releaseList list
        camera (.sleepFor kStepMs)
        pollCameraList mgr passes

def waitForNonEmptyCameraList (mgr timeoutMs : ℕ) : Program CameraI Bool :=
  pollCameraList mgr ((timeoutMs + kStepMs - 1) / kStepMs)

/-- The loop of `SelectFrontCameraId`; the result is `match`, empty if there is none. -/
def findFront (mgr : ℕ) : List Text → Program CameraI Text
  | [] => return []
  | id :: rest => do
      match ← camera (.getCameraCharacteristics mgr id) with
      | none => findFront mgr rest
      | some chars =>
          let entry ← camera (.getConstEntry chars .lensFacing)
          let isFront := entry.any fun data => data.head? = some lensFacingFront
          camera (.freeMetadata chars)
          if isFront then return id else findFront mgr rest

/-- `none` is `false`, where `outId` is not written. -/
def selectFrontCameraId (mgr : ℕ) : Program CameraI (Option Text) := do
  let (ok, list) ← camera (.getCameraIdList mgr)
  match list with
  | none => return none
  | some list =>
      if !ok then
        camera (.deleteCameraIdList list.id)
        return none
      else
        match list.cameraIds with
        | [] =>
            camera (.deleteCameraIdList list.id)
            return none
        | firstId :: rest =>
            let front ← findFront mgr (firstId :: rest)
            camera (.deleteCameraIdList list.id)
            return some (if front = [] then firstId else front)

def getPreviewRotationDegrees (mgr : ℕ) (cameraId : Text) : Program CameraI Int32 := do
  match ← camera (.getCameraCharacteristics mgr cameraId) with
  | none => return 0
  | some chars =>
      let orientation ← camera (.getConstEntry chars .sensorOrientation)
      -- the facing is only logged
      let _ ← camera (.getConstEntry chars .lensFacing)
      let sensorOrientation := (orientation.bind List.head?).getD 0
      camera (.freeMetadata chars)
      return (sensorOrientation - 0 + 360) % 360

/-- What the two functions below share; they differ in their pass over the entry. -/
def chooseResolution (choose : List StreamConfiguration → Option (Int32 × Int32)) (mgr : ℕ)
    (cameraId : Text) : Program CameraI (Option (Int32 × Int32)) := do
  match ← camera (.getCameraCharacteristics mgr cameraId) with
  | none => return none
  | some chars =>
      let entry ← camera (.getConstEntry chars .availableStreamConfigurations)
      let chosen := entry.bind choose
      camera (.freeMetadata chars)
      return chosen

/-- The pass over whole configurations does not read past the end. -/
def optimalAmong (configs : List StreamConfiguration) : Option (Int32 × Int32) :=
  (scanConfigurations (configs.flatMap StreamConfiguration.numbers) {}).bind
    ResolutionScan.choose

/-- The pass of `GetMaxSupportedResolution`. -/
def scanAreas (configs : List StreamConfiguration) (s : ResolutionScan) : ResolutionScan :=
  configs.foldl (fun s c => if c.IsYuvOutput then s.considerArea c.width c.height else s) s

def largestAmong (configs : List StreamConfiguration) : Option (Int32 × Int32) :=
  let s := scanAreas configs {}
  if s.absoluteMaxW > 0 ∧ s.absoluteMaxH > 0 then some (s.absoluteMaxW, s.absoluteMaxH) else none

def getOptimalSupportedResolution : ℕ → Text → Program CameraI (Option (Int32 × Int32)) :=
  chooseResolution optimalAmong

def getMaxSupportedResolution : ℕ → Text → Program CameraI (Option (Int32 × Int32)) :=
  chooseResolution largestAmong

def warmUpAtHalStart : Program CameraI Unit := do
  match ← camera (.ndk (.create .manager [])) with
  | none => return ()
  | some mgr =>
      if !(← waitForNonEmptyCameraList mgr 20000) then
        camera (.ndk (.delete ⟨.manager, mgr⟩))
      else
        match ← selectFrontCameraId mgr with
        | none | some [] => camera (.ndk (.delete ⟨.manager, mgr⟩))
        | some id =>
            camera (.ndk (.delete ⟨.manager, mgr⟩))
            camera (.cacheWarmedCameraId id)

/-- The method of the backend; `none` is `false`. -/
def getOptimalResolution : Program CameraI (Option (Int32 × Int32)) := do
  match ← camera (.ndk (.create .manager [])) with
  | none => return none
  | some mgr =>
      match ← selectFrontCameraId mgr with
      | none | some [] =>
          camera (.ndk (.delete ⟨.manager, mgr⟩))
          return none
      | some id =>
          let ret ← getOptimalSupportedResolution mgr id
          camera (.ndk (.delete ⟨.manager, mgr⟩))
          return ret

/-- The camera is a front one, by the first value of its entry. -/
def isFront (m : CameraCharacteristics) : Bool :=
  m.lensFacing.any fun data => data.head? = some lensFacingFront

def rotationOf (m : Option CameraCharacteristics) : Int32 :=
  m.elim 0 fun m => ((m.sensorOrientation.bind List.head?).getD 0 - 0 + 360) % 360

def resolutionOf (choose : List StreamConfiguration → Option (Int32 × Int32))
    (m : Option CameraCharacteristics) : Option (Int32 × Int32) :=
  m.bind fun m => m.availableStreamConfigurations.bind choose

variable (P : CameraProvider)

/-- Polling from a time on, with some passes left, ends with an answer after so many sleeps. -/
inductive Polled : ℕ → ℕ → Bool → ℕ → Prop
  | exhausted (τ : ℕ) : Polled τ 0 false 0
  | found {τ : ℕ} (passes : ℕ) {ids : List Text} : P.answers τ (true, some ids) → ids ≠ [] →
      Polled τ (passes + 1) true 0
  | failed {τ : ℕ} (passes : ℕ) {ids : Option (List Text)} : P.answers τ (false, ids) →
      Polled τ (passes + 1) false 0
  | again {τ passes sleeps : ℕ} {ids : Option (List Text)} {found : Bool} :
      P.answers τ (true, ids) → ids.all List.isEmpty = true →
      Polled (τ + kStepMs) passes found sleeps → Polled τ (passes + 1) found (sleeps + 1)

/-- The first front camera of the list, or the empty text. -/
inductive FrontIs : List Text → Text → Prop
  | nil : FrontIs [] []
  | unknown {id front : Text} {rest : List Text} : P.characteristics id none →
      FrontIs rest front → FrontIs (id :: rest) front
  | other {id front : Text} {rest : List Text} {m : CameraCharacteristics} :
      P.characteristics id (some m) → isFront m = false →
      FrontIs rest front → FrontIs (id :: rest) front
  | front {id : Text} (rest : List Text) {m : CameraCharacteristics} :
      P.characteristics id (some m) → isFront m = true → FrontIs (id :: rest) id

/-- What is selected from the answer at a time. -/
inductive Selected (τ : ℕ) : Option Text → Prop
  | none {ok : Bool} {ids : Option (List Text)} : P.answers τ (ok, ids) →
      (ok = true → ids.all List.isEmpty = true) → Selected τ none
  | some {firstId front : Text} {rest : List Text} : P.answers τ (true, some (firstId :: rest)) →
      FrontIs P (firstId :: rest) front →
      Selected τ (some (if front = [] then firstId else front))

end CameraProbe

/-- The service after lists and characteristics were made and given back. -/
def CameraService.later (s : CameraService) (issued slept : ℕ) : CameraService :=
  { s with issued := issued, slept := slept }

namespace CameraProbe
open Camera2NdkBackend

section contracts
variable {P : CameraProvider} {s : CameraService} {α : Type} {mgr : ℕ}

theorem safe_getCameraIdList {next : Bool × Option CameraIdList → Program CameraI α}
    {Q : α → CameraService → Prop} (hmgr : s.ndk.Live ⟨.manager, mgr⟩)
    (hnone : ∀ ok, P.answers s.slept (ok, none) →
      (next (ok, none)).safe (cameraEnv P) CameraCall.Open Q s)
    (hsome : ∀ ok ids, P.answers s.slept (ok, some ids) →
      (next (ok, some ⟨s.issued, ids⟩)).safe (cameraEnv P) CameraCall.Open Q
        { s with lists := s.issued :: s.lists, issued := s.issued + 1 }) :
    (Program.call (I := CameraI) (.getCameraIdList mgr) next).safe (cameraEnv P) CameraCall.Open
      Q s := by
  refine ⟨hmgr, ?_⟩
  rintro ⟨ok, list⟩ t ⟨hanswer, ⟨hlist, rfl⟩ | ⟨l, hlist, hid, rfl⟩⟩
  · obtain rfl : list = none := hlist
    exact hnone ok hanswer
  · obtain rfl : list = some l := hlist
    obtain ⟨id, ids⟩ := l
    obtain rfl : id = s.issued := hid
    exact hsome ok ids hanswer

theorem safe_deleteCameraIdList {list issued : ℕ} {next : Unit → Program CameraI α}
    {Q : α → CameraService → Prop}
    (h : (next ()).safe (cameraEnv P) CameraCall.Open Q { s with issued := issued }) :
    (Program.call (I := CameraI) (.deleteCameraIdList list) next).safe (cameraEnv P)
      CameraCall.Open Q { s with lists := list :: s.lists, issued := issued } := by
  refine ⟨List.mem_cons_self, ?_⟩
  rintro ⟨⟩ t ht
  obtain rfl : t = { s with issued := issued } := by
    rw [show t = _ from ht]
    simp
  exact h

theorem safe_getCameraCharacteristics {cameraId : Text}
    {next : Option ℕ → Program CameraI α} {Q : α → CameraService → Prop}
    (hmgr : s.ndk.Live ⟨.manager, mgr⟩)
    (hnone : P.characteristics cameraId none →
      (next none).safe (cameraEnv P) CameraCall.Open Q s)
    (hsome : ∀ m, P.characteristics cameraId (some m) →
      (next (some s.issued)).safe (cameraEnv P) CameraCall.Open Q
        { s with metadata := (s.issued, m) :: s.metadata, issued := s.issued + 1 }) :
    (Program.call (I := CameraI) (.getCameraCharacteristics mgr cameraId) next).safe
      (cameraEnv P) CameraCall.Open Q s := by
  refine ⟨hmgr, ?_⟩
  rintro r t (⟨rfl, hnochars, rfl⟩ | ⟨m, rfl, hchars, rfl⟩)
  · exact hnone hnochars
  · exact hsome m hchars

theorem safe_getConstEntry {chars issued : ℕ} {m : CameraCharacteristics} {tag : MetadataTag}
    {next : Option (List tag.Element) → Program CameraI α} {Q : α → CameraService → Prop}
    (h : (next (m.entry tag)).safe (cameraEnv P) CameraCall.Open Q
      { s with metadata := (chars, m) :: s.metadata, issued := issued }) :
    (Program.call (I := CameraI) (.getConstEntry chars tag) next).safe (cameraEnv P)
      CameraCall.Open Q { s with metadata := (chars, m) :: s.metadata, issued := issued } := by
  refine ⟨List.mem_cons_self, ?_⟩
  rintro r t ⟨hr, rfl⟩
  obtain rfl : r = m.entry tag := by
    rw [hr, List.lookup_cons_self, Option.bind_some]
  exact h

theorem safe_freeMetadata {chars issued : ℕ} {m : CameraCharacteristics}
    {next : Unit → Program CameraI α} {Q : α → CameraService → Prop}
    (h : (next ()).safe (cameraEnv P) CameraCall.Open Q { s with issued := issued }) :
    (Program.call (I := CameraI) (.freeMetadata chars) next).safe (cameraEnv P) CameraCall.Open Q
      { s with metadata := (chars, m) :: s.metadata, issued := issued } := by
  refine ⟨List.mem_cons_self, ?_⟩
  rintro ⟨⟩ t ht
  obtain rfl : t = { s with issued := issued } := by
    rw [show t = _ from ht, List.eraseP_cons_of_pos (by simp)]
  exact h

/-- Everything that was made has been given back, and so much time has passed. -/
def Returned (s : CameraService) (slept : ℕ) (R : α → Prop) (a : α) (t : CameraService) : Prop :=
  R a ∧ ∃ issued, t = s.later issued slept

theorem safe_later {p : Program CameraI α} {R R' : α → Prop} {issued slept : ℕ}
    (h : p.safe (cameraEnv P) CameraCall.Open (Returned { s with issued := issued } slept R)
      { s with issued := issued }) (hR : ∀ a, R a → R' a) :
    p.safe (cameraEnv P) CameraCall.Open (Returned s slept R') { s with issued := issued } := by
  refine safe_mono h fun a t hend => ?_
  obtain ⟨ha, issued', rfl⟩ := hend
  exact ⟨hR a ha, issued', rfl⟩

theorem safe_getPreviewRotationDegrees (hmgr : s.ndk.Live ⟨.manager, mgr⟩) (cameraId : Text) :
    (getPreviewRotationDegrees mgr cameraId).safe (cameraEnv P) CameraCall.Open
      (Returned s s.slept fun degrees => ∃ m, P.characteristics cameraId m ∧
        degrees = rotationOf m) s := by
  unfold getPreviewRotationDegrees camera
  rw [perform_bind]
  refine safe_getCameraCharacteristics hmgr ?_ ?_
  · intro hnone
    exact ⟨⟨none, hnone, rfl⟩, s.issued, rfl⟩
  · intro m hm
    refine safe_getConstEntry (safe_getConstEntry (safe_freeMetadata ?_))
    exact ⟨⟨some m, hm, rfl⟩, s.issued + 1, rfl⟩

theorem safe_chooseResolution (hmgr : s.ndk.Live ⟨.manager, mgr⟩) (cameraId : Text)
    (choose : List StreamConfiguration → Option (Int32 × Int32)) :
    (chooseResolution choose mgr cameraId).safe (cameraEnv P) CameraCall.Open
      (Returned s s.slept fun size => ∃ m, P.characteristics cameraId m ∧
        size = resolutionOf choose m) s := by
  unfold chooseResolution camera
  rw [perform_bind]
  refine safe_getCameraCharacteristics hmgr ?_ ?_
  · intro hnone
    exact ⟨⟨none, hnone, rfl⟩, s.issued, rfl⟩
  · intro m hm
    refine safe_getConstEntry (safe_freeMetadata ?_)
    exact ⟨⟨some m, hm, rfl⟩, s.issued + 1, rfl⟩

/-- The loop over the ids, by induction on the list. -/
theorem safe_findFront (hmgr : s.ndk.Live ⟨.manager, mgr⟩) (ids : List Text) :
    (findFront mgr ids).safe (cameraEnv P) CameraCall.Open
      (Returned s s.slept (FrontIs P ids)) s := by
  induction ids generalizing s with
  | nil => exact ⟨.nil, s.issued, rfl⟩
  | cons id rest ih =>
      unfold findFront camera
      rw [perform_bind]
      refine safe_getCameraCharacteristics hmgr ?_ ?_
      · intro hnone
        exact safe_mono (ih hmgr) fun front t hend => ⟨.unknown hnone hend.1, hend.2⟩
      · intro m hm
        refine safe_getConstEntry (safe_freeMetadata ?_)
        change (if isFront m = true then _ else _ : Program CameraI Text).safe _ _ _ _
        split_ifs with hfront
        · exact ⟨.front rest hm hfront, s.issued + 1, rfl⟩
        · have hnext : ({ s with issued := s.issued + 1 } : CameraService).ndk.Live
              ⟨.manager, mgr⟩ := hmgr
          exact safe_later (ih hnext) fun front =>
            FrontIs.other hm (Bool.eq_false_iff.mpr hfront)

theorem safe_selectFrontCameraId (hmgr : s.ndk.Live ⟨.manager, mgr⟩) :
    (selectFrontCameraId mgr).safe (cameraEnv P) CameraCall.Open
      (Returned s s.slept (Selected P s.slept)) s := by
  unfold selectFrontCameraId camera
  rw [perform_bind]
  refine safe_getCameraIdList hmgr ?_ ?_
  · intro ok hanswer
    exact ⟨.none hanswer fun _ => rfl, s.issued, rfl⟩
  · intro ok ids hanswer
    dsimp only
    cases ok with
    | false =>
        refine safe_deleteCameraIdList ?_
        exact ⟨.none hanswer nofun, s.issued + 1, rfl⟩
    | true =>
        cases ids with
        | nil =>
            refine safe_deleteCameraIdList ?_
            exact ⟨.none hanswer fun _ => rfl, s.issued + 1, rfl⟩
        | cons firstId rest =>
            change (findFront mgr (firstId :: rest) >>= _).safe _ _ _ _
            rw [safe_bind]
            have hlisted : ({ s with lists := s.issued :: s.lists, issued := s.issued + 1 } :
                CameraService).ndk.Live ⟨.manager, mgr⟩ := hmgr
            refine safe_mono (safe_findFront hlisted (firstId :: rest)) ?_
            rintro front t ⟨hfront, issued, rfl⟩
            refine safe_deleteCameraIdList (s := s.later issued s.slept) ?_
            exact ⟨.some hanswer hfront, issued, rfl⟩

/-- The loop that polls, by induction on the passes left. -/
theorem safe_pollCameraList (hmgr : s.ndk.Live ⟨.manager, mgr⟩) (passes : ℕ) :
    (pollCameraList mgr passes).safe (cameraEnv P) CameraCall.Open
      (fun found t => ∃ sleeps issued, Polled P s.slept passes found sleeps ∧
        t = s.later issued (s.slept + sleeps * kStepMs)) s := by
  induction passes generalizing s with
  | zero => exact ⟨0, s.issued, .exhausted s.slept, by simp [CameraService.later]⟩
  | succ passes ih =>
      have hagain : ∀ issued, ((Program.call (I := CameraI) (.sleepFor kStepMs) fun _ =>
          pollCameraList mgr passes).safe (cameraEnv P) CameraCall.Open
          (fun found t => ∃ sleeps issued, Polled P (s.slept + kStepMs) passes found sleeps ∧
            t = s.later issued (s.slept + (sleeps + 1) * kStepMs)) { s with issued := issued }) := by
        intro issued
        refine ⟨trivial, ?_⟩
        rintro ⟨⟩ _ rfl
        have hnext : (s.later issued (s.slept + kStepMs)).ndk.Live ⟨.manager, mgr⟩ := hmgr
        refine safe_mono (ih hnext) ?_
        rintro found t ⟨sleeps, issued', hpolled, rfl⟩
        refine ⟨sleeps, issued', hpolled, ?_⟩
        have htime : s.slept + kStepMs + sleeps * kStepMs = s.slept + (sleeps + 1) * kStepMs := by
          ring
        exact congrArg (s.later issued') htime
      unfold pollCameraList camera
      rw [perform_bind]
      refine safe_getCameraIdList hmgr ?_ ?_
      · intro ok hanswer
        cases ok with
        | false => exact ⟨0, s.issued, .failed passes hanswer, by simp [CameraService.later]⟩
        | true =>
            refine safe_mono (hagain s.issued) ?_
            rintro found t ⟨sleeps, issued, hpolled, ht⟩
            exact ⟨sleeps + 1, issued, .again hanswer rfl hpolled, ht⟩
      · intro ok ids hanswer
        cases ok with
        | false =>
            refine safe_deleteCameraIdList ?_
            exact ⟨0, s.issued + 1, .failed passes hanswer, by simp [CameraService.later]⟩
        | true =>
            cases ids with
            | nil =>
                refine safe_deleteCameraIdList ?_
                refine safe_mono (hagain (s.issued + 1)) ?_
                rintro found t ⟨sleeps, issued, hpolled, ht⟩
                exact ⟨sleeps + 1, issued, .again hanswer rfl hpolled, ht⟩
            | cons firstId rest =>
                refine safe_deleteCameraIdList ?_
                exact ⟨0, s.issued + 1, .found passes hanswer (List.cons_ne_nil _ _),
                  by simp [CameraService.later]⟩

end contracts

end CameraProbe
end FaceHal
