import FaceHal.CameraProbe

/-!
# Probing gives everything back

An invariant of the camera service, kept by every call on open objects: what is made is
new, and what was given back stays so. From any such state the two public functions that
probe for a camera use open objects only and leave open what was open before, for all
answers of the provider. With a provider that has its cameras from some time on, the
warm-up caches the front camera, or the first one, just if the wait is long enough.
-/
namespace FaceHal
open Program

/-- Objects are numbered as they are made, and only those that were made are given back. -/
structure Ndk.Sound (w : Ndk) : Prop where
  numbered : ∀ h ∈ w.created, h.id < w.created.length
  released : ∀ h ∈ w.released, h ∈ w.created

structure CameraService.Sound (s : CameraService) : Prop where
  ndk : s.ndk.Sound
  lists : s.lists.Nodup ∧ ∀ l ∈ s.lists, l < s.issued
  metadata : (s.metadata.map Prod.fst).Nodup ∧ ∀ m ∈ s.metadata.map Prod.fst, m < s.issued

/-- What is open is the same. -/
structure CameraService.SameOpen (s t : CameraService) : Prop where
  live : ∀ h, t.ndk.Live h ↔ s.ndk.Live h
  lists : t.lists = s.lists
  metadata : t.metadata = s.metadata
  streaming : t.ndk.streaming = s.ndk.streaming

theorem CameraService.SameOpen.refl (s : CameraService) : s.SameOpen s :=
  ⟨fun _ => Iff.rfl, rfl, rfl, rfl⟩

namespace Ndk
variable {w : Ndk}

/-- An object has been made and deleted. -/
def roundTrip (w : Ndk) (kind : HandleKind) : Ndk :=
  { w.create kind with released := w.released ++ [⟨kind, w.created.length⟩] }

namespace Sound

theorem not_mem_created (hw : w.Sound) (kind : HandleKind) :
    (⟨kind, w.created.length⟩ : Handle) ∉ w.created :=
  fun hmem => absurd (hw.numbered _ hmem) (lt_irrefl _)

theorem live_create (hw : w.Sound) (kind : HandleKind) :
    (w.create kind).Live ⟨kind, w.created.length⟩ :=
  ⟨List.mem_append_right _ (List.mem_singleton_self _),
    fun hmem => hw.not_mem_created kind (hw.released _ hmem)⟩

theorem live_roundTrip (hw : w.Sound) (kind : HandleKind) (h : Handle) :
    (w.roundTrip kind).Live h ↔ w.Live h := by
  unfold roundTrip create Live
  simp only [List.mem_append, List.mem_singleton, not_or]
  constructor
  · rintro ⟨hc | rfl, hr, hne⟩
    · exact ⟨hc, hr⟩
    · exact absurd rfl hne
  · rintro ⟨hc, hr⟩
    refine ⟨.inl hc, hr, ?_⟩
    rintro rfl
    exact hw.not_mem_created kind hc

theorem create (hw : w.Sound) (kind : HandleKind) : (w.create kind).Sound := by
  refine ⟨?_, ?_⟩
  · intro h hh
    rw [show (w.create kind).created.length = w.created.length + 1 from List.length_append]
    rcases List.mem_append.mp hh with hh | hh
    · exact Nat.lt_succ_of_lt (hw.numbered h hh)
    · rw [List.mem_singleton.mp hh]
      exact Nat.lt_succ_self _
  · intro h hh
    exact List.mem_append_left _ (hw.released h hh)

theorem release (hw : w.Sound) {h : Handle} (hh : h ∈ w.created) :
    Sound { w with released := w.released ++ [h] } := by
  refine ⟨hw.numbered, ?_⟩
  intro x hx
  rcases List.mem_append.mp hx with hx | hx
  · exact hw.released x hx
  · exact List.mem_singleton.mp hx ▸ hh

/-- A call of the NDK on an object that is open. -/
theorem step (hw : w.Sound) {c : NdkCall} {r : c.Reply} {w' : Ndk}
    (hopen : ∀ h, c = .delete h → w.Live h) (h : ndkEnv c w r w') : w'.Sound := by
  cases c with
  | create kind given =>
      obtain ⟨-, rfl⟩ | ⟨-, rfl⟩ := h
      · exact hw
      · exact hw.create kind
  | delete x =>
      obtain rfl : w' = _ := h
      exact hw.release (hopen x rfl).1
  | setRepeatingRequest sess req rdr =>
      obtain ⟨-, rfl⟩ | ⟨-, rfl⟩ := h
      · exact hw
      · exact ⟨hw.numbered, hw.released⟩
  | _ =>
      obtain rfl : w' = w := h
      exact hw

end Sound
end Ndk

namespace CameraService.Sound
variable {P : CameraProvider} {s t : CameraService}

theorem issue_list (hs : s.Sound) :
    { s with lists := s.issued :: s.lists, issued := s.issued + 1 }.Sound := by
  refine ⟨hs.ndk, ⟨?_, ?_⟩, hs.metadata.1, ?_⟩
  · exact List.nodup_cons.mpr ⟨fun hmem => absurd (hs.lists.2 _ hmem) (lt_irrefl _), hs.lists.1⟩
  · intro l hl
    rcases List.mem_cons.mp hl with rfl | hl
    · exact Nat.lt_succ_self _
    · exact Nat.lt_succ_of_lt (hs.lists.2 l hl)
  · intro m hm
    exact Nat.lt_succ_of_lt (hs.metadata.2 m hm)

theorem issue_metadata (hs : s.Sound) (m : CameraCharacteristics) :
    { s with metadata := (s.issued, m) :: s.metadata, issued := s.issued + 1 }.Sound := by
  refine ⟨hs.ndk, ⟨hs.lists.1, ?_⟩, ?_, ?_⟩
  · intro l hl
    exact Nat.lt_succ_of_lt (hs.lists.2 l hl)
  · exact List.nodup_cons.mpr
      ⟨fun hmem => absurd (hs.metadata.2 _ hmem) (lt_irrefl _), hs.metadata.1⟩
  · intro l hl
    rcases List.mem_cons.mp hl with rfl | hl
    · exact Nat.lt_succ_self _
    · exact Nat.lt_succ_of_lt (hs.metadata.2 l hl)

/-- Every call on open objects keeps the invariant. -/
theorem step (hs : s.Sound) {c : CameraCall} {r : c.Reply} (hopen : c.Open s)
    (h : cameraEnv P c s r t) : t.Sound := by
  cases c with
  | ndk c =>
      obtain ⟨w, hw, rfl⟩ := h
      refine ⟨hs.ndk.step ?_ hw, hs.lists, hs.metadata⟩
      rintro x rfl
      exact hopen
  | newReader width height =>
      obtain ⟨-, rfl⟩ | ⟨-, rfl⟩ := h
      · exact hs
      · exact ⟨hs.ndk.create .reader, hs.lists, hs.metadata⟩
  | openCamera mgr cameraId =>
      obtain ⟨-, rfl⟩ | ⟨-, rfl⟩ := h
      · exact hs
      · exact ⟨hs.ndk.create .device, hs.lists, hs.metadata⟩
  | getCameraIdList mgr =>
      obtain ⟨-, ⟨-, rfl⟩ | ⟨l, -, -, rfl⟩⟩ := h
      · exact hs
      · exact hs.issue_list
  | deleteCameraIdList list =>
      obtain rfl : t = _ := h
      exact ⟨hs.ndk, ⟨hs.lists.1.erase _,
        fun l hl => hs.lists.2 l (List.mem_of_mem_erase hl)⟩, hs.metadata⟩
  | getCameraCharacteristics mgr cameraId =>
      obtain ⟨-, -, rfl⟩ | ⟨m, -, -, rfl⟩ := h
      · exact hs
      · exact hs.issue_metadata m
  | freeMetadata chars =>
      obtain rfl : t = _ := h
      have hsub : ((s.metadata.eraseP fun m => m.1 = chars).map Prod.fst).Sublist
          (s.metadata.map Prod.fst) := List.eraseP_sublist.map Prod.fst
      exact ⟨hs.ndk, hs.lists, hsub.nodup hs.metadata.1,
        fun m hm => hs.metadata.2 m (hsub.subset hm)⟩
  | getConstEntry chars tag =>
      obtain ⟨-, rfl⟩ := h
      exact hs
  | readWarmedCameraId =>
      obtain ⟨rfl, -⟩ := h
      exact hs
  | sleepFor ms | cacheWarmedCameraId cameraId | clearWarmedCameraId =>
      obtain rfl : t = _ := h
      exact ⟨hs.ndk, hs.lists, hs.metadata⟩

end CameraService.Sound

/-- A manager was made and deleted in between. -/
def CameraService.probed (s : CameraService) (issued slept : ℕ) : CameraService :=
  { s.later issued slept with ndk := s.ndk.roundTrip .manager }

/-- An id that is not empty is cached. -/
def CameraService.cached (s : CameraService) : Option Text → CameraService
  | none | some [] => s
  | some id => { s with warmedCameraId := id, cameraWarmValid := true }

theorem CameraService.sameOpen_probed {s : CameraService} (hs : s.Sound) (issued slept : ℕ)
    (id : Option Text) : s.SameOpen ((s.probed issued slept).cached id) := by
  have hlive := hs.ndk.live_roundTrip .manager
  unfold cached
  split <;> exact ⟨hlive, rfl, rfl, rfl⟩

namespace CameraProbe
open Camera2NdkBackend

section functions
variable {P : CameraProvider} {s : CameraService} {α : Type}

theorem safe_createManager (hs : s.Sound) {next : Option ℕ → Program CameraI α}
    {Q : α → CameraService → Prop} (hnone : (next none).safe (cameraEnv P) CameraCall.Open Q s)
    (hsome : { s with ndk := s.ndk.create .manager }.ndk.Live ⟨.manager, s.ndk.created.length⟩ →
      (next (some s.ndk.created.length)).safe (cameraEnv P) CameraCall.Open Q
        { s with ndk := s.ndk.create .manager }) :
    (Program.call (I := CameraI) (.ndk (.create .manager [])) next).safe (cameraEnv P)
      CameraCall.Open Q s := by
  refine ⟨by simp [CameraCall.Open, NdkCall.Open], ?_⟩
  rintro r t ⟨w, ⟨rfl, rfl⟩ | ⟨rfl, rfl⟩, rfl⟩
  · exact hnone
  · exact hsome (hs.ndk.live_create .manager)

theorem safe_deleteManager (hs : s.Sound) {issued slept : ℕ} {next : Unit → Program CameraI α}
    {Q : α → CameraService → Prop}
    (h : (next ()).safe (cameraEnv P) CameraCall.Open Q (s.probed issued slept)) :
    (Program.call (I := CameraI) (.ndk (.delete ⟨.manager, s.ndk.created.length⟩)) next).safe
      (cameraEnv P) CameraCall.Open Q
      (CameraService.later { s with ndk := s.ndk.create .manager } issued slept) := by
  refine ⟨hs.ndk.live_create .manager, ?_⟩
  rintro ⟨⟩ t ⟨w, hw, rfl⟩
  obtain rfl : w = _ := hw
  exact h

/-- What the warm-up leaves behind. -/
inductive WarmedUp (P : CameraProvider) (s : CameraService) : CameraService → Prop
  | noManager : WarmedUp P s s
  | notFound {sleeps : ℕ} (issued : ℕ) : Polled P s.slept 200 false sleeps →
      WarmedUp P s (s.probed issued (s.slept + sleeps * kStepMs))
  | selected {sleeps : ℕ} (issued : ℕ) {id : Option Text} : Polled P s.slept 200 true sleeps →
      Selected P (s.slept + sleeps * kStepMs) id →
      WarmedUp P s ((s.probed issued (s.slept + sleeps * kStepMs)).cached id)

theorem safe_warmUpAtHalStart (hs : s.Sound) :
    warmUpAtHalStart.safe (cameraEnv P) CameraCall.Open (fun _ t => WarmedUp P s t) s := by
  unfold warmUpAtHalStart camera
  rw [perform_bind]
  refine safe_createManager hs .noManager fun hmgr => ?_
  change (pollCameraList _ 200 >>= _).safe _ _ _ _
  rw [safe_bind]
  refine safe_mono (safe_pollCameraList hmgr 200) ?_
  rintro found t ⟨sleeps, issued, hpolled, rfl⟩
  cases found with
  | false => exact safe_deleteManager hs (.notFound issued hpolled)
  | true =>
      change (selectFrontCameraId _ >>= _).safe _ _ _ _
      rw [safe_bind]
      refine safe_mono (safe_selectFrontCameraId hmgr) ?_
      rintro id t ⟨hid, issued', rfl⟩
      have hend : WarmedUp P s ((s.probed issued' (s.slept + sleeps * kStepMs)).cached id) :=
        .selected issued' hpolled hid
      rcases id with _ | _ | ⟨c, cs⟩
      · exact safe_deleteManager hs hend
      · exact safe_deleteManager hs hend
      · refine safe_deleteManager hs ⟨trivial, ?_⟩
        rintro ⟨⟩ t rfl
        exact hend

/-- What `getOptimalResolution` answers. -/
inductive Optimal (P : CameraProvider) (τ : ℕ) : Option (Int32 × Int32) → Prop
  | noManager : Optimal P τ none
  | notSelected {id : Option Text} : Selected P τ id → id.getD [] = [] → Optimal P τ none
  | selected {id : Text} {m : Option CameraCharacteristics} : Selected P τ (some id) → id ≠ [] →
      P.characteristics id m → Optimal P τ (resolutionOf optimalAmong m)

theorem safe_getOptimalResolution (hs : s.Sound) :
    getOptimalResolution.safe (cameraEnv P) CameraCall.Open
      (fun size t => Optimal P s.slept size ∧ (t = s ∨ ∃ issued, t = s.probed issued s.slept))
      s := by
  unfold getOptimalResolution camera
  rw [perform_bind]
  refine safe_createManager hs ⟨.noManager, .inl rfl⟩ fun hmgr => ?_
  change (selectFrontCameraId _ >>= _).safe _ _ _ _
  rw [safe_bind]
  refine safe_mono (safe_selectFrontCameraId hmgr) ?_
  rintro id t ⟨hid, issued, rfl⟩
  rcases id with _ | _ | ⟨c, cs⟩
  · exact safe_deleteManager hs ⟨.notSelected hid rfl, .inr ⟨issued, rfl⟩⟩
  · exact safe_deleteManager hs ⟨.notSelected hid rfl, .inr ⟨issued, rfl⟩⟩
  · change (chooseResolution optimalAmong _ _ >>= _).safe _ _ _ _
    rw [safe_bind]
    have hlater : (CameraService.later { s with ndk := s.ndk.create .manager } issued
        s.slept).ndk.Live ⟨.manager, s.ndk.created.length⟩ := hmgr
    refine safe_mono (safe_chooseResolution hlater (c :: cs) optimalAmong) ?_
    rintro size t ⟨⟨m, hm, rfl⟩, issued', rfl⟩
    refine safe_deleteManager hs ?_
    exact ⟨.selected hid (List.cons_ne_nil _ _) hm, .inr ⟨issued', rfl⟩⟩

theorem Polled.sleeps_le {τ passes sleeps : ℕ} {found : Bool}
    (h : Polled P τ passes found sleeps) : sleeps ≤ passes := by
  induction h with
  | exhausted τ => exact le_rfl
  | found passes _ _ | failed passes _ => exact Nat.zero_le _
  | again _ _ _ ih => exact Nat.succ_le_succ ih

end functions

/-- From any state of the service and for all its answers, both functions use open objects
only and leave open what was open. The warm-up sleeps 20 seconds at most, the other not. -/
theorem probing_gives_back (P : CameraProvider) (s : CameraService) (hs : s.Sound) :
    warmUpAtHalStart.safe (cameraEnv P) CameraCall.Open
      (fun _ t => t.Sound ∧ s.SameOpen t ∧ t.slept ≤ s.slept + 20000) s ∧
    getOptimalResolution.safe (cameraEnv P) CameraCall.Open
      (fun _ t => t.Sound ∧ s.SameOpen t ∧ t.slept = s.slept ∧
        t.warmedCameraId = s.warmedCameraId ∧ t.cameraWarmValid = s.cameraWarmValid) s := by
  have hstep : ∀ c u r t, CameraCall.Open c u → CameraService.Sound u → cameraEnv P c u r t →
      CameraService.Sound t := fun c u r t hopen hu h => hu.step hopen h
  constructor
  · refine safe_mono (safe_invariant hstep hs (safe_warmUpAtHalStart hs)) ?_
    rintro - t ⟨ht, hend⟩
    have htime : ∀ {found sleeps}, Polled P s.slept 200 found sleeps →
        s.slept + sleeps * kStepMs ≤ s.slept + 20000 := by
      intro found sleeps hpolled
      have hle := hpolled.sleeps_le
      simp only [kStepMs]
      omega
    cases hend with
    | noManager => exact ⟨ht, .refl s, Nat.le_add_right _ _⟩
    | notFound issued hpolled =>
        exact ⟨ht, CameraService.sameOpen_probed hs issued _ none, htime hpolled⟩
    | @selected sleeps issued id hpolled hid =>
        refine ⟨ht, CameraService.sameOpen_probed hs issued _ id, ?_⟩
        have hslept : ((s.probed issued (s.slept + sleeps * kStepMs)).cached id).slept =
            s.slept + sleeps * kStepMs := by
          unfold CameraService.cached
          split <;> rfl
        rw [hslept]
        exact htime hpolled
  · refine safe_mono (safe_invariant hstep hs (safe_getOptimalResolution hs)) ?_
    rintro size t ⟨ht, -, rfl | ⟨issued, rfl⟩⟩
    · exact ⟨ht, .refl t, rfl, rfl, rfl⟩
    · exact ⟨ht, CameraService.sameOpen_probed hs issued _ none, rfl, rfl, rfl⟩

/-- A service in which nothing was made yet. -/
def coldService : CameraService := ⟨⟨[], [], []⟩, [], [], 0, [], false, 0, [], []⟩

theorem coldService_sound : coldService.Sound :=
  ⟨⟨nofun, nofun⟩, ⟨.nil, nofun⟩, .nil, nofun⟩

/-- No camera is listed before the time `d` and these are from then on. -/
def steadyProvider (d : ℕ) (ids : List Text) (T : Text → Option CameraCharacteristics) :
    CameraProvider where
  answers τ r := r = (true, some (if τ < d then [] else ids))
  characteristics id m := m = T id

/-- Two cameras after a quarter of a second, and the second one is at the front. -/
def lateProvider : CameraProvider :=
  steadyProvider 250 [['0'], ['1']] fun id => some ⟨some [if id = ['1'] then 0 else 1], none, none⟩

theorem probing_gives_back_cold :
    warmUpAtHalStart.safe (cameraEnv lateProvider) CameraCall.Open
      (fun _ t => t.Sound ∧ coldService.SameOpen t ∧ t.slept ≤ 20000) coldService := by
  refine safe_mono (probing_gives_back lateProvider coldService coldService_sound).1 ?_
  rintro - t ⟨ht, hsame, hslept⟩
  exact ⟨ht, hsame, by simpa [coldService] using hslept⟩

/-- The first front camera, or the first one. -/
def frontOrFirst (ids : List Text) (T : Text → Option CameraCharacteristics) : Text :=
  let front := (ids.find? fun id => (T id).any isFront).getD []
  if front = [] then ids.headD [] else front

section steady
variable {d τ : ℕ} {ids : List Text} {T : Text → Option CameraCharacteristics}

theorem FrontIs.eq_find {l : List Text} {front : Text}
    (h : FrontIs (steadyProvider d ids T) l front) :
    front = (l.find? fun id => (T id).any isFront).getD [] := by
  induction h with
  | nil => rfl
  | unknown hid _ ih =>
      rw [List.find?_cons_of_neg (by rw [← show none = T _ from hid]; decide)]
      exact ih
  | other hid hother _ ih =>
      rw [List.find?_cons_of_neg (by rw [← show some _ = T _ from hid]; simpa using hother)]
      exact ih
  | front rest hid hfront =>
      rw [List.find?_cons_of_pos (by rw [← show some _ = T _ from hid]; exact hfront)]
      rfl

theorem eq_frontOrFirst {id : Option Text}
    (h : Selected (steadyProvider d ids T) τ id) (hd : d ≤ τ) :
    id.getD [] = frontOrFirst ids T := by
  have hids : (if τ < d then [] else ids) = ids := if_neg (Nat.not_lt.mpr hd)
  cases h with
  | @none ok listed hanswer hempty =>
      have heq : (ok, listed) = (true, some _) := hanswer
      rw [hids] at heq
      obtain ⟨rfl, rfl⟩ := Prod.mk.inj heq
      have hnil : ids = [] := by simpa using hempty rfl
      rw [hnil]
      rfl
  | @some firstId front rest hanswer hfront =>
      have heq : (true, some (firstId :: rest)) = (true, some _) := hanswer
      rw [hids] at heq
      obtain rfl : firstId :: rest = ids := Option.some.inj (Prod.mk.inj heq).2
      obtain rfl := hfront.eq_find
      rfl

/-- The sleeps of the loop, by induction on its passes: until the first pass that is late
enough, or all of them. -/
theorem Polled.steady {passes sleeps : ℕ} {found : Bool} (hids : ids ≠ [])
    (h : Polled (steadyProvider d ids T) τ passes found sleeps) :
    found = true ∧ sleeps < passes ∧ d ≤ τ + 100 * sleeps ∧
      (sleeps ≠ 0 → τ + 100 * (sleeps - 1) < d) ∨
    found = false ∧ sleeps = passes ∧ (passes ≠ 0 → τ + 100 * (passes - 1) < d) := by
  induction h with
  | exhausted τ => exact .inr ⟨rfl, rfl, fun h => absurd rfl h⟩
  | @found τ passes listed hanswer hlisted =>
      have hd : ¬ τ < d := by
        intro hlt
        have heq : (true, some listed) = (true, some (if τ < d then [] else ids)) := hanswer
        rw [if_pos hlt] at heq
        exact hlisted (Option.some.inj (Prod.mk.inj heq).2)
      exact .inl ⟨rfl, Nat.succ_pos _, by omega, fun h => absurd rfl h⟩
  | failed passes hanswer =>
      have heq : (false, _) = (true, _) := hanswer
      cases (Prod.mk.inj heq).1
  | @again τ passes sleeps listed found hanswer hempty _ ih =>
      have hd : τ < d := by
        by_contra hge
        have heq : (true, listed) = (true, some (if τ < d then [] else ids)) := hanswer
        rw [if_neg hge] at heq
        rw [(Prod.mk.inj heq).2] at hempty
        exact hids (by simpa using hempty)
      simp only [kStepMs] at ih
      obtain ⟨hfound, hlt, hle, hbefore⟩ | ⟨hfound, heq, hbefore⟩ := ih
      · refine .inl ⟨hfound, Nat.succ_lt_succ hlt, by omega, fun _ => ?_⟩
        by_cases hzero : sleeps = 0
        · subst hzero
          simpa using hd
        · have hlast := hbefore hzero
          omega
      · refine .inr ⟨hfound, congrArg _ heq, fun _ => ?_⟩
        by_cases hzero : passes = 0
        · subst hzero
          simpa using hd
        · have hlast := hbefore hzero
          omega

theorem steady_answers (c : CameraCall) (s : CameraService) :
    ∃ r t, cameraEnv (steadyProvider d ids T) c s r t := by
  cases c with
  | ndk c => exact ⟨_, _, _, ndkEnv_answerFrom c (s.ndk, []), rfl⟩
  | newReader width height => exact ⟨none, s, .inl ⟨rfl, rfl⟩⟩
  | openCamera mgr cameraId => exact ⟨none, s, .inl ⟨rfl, rfl⟩⟩
  | getCameraIdList mgr =>
      exact ⟨(true, some ⟨s.issued, if s.slept < d then [] else ids⟩), _, rfl,
        .inr ⟨_, rfl, rfl, rfl⟩⟩
  | getCameraCharacteristics mgr cameraId =>
      cases hid : T cameraId with
      | none => exact ⟨none, s, .inl ⟨rfl, hid.symm, rfl⟩⟩
      | some m => exact ⟨some s.issued, _, .inr ⟨m, rfl, hid.symm, rfl⟩⟩
  | getConstEntry chars tag => exact ⟨_, s, rfl, rfl⟩
  | readWarmedCameraId => exact ⟨_, s, rfl, rfl⟩
  | deleteCameraIdList list => exact ⟨(), _, rfl⟩
  | freeMetadata chars => exact ⟨(), _, rfl⟩
  | sleepFor ms => exact ⟨(), _, rfl⟩
  | cacheWarmedCameraId cameraId => exact ⟨(), _, rfl⟩
  | clearWarmedCameraId => exact ⟨(), _, rfl⟩

end steady

/-- The warm-up ends. If it gets a manager it sleeps in steps of 100 until the cameras are
there, for 20 seconds at most, and looks for the last time after 19.9 seconds; what it
then caches is the first front camera, or else the first camera. -/
theorem warmUpAtHalStart_steady (d : ℕ) {ids : List Text} (hids : ids ≠ [])
    (T : Text → Option CameraCharacteristics) (s : CameraService) (hs : s.Sound) :
    warmUpAtHalStart.returns (cameraEnv (steadyProvider d ids T))
      (fun _ t => t.ndk.created.length = s.ndk.created.length ∧ t = s ∨
        t.ndk.created.length = s.ndk.created.length + 1 ∧
        t.slept = s.slept + min (100 * ((d - s.slept + 99) / 100)) 20000 ∧
        (t.warmedCameraId, t.cameraWarmValid) =
          if d ≤ s.slept + 19900 ∧ frontOrFirst ids T ≠ [] then (frontOrFirst ids T, true)
          else (s.warmedCameraId, s.cameraWarmValid)) s := by
  refine ⟨?_, ?_⟩
  · obtain ⟨a, t, hrun⟩ := exists_run steady_answers warmUpAtHalStart s
    exact ⟨a, t, hrun⟩
  refine wp_mono (safe_iff.mp (safe_warmUpAtHalStart hs)).2 ?_
  rintro - t hend
  have hcreated : ∀ issued slept id,
      ((s.probed issued slept).cached id).ndk.created.length = s.ndk.created.length + 1 := by
    intro issued slept id
    unfold CameraService.cached
    split <;> exact List.length_append
  cases hend with
  | noManager => exact .inl ⟨rfl, rfl⟩
  | notFound issued hpolled =>
      refine .inr ⟨hcreated issued _ none, ?_⟩
      obtain ⟨hfound, -⟩ | ⟨-, rfl, hlate⟩ := hpolled.steady hids
      · cases hfound
      · have hlast := hlate (by decide)
        rw [if_neg (by omega)]
        refine ⟨?_, rfl⟩
        change s.slept + 200 * 100 = _
        omega
  | @selected sleeps issued id hpolled hid =>
      refine .inr ⟨hcreated issued _ id, ?_⟩
      obtain ⟨-, hlt, hd, hbefore⟩ | ⟨hfound, -⟩ := hpolled.steady hids
      · have hchosen := eq_frontOrFirst hid (by simpa only [kStepMs, Nat.mul_comm] using hd)
        have htime : s.slept + sleeps * 100 =
            s.slept + min (100 * ((d - s.slept + 99) / 100)) 20000 := by
          by_cases hzero : sleeps = 0
          · omega
          · have hlast := hbefore hzero
            omega
        have hearly : d ≤ s.slept + 19900 := by omega
        rcases id with _ | _ | ⟨c, cs⟩
        · rw [if_neg fun h => h.2 hchosen.symm]
          exact ⟨htime, rfl⟩
        · rw [if_neg fun h => h.2 hchosen.symm]
          exact ⟨htime, rfl⟩
        · obtain hchosen : c :: cs = frontOrFirst ids T := hchosen
          rw [← hchosen, if_pos ⟨hearly, List.cons_ne_nil _ _⟩]
          exact ⟨htime, rfl⟩
      · cases hfound

theorem warmUpAtHalStart_steady_cold : warmUpAtHalStart.returns (cameraEnv lateProvider)
    (fun _ t => t = coldService ∨
      t.slept = 300 ∧ t.warmedCameraId = ['1'] ∧ t.cameraWarmValid = true) coldService := by
  refine returns_mono (warmUpAtHalStart_steady 250 (List.cons_ne_nil _ _) _ coldService
    coldService_sound) ?_
  rintro - t (⟨-, rfl⟩ | ⟨-, hslept, hcache⟩)
  · exact .inl rfl
  · have hchosen : frontOrFirst [['0'], ['1']] (fun id =>
        some ⟨some [if id = ['1'] then 0 else 1], none, none⟩) = ['1'] := by decide
    rw [hchosen, if_pos (by simp)] at hcache
    obtain ⟨hid, hvalid⟩ := Prod.mk.inj hcache
    exact .inr ⟨hslept, hid, hvalid⟩

end CameraProbe
end FaceHal
