import FaceHal.CameraShutdown
import FaceHal.HandleOwnership

/-!
# The end of a camera

Only a `CameraClient` has a pointer to a backend. Its destructor calls `stop` and then gives the
pointer up, so that the destructor of the backend runs on the same thread, calls `stop` again and
then frees the memory. This may be any thread, also one that is inside the frame callback: there
the first `stop` is deferred and the second one waits for it, so the memory does not go before
the objects of the NDK have gone. Nobody else has the client by then, so no call of `start` is in
progress and none comes, which `SessionCameras` proves of the sessions that have the clients.
Notifications, images and the stops of handlers may still come.
-/
namespace FaceHal

inductive BackendPhase where
  | owned
  /-- The destructors run on this thread and have begun so many calls of `stop`. -/
  | destroying (t : ThreadId) (stops : ℕ)
  | freed
deriving DecidableEq, Repr

structure OwnedCamera where
  camera : Camera
  phase : BackendPhase

inductive OwnedLabel where
  | camera (l : CameraLabel)
  /-- The destructor of the client begins. -/
  | destroy (t : ThreadId)
  | free
deriving DecidableEq

namespace OwnedCamera

def initial : OwnedCamera := ⟨.initial, .owned⟩

/-- The steps that the backend can take, which are none once its memory has gone. -/
def Allows (d : OwnedCamera) (l : CameraLabel) : Prop :=
  match d.phase, l with
  | .owned, _ => True
  | .destroying _ _, .start _ _ _ => False
  | .destroying t stops, .stop t' spawned => t ≠ .other spawned ∧ (t' = t → stops < 2)
  | .destroying t _, .image rdr _ => t ≠ .image rdr
  | .destroying t _, .notify n _ => t ≠ .other n
  | .destroying _ _, _ => True
  | .freed, _ => False

instance : (d : OwnedCamera) → (l : CameraLabel) → Decidable (d.Allows l)
  | ⟨_, .owned⟩, _ => inferInstanceAs (Decidable True)
  | ⟨_, .destroying _ _⟩, .start _ _ _ => inferInstanceAs (Decidable False)
  | ⟨_, .destroying t stops⟩, .stop t' spawned =>
      inferInstanceAs (Decidable (t ≠ .other spawned ∧ (t' = t → stops < 2)))
  | ⟨_, .destroying t _⟩, .image rdr _ => inferInstanceAs (Decidable (t ≠ .image rdr))
  | ⟨_, .destroying t _⟩, .notify n _ => inferInstanceAs (Decidable (t ≠ .other n))
  | ⟨_, .destroying _ _⟩, .proceed _ _ | ⟨_, .destroying _ _⟩, .imageAvailable _
  | ⟨_, .destroying _ _⟩, .handle _ => inferInstanceAs (Decidable True)
  | ⟨_, .freed⟩, _ => inferInstanceAs (Decidable False)

def phaseAfter (d : OwnedCamera) (l : CameraLabel) : BackendPhase :=
  match d.phase, l with
  | .destroying t stops, .stop t' _ => .destroying t (if t' = t then stops + 1 else stops)
  | phase, _ => phase

end OwnedCamera

def OwnedLabel.apply (d : OwnedCamera) : OwnedLabel → Option OwnedCamera
  | .camera l => if d.Allows l then (d.camera.apply l).map (⟨·, d.phaseAfter l⟩) else none
  | .destroy t =>
      if d.phase = .owned ∧ d.camera.MayStart t then some ⟨d.camera, .destroying t 0⟩ else none
  | .free =>
      match d.phase with
      | .destroying t 2 =>
          if (d.camera.thread t).call = .none then some ⟨d.camera, .freed⟩ else none
      | _ => none

def OwnedLabel.isDestroy : OwnedLabel → Bool
  | .destroy _ => true
  | _ => false

/-- The client is not destroyed during a call of `start`. -/
def OwnedCamera.Unused (d : OwnedCamera) (l : OwnedLabel) : Prop :=
  l.isDestroy = true → ∀ t, (d.camera.thread t).call.starts = false

def ownedStep : System OwnedCamera OwnedLabel :=
  guarded OwnedCamera.Unused fun d l d' => l.apply d = some d'

namespace Camera
variable {c c' : Camera} {t : ThreadId} {l : CameraLabel}

theorem not_running_of_stop {spawned : ℕ} (h : c.Sound)
    (hstep : cameraStep c (.stop t spawned) c') : c'.backend.isRunning = false := by
  cases (stop_cases hstep).2 with
  | nothing hrun hstop hmgr heq => exact heq ▸ hrun
  | joins hstop heq =>
      rw [heq]
      change c.backend.isRunning = false
      by_contra hrun
      rw [h.running (by simpa using hrun)] at hstop
      cases hstop
  | defers _ _ _ heq | waits _ _ _ heq | tears _ _ heq => rw [heq]; rfl

theorem not_running_step (h : c.Sound) (hrun : c.backend.isRunning = false)
    (hquiet : ∀ t cb replies, l ≠ .start t cb replies)
    (hstarts : ∀ t, (c.thread t).call.starts = false) (hstep : cameraStep c l c') :
    c'.backend.isRunning = false := by
  rcases callsKept_of_step hstep with hkept | ⟨t, cb, replies, rfl⟩ | ⟨t, spawned, rfl⟩ |
    ⟨t, replies, rfl⟩
  · exact hkept.isRunning.trans hrun
  · exact absurd rfl (hquiet t cb replies)
  · exact not_running_of_stop h hstep
  · cases proceed_cases (show c.proceed t replies = some c' from hstep) with
    | opens cb hcall hfree heq =>
        have hnot := hstarts t
        rw [hcall] at hnot
        cases hnot
    | ends after hcall heq =>
        rw [heq]
        cases after <;> exact hrun
    | joined _ _ heq | takes _ _ _ heq | releases _ _ _ _ heq | closed _ _ _ _ heq =>
        rw [heq]
        exact hrun

/-- After one stop the next one finds the camera off, or waits until it is. -/
theorem shut_of_second_stop {spawned : ℕ} (h : c.Sound) (hrun : c.backend.isRunning = false)
    (hstep : cameraStep c (.stop t spawned) c') : c'.Shut t := by
  refine ⟨not_running_of_stop h hstep, fun hcall => ?_⟩
  cases hstop : c.backend.isStopping with
  | false => exact (off_of_stop h hrun hstop hstep).2
  | true =>
      cases (stop_cases hstep).2 with
      | joins _ heq =>
          rw [heq, call_setCall, if_pos rfl] at hcall
          cases hcall
      | nothing _ hidle _ _ | defers hidle _ _ _ | waits hidle _ _ _ | tears hidle _ _ =>
          rw [hidle] at hstop
          cases hstop

theorem Sound.released (h : c.Sound) (hrun : c.backend.isRunning = false)
    (hstop : c.backend.isStopping = false) (hstarts : ∀ t, (c.thread t).call.starts = false) :
    ∀ x ∈ c.ndk.created, c.ndk.released.count x = 1 := by
  intro x hx
  rw [h.accounts.once x hx, if_neg]
  intro hlive
  obtain ⟨o, ho⟩ := (h.accounts.live_iff x).mp hlive
  cases o with
  | none =>
      unfold Holds holdings at ho
      rw [h.idle hrun hstop] at ho
      cases ho
  | some t =>
      have hstops : (c.thread t).call.stops = false := by
        by_contra hstops
        rw [h.stopping t (by simpa using hstops)] at hstop
        cases hstop
      have hobjects : x ∈ (c.thread t).call.objects := ho
      rcases CallStage.idle_of_not (hstarts t) hstops with hcall | hcall
      · rw [hcall] at hobjects
        cases hobjects
      · rw [hcall] at hobjects
        cases hobjects

end Camera

namespace OwnedCamera
variable {d d' : OwnedCamera} {t : ThreadId} {l : CameraLabel}

/-- What holds in every state: the calls of `stop` that the destructors have made. -/
structure Consistent (d : OwnedCamera) : Prop where
  sound : d.camera.Sound
  unstarted : d.phase ≠ .owned → ∀ t, (d.camera.thread t).call.starts = false
  stopped : ∀ t stops, d.phase = .destroying t stops → 0 < stops →
    d.camera.backend.isRunning = false
  shut : ∀ t stops, d.phase = .destroying t stops → 1 < stops → d.camera.Shut t
  freed : d.phase = .freed → d.camera.backend.isRunning = false ∧
    d.camera.backend.isStopping = false

theorem Consistent.of_owned {c : Camera} (h : c.Sound) : Consistent ⟨c, .owned⟩ where
  sound := h
  unstarted hne := absurd rfl hne
  stopped _ _ heq := BackendPhase.noConfusion heq
  shut _ _ heq := BackendPhase.noConfusion heq
  freed heq := BackendPhase.noConfusion heq

theorem not_start_of_allows (h : d.Allows l) (hphase : d.phase ≠ .owned) :
    ∀ t cb replies, l ≠ .start t cb replies := by
  rintro t cb replies rfl
  unfold Allows at h
  cases hd : d.phase with
  | owned => exact hphase hd
  | destroying t' stops => simp [hd] at h
  | freed => simp [hd] at h

theorem phaseAfter_cases (t : ThreadId) (stops : ℕ) (h : d.phaseAfter l = .destroying t stops) :
    d.phase = .destroying t stops ∨
      ∃ spawned before, l = .stop t spawned ∧ d.phase = .destroying t before ∧
        stops = before + 1 := by
  unfold phaseAfter at h
  split at h
  · next t' before t'' spawned hphase =>
      obtain ⟨rfl, rfl⟩ := BackendPhase.destroying.inj h
      by_cases ht : t'' = t'
      · subst ht
        exact .inr ⟨spawned, before, rfl, hphase, if_pos rfl⟩
      · rw [if_neg ht]
        exact .inl hphase
  · exact .inl h

theorem phaseAfter_owned (h : d.phase = .owned) : d.phaseAfter l = .owned := by
  unfold phaseAfter
  rw [h]

/-- A step of the backend, with the destructors where they are or at one of their stops. -/
theorem Consistent.camera {c : Camera} (h : d.Consistent) (hallowed : d.Allows l)
    (hstep : cameraStep d.camera l c) : Consistent ⟨c, d.phaseAfter l⟩ := by
  have hfreed : d.phase ≠ .freed := by
    intro hfreed
    unfold Allows at hallowed
    simp [hfreed] at hallowed
  by_cases howned : d.phase = .owned
  · rw [phaseAfter_owned howned]
    exact .of_owned (Camera.sound_step h.sound hstep)
  · have hquiet := not_start_of_allows hallowed howned
    have hstarts := h.unstarted howned
    refine ⟨Camera.sound_step h.sound hstep, ?_, ?_, ?_, ?_⟩
    · intro _ t
      by_contra hstarting
      rcases Camera.starts_of_step hstep (by simpa using hstarting) with
        hbefore | ⟨cb, replies, heq⟩
      · rw [hstarts t] at hbefore
        cases hbefore
      · exact hquiet t cb replies heq
    · intro t stops hphase hpos
      rcases phaseAfter_cases t stops hphase with hsame | ⟨spawned, before, rfl, -, -⟩
      · exact Camera.not_running_step h.sound (h.stopped t stops hsame hpos) hquiet hstarts hstep
      · exact Camera.not_running_of_stop h.sound hstep
    · intro t stops hphase hpos
      rcases phaseAfter_cases t stops hphase with hsame | ⟨spawned, before, rfl, hbefore, rfl⟩
      · exact Camera.shut_step h.sound (h.shut t stops hsame hpos) hquiet hstarts hstep
      · exact Camera.shut_of_second_stop h.sound (h.stopped t before hbefore (by omega)) hstep
    · intro hphase
      unfold phaseAfter at hphase
      split at hphase
      · cases hphase
      · exact absurd hphase hfreed

theorem consistent_step {l : OwnedLabel} (h : d.Consistent) (hstep : ownedStep d l d') :
    d'.Consistent := by
  obtain ⟨hunused, happly⟩ := hstep
  cases l with
  | camera l =>
      unfold OwnedLabel.apply at happly
      dsimp only at happly
      split_ifs at happly with hallowed
      obtain ⟨c, hc, rfl⟩ := Option.map_eq_some_iff.mp happly
      exact h.camera hallowed hc
  | destroy t =>
      unfold OwnedLabel.apply at happly
      dsimp only at happly
      split_ifs at happly with hguard
      obtain rfl := Option.some.inj happly
      refine ⟨h.sound, fun _ => hunused rfl, ?_, ?_, fun heq => BackendPhase.noConfusion heq⟩
      · rintro _ _ ⟨⟩ hpos
        cases hpos
      · rintro _ _ ⟨⟩ hpos
        cases hpos
  | free =>
      unfold OwnedLabel.apply at happly
      dsimp only at happly
      split at happly
      · next t hphase =>
          split_ifs at happly with hcall
          obtain rfl := Option.some.inj happly
          have hshut := h.shut t 2 hphase (by omega)
          exact ⟨h.sound, fun _ => h.unstarted (by rw [hphase]; simp),
            fun _ _ heq => BackendPhase.noConfusion heq,
            fun _ _ heq => BackendPhase.noConfusion heq,
            fun _ => ⟨hshut.isRunning, hshut.ended hcall⟩⟩
      · cases happly

/-- The objects are accounted for in every state, with none left when the memory of the backend
has gone, and a start that returns false without another call in between leaves the camera
closed with its failure noted. -/
theorem handles_accounted {ls : List OwnedLabel} (hrun : Runs ownedStep initial ls d) :
    d.camera.Accounts ∧
    (d.phase = .freed → d.camera.backend.handles = {} ∧
      ∀ h ∈ d.camera.ndk.created, d.camera.ndk.released.count h = 1) ∧
    ∀ t cb replies c₁ ms c₂ more c₃, (∀ t', (d.camera.thread t').call.inCall = false) →
      cameraStep d.camera (.start t cb replies) c₁ → Runs cameraStep c₁ ms c₂ →
      (∀ l ∈ ms, l.isCall = false) → (c₂.thread t).call = .releasing .startFails [] →
      cameraStep c₂ (.proceed t more) c₃ →
      (c₃.thread t).call = .none ∧ c₃.backend.handles = {} ∧ c₃.backend.isRunning = false ∧
        c₃.backend.lastStartFailure ∈ cameraFailures ∧ c₃.backend.lastStartFailure ≠ 0 := by
  have hd : d.Consistent := hrun.invariant (fun _ _ _ => consistent_step)
    (.of_owned Camera.sound_initial)
  refine ⟨hd.sound.accounts, ?_, ?_⟩
  · intro hfreed
    obtain ⟨hrunning, hstopping⟩ := hd.freed hfreed
    exact ⟨hd.sound.idle hrunning hstopping,
      hd.sound.released hrunning hstopping (hd.unstarted (by rw [hfreed]; simp))⟩
  · intro t cb replies c₁ ms c₂ more c₃ hidle hstart hmore hms hat hlast
    exact Camera.closed_of_failed_start hd.sound hidle hstart hmore hms hat hlast

theorem apply_camera {c : Camera} (hallowed : d.Allows l) (h : d.camera.apply l = some c) :
    OwnedLabel.apply d (.camera l) = some ⟨c, d.phaseAfter l⟩ := by
  unfold OwnedLabel.apply
  dsimp only
  rw [if_pos hallowed, h]
  rfl

theorem isSome_opens : (Camera.initial.apply (.start (.other 0) true [])).isSome = true := by
  decide +kernel

def opened : OwnedCamera := ⟨Option.get _ isSome_opens, .owned⟩

/-- The same thread destroys the client of an open camera: two stops, the first of which gives
back eight objects and waits once. -/
def destruction : List OwnedLabel :=
  .destroy (.other 0) :: .camera (.stop (.other 0) 9) ::
    (List.replicate 10 (.camera (.proceed (.other 0) [])) ++ [.camera (.stop (.other 0) 9), .free])

/-- A camera is opened and destroyed. A start that gets no capture session gives back the five
objects that it has opened by then. -/
theorem handles_accounted_destroyed :
    (∃ d, Runs ownedStep initial (.camera (.start (.other 0) true []) :: destruction) d ∧
      d.phase = .freed ∧ d.camera.ndk.created.length = 8 ∧ d.camera.backend.handles = {} ∧
      ∀ h ∈ d.camera.ndk.created, d.camera.ndk.released.count h = 1) ∧
    ∃ c₁ c₂ c₃,
      cameraStep .initial (.start (.other 0) true (List.replicate 8 true ++ [false])) c₁ ∧
      Runs cameraStep c₁ (List.replicate 5 (.proceed (.other 0) [])) c₂ ∧
      cameraStep c₂ (.proceed (.other 0) []) c₃ ∧
      c₃.ndk.released.length = 5 ∧ c₃.backend.handles = {} ∧
      c₃.backend.lastStartFailure ≠ 0 := by
  constructor
  · have hopens : Camera.initial.apply (.start (.other 0) true []) = some opened.camera :=
      (Option.some_get isSome_opens).symm
    have hunused : opened.Unused (.destroy (.other 0)) := by
      intro _ t
      by_contra hstarts
      rcases Camera.starts_of_step hopens (by simpa using hstarts) with hbefore | ⟨cb, replies, heq⟩
      · cases hbefore
      · obtain ⟨rfl, -⟩ := CameraLabel.start.inj heq
        exact hstarts (by decide +kernel)
    have hfirst : ownedStep initial (.camera (.start (.other 0) true [])) opened := by
      refine ⟨fun hdestroy => Bool.noConfusion hdestroy, ?_⟩
      exact apply_camera (show initial.Allows (.start (.other 0) true []) from trivial) hopens
    let e := (OwnedLabel.apply opened (.destroy (.other 0))).get (by decide +kernel)
    have hends : ((replay (fun _ l => l.isDestroy = false) OwnedLabel.apply destruction.tail e).map
        fun d => decide (d.phase = .freed ∧ d.camera.ndk.created.length = 8)) = some true := by
      decide +kernel
    obtain ⟨d, hd, hmap⟩ := Option.map_eq_some_iff.mp hends
    obtain ⟨hfreed, hlength⟩ := of_decide_eq_true hmap
    have hrest : Runs ownedStep e destruction.tail d := by
      refine (runs_of_replay hd).mono ?_
      rintro _ _ _ ⟨hnot, happly⟩
      refine ⟨fun hdestroy => ?_, happly⟩
      rw [hnot] at hdestroy
      cases hdestroy
    have hrun := Runs.cons hfirst (.cons ⟨hunused, (Option.some_get _).symm⟩ hrest)
    exact ⟨d, hrun, hfreed, hlength, (handles_accounted hrun).2.1 hfreed⟩
  · let c₁ := (Camera.initial.apply (.start (.other 0) true
      (List.replicate 8 true ++ [false]))).get (by decide +kernel)
    let c₂ := (replay (fun _ _ => True) Camera.apply
      (List.replicate 5 (.proceed (.other 0) [])) c₁).get (by decide +kernel)
    let c₃ := (c₂.proceed (.other 0) []).get (by decide +kernel)
    have hfirst : cameraStep .initial
        (.start (.other 0) true (List.replicate 8 true ++ [false])) c₁ :=
      (Option.some_get _).symm
    have hmore : Runs cameraStep c₁ (List.replicate 5 (.proceed (.other 0) [])) c₂ :=
      (runs_of_replay (Option.some_get _).symm).mono fun _ _ _ h => h.2
    have hlast : cameraStep c₂ (.proceed (.other 0) []) c₃ := (Option.some_get _).symm
    have hat : (c₂.thread (.other 0)).call = .releasing .startFails [] := by decide +kernel
    have hfailed := (handles_accounted (.nil initial)).2.2 (.other 0) true _ c₁ _ c₂ [] c₃
      (fun _ => rfl) hfirst hmore (by decide) hat hlast
    exact ⟨c₁, c₂, c₃, hfirst, hmore, hlast, by decide +kernel, hfailed.2.1, hfailed.2.2.2.2⟩

end OwnedCamera
end FaceHal
