import FaceHal.CameraDestruction
import FaceHal.SessionLifetime

/-!
# The camera of a session

`CameraDestruction` takes it that nobody starts a camera once the destructor of its client has
begun. The sessions of `SessionLifetime` keep to that, since a call of `start` has a shared pointer
to the session and the destructor runs when there is none: until the memory goes, what the camera
of a session goes through is a run of `CameraDestruction`. The first of the three stops of the
destructor is the one of `cancel`, and the client is destroyed with the second one.
-/
namespace FaceHal

namespace Camera
variable {c c' : Camera} {t : ThreadId} {l : CameraLabel}

theorem no_notice_of_step (h : c.Sound) (hstep : cameraStep c l c')
    (hnone : (c.thread t).notice = .none)
    (hother : ∀ n notice, l = .notify n notice → t ≠ .other n) :
    (c'.thread t).notice = .none := by
  have hcall : BesideCalls c c' → (c'.thread t).notice = .none := by
    intro hbeside
    rcases hbeside.notices t with hsame | hgone
    · exact hsame.trans hnone
    · exact hgone
  cases l with
  | start _ cb replies =>
      obtain ⟨-, ⟨-, rfl⟩ | ⟨hstop, rfl⟩⟩ := start_cases hstep
      · exact hcall (c.besideCalls_setCall _ _)
      · exact hcall (besideCalls_openOrFail h hstop)
  | stop _ spawned => exact hcall (besideCalls_stop (stop_cases hstep).2)
  | proceed _ replies => exact hcall (besideCalls_proceed h hstep)
  | imageAvailable rdr =>
      unfold cameraStep apply at hstep
      dsimp only at hstep
      split_ifs at hstep
      obtain rfl := Option.some.inj hstep
      exact (notices_setThread { c.thread (.image rdr) with image := .entered } rfl t).trans hnone
  | image rdr ok => exact (notices_of_image hstep t).trans hnone
  | notify n notice =>
      unfold cameraStep apply at hstep
      dsimp only at hstep
      split_ifs at hstep
      obtain rfl := Option.some.inj hstep
      rw [thread_setThread, if_neg (hother n notice rfl)]
      exact hnone
  | handle n =>
      obtain ⟨notice, harrived, rfl⟩ := handle_eq hstep
      dsimp only
      rw [thread_setThread, if_neg]
      · exact hnone
      · rintro rfl
        cases hnone.symm.trans harrived

end Camera

/-- How far the destructors of the client and of the backend have come. -/
def LifetimePhase.backend : LifetimePhase → BackendPhase
  | .constructing | .alive | .destroying _ _ 0 | .destroying _ _ 1 => .owned
  | .destroying t _ (stops + 2) => .destroying t (stops + 1)
  | .freed => .freed

namespace CountedSession
variable {o : CountedSession} {slot : Option ℕ} {frames : ℕ → FramePlace} {j : ℕ}
  {l : CameraLabel} {c : Camera}

/-- The thread of the destructor handles no notification. -/
def Quiet (o : CountedSession) : Prop :=
  ∀ t cleared stops, o.phase = .destroying t cleared stops → (o.camera.thread t).notice = .none

theorem Consistent.destroys_of_stop {t : ThreadId} {cleared : Bool} {stops spawned : ℕ}
    (h : o.Consistent slot frames j) (hquiet : o.Quiet)
    (hphase : o.phase = .destroying t cleared stops)
    (hallowed : o.Allows frames (.stop t spawned)) :
    cleared = true ∧ stops < 3 := by
  have hdestroys : o.Destroys t := by
    cases t with
    | other n =>
        obtain ⟨-, hheld | hnotice | hdestroys⟩ := hallowed
        · rw [h.unheld _ _ _ hphase] at hheld
          cases hheld
        · rw [hquiet _ _ _ hphase] at hnotice
          cases hnotice
        · exact hdestroys
    | image rdr => exact hallowed.2
  unfold Destroys at hdestroys
  rw [hphase] at hdestroys
  cases cleared with
  | true => exact ⟨rfl, hdestroys.2⟩
  | false => exact hdestroys.elim

theorem ne_of_free {t : ThreadId} {cleared : Bool} {stops n : ℕ} (h : o.Free n)
    (hphase : o.phase = .destroying t cleared stops) : t ≠ .other n := by
  have hne := h.2.2
  rw [hphase] at hne
  exact hne

theorem free_of_stop {t : ThreadId} {spawned : ℕ} (h : o.Allows frames (.stop t spawned)) :
    o.Free spawned := by
  cases t with
  | other n => exact h.1
  | image rdr => exact h.1

theorem Consistent.allows_owned {t : ThreadId} {cleared : Bool} {stops : ℕ}
    (h : o.Consistent slot frames j) (hquiet : o.Quiet)
    (hphase : o.phase = .destroying t cleared (stops + 2)) (hallowed : o.Allows frames l) :
    OwnedCamera.Allows ⟨o.camera, .destroying t (stops + 1)⟩ l := by
  cases l with
  | start t' cb replies =>
      exact absurd rfl (not_start_of_allows hallowed (h.unheld _ _ _ hphase) t' cb replies)
  | stop t' spawned =>
      refine ⟨ne_of_free (free_of_stop hallowed) hphase, ?_⟩
      rintro rfl
      have hfew := (h.destroys_of_stop hquiet hphase hallowed).2
      omega
  | image rdr ok =>
      rintro rfl
      have hmark := h.marked rdr _ _ hphase
      have hinside := h.inside rdr (by rw [hmark]; exact FramePlace.noConfusion)
      cases hmark.symm.trans (hallowed hinside)
  | notify n notice => exact ne_of_free hallowed hphase
  | proceed _ _ | imageAvailable _ | handle _ => trivial

theorem phaseAfter_stop {t : ThreadId} {stops spawned : ℕ}
    (hphase : o.phase = .destroying t true stops) :
    o.phaseAfter (.stop t spawned) = .destroying t true (stops + 1) := by
  unfold phaseAfter
  simp only [hphase, if_true]

theorem phaseAfter_other {t : ThreadId} {cleared : Bool} {stops : ℕ}
    (hphase : o.phase = .destroying t cleared stops) (hl : ∀ spawned, l ≠ .stop t spawned) :
    o.phaseAfter l = .destroying t cleared stops := by
  unfold phaseAfter
  split
  · next t' spawned =>
      split
      · next t'' before hphase' =>
          obtain ⟨rfl, rfl, rfl⟩ := LifetimePhase.destroying.inj (hphase'.symm.trans hphase)
          rw [if_neg]
          · exact hphase'
          · rintro rfl
            exact hl spawned rfl
      · exact hphase
  · exact hphase

theorem phaseAfter_early (hearly : ∀ t cleared stops, o.phase ≠ .destroying t cleared stops) :
    o.phaseAfter l = o.phase := by
  unfold phaseAfter
  split
  · split
    · next hphase => exact absurd hphase (hearly _ _ _)
    · rfl
  · rfl

theorem owned_single {phase after : BackendPhase} (hstep : cameraStep o.camera l c)
    (hallows : OwnedCamera.Allows ⟨o.camera, phase⟩ l)
    (hafter : OwnedCamera.phaseAfter ⟨o.camera, phase⟩ l = after) :
    ownedStep ⟨o.camera, phase⟩ (.camera l) ⟨c, after⟩ := by
  rw [← hafter]
  exact ⟨fun hdestroy => Bool.noConfusion hdestroy, OwnedCamera.apply_camera hallows hstep⟩

theorem Consistent.owned_destroy {t : ThreadId} {spawned : ℕ} (h : o.Consistent slot frames j)
    (hquiet : o.Quiet) (hphase : o.phase = .destroying t true 1)
    (hstep : cameraStep o.camera (.stop t spawned) c) :
    ownedStep ⟨o.camera, .owned⟩ (.destroy t) ⟨o.camera, .destroying t 0⟩ := by
  refine ⟨fun _ => h.unstarted (h.unheld _ _ _ hphase), ?_⟩
  have hmay : o.camera.MayStart t := by
    rcases (Camera.stop_cases hstep).1 with hmay | ⟨-, hnotice⟩
    · exact hmay
    · rw [hquiet _ _ _ hphase] at hnotice
      cases hnotice
  exact if_pos ⟨rfl, hmay⟩

/-- A step of the camera of a session, with the beginning of the destructor of its client. -/
theorem Consistent.owned_camera (h : o.Consistent slot frames j) (hquiet : o.Quiet)
    (hallowed : o.Allows frames l) (hlives : o.phase ≠ .freed)
    (hstep : cameraStep o.camera l c) :
    ∃ ms, Runs ownedStep ⟨o.camera, o.phase.backend⟩ ms ⟨c, (o.phaseAfter l).backend⟩ := by
  cases hphase : o.phase with
  | constructing | alive =>
      rw [phaseAfter_early (by simp [hphase]), hphase]
      exact ⟨_, .single (owned_single hstep trivial rfl)⟩
  | destroying t cleared stops =>
      by_cases hstop : ∃ spawned, l = .stop t spawned
      · obtain ⟨spawned, rfl⟩ := hstop
        obtain ⟨rfl, -⟩ := h.destroys_of_stop hquiet hphase hallowed
        rw [phaseAfter_stop hphase]
        match stops with
        | 0 => exact ⟨_, .single (owned_single hstep trivial rfl)⟩
        | 1 =>
            have hallows : OwnedCamera.Allows ⟨o.camera, .destroying t 0⟩ (.stop t spawned) :=
              ⟨ne_of_free (free_of_stop hallowed) hphase, fun _ => by decide⟩
            exact ⟨_, .cons (h.owned_destroy hquiet hphase hstep)
              (.single (owned_single hstep hallows (congrArg _ (if_pos rfl))))⟩
        | stops + 2 =>
            exact ⟨_, .single (owned_single hstep (h.allows_owned hquiet hphase hallowed)
              (congrArg _ (if_pos rfl)))⟩
      · push Not at hstop
        rw [phaseAfter_other hphase hstop]
        match stops with
        | 0 | 1 => exact ⟨_, .single (owned_single hstep trivial rfl)⟩
        | stops + 2 =>
            refine ⟨_, .single (owned_single hstep (h.allows_owned hquiet hphase hallowed) ?_)⟩
            unfold OwnedCamera.phaseAfter
            split
            · next t' before t'' spawned hsame =>
                obtain ⟨rfl, rfl⟩ := BackendPhase.destroying.inj hsame
                rw [if_neg]
                · rfl
                · rintro rfl
                  exact hstop spawned rfl
            · rfl
  | freed => exact absurd hphase hlives

/-- Until the memory goes, the camera has been through a run of `CameraDestruction`. -/
structure Owned (o : CountedSession) : Prop where
  quiet : o.Quiet
  run : ∃ ms d, Runs ownedStep .initial ms d ∧ d.phase = o.phase.backend ∧
    (o.phase ≠ .freed → d.camera = o.camera)

theorem Owned.change {holders : List SessionHolder} {phase : LifetimePhase} (h : o.Owned)
    (hlives : o.phase ≠ .freed) (hphase : phase.backend = o.phase.backend)
    (hquiet : Quiet ⟨o.camera, holders, phase⟩) : Owned ⟨o.camera, holders, phase⟩ := by
  obtain ⟨ms, d, hrun, hd, hcamera⟩ := h.run
  exact ⟨hquiet, ms, d, hrun, hd.trans hphase.symm, fun _ => hcamera hlives⟩

theorem Owned.drop {x : SessionHolder} {t : ThreadId} (h : o.Owned) (halive : o.phase = .alive)
    (hnotice : (o.camera.thread t).notice = .none) : (o.drop x t).Owned := by
  have hlives : o.phase ≠ .freed := by
    rw [halive]
    exact LifetimePhase.noConfusion
  unfold CountedSession.drop
  split_ifs
  · refine h.change hlives (by rw [halive]; rfl) ?_
    rintro _ _ _ ⟨⟩
    exact hnotice
  · exact h.change hlives rfl h.quiet

theorem Owned.free {t : ThreadId} (h : o.Owned) (hphase : o.phase = .destroying t true 3)
    (hcall : (o.camera.thread t).call = .none) :
    Owned ⟨o.camera, o.holders, .freed⟩ := by
  obtain ⟨ms, ⟨camera, phase⟩, hrun, hd, hcamera⟩ := h.run
  obtain rfl : camera = o.camera := hcamera (by rw [hphase]; exact LifetimePhase.noConfusion)
  obtain rfl : phase = .destroying t 2 := hd.trans (by rw [hphase]; rfl)
  have hfree : ownedStep ⟨o.camera, .destroying t 2⟩ .free ⟨o.camera, .freed⟩ :=
    ⟨fun hdestroy => Bool.noConfusion hdestroy, if_pos hcall⟩
  exact ⟨nofun, _, _, hrun.append (.single hfree), rfl, fun hlives => absurd rfl hlives⟩

theorem Owned.afterCamera (h : o.Owned) (hcons : o.Consistent slot frames j)
    (hallowed : o.Allows frames l) (hstep : cameraStep o.camera l c) :
    (o.afterCamera l c).Owned := by
  obtain ⟨ms, ⟨camera, phase⟩, hrun, rfl, hcamera⟩ := h.run
  by_cases hfreed : o.phase = .freed
  · have hafter : o.phaseAfter l = .freed :=
      (phaseAfter_early (by simp [hfreed])).trans hfreed
    refine ⟨fun t cleared stops hphase => ?_, ms, _, hrun, ?_, fun hlives => absurd hafter hlives⟩
    · cases hafter.symm.trans hphase
    · change o.phase.backend = (o.phaseAfter l).backend
      rw [hafter, hfreed]
  · obtain rfl : camera = o.camera := hcamera hfreed
    obtain ⟨more, hmore⟩ := hcons.owned_camera h.quiet hallowed hfreed hstep
    refine ⟨fun t cleared stops hphase => ?_, _, _, hrun.append hmore, rfl, fun _ => rfl⟩
    obtain ⟨before, hbefore⟩ := destroying_of_phaseAfter hphase
    refine Camera.no_notice_of_step hcons.sound hstep (h.quiet _ _ _ hbefore) ?_
    rintro n notice rfl
    exact ne_of_free hallowed hbefore

end CountedSession

namespace SessionLifetime
variable {p p' : SessionLifetime} {o o' : CountedSession} {j : ℕ}

def AllOwned (p : SessionLifetime) : Prop :=
  ∀ (j : ℕ) (o : CountedSession), p.sessions[j]? = some o → o.Owned

theorem AllOwned.put (h : p.AllOwned) (ho' : o'.Owned) : (p.put j o').AllOwned := by
  intro k u hu
  have hu' : (p.sessions.set j o')[k]? = some u := hu
  rw [List.getElem?_set] at hu'
  split_ifs at hu' with hjk
  · exact Option.some.inj hu' ▸ ho'
  · exact h k u hu'

theorem AllOwned.construct (h : p.AllOwned) : p.construct.AllOwned := by
  intro k u hu
  have hu' : (p.sessions ++ [⟨.initial, [], .constructing⟩])[k]? = some u := hu
  rcases List.mem_append.mp (List.mem_of_getElem? hu') with hold | hnew
  · obtain ⟨k', hk'⟩ := List.mem_iff_getElem?.mp hold
    exact h k' u hk'
  · obtain rfl := List.mem_singleton.mp hnew
    exact ⟨nofun, [], _, .nil _, rfl, fun _ => rfl⟩

theorem owned_step {l : LifetimeLabel} (h : p.AllOwned) (hkept : p.Kept)
    (hstep : lifetimeStep p l p') : p'.AllOwned := by
  unfold lifetimeStep LifetimeLabel.apply at hstep
  cases l with
  | construct =>
      obtain rfl := Option.some.inj hstep
      exact h.construct
  | made j n =>
      obtain ⟨o, ho, hstep⟩ := Option.bind_eq_some_iff.mp hstep
      split_ifs at hstep with hphase
      obtain rfl := Option.some.inj hstep
      refine h.put ((h j o ho).change ?_ (by rw [hphase]; rfl) nofun)
      rw [hphase]
      exact LifetimePhase.noConfusion
  | retain j n =>
      obtain ⟨o, ho, hstep⟩ := Option.bind_eq_some_iff.mp hstep
      split_ifs at hstep with hmay
      obtain rfl := Option.some.inj hstep
      exact h.put ⟨(h j o ho).quiet, (h j o ho).run⟩
  | release j n =>
      obtain ⟨o, ho, hstep⟩ := Option.bind_eq_some_iff.mp hstep
      split_ifs at hstep with hmay
      obtain rfl := Option.some.inj hstep
      refine h.put ((h j o ho).drop ((hkept.session j o ho).alive (List.ne_nil_of_mem hmay.1)) ?_)
      rw [hmay.2]
  | camera j l =>
      obtain ⟨o, ho, hstep⟩ := Option.bind_eq_some_iff.mp hstep
      unfold SessionLifetime.stepCamera at hstep
      split_ifs at hstep with hallowed
      obtain ⟨c, hc, rfl⟩ := Option.map_eq_some_iff.mp hstep
      have hput := h.put (j := j) ((h j o ho).afterCamera (hkept.session j o ho) hallowed hc)
      cases l <;> exact hput
  | route i rdr =>
      dsimp only at hstep
      split_ifs at hstep with hfrom
      obtain rfl := Option.some.inj hstep
      exact h
  | ref i rdr =>
      dsimp only at hstep
      split at hstep
      · next j hfrom =>
          obtain ⟨o, ho, hstep⟩ := Option.bind_eq_some_iff.mp hstep
          split_ifs at hstep with hne
          obtain rfl := Option.some.inj hstep
          have hheld : CountedSession.Owned ⟨o.camera, .frame i rdr :: o.holders, o.phase⟩ :=
            ⟨(h j o ho).quiet, (h j o ho).run⟩
          exact h.put (j := j) hheld
      · cases hstep
  | leave i rdr n =>
      dsimp only at hstep
      split at hstep
      · obtain rfl := Option.some.inj hstep
        exact h
      · next j hfrom =>
          obtain ⟨o, ho, hstep⟩ := Option.bind_eq_some_iff.mp hstep
          split_ifs at hstep with hmay
          obtain rfl := Option.some.inj hstep
          obtain ⟨u, hu, hmem⟩ := hkept.held i rdr j hfrom
          obtain rfl := Option.some.inj (hu.symm.trans ho)
          have hcons := hkept.session j u ho
          have hnotice : (u.camera.thread (if i = j then .image rdr else .other n)).notice =
              .none := by
            split_ifs with hij
            · exact hcons.current.notice rdr
            · rw [(hmay hij).1]
          exact h.put (j := j) ((h j u ho).drop (hcons.alive (List.ne_nil_of_mem hmem)) hnotice)
      · next j hfrom =>
          obtain ⟨o, ho, hstep⟩ := Option.bind_eq_some_iff.mp hstep
          split_ifs at hstep with hfreed
          obtain rfl := Option.some.inj hstep
          exact h
      · cases hstep
  | clear j =>
      obtain ⟨o, ho, hstep⟩ := Option.bind_eq_some_iff.mp hstep
      split at hstep
      · next t stops hphase =>
          obtain rfl := Option.some.inj hstep
          refine AllOwned.put (p := { p with sessionFrameCallback := none }) h
            ((h j o ho).change ?_ ?_ ?_)
          · rw [hphase]
            exact LifetimePhase.noConfusion
          · rw [hphase]
            match stops with
            | 0 | 1 | stops + 2 => rfl
          · rintro _ _ _ ⟨⟩
            exact (h j o ho).quiet _ _ _ hphase
      · cases hstep
  | free j =>
      obtain ⟨o, ho, hstep⟩ := Option.bind_eq_some_iff.mp hstep
      split at hstep
      · next t hphase =>
          split_ifs at hstep with hcall
          obtain rfl := Option.some.inj hstep
          exact h.put ((h j o ho).free hphase hcall)
      · cases hstep

/-- In every run without a stop in the gap of `onImageAvailable`, the cameras are started and
destroyed as in `CameraDestruction`. -/
theorem owned_of_runs {ls : List LifetimeLabel}
    (hrun : Runs (guarded GapsMissed lifetimeStep) initial ls p) (ho : p.sessions[j]? = some o) :
    o.Owned := by
  have hkeeps : ∀ q l q', q.Kept ∧ q.AllOwned → guarded GapsMissed lifetimeStep q l q' →
      q'.Kept ∧ q'.AllOwned := fun _ _ _ h hstep =>
    ⟨kept_step h.1 hstep.1 hstep.2, owned_step h.2 h.1 hstep.2⟩
  have hinitial : initial.AllOwned := by
    intro j o ho
    cases ho
  exact (hrun.invariant hkeeps ⟨kept_initial, hinitial⟩).2 j o ho

end SessionLifetime
end FaceHal
