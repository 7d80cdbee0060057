import FaceHal.Hal

/-!
# What one session does to the others

An operation in progress needs the frame slot and a clear cancelled flag, and both
belong to the engine. `Isolated` says of a step that it takes neither from an
operation of another session. The constructor takes the slot, the destructor clears
it whoever holds it, and `cancel()` sets the flag for everyone, so a run is isolated
exactly if none of these happens while another session is at work.
-/
namespace FaceHal
namespace Hal

/-- An operation of the session is in progress. -/
def InProgress (h : Hal) (i : ℕ) : Prop := ∃ s ∈ h.live i, SessionView.isBusy ⟨h.engine, s⟩ = true

/-- Camera frames are passed to the session. -/
def Routes (h : Hal) (i : ℕ) : Prop := h.engine.sessionFrameCallback = some i

/-- The operation of the session is in progress, gets its frames and is not cancelled. -/
structure Serves (h : Hal) (i : ℕ) : Prop where
  inProgress : h.InProgress i
  routes : h.Routes i
  running : h.engine.isCancelled = false

structure Undisturbed (h h' : Hal) (i : ℕ) : Prop where
  routed : h.Routes i → h'.Routes i
  running : h.engine.isCancelled = false → h'.engine.isCancelled = false

/-- The step does not disturb an operation of another session. -/
def Isolated (h : Hal) (l : HalLabel) (h' : Hal) : Prop :=
  ∀ i, l.actor ≠ some i → h.InProgress i → h.Undisturbed h' i

/-- No session is created while the one in the slot is at work, and none is cancelled,
closed or destroyed while another one is, unless there is nothing left to take. -/
def LeavesOthers (h : Hal) : HalLabel → Prop
  | .createSession sensorId _ => sensorId = 1008 → ∀ i, h.InProgress i → ¬ h.Routes i
  | .session j l => ∀ s ∈ h.live j, l.cancels s = true ∨ l = .close →
      ∀ i, i ≠ j → h.InProgress i → h.engine.isCancelled = true
  | .destroy j => ∀ i, i ≠ j → h.InProgress i → ¬ h.Routes i ∧ h.engine.isCancelled = true
  | .cameraFrame _ => True

section step
variable {h h' : Hal} {l : HalLabel} {i : ℕ}

theorem onCameraFrame_of_routes {s : Session} (hroutes : h.Routes i) (hs : h.live i = some s) :
    h.onCameraFrame = h.put i (SessionView.frameArrives ⟨h.engine, s⟩) := by
  unfold onCameraFrame
  rw [show h.engine.sessionFrameCallback = some i from hroutes]
  simp only [hs]

theorem InProgress.lt (hi : h.InProgress i) : i < h.sessions.length := by
  obtain ⟨s, hs, -⟩ := hi
  exact live_lt hs

theorem Undisturbed.refl_of_engine (heq : h'.engine = h.engine) : h.Undisturbed h' i := by
  constructor
  · unfold Routes
    rw [heq]
    exact id
  · rw [heq]
    exact id

theorem isolated_iff (hstep : halStep h l h') : h.Isolated l h' ↔ h.LeavesOthers l := by
  cases engine_step hstep with
  | created userId hslot hcancelled =>
      constructor
      · intro hiso _ i hi hroutes
        have hroutes' := (hiso i nofun hi).routed hroutes
        unfold Routes at hroutes'
        rw [hslot] at hroutes'
        have hlt := hi.lt
        obtain rfl := Option.some.inj hroutes'
        exact Nat.lt_irrefl _ hlt
      · intro hleaves i _ hi
        refine ⟨fun hroutes => absurd hroutes (hleaves rfl i hi), ?_⟩
        intro hclear
        exact hcancelled.trans hclear
  | stepped j l' s hs hslot hcancelled =>
      constructor
      · intro hiso s' hs' hcancels i hij hi
        obtain rfl := Option.some.inj (hs.symm.trans hs')
        by_contra hclear
        have hclear' := (hiso i (fun heq => hij (Option.some.inj heq).symm) hi).running
          (by simpa using hclear)
        have hset : h'.engine.isCancelled = true := by
          refine hcancelled.trans ?_
          rcases hcancels with hc | rfl
          · rw [hc, Bool.true_or, Bool.true_or]
          · simp
        rw [hset] at hclear'
        cases hclear'
      · intro hleaves i hij hi
        have hij' : i ≠ j := by
          rintro rfl
          exact hij rfl
        refine ⟨fun hroutes => hslot.trans hroutes, ?_⟩
        intro hclear
        have hnot : ¬ (l'.cancels s = true ∨ l' = .close) := by
          intro hc
          rw [hleaves s hs hc i hij' hi] at hclear
          cases hclear
        refine hcancelled.trans ?_
        rw [show h.engine.cancelled = false from hclear]
        simpa [not_or] using hnot
  | destroyed j s hs hslot hcancelled =>
      constructor
      · intro hiso i hij hi
        have hkept := hiso i (fun heq => hij (Option.some.inj heq).symm) hi
        constructor
        · intro hroutes
          have hroutes' := hkept.routed hroutes
          unfold Routes at hroutes'
          rw [hslot] at hroutes'
          cases hroutes'
        · by_contra hclear
          have hclear' := hkept.running (by simpa using hclear)
          rw [show h'.engine.isCancelled = true from hcancelled] at hclear'
          cases hclear'
      · intro hleaves i hij hi
        have hij' : i ≠ j := by
          rintro rfl
          exact hij rfl
        obtain ⟨hroutes, hset⟩ := hleaves i hij' hi
        refine ⟨fun hr => absurd hr hroutes, ?_⟩
        intro hclear
        rw [hset] at hclear
        cases hclear
  | kept hsession hdestroy hcreate heq =>
      constructor
      · intro _
        cases l with
        | createSession sensorId userId =>
            rintro rfl
            exact absurd rfl (hcreate userId)
        | session j l' => exact absurd rfl (hsession j l')
        | destroy j => exact absurd rfl (hdestroy j)
        | cameraFrame j => trivial
      · intro _ i _ _
        exact .refl_of_engine heq

theorem idle_of_cancels {v v' : SessionView} {l : SessionLabel} (hstep : sessionStep v l v')
    (hc : l.cancels v.session = true ∨ l = .close) : ∀ kind, v'.session.flag kind = false := by
  unfold sessionStep at hstep
  rcases hc with hc | rfl
  · cases l with
    | cancel =>
        obtain rfl := Option.some.inj hstep
        exact (canceled_cancel v).flag
    | onContextChanged context now =>
        obtain rfl := Option.some.inj hstep
        have hc' : (SessionView.contextStep v.session context now).2 = true := hc
        unfold SessionView.onContextChanged
        dsimp only
        rw [if_pos hc']
        exact (canceled_cancel _).flag
    | _ => cases hc
  · obtain rfl := Option.some.inj hstep
    intro kind
    rw [← (canceled_cancel v).flag kind]
    exact Session.flag_congr rfl rfl rfl kind

/-- Its own steps leave an operation served as long as it is in progress. -/
theorem serves_own (hs : h.Serves i) (hstep : halStep h l h') (hl : l.actor = some i)
    (hprogress : h'.InProgress i) : h'.Serves i := by
  suffices hkept : h'.Routes i ∧ h'.engine.isCancelled = false from ⟨hprogress, hkept.1, hkept.2⟩
  unfold halStep at hstep
  cases l with
  | createSession sensorId userId => cases hl
  | cameraFrame j => cases hl
  | destroy j =>
      obtain rfl := Option.some.inj hl
      obtain ⟨s, hlive, -, rfl⟩ := destroy_step hstep
      obtain ⟨s', hs', -⟩ := hprogress
      rw [Option.mem_def, live_destroy (live_lt hlive), if_pos rfl] at hs'
      cases hs'
  | session j l' =>
      obtain rfl := Option.some.inj hl
      obtain ⟨s, v, hlive, hown, hv, rfl⟩ := session_step hstep
      obtain ⟨hslot, hcancelled⟩ := engine_of_own hown hv
      refine ⟨hslot.trans hs.routes, hcancelled.trans ?_⟩
      have hnot : ¬ (l'.cancels s = true ∨ l' = .close) := by
        intro hc
        obtain ⟨s', hs', hbusy⟩ := hprogress
        rw [Option.mem_def, live_put (live_lt hlive), if_pos rfl] at hs'
        obtain rfl := Option.some.inj hs'
        obtain ⟨kind, hset⟩ := SessionView.isBusy_iff.mp hbusy
        rw [idle_of_cancels hv hc kind] at hset
        cases hset
      rw [show h.engine.cancelled = false from hs.running]
      simpa [not_or] using hnot

end step

/-- An operation that is served stays served to its end, if the other sessions leave
it what it has. -/
theorem serves_run {ls : List HalLabel} {h h' : Hal} {i : ℕ} (hs : h.Serves i)
    (hrun : Runs (fun s l t => guarded LeavesOthers halStep s l t ∧ t.InProgress i) h ls h') :
    h'.Serves i := by
  refine hrun.invariant (P := fun h => h.Serves i) ?_ hs
  rintro s l t hserves ⟨⟨hleaves, hstep⟩, hprogress⟩
  by_cases hl : l.actor = some i
  · exact serves_own hserves hstep hl hprogress
  · have hkept := (isolated_iff hstep).mpr hleaves i hl hserves.inProgress
    exact ⟨hprogress, hkept.routed hserves.routes, hkept.running hserves.running⟩

/-- A run is isolated exactly if every step leaves the others what they have. -/
theorem isolatedRun_iff {ls : List HalLabel} {h : Hal} :
    Runs (fun s l t => halStep s l t ∧ s.Isolated l t) .initial ls h ↔
      Runs (guarded LeavesOthers halStep) .initial ls h := by
  constructor
  · refine Runs.mono ?_
    rintro s l t ⟨hstep, hiso⟩
    exact ⟨(isolated_iff hstep).mp hiso, hstep⟩
  · refine Runs.mono ?_
    rintro s l t ⟨hleaves, hstep⟩
    exact ⟨hstep, (isolated_iff hstep).mpr hleaves⟩

/-- Two sessions, and an operation on the second one. -/
def secondSession : List HalLabel :=
  [.createSession 1008 0, .createSession 1008 0, .session 1 (.authenticate 7 0 .started)]

/-- The first session is destroyed while the second one authenticates. -/
theorem destroy_disturbs : ¬ ∀ (ls : List HalLabel) (h : Hal) (l : HalLabel) (h' : Hal),
    Runs halStep .initial ls h → halStep h l h' → h.Isolated l h' := by
  intro hall
  obtain ⟨h, hh⟩ : ∃ h, replay (fun _ _ => True) (fun h l => l.apply h) secondSession .initial =
      some h := ⟨_, rfl⟩
  have hruns : Runs halStep .initial secondSession h :=
    (runs_of_replay hh).mono fun _ _ _ hs => hs.2
  obtain rfl := Option.some.inj hh
  have hkept := hall _ _ (.destroy 0) _ hruns rfl 1 (by decide) ⟨_, rfl, rfl⟩
  have hroutes := hkept.routed rfl
  cases hroutes

end Hal
end FaceHal
