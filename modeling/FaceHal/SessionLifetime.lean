import FaceHal.CameraShutdown

/-!
# How long a session lives

A `Session` is counted by its shared pointers: the ones of the client and of calls in progress, of
cancellation signals that were locked, of workers, and the one that `onCameraFrame` takes of itself.
Its camera threads have none when they enter it. They come through raw pointers, the `this` of the
camera's frame callback and the one in the engine's slot, which names the session that was made last
and so may be called by the camera of another one.

The last pointer to go runs the destructor on its thread. It clears the slot, and it stops the
camera three times: in `cancel`, and in the destructors of the client and of the backend. Then the
memory is freed, whatever the handlers of the camera's notifications are doing. `ref` is called
between the first pointer and the end of the last one; outside that time it aborts the process,
which here has no further step.

Each session has the camera of `CameraThreads`, and a step of it here is a step of that one.
-/
namespace FaceHal

/-- The place of an image thread in the frame callback of its session. -/
inductive FramePlace where
  | outside
  /-- In `FaceEngine::onCameraFrame`, before the slot is read. -/
  | routing
  /-- In `onCameraFrame` of the session, before it has a pointer of its own. -/
  | entered (j : ℕ)
  | referenced (j : ℕ)
  /-- In the destructor of the session. -/
  | destroying (j : ℕ)
  /-- Back in the frame callback. -/
  | passed
deriving DecidableEq, Repr

/-- Who has a shared pointer: a thread, by its number in the session's camera, or an image
thread. -/
inductive SessionHolder where
  | thread (n : ℕ)
  | frame (i rdr : ℕ)
deriving DecidableEq, Repr

inductive LifetimePhase where
  | constructing
  | alive
  /-- The destructor runs on this thread. `stops` calls of `stop` have begun. -/
  | destroying (t : ThreadId) (cleared : Bool) (stops : ℕ)
  | freed
deriving DecidableEq, Repr

structure CountedSession where
  camera : Camera
  holders : List SessionHolder
  phase : LifetimePhase

structure SessionLifetime where
  sessionFrameCallback : Option ℕ
  sessions : List CountedSession
  frames : ℕ → ℕ → FramePlace

inductive LifetimeLabel where
  /-- The constructor, with the entry in the slot. -/
  | construct
  /-- `make` has the first pointer. -/
  | made (j n : ℕ)
  /-- Some thread gets a pointer: for a call, from a signal's weak pointer or as a worker. -/
  | retain (j n : ℕ)
  | release (j n : ℕ)
  | camera (j : ℕ) (l : CameraLabel)
  /-- `FaceEngine::onCameraFrame` reads the slot. -/
  | route (i rdr : ℕ)
  /-- `ref` in `onCameraFrame`. -/
  | ref (i rdr : ℕ)
  /-- `onCameraFrame` returns; `n` is the number of the thread in the other session's camera. -/
  | leave (i rdr n : ℕ)
  /-- The destructor clears the slot. -/
  | clear (j : ℕ)
  | free (j : ℕ)
deriving DecidableEq

namespace CountedSession

/-- `stop` is called by the destructor on this thread. -/
def Destroys (o : CountedSession) (t : ThreadId) : Prop :=
  match o.phase with
  | .destroying t' true stops => t' = t ∧ stops < 3
  | _ => False

instance (o : CountedSession) (t : ThreadId) : Decidable (o.Destroys t) := by
  unfold Destroys
  split <;> infer_instance

/-- The thread is in no code of the session. -/
def Free (o : CountedSession) (n : ℕ) : Prop :=
  o.camera.thread (.other n) = {} ∧ .thread n ∉ o.holders ∧
    match o.phase with
    | .destroying t _ _ => t ≠ .other n
    | _ => True

instance (o : CountedSession) (n : ℕ) : Decidable (o.Free n) := by
  unfold Free
  split <;> infer_instance

/-- Who takes the step of the camera: `start` is called with a pointer to the session, `stop` also
by the handlers and the destructor. -/
def Allows (o : CountedSession) (frames : ℕ → FramePlace) : CameraLabel → Prop
  | .start (.other n) _ _ => .thread n ∈ o.holders
  | .start (.image _) _ _ => False
  | .stop (.other n) spawned => o.Free spawned ∧ (.thread n ∈ o.holders ∨
      (o.camera.thread (.other n)).notice.stops = true ∨ o.Destroys (.other n))
  | .stop (.image rdr) spawned => o.Free spawned ∧ o.Destroys (.image rdr)
  | .notify n _ => o.Free n
  | .image rdr _ => (o.camera.thread (.image rdr)).image = .inside → frames rdr = .passed
  | _ => True

instance (o : CountedSession) (frames : ℕ → FramePlace) (l : CameraLabel) :
    Decidable (o.Allows frames l) := by
  unfold Allows
  split <;> infer_instance

/-- A pointer goes, on this thread. -/
def drop (o : CountedSession) (h : SessionHolder) (t : ThreadId) : CountedSession :=
  { o with
    holders := o.holders.erase h
    phase := if o.holders.erase h = [] then .destroying t false 0 else o.phase }

def phaseAfter (o : CountedSession) : CameraLabel → LifetimePhase
  | .stop t _ =>
      match o.phase with
      | .destroying t' true stops => if t' = t then .destroying t' true (stops + 1) else o.phase
      | phase => phase
  | _ => o.phase

/-- The camera took the step. -/
def afterCamera (o : CountedSession) (l : CameraLabel) (c : Camera) : CountedSession :=
  { o with camera := c, phase := o.phaseAfter l }

end CountedSession

/-- Where the frame callback is after a step of its image thread. -/
def FramePlace.afterImage (place : FramePlace) (before after : ImageStage) : FramePlace :=
  if before = .inside then .outside else if after = .inside then .routing else place

namespace SessionLifetime

def initial : SessionLifetime := ⟨none, [], fun _ _ => .outside⟩

def put (p : SessionLifetime) (j : ℕ) (o : CountedSession) : SessionLifetime :=
  { p with sessions := p.sessions.set j o }

def setFrame (p : SessionLifetime) (i rdr : ℕ) (place : FramePlace) : SessionLifetime :=
  { p with frames := Function.update p.frames i (Function.update (p.frames i) rdr place) }

def construct (p : SessionLifetime) : SessionLifetime :=
  { p with
    sessionFrameCallback := some p.sessions.length
    sessions := p.sessions ++ [⟨.initial, [], .constructing⟩] }

/-- A step of the camera of the session `j`, which is `o`. -/
def stepCamera (p : SessionLifetime) (j : ℕ) (o : CountedSession) (l : CameraLabel) :
    Option SessionLifetime :=
  if o.Allows (p.frames j) l then
    (o.camera.apply l).map fun c =>
      match l with
      | .image rdr _ => (p.put j (o.afterCamera l c)).setFrame j rdr
          ((p.frames j rdr).afterImage (o.camera.thread (.image rdr)).image
            (c.thread (.image rdr)).image)
      | _ => p.put j (o.afterCamera l c)
  else none

def route (p : SessionLifetime) (i rdr : ℕ) : SessionLifetime :=
  p.setFrame i rdr (match p.sessionFrameCallback with
    | none => .passed
    | some j => .entered j)

/-- The own pointer of `onCameraFrame` goes, and with it perhaps the session. -/
def leave (p : SessionLifetime) (i rdr n j : ℕ) (o : CountedSession) : SessionLifetime :=
  let o' := o.drop (.frame i rdr) (if i = j then .image rdr else .other n)
  (p.put j o').setFrame i rdr (if o'.holders = [] then .destroying j else .passed)

end SessionLifetime

def LifetimeLabel.apply (p : SessionLifetime) : LifetimeLabel → Option SessionLifetime
  | .construct => some p.construct
  | .made j n => p.sessions[j]?.bind fun o =>
      if o.phase = .constructing then
        some (p.put j { o with holders := [.thread n], phase := .alive })
      else none
  | .retain j n => p.sessions[j]?.bind fun o =>
      if o.holders ≠ [] ∧ o.Free n then
        some (p.put j { o with holders := .thread n :: o.holders })
      else none
  | .release j n => p.sessions[j]?.bind fun o =>
      if .thread n ∈ o.holders ∧ o.camera.thread (.other n) = {} then
        some (p.put j (o.drop (.thread n) (.other n)))
      else none
  | .camera j l => p.sessions[j]?.bind fun o => p.stepCamera j o l
  | .route i rdr => if p.frames i rdr = .routing then some (p.route i rdr) else none
  | .ref i rdr =>
      match p.frames i rdr with
      | .entered j => p.sessions[j]?.bind fun o =>
          if o.holders ≠ [] then
            some ((p.put j { o with holders := .frame i rdr :: o.holders }).setFrame i rdr
              (.referenced j))
          else none
      | _ => none
  | .leave i rdr n =>
      match p.frames i rdr with
      | .entered _ => some (p.setFrame i rdr .passed)
      | .referenced j => p.sessions[j]?.bind fun o =>
          if i ≠ j → o.Free n then some (p.leave i rdr n j o) else none
      | .destroying j => p.sessions[j]?.bind fun o =>
          if o.phase = .freed then some (p.setFrame i rdr .passed) else none
      | _ => none
  | .clear j => p.sessions[j]?.bind fun o =>
      match o.phase with
      | .destroying t false stops =>
          some { p.put j { o with phase := .destroying t true stops } with
            sessionFrameCallback := none }
      | _ => none
  | .free j => p.sessions[j]?.bind fun o =>
      match o.phase with
      | .destroying t true 3 =>
          if (o.camera.thread t).call = .none then some (p.put j { o with phase := .freed })
          else none
      | _ => none

def lifetimeStep : System SessionLifetime LifetimeLabel := fun p l p' => l.apply p = some p'

/-- What the calls of `stop` have led to that the destructor has made on this thread. -/
def Camera.Ending (c : Camera) : ThreadId → ℕ → Prop
  | .other n, _ => c.Shut (.other n)
  | .image rdr, stops => c.backend.isStopping = true ∧
      (stops = 1 ∨ (c.thread (.image rdr)).call = .stopWait)

/-- What holds of the session `j` in every state, with what the slot and its frame callbacks are. -/
structure CountedSession.Consistent (slot : Option ℕ) (frames : ℕ → FramePlace) (j : ℕ)
    (o : CountedSession) : Prop where
  current : o.camera.Current
  sound : o.camera.Sound
  starters : ∀ t, (o.camera.thread t).call.starts = true → ∃ n, t = .other n ∧ .thread n ∈ o.holders
  inside : ∀ rdr, frames rdr ≠ .outside → (o.camera.thread (.image rdr)).image = .inside
  unmade : o.phase = .constructing → o.holders = []
  unheld : ∀ t cleared stops, o.phase = .destroying t cleared stops → o.holders = []
  cleared : ∀ t stops, o.phase = .destroying t true stops → slot ≠ some j
  marked : ∀ rdr cleared stops, o.phase = .destroying (.image rdr) cleared stops →
    frames rdr = .destroying j
  ending : ∀ t cleared stops, o.phase = .destroying t cleared stops → stops ≠ 0 →
    o.camera.Ending t stops
  freed : o.phase = .freed → o.holders = [] ∧ slot ≠ some j ∧
    o.camera.backend.isRunning = false ∧ o.camera.backend.isStopping = false

namespace CountedSession
variable {o : CountedSession} {slot : Option ℕ} {frames frames' : ℕ → FramePlace} {j : ℕ}
  {l : CameraLabel} {c : Camera}

theorem phaseAfter_cases {t : ThreadId} {cleared : Bool} {stops : ℕ}
    (h : o.phaseAfter l = .destroying t cleared stops) :
    o.phase = .destroying t cleared stops ∨ ∃ spawned before, l = .stop t spawned ∧
      o.phase = .destroying t true before ∧ cleared = true ∧ stops = before + 1 := by
  unfold phaseAfter at h
  split at h
  · next t' spawned =>
      split at h
      · next t'' before hphase =>
          split_ifs at h with ht
          · obtain ⟨rfl, rfl, rfl⟩ := LifetimePhase.destroying.inj h
            exact .inr ⟨spawned, before, ht ▸ rfl, hphase, rfl, rfl⟩
          · exact .inl h
      · exact .inl h
  · exact .inl h

theorem destroying_of_phaseAfter {t : ThreadId} {cleared : Bool} {stops : ℕ}
    (h : o.phaseAfter l = .destroying t cleared stops) :
    ∃ before, o.phase = .destroying t cleared before := by
  rcases phaseAfter_cases h with hsame | ⟨spawned, before, -, hbefore, rfl, -⟩
  · exact ⟨stops, hsame⟩
  · exact ⟨before, hbefore⟩

/-- No step of the camera begins or ends the destructor. -/
theorem phase_of_phaseAfter (h : ∀ t cleared stops, o.phaseAfter l ≠ .destroying t cleared stops) :
    o.phaseAfter l = o.phase := by
  unfold phaseAfter at h ⊢
  split at h
  · split at h
    · split_ifs at h ⊢ with ht
      · exact absurd rfl (h _ _ _)
      · rfl
    · rfl
  · rfl

/-- Without a holder nobody starts the camera. -/
theorem Consistent.unstarted (h : o.Consistent slot frames j) (hnone : o.holders = [])
    (t : ThreadId) : (o.camera.thread t).call.starts = false := by
  by_contra hstarts
  obtain ⟨n, -, hmem⟩ := h.starters t (by simpa using hstarts)
  rw [hnone] at hmem
  cases hmem

theorem not_start_of_allows (hallowed : o.Allows frames l) (hnone : o.holders = []) :
    ∀ t cb replies, l ≠ .start t cb replies := by
  rintro t cb replies rfl
  cases t with
  | other n =>
      have hmem : SessionHolder.thread n ∈ o.holders := hallowed
      rw [hnone] at hmem
      cases hmem
  | image rdr => exact hallowed

theorem Consistent.ending_step (h : o.Consistent slot frames j) {t : ThreadId} {cleared : Bool}
    {stops : ℕ} (hphase : o.phase = .destroying t cleared stops)
    (hquiet : ∀ t cb replies, l ≠ .start t cb replies) (hstep : cameraStep o.camera l c)
    (hending : o.camera.Ending t stops) : c.Ending t stops := by
  cases t with
  | other n =>
      exact Camera.shut_step h.sound hending hquiet
        (h.unstarted (h.unheld _ _ _ hphase)) hstep
  | image rdr =>
      have hinside := h.inside rdr (by rw [h.marked rdr _ _ hphase]; exact FramePlace.noConfusion)
      refine ⟨Camera.stopping_of_step h.current h.sound hinside hending.1 hstep, ?_⟩
      exact hending.2.imp_right fun hcall => Camera.stopWait_of_step hending.1 hcall hstep

theorem Consistent.ending_stop (h : o.Consistent slot frames j) {t : ThreadId} {spawned before : ℕ}
    (hphase : o.phase = .destroying t true before)
    (hstep : cameraStep o.camera (.stop t spawned) c) : c.Ending t (before + 1) := by
  cases t with
  | other n => exact Camera.shut_of_stop h.sound (h.current.not_defers_other n) hstep
  | image rdr =>
      have hinside := h.inside rdr (by rw [h.marked rdr _ _ hphase]; exact FramePlace.noConfusion)
      obtain ⟨hstopping, hjoins⟩ := Camera.stopping_of_stop h.current h.sound hinside hstep
      refine ⟨hstopping, ?_⟩
      by_cases hfirst : before = 0
      · exact .inl (congrArg Nat.succ hfirst)
      · exact .inr (hjoins (h.ending _ _ _ hphase hfirst).1)

/-- A step of its camera, with the frame callbacks as they are after it. -/
theorem Consistent.afterCamera (h : o.Consistent slot frames j) (hallowed : o.Allows frames l)
    (hgap : o.camera.GapsMissed l) (hstep : cameraStep o.camera l c)
    (hinside : ∀ rdr, frames' rdr ≠ .outside → (c.thread (.image rdr)).image = .inside)
    (hmarked : ∀ rdr, frames rdr = .destroying j → frames' rdr = .destroying j) :
    (o.afterCamera l c).Consistent slot frames' j := by
  have hother : ∀ {phase}, o.phaseAfter l = phase →
      (∀ {t cleared stops}, phase ≠ .destroying t cleared stops) → o.phase = phase := by
    intro phase hphase hne
    rw [← phase_of_phaseAfter fun t cleared stops => hphase ▸ hne, hphase]
  refine ⟨Camera.current_step h.current h.sound hgap hstep, Camera.sound_step h.sound hstep,
    fun t hstarts => ?_, hinside, fun hphase => ?_, fun t cleared stops hphase => ?_,
    fun t stops hphase => ?_, fun rdr cleared stops hphase => ?_,
    fun t cleared stops hphase hstops => ?_, fun hphase => ?_⟩
  · rcases Camera.starts_of_step hstep hstarts with hbefore | ⟨cb, replies, rfl⟩
    · exact h.starters t hbefore
    · cases t with
      | other n => exact ⟨n, rfl, hallowed⟩
      | image rdr => exact hallowed.elim
  · exact h.unmade (hother hphase LifetimePhase.noConfusion)
  · obtain ⟨before, hbefore⟩ := destroying_of_phaseAfter hphase
    exact h.unheld _ _ _ hbefore
  · obtain ⟨before, hbefore⟩ := destroying_of_phaseAfter hphase
    exact h.cleared _ _ hbefore
  · obtain ⟨before, hbefore⟩ := destroying_of_phaseAfter hphase
    exact hmarked rdr (h.marked _ _ _ hbefore)
  · rcases phaseAfter_cases hphase with hsame | ⟨spawned, before, rfl, hbefore, -, rfl⟩
    · exact h.ending_step hsame (not_start_of_allows hallowed (h.unheld _ _ _ hsame)) hstep
        (h.ending _ _ _ hsame hstops)
    · exact h.ending_stop hbefore hstep
  · obtain ⟨hnone, hslot, hrun, hstop⟩ := h.freed (hother hphase LifetimePhase.noConfusion)
    exact ⟨hnone, hslot, Camera.off_step h.sound hrun hstop (not_start_of_allows hallowed hnone)
      (h.unstarted hnone) hstep⟩

theorem Consistent.of_frames (h : o.Consistent slot frames j)
    (hinside : ∀ rdr, frames' rdr ≠ .outside → (o.camera.thread (.image rdr)).image = .inside)
    (hmarked : ∀ rdr cleared stops, o.phase = .destroying (.image rdr) cleared stops →
      frames' rdr = .destroying j) : o.Consistent slot frames' j :=
  { h with inside := hinside, marked := hmarked }

theorem Consistent.of_slot {slot' : Option ℕ} (h : o.Consistent slot frames j)
    (hslot : slot' ≠ some j) : o.Consistent slot' frames j :=
  { h with
    cleared := fun _ _ _ => hslot
    freed := fun hphase => ⟨(h.freed hphase).1, hslot, (h.freed hphase).2.2⟩ }

theorem Consistent.alive (h : o.Consistent slot frames j) (hne : o.holders ≠ []) :
    o.phase = .alive := by
  cases hphase : o.phase with
  | alive => rfl
  | constructing => exact absurd (h.unmade hphase) hne
  | destroying t cleared stops => exact absurd (h.unheld _ _ _ hphase) hne
  | freed => exact absurd (h.freed hphase).1 hne

/-- A session that is alive may have any holders that keep its starters. -/
theorem Consistent.of_alive {holders : List SessionHolder} (h : o.Consistent slot frames j)
    (hstarters : ∀ t, (o.camera.thread t).call.starts = true →
      ∃ n, t = .other n ∧ .thread n ∈ holders) :
    CountedSession.Consistent slot frames j ⟨o.camera, holders, .alive⟩ where
  current := h.current
  sound := h.sound
  starters := hstarters
  inside := h.inside
  unmade hphase := by cases hphase
  unheld _ _ _ hphase := by cases hphase
  cleared _ _ hphase := by cases hphase
  marked _ _ _ hphase := by cases hphase
  ending _ _ _ hphase := by cases hphase
  freed hphase := by cases hphase

theorem Consistent.hold (h : o.Consistent slot frames j) (hne : o.holders ≠ [])
    (x : SessionHolder) : ({ o with holders := x :: o.holders } : CountedSession).Consistent slot
      frames j := by
  rw [h.alive hne]
  refine h.of_alive fun t hstarts => ?_
  obtain ⟨n, ht, hmem⟩ := h.starters t hstarts
  exact ⟨n, ht, List.mem_cons_of_mem x hmem⟩

theorem Consistent.drop {x : SessionHolder} {t : ThreadId} (h : o.Consistent slot frames j)
    (hmem : x ∈ o.holders)
    (hidle : ∀ n, x = .thread n → (o.camera.thread (.other n)).call.starts = false)
    (hmarked : ∀ rdr, o.holders.erase x = [] → t = .image rdr → frames rdr = .destroying j) :
    (o.drop x t).Consistent slot frames j := by
  have hstarters : ∀ t, (o.camera.thread t).call.starts = true →
      ∃ n, t = .other n ∧ .thread n ∈ o.holders.erase x := by
    intro t hstarts
    obtain ⟨n, rfl, hn⟩ := h.starters t hstarts
    refine ⟨n, rfl, (List.mem_erase_of_ne ?_).mpr hn⟩
    rintro rfl
    rw [hidle n rfl] at hstarts
    cases hstarts
  have halive := h.alive (List.ne_nil_of_mem hmem)
  unfold CountedSession.drop
  split_ifs with hlast
  · refine ⟨h.current, h.sound, hstarters, h.inside, fun hphase => ?_, fun _ _ _ _ => hlast,
      fun t' stops hphase => ?_, fun rdr cleared stops hphase => ?_,
      fun t' cleared stops hphase hstops => ?_, fun hphase => ?_⟩
    · cases hphase
    · cases hphase
    · exact hmarked rdr hlast (LifetimePhase.destroying.inj hphase).1
    · exact absurd (LifetimePhase.destroying.inj hphase).2.2.symm hstops
    · cases hphase
  · rw [halive]
    exact h.of_alive hstarters

theorem Consistent.clear {t : ThreadId} {stops : ℕ} (h : o.Consistent slot frames j)
    (hphase : o.phase = .destroying t false stops) (hslot : slot ≠ some j) :
    ({ o with phase := .destroying t true stops } : CountedSession).Consistent slot frames j := by
  refine ⟨h.current, h.sound, h.starters, h.inside, nofun, fun _ _ _ _ => h.unheld _ _ _ hphase,
    fun _ _ _ => hslot, fun rdr cleared before hbefore => ?_,
    fun t' cleared before hbefore hne => ?_, nofun⟩
  · obtain ⟨rfl, -, -⟩ := LifetimePhase.destroying.inj hbefore
    exact h.marked _ _ _ hphase
  · obtain ⟨rfl, -, rfl⟩ := LifetimePhase.destroying.inj hbefore
    exact h.ending _ _ _ hphase hne

theorem Consistent.free {t : ThreadId} (h : o.Consistent slot frames j)
    (hphase : o.phase = .destroying t true 3) (hcall : (o.camera.thread t).call = .none) :
    ({ o with phase := .freed } : CountedSession).Consistent slot frames j := by
  refine ⟨h.current, h.sound, h.starters, h.inside, nofun, nofun, nofun, nofun, nofun,
    fun _ => ⟨h.unheld _ _ _ hphase, h.cleared _ _ hphase, ?_⟩⟩
  have hending := h.ending _ _ _ hphase (by simp)
  cases t with
  | other n => exact ⟨hending.isRunning, hending.ended hcall⟩
  | image rdr =>
      -- the second call on the thread of the callback waits for ever
      rcases hending.2 with hfirst | hwaits
      · cases hfirst
      · rw [hcall] at hwaits
        cases hwaits

end CountedSession

namespace SessionLifetime
variable {p p' : SessionLifetime} {o o' : CountedSession} {i j rdr : ℕ} {place : FramePlace}

structure Kept (p : SessionLifetime) : Prop where
  session : ∀ j (o : CountedSession), p.sessions[j]? = some o →
    o.Consistent p.sessionFrameCallback (p.frames j) j
  framed : ∀ i rdr, p.frames i rdr ≠ .outside → i < p.sessions.length
  held : ∀ i rdr j, p.frames i rdr = .referenced j →
    ∃ o, p.sessions[j]? = some o ∧ .frame i rdr ∈ o.holders
  slot : ∀ j, p.sessionFrameCallback = some j → j < p.sessions.length

theorem kept_initial : Kept initial where
  session j o ho := by cases ho
  framed i rdr h := absurd rfl h
  held i rdr j h := by cases h
  slot j h := by cases h

theorem frames_setFrame (p : SessionLifetime) (i rdr : ℕ) (place : FramePlace) (i' rdr' : ℕ) :
    (p.setFrame i rdr place).frames i' rdr' =
      if i' = i ∧ rdr' = rdr then place else p.frames i' rdr' := by
  unfold setFrame
  dsimp only
  by_cases hi : i' = i
  · subst hi
    rw [Function.update_self]
    by_cases hr : rdr' = rdr
    · rw [hr, Function.update_self, if_pos ⟨rfl, rfl⟩]
    · rw [Function.update_of_ne hr, if_neg fun h => hr h.2]
  · rw [Function.update_of_ne hi, if_neg fun h => hi h.1]

theorem Kept.put (h : p.Kept) (ho : p.sessions[j]? = some o)
    (hconsistent : o'.Consistent p.sessionFrameCallback (p.frames j) j)
    (hheld : ∀ i rdr, p.frames i rdr = .referenced j → .frame i rdr ∈ o.holders →
      .frame i rdr ∈ o'.holders) : (p.put j o').Kept := by
  have hlt : j < p.sessions.length := (List.getElem?_eq_some_iff.mp ho).1
  have hset : ∀ k, (p.sessions.set j o')[k]? = if j = k then some o' else p.sessions[k]? := by
    intro k
    rw [List.getElem?_set, if_pos hlt]
  refine ⟨fun k u hu => ?_, fun i rdr hframe => ?_, fun i rdr k hframe => ?_, fun k hk => ?_⟩
  · have hu' : (p.sessions.set j o')[k]? = some u := hu
    rw [hset] at hu'
    split_ifs at hu' with hjk
    · obtain rfl := Option.some.inj hu'
      exact hjk ▸ hconsistent
    · exact h.session k u hu'
  · exact (h.framed i rdr hframe).trans_eq (List.length_set).symm
  · obtain ⟨u, hu, hmem⟩ := h.held i rdr k hframe
    by_cases hjk : j = k
    · subst hjk
      obtain rfl := Option.some.inj (hu.symm.trans ho)
      exact ⟨o', (hset j).trans (if_pos rfl), hheld i rdr hframe hmem⟩
    · exact ⟨u, (hset k).trans ((if_neg hjk).trans hu), hmem⟩
  · exact (h.slot k hk).trans_eq (List.length_set).symm

theorem Kept.setFrame (h : p.Kept) (hframed : place ≠ .outside → i < p.sessions.length)
    (hinside : ∀ o, p.sessions[i]? = some o → place ≠ .outside →
      (o.camera.thread (.image rdr)).image = .inside)
    (hheld : ∀ j, place = .referenced j → ∃ o, p.sessions[j]? = some o ∧ .frame i rdr ∈ o.holders)
    (hmarked : ∀ o cleared stops, p.sessions[i]? = some o →
      o.phase = .destroying (.image rdr) cleared stops → place = .destroying i) :
    (p.setFrame i rdr place).Kept := by
  refine ⟨fun k u hu => ?_, fun i' rdr' hframe => ?_, fun i' rdr' k hframe => ?_, h.slot⟩
  · refine (h.session k u hu).of_frames (fun rdr' hframe => ?_)
      fun rdr' cleared stops hphase => ?_
    · rw [frames_setFrame] at hframe
      split_ifs at hframe with hsame
      · obtain ⟨rfl, rfl⟩ := hsame
        exact hinside u hu hframe
      · exact (h.session k u hu).inside rdr' hframe
    · rw [frames_setFrame]
      split_ifs with hsame
      · obtain ⟨rfl, rfl⟩ := hsame
        exact hmarked u cleared stops hu hphase
      · exact (h.session k u hu).marked rdr' cleared stops hphase
  · rw [frames_setFrame] at hframe
    split_ifs at hframe with hsame
    · exact hsame.1 ▸ hframed hframe
    · exact h.framed i' rdr' hframe
  · rw [frames_setFrame] at hframe
    split_ifs at hframe with hsame
    · obtain ⟨rfl, rfl⟩ := hsame
      exact hheld k hframe
    · exact h.held i' rdr' k hframe

theorem Kept.moves (h : p.Kept) (hfrom : p.frames i rdr ≠ .outside)
    (hheld : ∀ j, place = .referenced j → ∃ o, p.sessions[j]? = some o ∧ .frame i rdr ∈ o.holders)
    (hmarked : ∀ o cleared stops, p.sessions[i]? = some o →
      o.phase = .destroying (.image rdr) cleared stops → p.frames i rdr ≠ .destroying i) :
    (p.setFrame i rdr place).Kept :=
  h.setFrame (fun _ => h.framed i rdr hfrom) (fun o ho _ => (h.session i o ho).inside rdr hfrom)
    hheld fun o cleared stops ho hphase =>
      absurd ((h.session i o ho).marked rdr cleared stops hphase) (hmarked o cleared stops ho hphase)

theorem Kept.construct (h : p.Kept) : p.construct.Kept := by
  have hlt : ∀ {k}, k < p.sessions.length → k < p.construct.sessions.length := fun hk =>
    hk.trans_le (List.length_append ▸ Nat.le_add_right _ _)
  refine ⟨fun k u hu => ?_, fun i rdr hframe => hlt (h.framed i rdr hframe),
    fun i rdr k hframe => ?_, fun k hk => ?_⟩
  · have hu' : (p.sessions ++ [⟨.initial, [], .constructing⟩])[k]? = some u := hu
    by_cases hk : k < p.sessions.length
    · rw [List.getElem?_append_left hk] at hu'
      refine (h.session k u hu').of_slot ?_
      intro heq
      exact absurd hk (Option.some.inj heq ▸ lt_irrefl _)
    · have hout : ∀ rdr, p.frames k rdr = .outside := fun rdr => by
        by_contra hframe
        exact hk (h.framed k rdr hframe)
      rw [List.getElem?_append_right (not_lt.mp hk)] at hu'
      obtain rfl := List.mem_singleton.mp (List.mem_of_getElem? hu')
      refine ⟨Camera.current_initial, Camera.sound_initial, fun t hstarts => ?_,
        fun rdr hframe => absurd (hout rdr) hframe, fun _ => rfl, fun _ _ _ hphase => ?_,
        fun _ _ hphase => ?_, fun _ _ _ hphase => ?_, fun _ _ _ hphase => ?_, fun hphase => ?_⟩
      · cases hstarts
      all_goals cases hphase
  · obtain ⟨u, hu, hmem⟩ := h.held i rdr k hframe
    exact ⟨u, List.getElem?_append_left (List.getElem?_eq_some_iff.mp hu).1 ▸ hu, hmem⟩
  · obtain rfl := Option.some.inj hk
    exact List.length_append ▸ Nat.lt_succ_self _

theorem Kept.clearSlot (h : p.Kept) : ({ p with sessionFrameCallback := none } :
    SessionLifetime).Kept where
  session k u hu := (h.session k u hu).of_slot (by simp)
  framed := h.framed
  held := h.held
  slot k hk := by cases hk

/-- The condition of the camera's threads for a step. -/
def GapsMissed (p : SessionLifetime) : LifetimeLabel → Prop
  | .camera j l =>
      match p.sessions[j]? with
      | some o => o.camera.GapsMissed l
      | none => True
  | _ => True

instance (p : SessionLifetime) (l : LifetimeLabel) : Decidable (p.GapsMissed l) := by
  unfold GapsMissed
  split
  · split <;> infer_instance
  · infer_instance

theorem Kept.image {ok : Bool} {c : Camera} (h : p.Kept) (ho : p.sessions[j]? = some o)
    (hallowed : o.Allows (p.frames j) (.image rdr ok)) (hgap : o.camera.GapsMissed (.image rdr ok))
    (hstep : cameraStep o.camera (.image rdr ok) c) :
    ((p.put j (o.afterCamera (.image rdr ok) c)).setFrame j rdr
      ((p.frames j rdr).afterImage (o.camera.thread (.image rdr)).image
        (c.thread (.image rdr)).image)).Kept := by
  have hcons := h.session j o ho
  have hothers : ∀ rdr', rdr' ≠ rdr → p.frames j rdr' ≠ .outside →
      (c.thread (.image rdr')).image = .inside := by
    intro rdr' hne hframe
    refine Camera.inside_of_step hcons.sound (hcons.inside rdr' hframe) (fun ok' heq => ?_) hstep
    exact hne (CameraLabel.image.inj heq).1.symm
  unfold FramePlace.afterImage
  by_cases hbefore : (o.camera.thread (.image rdr)).image = .inside
  · -- the thread leaves the frame callback
    rw [if_pos hbefore]
    have hpassed : p.frames j rdr = .passed := hallowed hbefore
    have hout : (p.setFrame j rdr .outside).Kept := by
      refine h.setFrame (absurd rfl) (fun _ _ => absurd rfl) (fun _ heq => by cases heq) ?_
      intro u cleared stops hu hphase
      have hmark := (h.session j u hu).marked rdr cleared stops hphase
      rw [hpassed] at hmark
      cases hmark
    refine hout.put (o := o) ho (hcons.afterCamera hallowed hgap hstep (fun rdr' hframe => ?_)
      fun rdr' hmark => ?_) fun i' rdr' _ hmem => hmem
    · rw [frames_setFrame] at hframe
      split_ifs at hframe with hsame
      · exact absurd rfl hframe
      · exact hothers rdr' (fun heq => hsame ⟨rfl, heq⟩) hframe
    · rw [frames_setFrame]
      split_ifs with hsame
      · rw [hsame.2, hpassed] at hmark
        cases hmark
      · exact hmark
  · -- it may have come to the frame callback
    rw [if_neg hbefore]
    have houtside : p.frames j rdr = .outside := by
      by_contra hframe
      exact hbefore (hcons.inside rdr hframe)
    have hput : (p.put j (o.afterCamera (.image rdr ok) c)).Kept := by
      refine h.put ho (hcons.afterCamera hallowed hgap hstep (fun rdr' hframe => ?_)
        fun _ hmark => hmark) fun i' rdr' _ hmem => hmem
      refine hothers rdr' ?_ hframe
      rintro rfl
      exact hframe houtside
    have hlt : j < p.sessions.length := (List.getElem?_eq_some_iff.mp ho).1
    have hnew : (p.put j (o.afterCamera (.image rdr ok) c)).sessions[j]? =
        some (o.afterCamera (.image rdr ok) c) := List.getElem?_set_self hlt
    refine hput.setFrame (fun _ => hlt.trans_eq List.length_set.symm) (fun u hu hplace => ?_)
      (fun k heq => ?_)
      fun u cleared stops hu hphase => ?_
    · obtain rfl := Option.some.inj (hnew.symm.trans hu)
      by_contra hafter
      have hnot : ¬ (c.thread (.image rdr)).image = .inside := hafter
      rw [if_neg hnot] at hplace
      exact hplace houtside
    · split_ifs at heq
      rw [houtside] at heq
      cases heq
    · have hmark := (hput.session j u hu).marked rdr cleared stops hphase
      have hsame : p.frames j rdr = .destroying j := hmark
      rw [houtside] at hsame
      cases hsame

theorem Kept.stepCamera {l : CameraLabel} (h : p.Kept) (ho : p.sessions[j]? = some o)
    (hgap : o.camera.GapsMissed l) (hstep : p.stepCamera j o l = some p') : p'.Kept := by
  unfold SessionLifetime.stepCamera at hstep
  split_ifs at hstep with hallowed
  obtain ⟨c, hc, rfl⟩ := Option.map_eq_some_iff.mp hstep
  by_cases himage : ∃ rdr ok, l = .image rdr ok
  · obtain ⟨rdr, ok, rfl⟩ := himage
    exact h.image ho hallowed hgap hc
  · push Not at himage
    have hput : (p.put j (o.afterCamera l c)).Kept := by
      have hcons := h.session j o ho
      refine h.put ho (hcons.afterCamera hallowed hgap hc (fun rdr hframe => ?_)
        fun _ hmark => hmark) fun i rdr _ hmem => hmem
      exact Camera.inside_of_step hcons.sound (hcons.inside rdr hframe) (himage rdr) hc
    cases l with
    | image rdr ok => exact absurd rfl (himage rdr ok)
    | _ => exact hput

theorem Kept.ref (h : p.Kept) (hfrom : p.frames i rdr = .entered j) (ho : p.sessions[j]? = some o)
    (hne : o.holders ≠ []) :
    ((p.put j { o with holders := .frame i rdr :: o.holders }).setFrame i rdr
      (.referenced j)).Kept := by
  have hlt : j < p.sessions.length := (List.getElem?_eq_some_iff.mp ho).1
  have hput : (p.put j { o with holders := .frame i rdr :: o.holders }).Kept :=
    h.put ho ((h.session j o ho).hold hne _) fun _ _ _ hmem => List.mem_cons_of_mem _ hmem
  refine hput.moves (fun hout => ?_) (fun k heq => ?_) fun _ _ _ _ _ heq => ?_
  · cases hfrom.symm.trans hout
  · obtain rfl := FramePlace.referenced.inj heq
    exact ⟨_, List.getElem?_set_self hlt, List.mem_cons_self⟩
  · cases hfrom.symm.trans heq

theorem Kept.leave {n : ℕ} (h : p.Kept) (hfrom : p.frames i rdr = .referenced j)
    (ho : p.sessions[j]? = some o) : (p.leave i rdr n j o).Kept := by
  obtain ⟨u, hu, hmem⟩ := h.held i rdr j hfrom
  obtain rfl := Option.some.inj (hu.symm.trans ho)
  let o' := u.drop (.frame i rdr) (if i = j then .image rdr else .other n)
  let place : FramePlace := if o'.holders = [] then .destroying j else .passed
  have hmoved : (p.setFrame i rdr place).Kept := by
    refine h.moves (fun hout => ?_) (fun k heq => ?_) fun _ _ _ _ _ heq => ?_
    · cases hfrom.symm.trans hout
    · unfold place at heq
      split_ifs at heq
    · cases hfrom.symm.trans heq
  have hdrop : o'.Consistent p.sessionFrameCallback ((p.setFrame i rdr place).frames j) j := by
    refine (hmoved.session j u ho).drop hmem (fun n heq => by cases heq) fun rdr' hlast ht => ?_
    split_ifs at ht with hij
    · obtain rfl := ThreadId.image.inj ht
      rw [frames_setFrame, if_pos ⟨hij.symm, rfl⟩]
      exact if_pos hlast
  refine hmoved.put ho hdrop fun i' rdr' hframe hmem' => ?_
  rw [frames_setFrame] at hframe
  split_ifs at hframe with hsame
  · unfold place at hframe
    split_ifs at hframe
  · refine (List.mem_erase_of_ne fun heq => hsame ?_).mpr hmem'
    exact SessionHolder.frame.inj heq

theorem kept_step {l : LifetimeLabel} (h : p.Kept) (hgap : p.GapsMissed l)
    (hstep : lifetimeStep p l p') : p'.Kept := by
  unfold lifetimeStep LifetimeLabel.apply at hstep
  cases l with
  | construct =>
      obtain rfl := Option.some.inj hstep
      exact h.construct
  | made j n =>
      obtain ⟨o, ho, hstep⟩ := Option.bind_eq_some_iff.mp hstep
      split_ifs at hstep with hphase
      obtain rfl := Option.some.inj hstep
      have hcons := h.session j o ho
      have hnone := hcons.unmade hphase
      refine h.put ho (hcons.of_alive fun t hstarts => ?_) fun i rdr _ hmem => ?_
      · rw [hcons.unstarted hnone] at hstarts
        cases hstarts
      · rw [hnone] at hmem
        cases hmem
  | retain j n =>
      obtain ⟨o, ho, hstep⟩ := Option.bind_eq_some_iff.mp hstep
      split_ifs at hstep with hmay
      obtain rfl := Option.some.inj hstep
      exact h.put ho ((h.session j o ho).hold hmay.1 _) fun _ _ _ hmem =>
        List.mem_cons_of_mem _ hmem
  | release j n =>
      obtain ⟨o, ho, hstep⟩ := Option.bind_eq_some_iff.mp hstep
      split_ifs at hstep with hmay
      obtain rfl := Option.some.inj hstep
      refine h.put ho ((h.session j o ho).drop hmay.1 (fun n' heq => ?_) fun rdr _ ht => ?_)
        fun i rdr _ hmem => (List.mem_erase_of_ne SessionHolder.noConfusion).mpr hmem
      · obtain rfl := SessionHolder.thread.inj heq
        rw [hmay.2]
        rfl
      · cases ht
  | camera j l =>
      obtain ⟨o, ho, hstep⟩ := Option.bind_eq_some_iff.mp hstep
      unfold GapsMissed at hgap
      dsimp only at hgap
      rw [ho] at hgap
      exact h.stepCamera ho hgap hstep
  | route i rdr =>
      dsimp only at hstep
      split_ifs at hstep with hfrom
      obtain rfl := Option.some.inj hstep
      refine h.moves (fun hout => ?_) (fun k heq => ?_) fun _ _ _ _ _ heq => ?_
      · cases hfrom.symm.trans hout
      · split at heq <;> cases heq
      · cases hfrom.symm.trans heq
  | ref i rdr =>
      dsimp only at hstep
      split at hstep
      · next j hfrom =>
          obtain ⟨o, ho, hstep⟩ := Option.bind_eq_some_iff.mp hstep
          split_ifs at hstep with hne
          obtain rfl := Option.some.inj hstep
          exact h.ref hfrom ho hne
      · cases hstep
  | leave i rdr n =>
      dsimp only at hstep
      split at hstep
      · next j hfrom =>
          obtain rfl := Option.some.inj hstep
          refine h.moves (fun hout => ?_) (fun k heq => ?_) fun _ _ _ _ _ heq => ?_
          · cases hfrom.symm.trans hout
          · cases heq
          · cases hfrom.symm.trans heq
      · next j hfrom =>
          obtain ⟨o, ho, hstep⟩ := Option.bind_eq_some_iff.mp hstep
          split_ifs at hstep with hmay
          obtain rfl := Option.some.inj hstep
          exact h.leave hfrom ho
      · next j hfrom =>
          obtain ⟨o, ho, hstep⟩ := Option.bind_eq_some_iff.mp hstep
          split_ifs at hstep with hfreed
          obtain rfl := Option.some.inj hstep
          refine h.moves (fun hout => ?_) (fun k heq => ?_) fun u _ _ hu hphase heq => ?_
          · cases hfrom.symm.trans hout
          · cases heq
          · obtain rfl := FramePlace.destroying.inj (hfrom.symm.trans heq)
            obtain rfl := Option.some.inj (hu.symm.trans ho)
            cases hfreed.symm.trans hphase
      · cases hstep
  | clear j =>
      obtain ⟨o, ho, hstep⟩ := Option.bind_eq_some_iff.mp hstep
      split at hstep
      · next t stops hphase =>
          obtain rfl := Option.some.inj hstep
          have hcleared := h.clearSlot
          exact hcleared.put ho ((hcleared.session j o ho).clear hphase (by simp))
            fun _ _ _ hmem => hmem
      · cases hstep
  | free j =>
      obtain ⟨o, ho, hstep⟩ := Option.bind_eq_some_iff.mp hstep
      split at hstep
      · next t hphase =>
          split_ifs at hstep with hcall
          obtain rfl := Option.some.inj hstep
          exact h.put ho ((h.session j o ho).free hphase hcall) fun _ _ _ hmem => hmem
      · cases hstep

theorem kept_runs {ls : List LifetimeLabel}
    (hrun : Runs (guarded GapsMissed lifetimeStep) initial ls p) : p.Kept :=
  hrun.invariant (fun _ _ _ h hstep => kept_step h hstep.1 hstep.2) kept_initial

end SessionLifetime

/-- The session whose memory the thread of the camera `i` is going to use. -/
def FramePlace.uses (i : ℕ) : FramePlace → Option ℕ
  | .routing => some i
  | .entered j | .referenced j => some j
  | .outside | .destroying _ | .passed => none

namespace SessionLifetime
variable {p : SessionLifetime} {o : CountedSession} {j : ℕ}

/-- A handler that comes to its critical section when the camera is off stops nothing. -/
theorem notice_of_handle {c c' : Camera} {n : ℕ} (hrunning : c.backend.isRunning = false)
    (hstep : cameraStep c (.handle n) c') : (c'.thread (.other n)).notice = .none := by
  obtain ⟨notice, -, rfl⟩ := Camera.handle_eq hstep
  dsimp only
  rw [Camera.thread_setThread, if_pos rfl, hrunning]
  rfl

/-- A frame of the first session's camera is passed to the second one, whose camera has an error.
The last pointer goes before the frame calls `ref` and before the handler of the error calls `stop`,
and the destructor ends. -/
def freedUnderFrame : List LifetimeLabel :=
  [.construct, .made 0 0, .construct, .made 1 0, .camera 0 (.start (.other 0) true []),
    .camera 0 (.imageAvailable 1)] ++ List.replicate 5 (.camera 0 (.image 1 true)) ++
  [.route 0 1, .camera 1 (.start (.other 0) true []), .camera 1 (.notify 5 ⟨.deviceError, 2⟩),
    .camera 1 (.handle 5), .release 1 0, .clear 1, .camera 1 (.stop (.other 0) 9)] ++
  List.replicate 10 (.camera 1 (.proceed (.other 0) [])) ++
  List.replicate 2 (.camera 1 (.stop (.other 0) 9)) ++ [.free 1]

end SessionLifetime
end FaceHal
