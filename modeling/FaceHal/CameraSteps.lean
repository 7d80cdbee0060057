import FaceHal.CameraOpening
import FaceHal.CameraThreads

/-!
# What a step of the camera does

Every step has one of a few effects on the fields that decide who owns the NDK
objects and who may start or stop. The invariants of the later modules follow from
this list and do not look into the steps again. At most one thread is between
setting and clearing `mIsStopping`, and the fields are empty when the camera neither
runs nor is stopped.
-/
namespace FaceHal
open Program

namespace CallStage

/-- The objects in the locals of a teardown. -/
def objects : CallStage → List Handle
  | .releasing _ objects | .awaitClosed _ _ objects => objects
  | _ => []

/-- Between setting and clearing `mIsStopping`. -/
def stops : CallStage → Bool
  | .callbackWait _ => true
  | .releasing after _ | .awaitClosed after _ _ => after != .startFails
  | _ => false

/-- Before the teardown of a stop. -/
def waits : CallStage → Bool
  | .callbackWait _ => true
  | _ => false

/-- Two places that own the same objects and the same part of a stop. -/
structure Alike (s s' : CallStage) : Prop where
  objects : s.objects = s'.objects
  stops : s.stops = s'.stops
  waits : s.waits = s'.waits

theorem Alike.refl (s : CallStage) : Alike s s := ⟨rfl, rfl, rfl⟩

end CallStage

namespace Camera
variable {c c' : Camera} {t : ThreadId}

section places
variable (c : Camera) (t : ThreadId)

theorem thread_setThread (th : Thread) (t' : ThreadId) :
    (c.setThread t th).thread t' = if t' = t then th else c.thread t' := by
  simp [setThread, Function.update_apply]

theorem call_setCall (s : CallStage) (t' : ThreadId) :
    ((c.setCall t s).thread t').call = if t' = t then s else (c.thread t').call := by
  rw [setCall, thread_setThread]
  split_ifs <;> rfl

theorem call_returns (t' : ThreadId) :
    ((c.returns t).thread t').call = if t' = t then .none else (c.thread t').call := by
  rw [returns, thread_setThread]
  split_ifs <;> rfl

theorem call_teardown (after : AfterTeardown) (t' : ThreadId) :
    ((c.teardown t after).thread t').call =
      if t' = t then .releasing after c.backend.handles.inOrder else (c.thread t').call :=
  c.call_setCall t _ t'

end places

/-- A step moves one thread, in what concerns the calls. -/
def Moves (c c' : Camera) (t : ThreadId) (s : CallStage) : Prop :=
  ∀ t', (c'.thread t').call.Alike (if t' = t then s else (c.thread t').call)

theorem moves_of_call {s : CallStage}
    (h : ∀ t', (c'.thread t').call = if t' = t then s else (c.thread t').call) :
    Moves c c' t s := by
  intro t'
  rw [h t']
  exact .refl _

/-- The steps of `start` that may open the camera. -/
def Opens (c : Camera) : CameraLabel → Prop
  | .start _ _ _ => True
  | .proceed t _ => ∃ cb, (c.thread t).call = .startWait cb
  | _ => False

/-- Who may start and stop, and what they own. -/
inductive Effect (c c' : Camera) (l : CameraLabel) : Prop
  | quiet (hcalls : ∀ t, (c'.thread t).call.Alike (c.thread t).call)
      (hhandles : c'.backend.handles = c.backend.handles)
      (hrunning : c'.backend.isRunning = c.backend.isRunning)
      (hstopping : c'.backend.isStopping = c.backend.isStopping) (hndk : c'.ndk = c.ndk)
  /-- `start` opens the camera. -/
  | opened (cb : Bool) (hl : c.Opens l) (hrun : c.backend.isRunning = false)
      (hstop : c.backend.isStopping = false)
      (hopen : Run ndkEnv (c.backend.openCamera cb) c.ndk (c'.backend, true) c'.ndk)
      (hcalls : ∀ t, (c'.thread t).call.Alike (c.thread t).call)
  /-- `start` fails and gives what it has opened to its teardown. -/
  | failed (t : ThreadId) (cb : Bool) (b : CameraBackend) (hrun : c.backend.isRunning = false)
      (hstop : c.backend.isStopping = false) (hidle : (c.thread t).call.Alike .none)
      (hopen : Run ndkEnv (c.backend.openCamera cb) c.ndk (b, false) c'.ndk)
      (hbackend : c'.backend = { b with handles := {} })
      (hmoves : Moves c c' t (.releasing .startFails b.handles.inOrder))
  /-- `stop` begins and has to wait for the frame callback. -/
  | waits (t : ThreadId) (deferred : Bool) (hstop : c.backend.isStopping = false)
      (hcallback : c.backend.inCallback = true) (hidle : (c.thread t).call.Alike .none)
      (hndk : c'.ndk = c.ndk)
      (hbackend : c'.backend = { c.backend with isRunning := false, isStopping := true })
      (hmoves : Moves c c' t (.callbackWait deferred))
  /-- `stop` begins with its teardown. -/
  | stops (t : ThreadId) (spawned : ℕ) (hl : l = .stop t spawned)
      (hstop : c.backend.isStopping = false) (hcallback : c.backend.inCallback = false)
      (hidle : (c.thread t).call.Alike .none) (hndk : c'.ndk = c.ndk)
      (hbackend : c'.backend =
        { c.backend with isRunning := false, isStopping := true, handles := {} })
      (hmoves : Moves c c' t (.releasing .stopReturns c.backend.handles.inOrder))
  /-- The wait for the frame callback is over. -/
  | takes (t : ThreadId) (after : AfterTeardown) (hafter : after ≠ .startFails)
      (hwaits : (c.thread t).call.waits = true) (hcallback : c.backend.inCallback = false)
      (hndk : c'.ndk = c.ndk) (hbackend : c'.backend = { c.backend with handles := {} })
      (hmoves : Moves c c' t (.releasing after c.backend.handles.inOrder))
  /-- A teardown releases the next object. -/
  | releases (t : ThreadId) (after : AfterTeardown) (h : Handle) (objects : List Handle)
      (hcall : (c.thread t).call = .releasing after (h :: objects))
      (hbackend : c'.backend = c.backend)
      (hndk : c'.ndk = { c.ndk with released := c.ndk.released ++ [h] })
      (hmoves : Moves c c' t (.releasing after objects))
  /-- A stop is over. -/
  | ends (t : ThreadId) (after : AfterTeardown) (hafter : after ≠ .startFails)
      (hcall : (c.thread t).call = .releasing after [])
      (hbackend : c'.backend = { c.backend with isStopping := false }) (hndk : c'.ndk = c.ndk)
      (hmoves : Moves c c' t .none)

theorem idle_of_mayStart (h : c.MayStart t) : (c.thread t).call = .none := by
  cases t with
  | other n => rw [show c.thread (.other n) = {} from h]
  | image rdr => exact h.2

theorem idle_of_mayStop (h : c.MayStop t) : (c.thread t).call = .none :=
  h.elim idle_of_mayStart And.left

theorem alike_update {s : CallStage} (h : ∀ t', (c'.thread t').call =
    if t' = t then s else (c.thread t').call) (hs : s.Alike (c.thread t).call) (t' : ThreadId) :
    (c'.thread t').call.Alike (c.thread t').call := by
  rw [h t']
  split_ifs with ht
  · exact ht ▸ hs
  · exact .refl _

theorem effect_returns {l : CameraLabel} (hidle : (c.thread t).call.Alike .none) :
    Effect c (c.returns t) l :=
  .quiet (alike_update (c.call_returns t) ⟨hidle.objects.symm, hidle.stops.symm, hidle.waits.symm⟩)
    rfl rfl rfl rfl

theorem openOrFail_cases (c : Camera) (t : ThreadId) (cb : Bool) (replies : List Bool) :
    c.backend.isRunning = true ∧ c.openOrFail t cb replies = c.returns t ∨
      c.backend.isRunning = false ∧ ∃ b w,
        Run ndkEnv (c.backend.openCamera cb) c.ndk (b, true) w ∧
          c.openOrFail t cb replies = ({ c with backend := b, ndk := w } : Camera).returns t ∨
        Run ndkEnv (c.backend.openCamera cb) c.ndk (b, false) w ∧ c.openOrFail t cb replies =
          ({ c with backend := b, ndk := w } : Camera).teardown t .startFails := by
  unfold openOrFail
  cases hrun : c.backend.isRunning with
  | true => exact .inl ⟨rfl, rfl⟩
  | false =>
      refine .inr ⟨rfl, ?_⟩
      have hopen : Run ndkEnv (c.backend.openCamera cb) c.ndk
          ((c.backend.openCamera cb).eval answerFrom (c.ndk, replies)).1
          ((c.backend.openCamera cb).eval answerFrom (c.ndk, replies)).2.1 :=
        (run_eval (E := fun c (x : Ndk × List Bool) r (y : Ndk × List Bool) =>
          ndkEnv c x.1 r y.1) ndkEnv_answerFrom (c.backend.openCamera cb) (c.ndk, replies)).map
          (f := Prod.fst) fun _ _ _ _ h => h
      rw [if_neg Bool.false_ne_true]
      dsimp only
      generalize (c.backend.openCamera cb).eval answerFrom (c.ndk, replies) = out at hopen ⊢
      obtain ⟨⟨b, ok⟩, w, _⟩ := out
      refine ⟨b, w, ?_⟩
      cases ok with
      | true => exact .inl ⟨hopen, rfl⟩
      | false => exact .inr ⟨hopen, rfl⟩

theorem effect_openOrFail {l : CameraLabel} {cb : Bool} {replies : List Bool} (hl : c.Opens l)
    (hstop : c.backend.isStopping = false) (hidle : (c.thread t).call.Alike .none) :
    Effect c (c.openOrFail t cb replies) l := by
  rcases openOrFail_cases c t cb replies with
    ⟨-, heq⟩ | ⟨hrun, b, w, ⟨hopen, heq⟩ | ⟨hopen, heq⟩⟩
  · rw [heq]
    exact effect_returns hidle
  · rw [heq]
    exact .opened cb hl hrun hstop hopen (alike_update (call_returns _ t)
      ⟨hidle.objects.symm, hidle.stops.symm, hidle.waits.symm⟩)
  · rw [heq]
    exact .failed t cb b hrun hstop hidle hopen rfl (moves_of_call (call_teardown _ t _))

/-- `start` returns or has a teardown before it. -/
theorem call_openOrFail_self (c : Camera) (t : ThreadId) (cb : Bool) (replies : List Bool) :
    ((c.openOrFail t cb replies).thread t).call = .none ∨
      ∃ objects, ((c.openOrFail t cb replies).thread t).call = .releasing .startFails objects := by
  rcases openOrFail_cases c t cb replies with
    ⟨-, heq⟩ | ⟨-, b, w, ⟨-, heq⟩ | ⟨-, heq⟩⟩
  · exact .inl (heq ▸ (c.call_returns t t).trans (if_pos rfl))
  · exact .inl (heq ▸ (call_returns _ t t).trans (if_pos rfl))
  · exact .inr ⟨_, heq ▸ (call_teardown _ t _ t).trans (if_pos rfl)⟩

/-- The state in which a stop has begun. -/
def stopBegun (c : Camera) : Camera :=
  { c with backend := { c.backend with isRunning := false, isStopping := true } }

/-- The five ways in which the first section of `stop` ends. -/
inductive StopBegins (c : Camera) (t : ThreadId) (spawned : ℕ) (c' : Camera) : Prop
  | nothing (hrun : c.backend.isRunning = false) (hstop : c.backend.isStopping = false)
      (hmgr : c.backend.handles.mgr = none) (heq : c' = c.returns t)
  | joins (hstop : c.backend.isStopping = true) (heq : c' = c.setCall t .stopWait)
  | defers (hstop : c.backend.isStopping = false) (hdefers : c.Defers t)
      (hfree : c.thread (.other spawned) = {})
      (heq : c' = (c.stopBegun.returns t).setCall (.other spawned) (.callbackWait true))
  | waits (hstop : c.backend.isStopping = false) (hdefers : ¬ c.Defers t)
      (hcallback : c.backend.inCallback = true)
      (heq : c' = c.stopBegun.setCall t (.callbackWait false))
  | tears (hstop : c.backend.isStopping = false) (hcallback : c.backend.inCallback = false)
      (heq : c' = c.stopBegun.teardown t .stopReturns)

theorem stop_cases {spawned : ℕ} (h : cameraStep c (.stop t spawned) c') :
    c.MayStop t ∧ StopBegins c t spawned c' := by
  unfold cameraStep apply stop at h
  dsimp only at h
  split_ifs at h with hmay hnothing hstop hdefers hfree hcallback
  · simp only [Bool.and_eq_true, Bool.not_eq_true', Option.isNone_iff_eq_none] at hnothing
    exact ⟨hmay, .nothing hnothing.1.1 hnothing.1.2 hnothing.2 (Option.some.inj h).symm⟩
  · exact ⟨hmay, .joins hstop (Option.some.inj h).symm⟩
  · exact ⟨hmay, .defers (by simpa using hstop) hdefers hfree (Option.some.inj h).symm⟩
  · exact ⟨hmay, .waits (by simpa using hstop) hdefers hcallback (Option.some.inj h).symm⟩
  · exact ⟨hmay, .tears (by simpa using hstop) (by simpa using hcallback)
      (Option.some.inj h).symm⟩

theorem effect_stop {spawned : ℕ} (hidle : (c.thread t).call = .none)
    (h : StopBegins c t spawned c') : Effect c c' (.stop t spawned) := by
  have hnone : (c.thread t).call.Alike .none := hidle ▸ .refl _
  cases h with
  | nothing hrun hstop hmgr heq =>
      rw [heq]
      exact effect_returns hnone
  | joins hstop heq =>
      rw [heq]
      exact .quiet (alike_update (c.call_setCall t _) ⟨hnone.objects.symm, hnone.stops.symm,
        hnone.waits.symm⟩) rfl rfl rfl rfl
  | defers hstop hdefers hfree heq =>
      have hspawned : (c.thread (.other spawned)).call.Alike .none := by
        rw [hfree]
        exact .refl _
      rw [heq]
      refine .waits (.other spawned) true hstop hdefers.1 hspawned rfl rfl
        (moves_of_call fun t' => ?_)
      rw [call_setCall, call_returns]
      split_ifs with hs ht
      · rfl
      · rw [ht]
        exact hidle.symm
      · rfl
  | waits hstop hdefers hcallback heq =>
      rw [heq]
      exact .waits t false hstop hcallback hnone rfl rfl (moves_of_call (call_setCall _ t _))
  | tears hstop hcallback heq =>
      rw [heq]
      exact .stops t spawned rfl hstop hcallback hnone rfl rfl
        (moves_of_call (call_teardown _ t _))

/-- The ways in which a call goes on. -/
inductive Proceeds (c : Camera) (t : ThreadId) (replies : List Bool) (c' : Camera) : Prop
  | opens (cb : Bool) (hcall : (c.thread t).call = .startWait cb)
      (hstop : c.backend.isStopping = false) (heq : c' = c.openOrFail t cb replies)
  | joined (hcall : (c.thread t).call = .stopWait) (hstop : c.backend.isStopping = false)
      (heq : c' = c.returns t)
  | takes (deferred : Bool) (hcall : (c.thread t).call = .callbackWait deferred)
      (hcallback : c.backend.inCallback = false)
      (heq : c' = c.teardown t (if deferred then .deferredEnds else .stopReturns))
  | releases (after : AfterTeardown) (x : Handle) (objects : List Handle)
      (hcall : (c.thread t).call = .releasing after (x :: objects))
      (heq : c' = { c.setCall t (if x.kind = .session then .awaitClosed after x.id objects
          else .releasing after objects) with
        ndk := { c.ndk with released := c.ndk.released ++ [x] } })
  | closed (after : AfterTeardown) (sess : ℕ) (objects : List Handle)
      (hcall : (c.thread t).call = .awaitClosed after sess objects)
      (heq : c' = c.setCall t (.releasing after objects))
  | ends (after : AfterTeardown) (hcall : (c.thread t).call = .releasing after [])
      (heq : c' = c.finish t after)

theorem proceed_cases {replies : List Bool} (h : c.proceed t replies = some c') :
    Proceeds c t replies c' := by
  unfold proceed at h
  cases hcall : (c.thread t).call with
  | none => rw [hcall] at h; cases h
  | startWait cb =>
      rw [hcall] at h
      dsimp only at h
      split_ifs at h with hstop
      exact .opens cb hcall (by simpa using hstop) (Option.some.inj h).symm
  | stopWait =>
      rw [hcall] at h
      dsimp only at h
      split_ifs at h with hstop
      exact .joined hcall (by simpa using hstop) (Option.some.inj h).symm
  | callbackWait deferred =>
      rw [hcall] at h
      dsimp only at h
      by_cases hcallback : c.backend.inCallback = true
      · rw [if_pos hcallback] at h
        cases h
      · rw [if_neg hcallback] at h
        exact .takes deferred hcall (by simpa using hcallback) (Option.some.inj h).symm
  | releasing after objects =>
      rw [hcall] at h
      cases objects with
      | nil => exact .ends after hcall (Option.some.inj h).symm
      | cons x objects => exact .releases after x objects hcall (Option.some.inj h).symm
  | awaitClosed after sess objects =>
      rw [hcall] at h
      exact .closed after sess objects hcall (Option.some.inj h).symm

theorem call_finish (c : Camera) (t : ThreadId) (after : AfterTeardown) (t' : ThreadId) :
    ((c.finish t after).thread t').call = if t' = t then .none else (c.thread t').call := by
  cases after <;> exact c.call_returns t t'

theorem effect_proceed {replies : List Bool} (h : c.proceed t replies = some c') :
    Effect c c' (.proceed t replies) := by
  cases proceed_cases h with
  | opens cb hcall hstop heq =>
      rw [heq]
      exact effect_openOrFail ⟨cb, hcall⟩ hstop (hcall ▸ ⟨rfl, rfl, rfl⟩)
  | joined hcall hstop heq =>
      rw [heq]
      exact effect_returns (hcall ▸ ⟨rfl, rfl, rfl⟩)
  | takes deferred hcall hcallback heq =>
      rw [heq]
      have hafter : (if deferred then AfterTeardown.deferredEnds else .stopReturns) ≠
          .startFails := by
        cases deferred <;> simp
      exact .takes t _ hafter (hcall ▸ rfl) hcallback rfl rfl (moves_of_call (call_teardown _ t _))
  | releases after x objects hcall heq =>
      rw [heq]
      refine .releases t after x objects hcall rfl rfl fun t' => ?_
      dsimp only
      rw [call_setCall]
      split_ifs
      · exact ⟨rfl, rfl, rfl⟩
      · exact .refl _
      · exact .refl _
  | closed after sess objects hcall heq =>
      rw [heq]
      refine .quiet (alike_update (c.call_setCall t _) ?_) rfl rfl rfl rfl
      rw [hcall]
      exact ⟨rfl, rfl, rfl⟩
  | ends after hcall heq =>
      rw [heq]
      have hmoves := moves_of_call (c.call_finish t after)
      cases after with
      | startFails => exact effect_returns (hcall ▸ ⟨rfl, rfl, rfl⟩)
      | stopReturns => exact .ends t .stopReturns (by simp) hcall rfl rfl hmoves
      | deferredEnds => exact .ends t .deferredEnds (by simp) hcall rfl rfl hmoves

theorem image_eq {rdr : ℕ} {ok : Bool} (h : c.image rdr ok = some c') : ∃ s i k,
    c' = { c.setThread (.image rdr) { c.thread (.image rdr) with image := s } with
      backend := { c.backend with inCallback := i, callbackThreadId := k } } := by
  unfold image at h
  dsimp only at h
  cases himage : (c.thread (.image rdr)).image with
  | away => rw [himage] at h; cases h
  | inside =>
      rw [himage] at h
      dsimp only at h
      split_ifs at h
      exact ⟨_, _, _, (Option.some.inj h).symm⟩
  | _ =>
      rw [himage] at h
      exact ⟨_, _, _, (Option.some.inj h).symm⟩

theorem handle_eq {n : ℕ} (h : c.handle n = some c') : ∃ notice,
    (c.thread (.other n)).notice = .arrived notice ∧
    c' = { c.setThread (.other n) { c.thread (.other n) with
        notice := if c.backend.isRunning && !c.backend.isStopping then .stopping notice
          else .none } with
      backend := if notice.kind = .sessionClosed then
          { c.backend with sessionClosed := true, closedBy := notice.id :: c.backend.closedBy }
        else c.backend } := by
  unfold handle at h
  dsimp only at h
  cases hnotice : (c.thread (.other n)).notice with
  | arrived notice =>
      rw [hnotice] at h
      exact ⟨notice, rfl, (Option.some.inj h).symm⟩
  | _ => rw [hnotice] at h; cases h

/-- What the steps of image threads and handlers leave alone. -/
structure CallsKept (c c' : Camera) : Prop where
  calls : ∀ t, (c'.thread t).call = (c.thread t).call
  handles : c'.backend.handles = c.backend.handles
  isRunning : c'.backend.isRunning = c.backend.isRunning
  isStopping : c'.backend.isStopping = c.backend.isStopping
  lastStartFailure : c'.backend.lastStartFailure = c.backend.lastStartFailure
  ndk : c'.ndk = c.ndk

theorem calls_setThread {th : Thread} (hcall : th.call = (c.thread t).call) (t' : ThreadId) :
    ((c.setThread t th).thread t').call = (c.thread t').call := by
  rw [thread_setThread]
  split_ifs with ht
  · rw [hcall, ht]
  · rfl

theorem callsKept_image {rdr : ℕ} {ok : Bool} (h : c.image rdr ok = some c') :
    CallsKept c c' := by
  obtain ⟨s, i, k, rfl⟩ := image_eq h
  exact ⟨calls_setThread rfl, rfl, rfl, rfl, rfl, rfl⟩

theorem callsKept_handle {n : ℕ} (h : c.handle n = some c') : CallsKept c c' := by
  obtain ⟨notice, -, rfl⟩ := handle_eq h
  refine ⟨calls_setThread rfl, ?_, ?_, ?_, ?_, rfl⟩
  all_goals
    dsimp only
    split_ifs <;> rfl

theorem CallsKept.effect {l : CameraLabel} (h : CallsKept c c') : Effect c c' l :=
  .quiet (fun t => h.calls t ▸ .refl _) h.handles h.isRunning h.isStopping h.ndk

theorem callsKept_of_step {l : CameraLabel} (h : cameraStep c l c') :
    CallsKept c c' ∨ (∃ t cb replies, l = .start t cb replies) ∨
      (∃ t spawned, l = .stop t spawned) ∨ ∃ t replies, l = .proceed t replies := by
  unfold cameraStep apply at h
  cases l with
  | start t cb replies => exact .inr (.inl ⟨t, cb, replies, rfl⟩)
  | stop t spawned => exact .inr (.inr (.inl ⟨t, spawned, rfl⟩))
  | proceed t replies => exact .inr (.inr (.inr ⟨t, replies, rfl⟩))
  | imageAvailable rdr =>
      dsimp only at h
      split_ifs at h
      obtain rfl := Option.some.inj h
      exact .inl ⟨calls_setThread rfl, rfl, rfl, rfl, rfl, rfl⟩
  | image rdr ok => exact .inl (callsKept_image h)
  | notify n notice =>
      dsimp only at h
      split_ifs at h
      obtain rfl := Option.some.inj h
      exact .inl ⟨calls_setThread rfl, rfl, rfl, rfl, rfl, rfl⟩
  | handle n => exact .inl (callsKept_handle h)

theorem start_cases {cb : Bool} {replies : List Bool}
    (h : cameraStep c (.start t cb replies) c') :
    c.MayStart t ∧ (c.backend.isStopping = true ∧ c' = c.setCall t (.startWait cb) ∨
      c.backend.isStopping = false ∧ c' = c.openOrFail t cb replies) := by
  unfold cameraStep apply start at h
  dsimp only at h
  split_ifs at h with hmay hstop
  · exact ⟨hmay, .inl ⟨hstop, (Option.some.inj h).symm⟩⟩
  · exact ⟨hmay, .inr ⟨by simpa using hstop, (Option.some.inj h).symm⟩⟩

/-- Every step has one of the effects. -/
theorem effect_of_step {l : CameraLabel} (h : cameraStep c l c') : Effect c c' l := by
  rcases callsKept_of_step h with hkept | ⟨t, cb, replies, rfl⟩ | ⟨t, spawned, rfl⟩ |
    ⟨t, replies, rfl⟩
  · exact hkept.effect
  · obtain ⟨hmay, ⟨-, rfl⟩ | ⟨hstop, rfl⟩⟩ := start_cases h
    · refine .quiet (alike_update (c.call_setCall t _) ?_) rfl rfl rfl rfl
      rw [idle_of_mayStart hmay]
      exact ⟨rfl, rfl, rfl⟩
    · exact effect_openOrFail trivial hstop (idle_of_mayStart hmay ▸ .refl _)
  · obtain ⟨hmay, hbegins⟩ := stop_cases h
    exact effect_stop (idle_of_mayStop hmay) hbegins
  · exact effect_proceed h

/-- Where the stop is, if there is one, and when the fields are empty. -/
structure Orderly (c : Camera) : Prop where
  stopping : ∀ t, (c.thread t).call.stops = true → c.backend.isStopping = true
  stopper : c.backend.isStopping = true → ∃ t, (c.thread t).call.stops = true
  unique : ∀ t t', (c.thread t).call.stops = true → (c.thread t').call.stops = true → t = t'
  running : c.backend.isRunning = true → c.backend.isStopping = false
  empty : c.backend.isRunning = false → (∀ t, (c.thread t).call.waits = false) →
    c.backend.handles = {}

theorem stops_of_waits {s : CallStage} (h : s.waits = true) : s.stops = true := by
  cases s with
  | callbackWait deferred => rfl
  | _ => cases h

theorem orderly_initial : Orderly initial where
  stopping _ h := by cases h
  stopper h := by cases h
  unique _ _ h := by cases h
  running _ := rfl
  empty _ _ := rfl

theorem Orderly.noStop (h : c.Orderly) (hstop : c.backend.isStopping = false) (t : ThreadId) :
    (c.thread t).call.stops = false := by
  cases hs : (c.thread t).call.stops with
  | false => rfl
  | true =>
      rw [h.stopping t hs] at hstop
      cases hstop

theorem Orderly.noWait (h : c.Orderly) (hstop : c.backend.isStopping = false) (t : ThreadId) :
    (c.thread t).call.waits = false := by
  cases hw : (c.thread t).call.waits with
  | false => rfl
  | true =>
      have hs := h.noStop hstop t
      rw [stops_of_waits hw] at hs
      cases hs

/-- When the camera neither runs nor is being stopped the fields are empty. -/
theorem Orderly.idle (h : c.Orderly) (hrun : c.backend.isRunning = false)
    (hstop : c.backend.isStopping = false) : c.backend.handles = {} :=
  h.empty hrun (h.noWait hstop)

theorem Moves.stops {s : CallStage} (h : Moves c c' t s) (t' : ThreadId) :
    (c'.thread t').call.stops = if t' = t then s.stops else (c.thread t').call.stops := by
  rw [(h t').stops]
  split_ifs <;> rfl

theorem Moves.waits {s : CallStage} (h : Moves c c' t s) (t' : ThreadId) :
    (c'.thread t').call.waits = if t' = t then s.waits else (c.thread t').call.waits := by
  rw [(h t').waits]
  split_ifs <;> rfl

theorem Moves.objects {s : CallStage} (h : Moves c c' t s) (t' : ThreadId) :
    (c'.thread t').call.objects = if t' = t then s.objects else (c.thread t').call.objects := by
  rw [(h t').objects]
  split_ifs <;> rfl

theorem Orderly.begin {s : CallStage} (h : c.Orderly) (hstop : c.backend.isStopping = false)
    (hmoves : Moves c c' t s) (hs : s.stops = true)
    (hstopping : c'.backend.isStopping = true) (hrunning : c'.backend.isRunning = false)
    (hempty : s.waits = true ∨ c'.backend.handles = {}) : c'.Orderly := by
  have only : ∀ t', (c'.thread t').call.stops = true → t' = t := by
    intro t' ht'
    by_contra hne
    rw [hmoves.stops, if_neg hne, h.noStop hstop t'] at ht'
    cases ht'
  refine ⟨fun _ _ => hstopping, fun _ => ⟨t, ?_⟩, fun t' t'' ht' ht'' => ?_, ?_, ?_⟩
  · rw [hmoves.stops, if_pos rfl, hs]
  · rw [only t' ht', only t'' ht'']
  · intro hrun
    rw [hrunning] at hrun
    cases hrun
  · intro _ hwaits
    rcases hempty with hw | hempty
    · have ht := hwaits t
      rw [hmoves.waits, if_pos rfl, hw] at ht
      cases ht
    · exact hempty

theorem Orderly.keep (h : c.Orderly)
    (hstops : ∀ t, (c'.thread t).call.stops = (c.thread t).call.stops)
    (hstopping : c'.backend.isStopping = c.backend.isStopping)
    (hrunning : c'.backend.isRunning = true → c'.backend.isStopping = false)
    (hempty : c'.backend.isRunning = false → (∀ t, (c'.thread t).call.waits = false) →
      c'.backend.handles = {}) : c'.Orderly := by
  refine ⟨fun t ht => ?_, fun hs => ?_, fun t t' ht ht' => ?_, hrunning, hempty⟩
  · rw [hstopping]
    exact h.stopping t (hstops t ▸ ht)
  · rw [hstopping] at hs
    obtain ⟨t, ht⟩ := h.stopper hs
    exact ⟨t, (hstops t).trans ht⟩
  · exact h.unique t t' (hstops t ▸ ht) (hstops t' ▸ ht')

/-- The objects in the locals of each thread. -/
def rest (c : Camera) (t : ThreadId) : List Handle := (c.thread t).call.objects

/-- What holds in every state that the camera reaches. -/
structure Sound (c : Camera) : Prop extends Orderly c where
  accounted : Accounted c.backend.handles c.rest c.ndk

theorem sound_initial : Sound initial where
  toOrderly := orderly_initial
  accounted := by
    refine ⟨.initial ?_, nofun⟩
    rintro (_ | t)
    · rfl
    · rfl

theorem Sound.opened (h : c.Sound) {cb : Bool} {out : CameraBackend × Bool} {w : Ndk}
    (hrun : c.backend.isRunning = false) (hstop : c.backend.isStopping = false)
    (hopen : Run ndkEnv (c.backend.openCamera cb) c.ndk out w) :
    CameraBackend.Opened c.rest c.backend c.ndk out w := by
  have hempty := h.idle hrun hstop
  refine hopen.wp (CameraBackend.wp_openCamera hrun hempty ?_)
  rw [← hempty]
  exact h.accounted

theorem orderly_effect {l : CameraLabel} (h : c.Sound) (heffect : Effect c c' l) : c'.Orderly := by
  cases heffect with
  | quiet hcalls hhandles hrunning hstopping hndk =>
      refine h.keep (fun t => (hcalls t).stops) hstopping ?_ ?_
      · rw [hrunning, hstopping]
        exact h.running
      · intro hrun hwaits
        rw [hhandles]
        exact h.empty (hrunning ▸ hrun) fun t => (hcalls t).waits ▸ hwaits t
  | opened cb hl hrun hstop hopen hcalls =>
      have hopened := h.opened hrun hstop hopen
      refine h.keep (fun t => (hcalls t).stops) hopened.undisturbed.isStopping ?_ ?_
      · intro _
        exact hopened.undisturbed.isStopping.trans hstop
      · intro hfalse
        rw [hopened.isRunning] at hfalse
        cases hfalse
  | failed t cb b hrun hstop hidle hopen hbackend hmoves =>
      have hopened := h.opened hrun hstop hopen
      refine h.keep (fun t' => ?_) ?_ ?_ ?_
      · rw [hmoves.stops]
        split_ifs with ht
        · rw [ht, hidle.stops]
          rfl
        · rfl
      · rw [hbackend]
        exact hopened.undisturbed.isStopping
      · intro _
        rw [hbackend]
        exact hopened.undisturbed.isStopping.trans hstop
      · intro _ _
        rw [hbackend]
  | waits t deferred hstop hcallback hidle hndk hbackend hmoves =>
      exact h.begin hstop hmoves rfl (by rw [hbackend]) (by rw [hbackend]) (.inl rfl)
  | stops t spawned hl hstop hcallback hidle hndk hbackend hmoves =>
      exact h.begin hstop hmoves rfl (by rw [hbackend]) (by rw [hbackend])
        (.inr (by rw [hbackend]))
  | takes t after hafter hwaits hcallback hndk hbackend hmoves =>
      refine h.keep (fun t' => ?_) (by rw [hbackend]) ?_ ?_
      · rw [hmoves.stops]
        split_ifs with ht
        · rw [ht, stops_of_waits hwaits]
          exact bne_iff_ne.mpr hafter
        · rfl
      · rw [hbackend]
        exact h.running
      · intro _ _
        rw [hbackend]
  | releases t after x objects hcall hbackend hndk hmoves =>
      have hstage : ∀ t', (c'.thread t').call.stops = (c.thread t').call.stops ∧
          (c'.thread t').call.waits = (c.thread t').call.waits := by
        intro t'
        rw [hmoves.stops, hmoves.waits]
        split_ifs with ht
        · rw [ht, hcall]
          exact ⟨rfl, rfl⟩
        · exact ⟨rfl, rfl⟩
      refine h.keep (fun t' => (hstage t').1) (by rw [hbackend]) ?_ ?_
      · rw [hbackend]
        exact h.running
      · rw [hbackend]
        exact fun hrun hwaits => h.empty hrun fun t' => (hstage t').2 ▸ hwaits t'
  | ends t after hafter hcall hbackend hndk hmoves =>
      have hstops : (c.thread t).call.stops = true := by
        rw [hcall]
        exact bne_iff_ne.mpr hafter
      have gone : ∀ t', (c'.thread t').call.stops = false := by
        intro t'
        rw [hmoves.stops]
        split_ifs with ht
        · rfl
        · cases hs : (c.thread t').call.stops with
          | false => rfl
          | true => exact absurd (h.unique t' t hs hstops) ht
      refine ⟨fun t' ht' => ?_, ?_, fun t' _ ht' => ?_, fun _ => by rw [hbackend], ?_⟩
      · rw [gone t'] at ht'
        cases ht'
      · rw [hbackend]
        nofun
      · rw [gone t'] at ht'
        cases ht'
      · rw [hbackend]
        intro hrun hwaits
        refine h.empty hrun fun t' => ?_
        by_cases ht : t' = t
        · rw [ht, hcall]
          rfl
        · have hw := hwaits t'
          rwa [hmoves.waits, if_neg ht] at hw

theorem Accounted.keep {h h' : CameraHandles} {rest rest' : ThreadId → List Handle} {w : Ndk}
    (hacc : Accounted h rest w) (hh : h' = h) (hrest : ∀ t, rest' t = rest t) :
    Accounted h' rest' w := by
  rw [hh, funext hrest]
  exact hacc

/-- The fields hand over to a teardown what they hold. -/
theorem Accounted.handOver {h : CameraHandles} {rest rest' : ThreadId → List Handle} {w : Ndk}
    (hacc : Accounted h rest w) (hidle : rest t = [])
    (hrest : ∀ t', rest' t' = if t' = t then h.inOrder else rest t') : Accounted {} rest' w := by
  refine ⟨hacc.owned.handOver (o := none) (p := some t) hidle rfl ?_ ?_, hacc.numbered⟩
  · change rest' t = h.inOrder
    rw [hrest, if_pos rfl]
  · rintro (_ | t') hnone hne
    · exact absurd rfl hnone
    · change rest' t' = rest t'
      rw [hrest, if_neg fun heq => hne (congrArg some heq)]

theorem Accounted.release {h : CameraHandles} {rest rest' : ThreadId → List Handle} {w : Ndk}
    {x : Handle} {objects : List Handle} (hacc : Accounted h rest w) (hat : rest t = x :: objects)
    (hrest : ∀ t', rest' t' = if t' = t then objects else rest t') :
    Accounted h rest' { w with released := w.released ++ [x] } := by
  refine ⟨hacc.owned.release (o := some t) ?_ ?_, hacc.numbered⟩
  · change (rest t).Perm (x :: rest' t)
    rw [hrest, if_pos rfl, hat]
  · rintro (_ | t') hne
    · rfl
    · change rest' t' = rest t'
      rw [hrest, if_neg fun heq => hne (congrArg some heq)]

theorem accounted_effect {l : CameraLabel} (h : c.Sound) (heffect : Effect c c' l) :
    Accounted c'.backend.handles c'.rest c'.ndk := by
  cases heffect with
  | quiet hcalls hhandles hrunning hstopping hndk =>
      rw [hndk]
      exact Accounted.keep h.accounted hhandles fun t => (hcalls t).objects
  | opened cb hl hrun hstop hopen hcalls =>
      exact Accounted.keep (h.opened hrun hstop hopen).accounted rfl fun t => (hcalls t).objects
  | failed t cb b hrun hstop hidle hopen hbackend hmoves =>
      rw [hbackend]
      exact Accounted.handOver (h.opened hrun hstop hopen).accounted hidle.objects hmoves.objects
  | waits t deferred hstop hcallback hidle hndk hbackend hmoves =>
      rw [hndk, hbackend]
      refine Accounted.keep h.accounted rfl fun t' => ?_
      rw [rest, hmoves.objects]
      split_ifs with ht
      · rw [rest, ht, hidle.objects]
        rfl
      · rfl
  | stops t spawned hl hstop hcallback hidle hndk hbackend hmoves =>
      rw [hndk, hbackend]
      exact Accounted.handOver h.accounted hidle.objects hmoves.objects
  | takes t after hafter hwaits hcallback hndk hbackend hmoves =>
      have hnone : c.rest t = [] := by
        unfold rest
        cases hcall : (c.thread t).call with
        | callbackWait deferred => rfl
        | _ =>
            rw [hcall] at hwaits
            cases hwaits
      rw [hndk, hbackend]
      exact Accounted.handOver h.accounted hnone hmoves.objects
  | releases t after x objects hcall hbackend hndk hmoves =>
      rw [hndk, hbackend]
      refine Accounted.release h.accounted ?_ hmoves.objects
      rw [rest, hcall]
      rfl
  | ends t after hafter hcall hbackend hndk hmoves =>
      rw [hndk, hbackend]
      refine Accounted.keep h.accounted rfl fun t' => ?_
      rw [rest, hmoves.objects]
      split_ifs with ht
      · rw [rest, ht, hcall]
        rfl
      · rfl

theorem sound_step {l : CameraLabel} (h : c.Sound) (hstep : cameraStep c l c') : c'.Sound :=
  ⟨orderly_effect h (effect_of_step hstep), accounted_effect h (effect_of_step hstep)⟩

theorem sound_runs {ls : List CameraLabel} (h : Runs cameraStep initial ls c) : c.Sound :=
  h.invariant (fun _ _ _ => sound_step) sound_initial

end Camera
end FaceHal
