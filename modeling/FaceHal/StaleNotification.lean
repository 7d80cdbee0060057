import FaceHal.HandleOwnership
import FaceHal.ImageThreads

/-!
# Notifications that come late

The handlers of the backend do not look at the session or device that they are
called for. A notification that is handled while a later start has the camera open
stops that start, and one that is handled before a later session is closed ends the
wait for it. Neither happens when every notification is handled in its time and no
start comes between the two critical sections of a handler.
-/
namespace FaceHal
open Program

namespace Camera
variable {c c' : Camera} {t : ThreadId}

/-- The session is open, or a teardown waits for its closing to be reported. -/
def Unclosed (c : Camera) (y : ℕ) : Prop :=
  c.ndk.Live ⟨.session, y⟩ ∨
    ∃ t after objects, (c.thread t).call = .awaitClosed after y objects

/-- The handler has decided to stop the camera and has not called `stop` yet. -/
def AboutToStop (c : Camera) (n : ℕ) (notice : Notice) : Prop :=
  (c.thread (.other n)).notice = .stopping notice ∧ (c.thread (.other n)).call = .none

/-- What a late notification must not do. Later sessions have larger numbers. -/
structure StaleHarmless (c : Camera) : Prop where
  /-- A handler that stops the camera was called for what the fields hold. -/
  stops : ∀ n notice, c.AboutToStop n notice → c.backend.isRunning = true →
    notice.handle ∈ c.backend.handles.inOrder
  /-- The flag that a teardown waits for was set for no earlier session. -/
  waits : ∀ t after y objects, (c.thread t).call = .awaitClosed after y objects →
    c.backend.sessionClosed = true → c.backend.closedBy ≠ [] ∧ ∀ x ∈ c.backend.closedBy, y ≤ x

/-- A handler runs while what it is called for is current or nothing later is open,
and the camera is not opened while a handler is about to stop it. -/
def Timely (c : Camera) (l : CameraLabel) : Prop :=
  (∀ n notice, l = .handle n → (c.thread (.other n)).notice = .arrived notice →
    (c.backend.isRunning = true → notice.handle ∈ c.backend.handles.inOrder) ∧
      (notice.kind = .sessionClosed → ∀ y, c.Unclosed y → y ≤ notice.id)) ∧
  (c.Opens l → c.backend.isRunning = false → c.backend.isStopping = false →
    ∀ n notice, ¬ c.AboutToStop n notice)

theorem call_openOrFail_ne (c : Camera) (t : ThreadId) (cb : Bool) (replies : List Bool)
    (after : AfterTeardown) (y : ℕ) (objects : List Handle) :
    ((c.openOrFail t cb replies).thread t).call ≠ .awaitClosed after y objects := by
  rcases c.call_openOrFail_self t cb replies with hnone | ⟨objects', hfails⟩
  · rw [hnone]
    exact nofun
  · rw [hfails]
    exact nofun

/-- A teardown comes to wait for a session that it has just closed. -/
theorem awaitClosed_of_step {l : CameraLabel} {after : AfterTeardown} {y : ℕ}
    {objects : List Handle} (hstep : cameraStep c l c')
    (hcall : (c'.thread t).call = .awaitClosed after y objects) :
    (c.thread t).call = .awaitClosed after y objects ∨
      (c.thread t).call = .releasing after (⟨.session, y⟩ :: objects) := by
  by_cases ht : t ∈ l.threads
  · rcases callsKept_of_step hstep with hkept | ⟨t', cb, replies, rfl⟩ | ⟨t', spawned, rfl⟩ |
      ⟨t', replies, rfl⟩
    · exact .inl (hkept.calls t ▸ hcall)
    · obtain rfl := List.mem_singleton.mp ht
      obtain ⟨-, ⟨-, rfl⟩ | ⟨-, rfl⟩⟩ := start_cases hstep
      · rw [call_setCall, if_pos rfl] at hcall
        cases hcall
      · exact absurd hcall (c.call_openOrFail_ne t cb replies _ _ _)
    · left
      obtain ⟨-, hbegins⟩ := stop_cases hstep
      cases hbegins with
      | nothing hrun hstop hmgr heq =>
          rw [heq, call_returns] at hcall
          split_ifs at hcall
          exact hcall
      | joins hstop heq =>
          rw [heq, call_setCall] at hcall
          split_ifs at hcall
          exact hcall
      | defers hstop hdefers hfree heq =>
          rw [heq, call_setCall, call_returns] at hcall
          split_ifs at hcall
          exact hcall
      | waits hstop hdefers hcallback heq =>
          rw [heq, call_setCall] at hcall
          split_ifs at hcall
          exact hcall
      | tears hstop hcallback heq =>
          rw [heq, call_teardown] at hcall
          split_ifs at hcall
          exact hcall
    · obtain rfl := List.mem_singleton.mp ht
      right
      cases proceed_cases hstep with
      | opens cb hat hstop heq =>
          rw [heq] at hcall
          exact absurd hcall (c.call_openOrFail_ne t cb replies _ _ _)
      | joined hat hstop heq =>
          rw [heq, call_returns, if_pos rfl] at hcall
          cases hcall
      | takes deferred hat hcallback heq =>
          rw [heq, call_teardown, if_pos rfl] at hcall
          cases hcall
      | releases after' x objects' hat heq =>
          rw [heq] at hcall
          change ((c.setCall t _).thread t).call = _ at hcall
          rw [call_setCall, if_pos rfl] at hcall
          split_ifs at hcall with hsession
          obtain ⟨rfl, rfl, rfl⟩ := CallStage.awaitClosed.inj hcall
          rw [hat, ← hsession]
      | closed after' sess objects' hat heq =>
          rw [heq, call_setCall, if_pos rfl] at hcall
          cases hcall
      | ends after' hat heq =>
          rw [heq, call_finish, if_pos rfl] at hcall
          cases hcall
  · rw [thread_of_step hstep ht] at hcall
    exact .inl hcall

/-- An object that is held by a teardown was created and is not released. -/
theorem Sound.live_of_objects (h : c.Sound) {x : Handle} (hx : x ∈ (c.thread t).call.objects) :
    c.ndk.Live x :=
  (h.accounted.owned.held_iff x).mp ⟨some t, hx⟩

theorem Sound.live_of_opened (h : c.Sound) {cb : Bool} {out : CameraBackend × Bool} {w : Ndk}
    {y : ℕ} (hrun : c.backend.isRunning = false) (hstop : c.backend.isStopping = false)
    (hopen : Run ndkEnv (c.backend.openCamera cb) c.ndk out w)
    (hsess : out.1.handles.sess = none) (hlive : w.Live ⟨.session, y⟩) :
    c.ndk.Live ⟨.session, y⟩ := by
  obtain ⟨o, ho⟩ := ((h.opened hrun hstop hopen).accounted.owned.held_iff _).mpr hlive
  cases o with
  | none =>
      have hget : out.1.handles.sess = some y := CameraHandles.mem_inOrder.mp ho
      rw [hsess] at hget
      cases hget
  | some t => exact h.live_of_objects ho

/-- A session that is not closed was so before, or `mSessionClosed` has been cleared. -/
theorem unclosed_of_step {l : CameraLabel} {y : ℕ} (hsound : c.Sound) (hstep : cameraStep c l c')
    (h : c'.Unclosed y) :
    c.Unclosed y ∨ c'.backend.sessionClosed = false ∧ c'.backend.closedBy = [] := by
  rcases h with hlive | ⟨t, after, objects, hcall⟩
  · have hsame : c'.ndk = c.ndk → c.Unclosed y := fun hndk => .inl (hndk ▸ hlive)
    cases effect_of_step hstep with
    | quiet hcalls hhandles hrunning hstopping hndk => exact .inl (hsame hndk)
    | opened cb hl hrun hstop hopen hcalls =>
        rcases (hsound.opened hrun hstop hopen).undisturbed.closed with ⟨hsess, -⟩ | hcleared
        · exact .inl (.inl (hsound.live_of_opened hrun hstop hopen hsess hlive))
        · exact .inr hcleared
    | failed t cb b hrun hstop hidle hopen hbackend hmoves =>
        rcases (hsound.opened hrun hstop hopen).undisturbed.closed with ⟨hsess, -⟩ | hcleared
        · exact .inl (.inl (hsound.live_of_opened hrun hstop hopen hsess hlive))
        · exact .inr (hbackend ▸ hcleared)
    | waits t deferred hstop hcallback hidle hndk hbackend hmoves => exact .inl (hsame hndk)
    | stops t spawned hl hstop hcallback hidle hndk hbackend hmoves => exact .inl (hsame hndk)
    | takes t after hafter hwaits hcallback hndk hbackend hmoves => exact .inl (hsame hndk)
    | releases t after x objects hcall hbackend hndk hmoves =>
        rw [hndk] at hlive
        exact .inl (.inl ⟨hlive.1, fun hreleased => hlive.2 (List.mem_append_left _ hreleased)⟩)
    | ends t after hafter hcall hbackend hndk hmoves => exact .inl (hsame hndk)
  · left
    rcases awaitClosed_of_step hstep hcall with hcall | hcall
    · exact .inr ⟨t, after, objects, hcall⟩
    · refine .inl (hsound.live_of_objects (t := t) ?_)
      rw [hcall]
      exact List.mem_cons_self

/-- What a step does to `mSessionClosed`. -/
inductive Closes (c c' : Camera) (l : CameraLabel) : Prop
  | kept (hflag : c'.backend.sessionClosed = c.backend.sessionClosed)
      (hby : c'.backend.closedBy = c.backend.closedBy)
  | cleared (hflag : c'.backend.sessionClosed = false) (hby : c'.backend.closedBy = [])
  | reported (n : ℕ) (notice : Notice) (hl : l = .handle n)
      (harrived : (c.thread (.other n)).notice = .arrived notice)
      (hkind : notice.kind = .sessionClosed)
      (hby : c'.backend.closedBy = notice.id :: c.backend.closedBy)

theorem closes_openOrFail {l : CameraLabel} {cb : Bool} {replies : List Bool} (hsound : c.Sound)
    (hstop : c.backend.isStopping = false) : Closes c (c.openOrFail t cb replies) l := by
  have hopens : ∀ {c' : Camera} {b : CameraBackend} {ok : Bool} {w : Ndk},
      c.backend.isRunning = false → Run ndkEnv (c.backend.openCamera cb) c.ndk (b, ok) w →
      c'.backend.sessionClosed = b.sessionClosed → c'.backend.closedBy = b.closedBy →
      Closes c c' l := by
    intro c' b ok w hrun hopen hflag hby
    rcases (hsound.opened hrun hstop hopen).undisturbed.closed with ⟨-, hsame⟩ | hcleared
    · exact .kept (hflag.trans hsame.1) (hby.trans hsame.2)
    · exact .cleared (hflag.trans hcleared.1) (hby.trans hcleared.2)
  rcases openOrFail_cases c t cb replies with
    ⟨-, heq⟩ | ⟨hrun, b, w, ⟨hopen, heq⟩ | ⟨hopen, heq⟩⟩
  · exact heq ▸ .kept rfl rfl
  · rw [heq]
    exact hopens hrun hopen rfl rfl
  · rw [heq]
    exact hopens hrun hopen rfl rfl

theorem closes_of_step {l : CameraLabel} (hsound : c.Sound) (hstep : cameraStep c l c') :
    Closes c c' l := by
  cases l with
  | start t cb replies =>
      obtain ⟨-, ⟨-, rfl⟩ | ⟨hstop, rfl⟩⟩ := start_cases hstep
      · exact .kept rfl rfl
      · exact closes_openOrFail hsound hstop
  | stop t spawned =>
      cases (stop_cases hstep).2 with
      | nothing hrun hstop hmgr heq => exact heq ▸ .kept rfl rfl
      | joins hstop heq => exact heq ▸ .kept rfl rfl
      | defers hstop hdefers hfree heq => exact heq ▸ .kept rfl rfl
      | waits hstop hdefers hcallback heq => exact heq ▸ .kept rfl rfl
      | tears hstop hcallback heq => exact heq ▸ .kept rfl rfl
  | proceed t replies =>
      cases proceed_cases hstep with
      | opens cb hcall hstop heq => exact heq ▸ closes_openOrFail hsound hstop
      | joined hcall hstop heq => exact heq ▸ .kept rfl rfl
      | takes deferred hcall hcallback heq => exact heq ▸ .kept rfl rfl
      | releases after x objects hcall heq => exact heq ▸ .kept rfl rfl
      | closed after sess objects hcall heq => exact heq ▸ .kept rfl rfl
      | ends after hcall heq =>
          rw [heq]
          cases after <;> exact .kept rfl rfl
  | imageAvailable r =>
      unfold cameraStep apply at hstep
      dsimp only at hstep
      split_ifs at hstep
      obtain rfl := Option.some.inj hstep
      exact .kept rfl rfl
  | image r ok =>
      obtain ⟨s, i, k, rfl⟩ := image_eq hstep
      exact .kept rfl rfl
  | notify n notice =>
      unfold cameraStep apply at hstep
      dsimp only at hstep
      split_ifs at hstep
      obtain rfl := Option.some.inj hstep
      exact .kept rfl rfl
  | handle n =>
      obtain ⟨notice, harrived, rfl⟩ := handle_eq hstep
      by_cases hkind : notice.kind = .sessionClosed
      · refine .reported n notice rfl harrived hkind ?_
        dsimp only
        rw [if_pos hkind]
      · refine .kept ?_ ?_
        all_goals
          dsimp only
          rw [if_neg hkind]

/-- Nothing has happened yet that a late notification could have caused. -/
structure Untouched (c : Camera) : Prop where
  stops : ∀ n notice, c.AboutToStop n notice → c.backend.isRunning = true →
    notice.handle ∈ c.backend.handles.inOrder
  flag : c.backend.sessionClosed = true → c.backend.closedBy ≠ []
  closed : ∀ x ∈ c.backend.closedBy, ∀ y, c.Unclosed y → y ≤ x

theorem untouched_initial : Untouched initial where
  stops n notice h := by cases h.1
  flag h := by cases h
  closed x hx := by cases hx

theorem Untouched.harmless (h : c.Untouched) : c.StaleHarmless where
  stops := h.stops
  waits t after y objects hcall hflag :=
    ⟨h.flag hflag, fun x hx => h.closed x hx y (.inr ⟨t, after, objects, hcall⟩)⟩

theorem handles_of_running {l : CameraLabel} (hsound : c.Sound) (hstep : cameraStep c l c')
    (hrun' : c'.backend.isRunning = true) :
    c.backend.isRunning = true ∧ c'.backend.handles = c.backend.handles ∨
      c.Opens l ∧ c.backend.isRunning = false ∧ c.backend.isStopping = false := by
  cases effect_of_step hstep with
  | quiet hcalls hhandles hrunning hstopping hndk => exact .inl ⟨hrunning ▸ hrun', hhandles⟩
  | opened cb hl hrun hstop hopen hcalls => exact .inr ⟨hl, hrun, hstop⟩
  | failed t cb b hrun hstop hidle hopen hbackend hmoves =>
      rw [hbackend] at hrun'
      rw [(hsound.opened hrun hstop hopen).isRunning] at hrun'
      cases hrun'
  | waits t deferred hstop hcallback hidle hndk hbackend hmoves =>
      rw [hbackend] at hrun'
      cases hrun'
  | stops t spawned hl hstop hcallback hidle hndk hbackend hmoves =>
      rw [hbackend] at hrun'
      cases hrun'
  | takes t after hafter hwaits hcallback hndk hbackend hmoves =>
      rw [hbackend] at hrun'
      have hstop := hsound.stopping t (stops_of_waits hwaits)
      rw [hsound.running hrun'] at hstop
      cases hstop
  | releases t after x objects hcall hbackend hndk hmoves =>
      rw [hbackend] at hrun' ⊢
      exact .inl ⟨hrun', rfl⟩
  | ends t after hafter hcall hbackend hndk hmoves =>
      rw [hbackend] at hrun' ⊢
      exact .inl ⟨hrun', rfl⟩

/-- A handler does not go on to stop the camera once a call of it has ended. -/
theorem idle_of_step {l : CameraLabel} {notice : Notice} (hstep : cameraStep c l c')
    (hnotice : (c'.thread t).notice = .stopping notice) (hidle : (c'.thread t).call = .none) :
    (c.thread t).call = .none := by
  by_contra hbusy
  have hreturns : ((c.returns t).thread t).notice ≠ .stopping notice := by
    rw [returns, thread_setThread, if_pos rfl]
    simp
  have hsame : c'.thread t ≠ c.thread t := fun heq => hbusy (heq ▸ hidle)
  rcases callsKept_of_step hstep with hkept | ⟨t', cb, replies, rfl⟩ | ⟨t', spawned, rfl⟩ |
    ⟨t', replies, rfl⟩
  · exact hbusy (hkept.calls t ▸ hidle)
  · by_cases ht : t = t'
    · exact hbusy (ht ▸ idle_of_mayStart (start_cases hstep).1)
    · exact hsame (thread_start_of_ne hstep ht)
  · by_cases ht : t = t'
    · exact hbusy (ht ▸ idle_of_mayStop (stop_cases hstep).1)
    · exact hsame (thread_stop_of_ne hstep ht fun hempty => absurd (by rw [hempty]) hbusy)
  · by_cases ht : t = t'
    · subst ht
      cases proceed_cases hstep with
      | opens cb hcall hstop heq =>
          rcases openOrFail_cases c t cb replies with
            ⟨-, hopen⟩ | ⟨-, b, w, ⟨-, hopen⟩ | ⟨-, hopen⟩⟩
          · rw [heq, hopen] at hnotice
            exact hreturns hnotice
          · rw [heq, hopen, returns, thread_setThread, if_pos rfl] at hnotice
            cases hnotice
          · rw [heq, hopen, call_teardown, if_pos rfl] at hidle
            cases hidle
      | joined hcall hstop heq => exact hreturns (heq ▸ hnotice)
      | takes deferred hcall hcallback heq =>
          rw [heq, call_teardown, if_pos rfl] at hidle
          cases hidle
      | releases after x objects hcall heq =>
          rw [heq] at hidle
          change ((c.setCall t _).thread t).call = _ at hidle
          rw [call_setCall, if_pos rfl] at hidle
          split_ifs at hidle
      | closed after sess objects hcall heq =>
          rw [heq, call_setCall, if_pos rfl] at hidle
          cases hidle
      | ends after hcall heq =>
          rw [heq] at hnotice
          cases after <;> exact hreturns hnotice
    · exact hsame (thread_proceed_of_ne hstep ht)

/-- A handler that is about to stop the camera was so before, or has just decided. -/
theorem aboutToStop_of_step {l : CameraLabel} {n : ℕ} {notice : Notice} (hsound : c.Sound)
    (hstep : cameraStep c l c') (h : c'.AboutToStop n notice) : c.AboutToStop n notice ∨
      l = .handle n ∧ c.backend.isRunning = true ∧
        (c.thread (.other n)).notice = .arrived notice := by
  obtain ⟨hnotice, hidle⟩ := h
  have hbefore := idle_of_step hstep hnotice hidle
  cases touches_of_step hsound hstep with
  | call hbeside =>
      rcases hbeside.notices (.other n) with heq | heq
      · exact .inl ⟨heq ▸ hnotice, hbefore⟩
      · rw [heq] at hnotice
        cases hnotice
  | handler m s hcalls himages hnotices hstops =>
      rw [hnotices] at hnotice
      split_ifs at hnotice with hm
      · obtain rfl := ThreadId.other.inj hm
        exact .inr (hstops notice hnotice)
      · exact .inl ⟨hnotice, hbefore⟩
  | image hcalls hnotices hdelivers => exact .inl ⟨hnotices _ ▸ hnotice, hbefore⟩

theorem untouched_step {l : CameraLabel} (h : c.Untouched) (hsound : c.Sound)
    (htimely : c.Timely l) (hstep : cameraStep c l c') : c'.Untouched := by
  refine ⟨fun n notice hstops hrun' => ?_, ?_, ?_⟩
  · rcases handles_of_running hsound hstep hrun' with ⟨hrun, hhandles⟩ | ⟨hl, hrun, hstop⟩
    · rw [hhandles]
      rcases aboutToStop_of_step hsound hstep hstops with hbefore | ⟨rfl, -, harrived⟩
      · exact h.stops n notice hbefore hrun
      · exact (htimely.1 n notice rfl harrived).1 hrun
    · -- no handler is about to stop the camera when it is opened
      rcases aboutToStop_of_step hsound hstep hstops with hbefore | ⟨-, hrunning, -⟩
      · exact absurd hbefore (htimely.2 hl hrun hstop n notice)
      · rw [hrun] at hrunning
        cases hrunning
  · cases closes_of_step hsound hstep with
    | kept hflag hby =>
        rw [hflag, hby]
        exact h.flag
    | cleared hflag hby =>
        rw [hflag]
        intro hfalse
        cases hfalse
    | reported n notice hl harrived hkind hby =>
        rw [hby]
        exact fun _ => List.cons_ne_nil _ _
  · intro x hx y hy
    rcases unclosed_of_step hsound hstep hy with hy | ⟨-, hempty⟩
    · cases closes_of_step hsound hstep with
      | kept hflag hby => exact h.closed x (hby ▸ hx) y hy
      | cleared hflag hby =>
          rw [hby] at hx
          cases hx
      | reported n notice hl harrived hkind hby =>
          rw [hby] at hx
          rcases List.mem_cons.mp hx with rfl | hx
          · exact (htimely.1 n notice hl harrived).2 hkind y hy
          · exact h.closed x hx y hy
    · rw [hempty] at hx
      cases hx

/-- In a run in which every notification is handled in its time, none stops a later
start or ends the wait of a later teardown. -/
theorem stale_harmless {ls : List CameraLabel}
    (hrun : Runs (guarded Timely cameraStep) initial ls c) : c.StaleHarmless := by
  have hinv := hrun.invariant (P := fun c => c.Untouched ∧ c.Sound)
    (fun _ _ _ h hstep => ⟨untouched_step h.1 h.2 hstep.1 hstep.2, sound_step h.2 hstep.2⟩)
    ⟨untouched_initial, sound_initial⟩
  exact hinv.1.harmless

theorem timely_of_not_opens {l : CameraLabel} (hl : ¬ c.Opens l) (hn : ∀ n, l ≠ .handle n) :
    c.Timely l :=
  ⟨fun n _ heq => absurd heq (hn n), fun hopens => absurd hopens hl⟩

/-- The device fails, its handler stops the camera, and the closing of the session is
reported while the teardown waits for it. -/
theorem stale_harmless_device_error : ∃ c, Runs (guarded Timely cameraStep) initial
    [.start (.other 0) true [], .notify 5 ⟨.deviceError, 2⟩, .handle 5, .stop (.other 5) 9,
      .proceed (.other 5) [], .notify 6 ⟨.sessionClosed, 5⟩, .handle 6] c ∧
    c.backend.sessionClosed = true ∧ c.StaleHarmless := by
  let c₁ := (initial.apply (.start (.other 0) true [])).get (by decide +kernel)
  let c₂ := (c₁.apply (.notify 5 ⟨.deviceError, 2⟩)).get (by decide +kernel)
  let c₃ := (c₂.apply (.handle 5)).get (by decide +kernel)
  let c₄ := (c₃.apply (.stop (.other 5) 9)).get (by decide +kernel)
  let c₅ := (c₄.apply (.proceed (.other 5) [])).get (by decide +kernel)
  let c₆ := (c₅.apply (.notify 6 ⟨.sessionClosed, 5⟩)).get (by decide +kernel)
  let c₇ := (c₆.apply (.handle 6)).get (by decide +kernel)
  have hstart : initial.Timely (.start (.other 0) true []) :=
    ⟨fun n _ heq => (by cases heq), fun _ _ _ n notice h => by cases h.1⟩
  have herror : c₂.Timely (.handle 5) := by
    refine ⟨fun n notice hn harrived => ?_, fun hopens => hopens.elim⟩
    obtain rfl := CameraLabel.handle.inj hn
    have hthis : (c₂.thread (.other 5)).notice = .arrived ⟨.deviceError, 2⟩ := by decide +kernel
    obtain rfl := NoticeStage.arrived.inj (hthis.symm.trans harrived)
    exact ⟨fun _ => (by decide +kernel), fun hkind => by cases hkind⟩
  have hproceed : c₄.Timely (.proceed (.other 5) []) := by
    refine timely_of_not_opens ?_ fun n => by simp
    rintro ⟨cb, hcall⟩
    have hblocks : (c₄.thread (.other 5)).call.stops = true := by decide +kernel
    rw [hcall] at hblocks
    cases hblocks
  have hmore : Runs cameraStep initial [.start (.other 0) true [], .notify 5 ⟨.deviceError, 2⟩,
      .handle 5, .stop (.other 5) 9, .proceed (.other 5) [], .notify 6 ⟨.sessionClosed, 5⟩] c₆ :=
    .cons (Option.some_get _).symm <| .cons (Option.some_get _).symm <|
      .cons (Option.some_get _).symm <| .cons (Option.some_get _).symm <|
      .cons (Option.some_get _).symm <| .single (Option.some_get _).symm
  have hclosed : c₆.Timely (.handle 6) := by
    refine ⟨fun n notice hn harrived => ?_, fun hopens => hopens.elim⟩
    obtain rfl := CameraLabel.handle.inj hn
    have hthis : (c₆.thread (.other 6)).notice = .arrived ⟨.sessionClosed, 5⟩ := by
      decide +kernel
    obtain rfl := NoticeStage.arrived.inj (hthis.symm.trans harrived)
    have hrun : c₆.backend.isRunning = false := by decide +kernel
    refine ⟨fun h => absurd (hrun.symm.trans h) (by simp), fun _ y hy => ?_⟩
    rcases hy with hlive | ⟨t, after, objects, hcall⟩
    · have hcreated : ∀ x ∈ c₆.ndk.created, x.kind = .session → x.id ≤ 5 := by decide +kernel
      exact hcreated _ hlive.1 rfl
    · by_cases ht : t = .other 5
      · have hthere : (c₆.thread (.other 5)).call = .awaitClosed .stopReturns 5
            [⟨.target, 7⟩, ⟨.request, 6⟩, ⟨.container, 4⟩, ⟨.output, 3⟩, ⟨.device, 2⟩,
              ⟨.reader, 1⟩, ⟨.manager, 0⟩] := by decide +kernel
        rw [ht, hthere] at hcall
        exact (CallStage.awaitClosed.inj hcall).2.1.ge
      · -- the other threads are in no call
        have hothers : ∀ t ∈ [ThreadId.other 0, .other 6, .other 9],
            (c₆.thread t).call = .none := by decide +kernel
        have hidle : (c₆.thread t).call = .none := by
          by_cases hmem : t ∈ [ThreadId.other 0, .other 6, .other 9]
          · exact hothers t hmem
          · rw [thread_of_runs hmore (t := t)]
            · rfl
            · simp only [List.mem_cons, List.not_mem_nil, or_false, not_or] at hmem
              simp [CameraLabel.threads, ht, hmem]
        rw [hidle] at hcall
        cases hcall
  have hrun : Runs (guarded Timely cameraStep) initial
      [.start (.other 0) true [], .notify 5 ⟨.deviceError, 2⟩, .handle 5, .stop (.other 5) 9,
        .proceed (.other 5) [], .notify 6 ⟨.sessionClosed, 5⟩, .handle 6] c₇ :=
    .cons ⟨hstart, (Option.some_get _).symm⟩ <|
      .cons ⟨timely_of_not_opens id (by simp), (Option.some_get _).symm⟩ <|
      .cons ⟨herror, (Option.some_get _).symm⟩ <|
      .cons ⟨timely_of_not_opens id (by simp), (Option.some_get _).symm⟩ <|
      .cons ⟨hproceed, (Option.some_get _).symm⟩ <|
      .cons ⟨timely_of_not_opens id (by simp), (Option.some_get _).symm⟩ <|
      .single ⟨hclosed, (Option.some_get _).symm⟩
  exact ⟨c₇, hrun, by decide +kernel, stale_harmless hrun⟩

/-- The closing of the first session is reported after its wait is over and a second
start has succeeded: the handler stops the second start, and the teardown of that does
not wait for its own session. -/
theorem stale_closing_stops : ∃ c c', Runs cameraStep initial
    ([.start (.other 0) true [], .stop (.other 1) 9] ++
      List.replicate 10 (.proceed (.other 1) []) ++
      [.start (.other 0) true [], .notify 5 ⟨.sessionClosed, 5⟩, .handle 5]) c ∧
    c.AboutToStop 5 ⟨.sessionClosed, 5⟩ ∧ c.backend.isRunning = true ∧
    ⟨.session, 5⟩ ∈ c.ndk.released ∧ c.backend.handles.sess = some 13 ∧ ¬ c.StaleHarmless ∧
    Runs cameraStep c [.stop (.other 5) 9, .proceed (.other 5) []] c' ∧
    c'.backend.isRunning = false ∧ c'.Unclosed 13 ∧ c'.backend.sessionClosed = true ∧
    c'.backend.closedBy = [5] ∧ ¬ c'.StaleHarmless := by
  let c := (replay (fun _ _ => True) apply ([.start (.other 0) true [], .stop (.other 1) 9] ++
    List.replicate 10 (.proceed (.other 1) []) ++
    [.start (.other 0) true [], .notify 5 ⟨.sessionClosed, 5⟩, .handle 5]) initial).get
    (by decide +kernel)
  let c' := (replay (fun _ _ => True) apply
    [.stop (.other 5) 9, .proceed (.other 5) []] c).get (by decide +kernel)
  have hrun : Runs (guarded (fun _ _ => True) cameraStep) initial
      ([.start (.other 0) true [], .stop (.other 1) 9] ++
        List.replicate 10 (.proceed (.other 1) []) ++
        [.start (.other 0) true [], .notify 5 ⟨.sessionClosed, 5⟩, .handle 5]) c := runs_replay _
  have hmore : Runs (guarded (fun _ _ => True) cameraStep) c
      [.stop (.other 5) 9, .proceed (.other 5) []] c' := runs_replay _
  have hstops : c.AboutToStop 5 ⟨.sessionClosed, 5⟩ := ⟨by decide +kernel, by decide +kernel⟩
  have hrunning : c.backend.isRunning = true := by decide +kernel
  have hawaits : (c'.thread (.other 5)).call = .awaitClosed .stopReturns 13
      [⟨.target, 15⟩, ⟨.request, 14⟩, ⟨.container, 12⟩, ⟨.output, 11⟩, ⟨.device, 10⟩,
        ⟨.reader, 9⟩, ⟨.manager, 8⟩] := by decide +kernel
  have hflag : c'.backend.sessionClosed = true := by decide +kernel
  have hby : c'.backend.closedBy = [5] := by decide +kernel
  refine ⟨c, c', hrun.mono fun _ _ _ h => h.2, hstops, hrunning, by decide +kernel,
    by decide +kernel, fun h => ?_, hmore.mono fun _ _ _ h => h.2, by decide +kernel,
    .inr ⟨_, _, _, hawaits⟩, hflag, hby, fun h => ?_⟩
  · have hcurrent := CameraHandles.mem_inOrder.mp (h.stops 5 _ hstops hrunning)
    have hsess : c.backend.handles.sess = some 13 := by decide +kernel
    cases hsess.symm.trans hcurrent
  · have hlater := (h.waits _ _ _ _ hawaits hflag).2 5 (by rw [hby]; simp)
    omega

end Camera
end FaceHal
