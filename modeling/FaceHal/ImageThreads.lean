import FaceHal.CameraSteps

/-!
# What a step does to the image threads

The calls and the handlers leave the image threads and the guard of the frame
callback alone; a step of `onImageAvailable` moves one image thread and leaves the
calls alone. An image thread makes its calls from inside the frame callback, and
whenever `mInCallback` is set the thread that is noted with it still has its guard.
-/
namespace FaceHal
open Program

namespace ImageStage

/-- Past the first check of `mIsRunning`. -/
def passed : ImageStage → Bool
  | .away | .entered => false
  | _ => true

/-- Between the two ends of the guard. -/
def guards : ImageStage → Bool
  | .away | .entered | .checked => false
  | _ => true

theorem passed_of_guards {s : ImageStage} (h : s.guards = true) : s.passed = true := by
  cases s with
  | away | entered | checked => cases h
  | _ => rfl

end ImageStage

/-- The threads that a step may move. -/
def CameraLabel.threads : CameraLabel → List ThreadId
  | .start t _ _ | .proceed t _ => [t]
  | .stop t spawned => [t, .other spawned]
  | .imageAvailable r | .image r _ => [.image r]
  | .notify n _ | .handle n => [.other n]

namespace Camera
variable {c c' : Camera} {t t' : ThreadId}

theorem thread_setThread_of_ne {th : Thread} (h : t' ≠ t) :
    (c.setThread t th).thread t' = c.thread t' := by
  rw [thread_setThread, if_neg h]

theorem thread_openOrFail_of_ne {cb : Bool} {replies : List Bool} (h : t' ≠ t) :
    (c.openOrFail t cb replies).thread t' = c.thread t' := by
  rcases openOrFail_cases c t cb replies with
    ⟨-, heq⟩ | ⟨-, b, w, ⟨-, heq⟩ | ⟨-, heq⟩⟩
  all_goals
    rw [heq]
    exact thread_setThread_of_ne h

theorem thread_start_of_ne {cb : Bool} {replies : List Bool}
    (hstep : cameraStep c (.start t cb replies) c') (h : t' ≠ t) :
    c'.thread t' = c.thread t' := by
  obtain ⟨-, ⟨-, rfl⟩ | ⟨-, rfl⟩⟩ := start_cases hstep
  · exact thread_setThread_of_ne h
  · exact thread_openOrFail_of_ne h

theorem thread_stop_of_ne {spawned : ℕ} (hstep : cameraStep c (.stop t spawned) c')
    (h : t' ≠ t) (hs : c.thread t' = {} → t' ≠ .other spawned) : c'.thread t' = c.thread t' := by
  cases (stop_cases hstep).2 with
  | nothing hrun hstop hmgr heq => exact heq ▸ thread_setThread_of_ne h
  | joins hstop heq => exact heq ▸ thread_setThread_of_ne h
  | defers hstop hdefers hfree heq =>
      have hne : t' ≠ .other spawned := fun heq => hs (heq ▸ hfree) heq
      rw [heq]
      exact (thread_setThread_of_ne hne).trans (thread_setThread_of_ne h)
  | waits hstop hdefers hcallback heq => exact heq ▸ thread_setThread_of_ne h
  | tears hstop hcallback heq => exact heq ▸ thread_setThread_of_ne h

theorem thread_finish_of_ne {after : AfterTeardown} (h : t' ≠ t) :
    (c.finish t after).thread t' = c.thread t' := by
  cases after <;> exact thread_setThread_of_ne h

theorem thread_proceed_of_ne {replies : List Bool} (hstep : c.proceed t replies = some c')
    (h : t' ≠ t) : c'.thread t' = c.thread t' := by
  cases proceed_cases hstep with
  | opens cb hcall hstop heq => exact heq ▸ thread_openOrFail_of_ne h
  | joined hcall hstop heq => exact heq ▸ thread_setThread_of_ne h
  | takes deferred hcall hcallback heq => exact heq ▸ thread_setThread_of_ne h
  | releases after x objects hcall heq => exact heq ▸ thread_setThread_of_ne h
  | closed after sess objects hcall heq => exact heq ▸ thread_setThread_of_ne h
  | ends after hcall heq => exact heq ▸ thread_finish_of_ne h

theorem thread_image_of_ne {r : ℕ} {ok : Bool} (h : c.image r ok = some c')
    (ht : t ≠ .image r) : c'.thread t = c.thread t := by
  obtain ⟨s, i, k, rfl⟩ := image_eq h
  exact thread_setThread_of_ne ht

theorem thread_handle_of_ne {n : ℕ} (h : c.handle n = some c') (ht : t ≠ .other n) :
    c'.thread t = c.thread t := by
  obtain ⟨notice, -, rfl⟩ := handle_eq h
  exact thread_setThread_of_ne ht

theorem thread_of_step {l : CameraLabel} (hstep : cameraStep c l c') (h : t ∉ l.threads) :
    c'.thread t = c.thread t := by
  cases l with
  | start t' cb replies => exact thread_start_of_ne hstep (List.ne_of_not_mem_cons h)
  | stop t' spawned =>
      exact thread_stop_of_ne hstep (List.ne_of_not_mem_cons h) fun _ =>
        List.ne_of_not_mem_cons (List.not_mem_of_not_mem_cons h)
  | proceed t' replies => exact thread_proceed_of_ne hstep (List.ne_of_not_mem_cons h)
  | image r ok => exact thread_image_of_ne hstep (List.ne_of_not_mem_cons h)
  | imageAvailable _ | notify _ _ =>
      unfold cameraStep apply at hstep
      dsimp only at hstep
      split_ifs at hstep
      obtain rfl := Option.some.inj hstep
      exact thread_setThread_of_ne (List.ne_of_not_mem_cons h)
  | handle n => exact thread_handle_of_ne hstep (List.ne_of_not_mem_cons h)

theorem thread_of_runs {ls : List CameraLabel} (hrun : Runs cameraStep c ls c')
    (h : ∀ l ∈ ls, t ∉ l.threads) : c'.thread t = c.thread t := by
  induction hrun with
  | nil s => rfl
  | cons hstep _ ih =>
      rw [ih fun l hl => h l (List.mem_cons_of_mem _ hl)]
      exact thread_of_step hstep (h _ List.mem_cons_self)

/-- The image threads are where they were, and so is the guard. -/
structure ImagesKept (c c' : Camera) : Prop where
  images : ∀ t, (c'.thread t).image = (c.thread t).image
  inCallback : c'.backend.inCallback = c.backend.inCallback
  callbackThreadId : c'.backend.callbackThreadId = c.backend.callbackThreadId

/-- What the calls leave alone. A handler may end with the call that it made. -/
structure BesideCalls (c c' : Camera) : Prop extends ImagesKept c c' where
  notices : ∀ t, (c'.thread t).notice = (c.thread t).notice ∨ (c'.thread t).notice = .none

theorem images_setThread (th : Thread) (himage : th.image = (c.thread t).image) (t' : ThreadId) :
    ((c.setThread t th).thread t').image = (c.thread t').image := by
  rw [thread_setThread]
  split_ifs with ht
  · rw [himage, ht]
  · rfl

theorem notices_setThread (th : Thread) (hnotice : th.notice = (c.thread t).notice)
    (t' : ThreadId) : ((c.setThread t th).thread t').notice = (c.thread t').notice := by
  rw [thread_setThread]
  split_ifs with ht
  · rw [hnotice, ht]
  · rfl

theorem besideCalls_setCall (c : Camera) (t : ThreadId) (s : CallStage) :
    BesideCalls c (c.setCall t s) where
  images := images_setThread { c.thread t with call := s } rfl
  inCallback := rfl
  callbackThreadId := rfl
  notices t' := .inl (notices_setThread { c.thread t with call := s } rfl t')

theorem besideCalls_returns (c : Camera) (t : ThreadId) : BesideCalls c (c.returns t) where
  images := images_setThread { c.thread t with call := .none, notice := .none } rfl
  inCallback := rfl
  callbackThreadId := rfl
  notices t' := by
    rw [returns, thread_setThread]
    split_ifs
    · exact .inr rfl
    · exact .inl rfl

theorem BesideCalls.trans {c₁ c₂ c₃ : Camera} (h : BesideCalls c₁ c₂) (h' : BesideCalls c₂ c₃) :
    BesideCalls c₁ c₃ where
  images t := (h'.images t).trans (h.images t)
  inCallback := h'.inCallback.trans h.inCallback
  callbackThreadId := h'.callbackThreadId.trans h.callbackThreadId
  notices t := (h'.notices t).elim (fun heq => heq ▸ h.notices t) .inr

theorem BesideCalls.of_backend {b : CameraBackend} {w : Ndk}
    (h : BesideCalls ({ c with backend := b, ndk := w } : Camera) c')
    (hin : b.inCallback = c.backend.inCallback)
    (hid : b.callbackThreadId = c.backend.callbackThreadId) : BesideCalls c c' where
  images := h.images
  inCallback := h.inCallback.trans hin
  callbackThreadId := h.callbackThreadId.trans hid
  notices := h.notices

theorem besideCalls_teardown (c : Camera) (t : ThreadId) (after : AfterTeardown) :
    BesideCalls c (c.teardown t after) where
  images := (c.besideCalls_setCall t _).images
  inCallback := rfl
  callbackThreadId := rfl
  notices := (c.besideCalls_setCall t _).notices

theorem besideCalls_openOrFail {cb : Bool} {replies : List Bool} (h : c.Sound)
    (hstop : c.backend.isStopping = false) : BesideCalls c (c.openOrFail t cb replies) := by
  rcases openOrFail_cases c t cb replies with
    ⟨-, heq⟩ | ⟨hrun, b, w, ⟨hopen, heq⟩ | ⟨hopen, heq⟩⟩
  · exact heq ▸ c.besideCalls_returns t
  · have hsame := (h.opened hrun hstop hopen).undisturbed
    exact heq ▸ (besideCalls_returns _ t).of_backend hsame.inCallback hsame.callbackThreadId
  · have hsame := (h.opened hrun hstop hopen).undisturbed
    exact heq ▸ (besideCalls_teardown _ t _).of_backend hsame.inCallback hsame.callbackThreadId

theorem besideCalls_stop {spawned : ℕ} (h : StopBegins c t spawned c') : BesideCalls c c' := by
  cases h with
  | nothing hrun hstop hmgr heq => exact heq ▸ c.besideCalls_returns t
  | joins hstop heq => exact heq ▸ c.besideCalls_setCall t _
  | defers hstop hdefers hfree heq =>
      rw [heq]
      have hreturns := besideCalls_returns c.stopBegun t
      exact (hreturns.trans (besideCalls_setCall _ _ _)).of_backend (w := c.ndk) rfl rfl
  | waits hstop hdefers hcallback heq =>
      exact heq ▸ (besideCalls_setCall c.stopBegun t _).of_backend (w := c.ndk) rfl rfl
  | tears hstop hcallback heq =>
      exact heq ▸ (besideCalls_teardown c.stopBegun t _).of_backend (w := c.ndk) rfl rfl

theorem besideCalls_finish (c : Camera) (t : ThreadId) (after : AfterTeardown) :
    BesideCalls c (c.finish t after) := by
  have hreturns := c.besideCalls_returns t
  cases after <;> exact ⟨⟨hreturns.images, rfl, rfl⟩, hreturns.notices⟩

theorem besideCalls_proceed {replies : List Bool} (h : c.Sound)
    (hstep : c.proceed t replies = some c') : BesideCalls c c' := by
  cases proceed_cases hstep with
  | opens cb hcall hstop heq => exact heq ▸ besideCalls_openOrFail h hstop
  | joined hcall hstop heq => exact heq ▸ c.besideCalls_returns t
  | takes deferred hcall hcallback heq => exact heq ▸ c.besideCalls_teardown t _
  | releases after x objects hcall heq =>
      have hset := c.besideCalls_setCall t
        (if x.kind = .session then .awaitClosed after x.id objects else .releasing after objects)
      exact heq ▸ ⟨⟨hset.images, rfl, rfl⟩, hset.notices⟩
  | closed after sess objects hcall heq => exact heq ▸ c.besideCalls_setCall t _
  | ends after hcall heq => exact heq ▸ c.besideCalls_finish t after

theorem imagesKept_handle {n : ℕ} (h : c.handle n = some c') : ImagesKept c c' := by
  obtain ⟨notice, -, rfl⟩ := handle_eq h
  refine ⟨images_setThread _ rfl, ?_, ?_⟩
  all_goals
    dsimp only
    split_ifs <;> rfl

/-- One image thread goes to another place. -/
def ImageMoves (c c' : Camera) (r : ℕ) (s : ImageStage) : Prop :=
  ∀ r', (c'.thread (.image r')).image = if r' = r then s else (c.thread (.image r')).image

/-- What a step of `onImageAvailable` is. -/
inductive Delivers (c c' : Camera) : CameraLabel → Prop
  | arrives (r : ℕ) (hstreaming : r ∈ c.ndk.streaming) (hlive : ⟨.reader, r⟩ ∉ c.ndk.released)
      (hfrom : (c.thread (.image r)).image = .away)
      (hcallback : c'.backend = c.backend) (hmoves : ImageMoves c c' r .entered) :
      Delivers c c' (.imageAvailable r)
  /-- The first check finds the camera running or not. -/
  | checks (r : ℕ) (ok : Bool) (s : ImageStage) (hfrom : (c.thread (.image r)).image = .entered)
      (hrun : s = .checked ∧ c.backend.isRunning = true ∨ s = .away)
      (hbackend : c'.backend = c.backend) (hmoves : ImageMoves c c' r s) :
      Delivers c c' (.image r ok)
  | guards (r : ℕ) (ok : Bool) (hfrom : (c.thread (.image r)).image = .checked)
      (hbackend : c'.backend =
        { c.backend with inCallback := true, callbackThreadId := some (.image r) })
      (hmoves : ImageMoves c c' r .guarded) : Delivers c c' (.image r ok)
  /-- From one place under the guard to the next. -/
  | within (r : ℕ) (ok : Bool) (s : ImageStage)
      (hfrom : (c.thread (.image r)).image.guards = true)
      (hidle : (c.thread (.image r)).image = .inside → (c.thread (.image r)).call = .none)
      (hto : s.guards = true) (hbackend : c'.backend = c.backend)
      (hmoves : ImageMoves c c' r s) : Delivers c c' (.image r ok)
  | leaves (r : ℕ) (ok : Bool) (hfrom : (c.thread (.image r)).image = .leaving)
      (hbackend : c'.backend = { c.backend with inCallback := false, callbackThreadId := none })
      (hmoves : ImageMoves c c' r .away) : Delivers c c' (.image r ok)

theorem imageMoves_setThread {r : ℕ} (th : Thread) :
    ImageMoves c (c.setThread (.image r) th) r th.image := by
  intro r'
  rw [thread_setThread]
  by_cases hr : r' = r
  · rw [if_pos hr, if_pos (congrArg _ hr)]
  · rw [if_neg hr, if_neg fun heq => hr (ThreadId.image.inj heq)]

theorem delivers_of_image {r : ℕ} {ok : Bool} (h : c.image r ok = some c') :
    Delivers c c' (.image r ok) := by
  unfold image at h
  dsimp only at h
  cases himage : (c.thread (.image r)).image with
  | away => rw [himage] at h; cases h
  | entered =>
      rw [himage] at h
      obtain rfl := Option.some.inj h
      refine .checks r ok _ himage ?_ rfl (imageMoves_setThread _)
      cases hrun : c.backend.isRunning with
      | true => exact .inl ⟨rfl, rfl⟩
      | false => exact .inr rfl
  | checked =>
      rw [himage] at h
      obtain rfl := Option.some.inj h
      exact .guards r ok himage rfl (imageMoves_setThread _)
  | guarded | holding | packed =>
      rw [himage] at h
      obtain rfl := Option.some.inj h
      refine .within r ok _ (himage ▸ rfl) (fun hin => ?_) ?_ rfl (imageMoves_setThread _)
      · rw [himage] at hin
        cases hin
      · dsimp only
        split_ifs <;> rfl
  | inside =>
      rw [himage] at h
      dsimp only at h
      split_ifs at h with hcall
      obtain rfl := Option.some.inj h
      exact .within r ok .leaving (himage ▸ rfl) (fun _ => hcall) rfl rfl (imageMoves_setThread _)
  | leaving =>
      rw [himage] at h
      obtain rfl := Option.some.inj h
      exact .leaves r ok himage rfl (imageMoves_setThread _)

/-- A step is one of a call, of a handler or of `onImageAvailable`. -/
inductive Touches (c c' : Camera) (l : CameraLabel) : Prop
  | call (hbeside : BesideCalls c c')
  | handler (n : ℕ) (s : NoticeStage) (hcalls : CallsKept c c') (himages : ImagesKept c c')
      (hnotices : ∀ t, (c'.thread t).notice = if t = .other n then s else (c.thread t).notice)
      (hstops : ∀ nt, s = .stopping nt → l = .handle n ∧ c.backend.isRunning = true ∧
        (c.thread (.other n)).notice = .arrived nt)
  | image (hcalls : CallsKept c c') (hnotices : ∀ t, (c'.thread t).notice = (c.thread t).notice)
      (hdelivers : Delivers c c' l)

theorem notices_of_image {r : ℕ} {ok : Bool} (h : c.image r ok = some c') :
    ∀ t, (c'.thread t).notice = (c.thread t).notice := by
  obtain ⟨s, i, k, rfl⟩ := image_eq h
  exact notices_setThread _ rfl

theorem touches_handle {n : ℕ} (h : c.handle n = some c') : Touches c c' (.handle n) := by
  have hcalls := callsKept_handle h
  have himages := imagesKept_handle h
  obtain ⟨notice, hnotice, rfl⟩ := handle_eq h
  refine .handler n (if c.backend.isRunning && !c.backend.isStopping then .stopping notice
    else .none) hcalls himages (fun t => ?_) fun nt hs => ?_
  · dsimp only
    rw [thread_setThread]
    split_ifs <;> rfl
  · split_ifs at hs with hrun
    obtain rfl := NoticeStage.stopping.inj hs
    exact ⟨rfl, (Bool.and_eq_true _ _ ▸ hrun).1, hnotice⟩

theorem touches_of_step {l : CameraLabel} (h : c.Sound) (hstep : cameraStep c l c') :
    Touches c c' l := by
  cases l with
  | start t cb replies =>
      obtain ⟨-, ⟨-, rfl⟩ | ⟨hstop, rfl⟩⟩ := start_cases hstep
      · exact .call (c.besideCalls_setCall t _)
      · exact .call (besideCalls_openOrFail h hstop)
  | stop t spawned => exact .call (besideCalls_stop (stop_cases hstep).2)
  | proceed t replies => exact .call (besideCalls_proceed h hstep)
  | imageAvailable r =>
      unfold cameraStep apply at hstep
      dsimp only at hstep
      split_ifs at hstep with hmay
      obtain rfl := Option.some.inj hstep
      exact .image ⟨calls_setThread rfl, rfl, rfl, rfl, rfl, rfl⟩ (notices_setThread _ rfl)
        (.arrives r hmay.1 hmay.2.1 hmay.2.2 rfl (imageMoves_setThread _))
  | image r ok =>
      exact .image (callsKept_image hstep) (notices_of_image hstep) (delivers_of_image hstep)
  | notify n notice =>
      unfold cameraStep apply at hstep
      dsimp only at hstep
      split_ifs at hstep with hmay
      obtain rfl := Option.some.inj hstep
      refine .handler n (.arrived notice) ⟨calls_setThread rfl, rfl, rfl, rfl, rfl, rfl⟩
        ⟨images_setThread _ rfl, rfl, rfl⟩ (fun t => ?_) fun nt hs => by cases hs
      rw [thread_setThread]
      split_ifs <;> rfl
  | handle n => exact touches_handle hstep

/-- What holds of the image threads in every state that the camera reaches. -/
structure Guarded (c : Camera) : Prop where
  /-- The NDK notifies on threads of its own. -/
  notice : ∀ r, (c.thread (.image r)).notice = .none
  inside : ∀ r, (c.thread (.image r)).call ≠ .none → (c.thread (.image r)).image = .inside
  guard : c.backend.inCallback = true → ∃ r, c.backend.callbackThreadId = some (.image r) ∧
    (c.thread (.image r)).image.guards = true

theorem guarded_initial : Guarded initial where
  notice _ := rfl
  inside _ h := absurd rfl h
  guard h := by cases h

theorem Guarded.inside_of_mayStop (h : c.Guarded) {r : ℕ} (hmay : c.MayStop (.image r)) :
    (c.thread (.image r)).image = .inside := by
  rcases hmay with hmay | ⟨-, hstops⟩
  · exact hmay.1
  · rw [h.notice r] at hstops
    cases hstops

/-- An image thread that is in a call made it from the frame callback. -/
theorem Guarded.inside_of_step {l : CameraLabel} {r : ℕ} (h : c.Guarded)
    (hstep : cameraStep c l c') (hcall : (c'.thread (.image r)).call ≠ .none) :
    (c.thread (.image r)).image = .inside := by
  rcases callsKept_of_step hstep with hkept | ⟨t, cb, replies, rfl⟩ | ⟨t, spawned, rfl⟩ |
    ⟨t, replies, rfl⟩
  · exact h.inside r (hkept.calls _ ▸ hcall)
  · by_cases ht : .image r = t
    · subst ht
      exact (start_cases hstep).1.1
    · rw [thread_start_of_ne hstep ht] at hcall
      exact h.inside r hcall
  · by_cases ht : .image r = t
    · subst ht
      exact h.inside_of_mayStop (stop_cases hstep).1
    · have hs : ThreadId.image r ≠ .other spawned := by simp
      rw [thread_stop_of_ne hstep ht fun _ => hs] at hcall
      exact h.inside r hcall
  · by_cases ht : .image r = t
    · subst ht
      refine h.inside r fun hnone => ?_
      unfold cameraStep apply proceed at hstep
      dsimp only at hstep
      rw [hnone] at hstep
      cases hstep
    · rw [thread_proceed_of_ne hstep ht] at hcall
      exact h.inside r hcall

theorem guarded_step {l : CameraLabel} (h : c.Guarded) (hsound : c.Sound)
    (hstep : cameraStep c l c') : c'.Guarded := by
  cases touches_of_step hsound hstep with
  | call hbeside =>
      refine ⟨fun r => ?_, fun r hcall => ?_, fun hin => ?_⟩
      · exact (hbeside.notices _).elim (fun heq => heq.trans (h.notice r)) id
      · rw [hbeside.images]
        exact h.inside_of_step hstep hcall
      · rw [hbeside.inCallback] at hin
        obtain ⟨r, hid, hguards⟩ := h.guard hin
        exact ⟨r, hbeside.callbackThreadId.trans hid, (hbeside.images _).symm ▸ hguards⟩
  | handler n s hcalls himages hnotices hstops =>
      refine ⟨fun r => ?_, fun r hcall => ?_, fun hin => ?_⟩
      · rw [hnotices, if_neg (by simp)]
        exact h.notice r
      · rw [himages.images]
        exact h.inside r (hcalls.calls _ ▸ hcall)
      · rw [himages.inCallback] at hin
        obtain ⟨r, hid, hguards⟩ := h.guard hin
        exact ⟨r, himages.callbackThreadId.trans hid, (himages.images _).symm ▸ hguards⟩
  | image hcalls hnotices hdelivers =>
      have hnotice : ∀ r, (c'.thread (.image r)).notice = .none := fun r =>
        (hnotices _).trans (h.notice r)
      have hinside : ∀ r s, ImageMoves c c' r s →
          ((c.thread (.image r)).image = .inside → (c.thread (.image r)).call = .none) →
          ∀ r', (c'.thread (.image r')).call ≠ .none → (c'.thread (.image r')).image = .inside := by
        intro r s hmoves hidle r' hcall
        rw [hcalls.calls] at hcall
        have hin := h.inside r' hcall
        rw [hmoves]
        split_ifs with hr
        · subst hr
          exact absurd (hidle hin) hcall
        · exact hin
      have hguard : ∀ r s, ImageMoves c c' r s → c'.backend = c.backend →
          ((c.thread (.image r)).image.guards = true → s.guards = true) →
          c'.backend.inCallback = true → ∃ r', c'.backend.callbackThreadId = some (.image r') ∧
            (c'.thread (.image r')).image.guards = true := by
        intro r s hmoves hbackend hkeep hin
        rw [hbackend] at hin ⊢
        obtain ⟨r', hid, hguards⟩ := h.guard hin
        refine ⟨r', hid, ?_⟩
        rw [hmoves]
        split_ifs with hr
        · subst hr
          exact hkeep hguards
        · exact hguards
      cases hdelivers with
      | arrives r hstreaming hlive hfrom hbackend hmoves =>
          refine ⟨hnotice, hinside r _ hmoves ?_, hguard r _ hmoves hbackend ?_⟩
          all_goals
            rw [hfrom]
            intro hfalse
            cases hfalse
      | checks r ok s hfrom hrun hbackend hmoves =>
          refine ⟨hnotice, hinside r _ hmoves ?_, hguard r _ hmoves hbackend ?_⟩
          all_goals
            rw [hfrom]
            intro hfalse
            cases hfalse
      | guards r ok hfrom hbackend hmoves =>
          refine ⟨hnotice, hinside r _ hmoves ?_, fun _ => ⟨r, ?_, ?_⟩⟩
          · rw [hfrom]
            intro hfalse
            cases hfalse
          · rw [hbackend]
          · rw [hmoves, if_pos rfl]
            rfl
      | within r ok s hfrom hidle hto hbackend hmoves =>
          exact ⟨hnotice, hinside r s hmoves hidle, hguard r s hmoves hbackend fun _ => hto⟩
      | leaves r ok hfrom hbackend hmoves =>
          refine ⟨hnotice, hinside r _ hmoves ?_, fun hin => ?_⟩
          · rw [hfrom]
            intro hfalse
            cases hfalse
          · rw [hbackend] at hin
            cases hin

end Camera
end FaceHal
