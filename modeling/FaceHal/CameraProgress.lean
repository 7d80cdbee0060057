import FaceHal.ImageThreads
import Mathlib.Logic.Relation

/-!
# Whether waiting ends

`start` and `stop` wait for the end of a stop, and a stop waits for the end of the
frame callback. A thread inside the frame callback has to defer its own stop, but
only the first one does: a call that it makes while a stop is in progress waits for
a teardown that waits for this very callback. When no such call is made, every wait
can be ended by threads that only go on with what they are doing.
-/
namespace FaceHal
open Program Relation

/-- In a wait on the condition variable that has no time limit. -/
def CallStage.blocks : CallStage → Bool
  | .startWait _ | .stopWait | .callbackWait _ => true
  | _ => false

/-- A thread goes on with a call or with an image; nothing new begins. -/
def CameraLabel.continues : CameraLabel → Bool
  | .proceed _ _ | .image _ _ => true
  | _ => false

namespace Camera
variable {c c' : Camera} {t t' : ThreadId}

/-- What a thread at this place is waiting for. -/
def Awaited (c : Camera) : CallStage → Prop
  | .startWait _ | .stopWait => c.backend.isStopping = false
  | .callbackWait _ => c.backend.inCallback = false
  | _ => True

def GoesOn (c c' : Camera) : Prop := ∃ l : CameraLabel, l.continues = true ∧ cameraStep c l c'

/-- What a thread waits for can come true while the thread waits. -/
def WaitEnds (c : Camera) (t : ThreadId) : Prop :=
  ∃ c', ReflTransGen GoesOn c c' ∧ c'.thread t = c.thread t ∧ c'.Awaited (c.thread t).call

/-- During a stop the frame callback of the current guard makes no call. -/
def CallsUnblocked (c : Camera) : CameraLabel → Prop
  | .start t _ _ | .stop t _ => ¬ (c.backend.isStopping = true ∧ c.Defers t)
  | _ => True

instance (c : Camera) (l : CameraLabel) : Decidable (c.CallsUnblocked l) :=
  match l with
  | .start _ _ _ | .stop _ _ => inferInstanceAs (Decidable (¬ (_ ∧ _)))
  | .proceed _ _ | .imageAvailable _ | .image _ _ | .notify _ _ | .handle _ =>
      inferInstanceAs (Decidable True)

/-- The thread that a stop may wait for does not wait itself. -/
structure Unblocked (c : Camera) : Prop extends Guarded c where
  current : ∀ t, c.Defers t → (c.thread t).call.blocks = false

theorem unblocked_initial : Unblocked initial :=
  ⟨guarded_initial, fun _ h => by cases h.1⟩

theorem blocks_openOrFail (c : Camera) (t : ThreadId) (cb : Bool) (replies : List Bool) :
    ((c.openOrFail t cb replies).thread t).call.blocks = false := by
  rcases c.call_openOrFail_self t cb replies with hcall | ⟨objects, hcall⟩
  · rw [hcall]
    rfl
  · rw [hcall]
    rfl

theorem blocks_proceed {replies : List Bool} (hstep : c.proceed t replies = some c')
    (h : (c.thread t).call.blocks = false) : (c'.thread t).call.blocks = false := by
  cases proceed_cases hstep with
  | opens cb hcall hstop heq => rw [hcall] at h; cases h
  | joined hcall hstop heq => rw [hcall] at h; cases h
  | takes deferred hcall hcallback heq => rw [hcall] at h; cases h
  | releases after x objects hcall heq =>
      rw [heq]
      dsimp only
      rw [call_setCall, if_pos rfl]
      split_ifs <;> rfl
  | closed after sess objects hcall heq =>
      rw [heq, call_setCall, if_pos rfl]
      rfl
  | ends after hcall heq =>
      rw [heq, call_finish, if_pos rfl]
      rfl

theorem blocks_stop {spawned : ℕ} {r : ℕ} (h : StopBegins c (.image r) spawned c')
    (hallowed : ¬ (c.backend.isStopping = true ∧ c.Defers (.image r)))
    (hdefers : c.Defers (.image r)) : (c'.thread (.image r)).call.blocks = false := by
  cases h with
  | nothing hrun hstop hmgr heq =>
      rw [heq, call_returns, if_pos rfl]
      rfl
  | joins hstop heq => exact absurd ⟨hstop, hdefers⟩ hallowed
  | defers hstop hd hfree heq =>
      have hne : ThreadId.image r ≠ .other spawned := by simp
      rw [heq, call_setCall, if_neg hne, call_returns, if_pos rfl]
      rfl
  | waits hstop hd hcallback heq => exact absurd hdefers hd
  | tears hstop hcallback heq =>
      rw [heq, call_teardown, if_pos rfl]
      rfl

theorem blocks_of_step {l : CameraLabel} {r : ℕ} (hallowed : c.CallsUnblocked l)
    (hstep : cameraStep c l c') (hdefers : c.Defers (.image r))
    (h : (c.thread (.image r)).call.blocks = false) :
    (c'.thread (.image r)).call.blocks = false := by
  rcases callsKept_of_step hstep with hkept | ⟨t, cb, replies, rfl⟩ | ⟨t, spawned, rfl⟩ |
    ⟨t, replies, rfl⟩
  · rw [hkept.calls]
    exact h
  · by_cases ht : .image r = t
    · subst ht
      obtain ⟨-, ⟨hstop, -⟩ | ⟨-, rfl⟩⟩ := start_cases hstep
      · exact absurd ⟨hstop, hdefers⟩ hallowed
      · exact blocks_openOrFail c _ cb replies
    · rw [thread_start_of_ne hstep ht]
      exact h
  · by_cases ht : .image r = t
    · subst ht
      exact blocks_stop (stop_cases hstep).2 hallowed hdefers
    · have hs : ThreadId.image r ≠ .other spawned := by simp
      rw [thread_stop_of_ne hstep ht fun _ => hs]
      exact h
  · by_cases ht : .image r = t
    · subst ht
      exact blocks_proceed hstep h
    · rw [thread_proceed_of_ne hstep ht]
      exact h

theorem Guarded.image_of_defers (h : c.Guarded) (hdefers : c.Defers t) : ∃ r, t = .image r := by
  obtain ⟨r, hid, -⟩ := h.guard hdefers.1
  exact ⟨r, Option.some.inj (hdefers.2.symm.trans hid)⟩

theorem unblocked_step {l : CameraLabel} (h : c.Unblocked) (hsound : c.Sound)
    (hallowed : c.CallsUnblocked l) (hstep : cameraStep c l c') : c'.Unblocked := by
  refine ⟨guarded_step h.toGuarded hsound hstep, ?_⟩
  have hkeep : ∀ t, c.Defers t → (c'.thread t).call.blocks = false := by
    intro t hdefers
    obtain ⟨r, rfl⟩ := h.image_of_defers hdefers
    exact blocks_of_step hallowed hstep hdefers (h.current _ hdefers)
  intro t hdefers
  cases touches_of_step hsound hstep with
  | call hbeside =>
      exact hkeep t ⟨hbeside.inCallback ▸ hdefers.1, hbeside.callbackThreadId ▸ hdefers.2⟩
  | handler n s hcalls himages hnotices hstops =>
      exact hkeep t ⟨himages.inCallback ▸ hdefers.1, himages.callbackThreadId ▸ hdefers.2⟩
  | image hcalls hnotices hdelivers =>
      cases hdelivers with
      | arrives r hstreaming hlive hfrom hbackend hmoves =>
          exact hkeep t ⟨hbackend ▸ hdefers.1, hbackend ▸ hdefers.2⟩
      | checks r ok s hfrom hrun hbackend hmoves =>
          exact hkeep t ⟨hbackend ▸ hdefers.1, hbackend ▸ hdefers.2⟩
      | within r ok s hfrom hidle hto hbackend hmoves =>
          exact hkeep t ⟨hbackend ▸ hdefers.1, hbackend ▸ hdefers.2⟩
      | guards r ok hfrom hbackend hmoves =>
          have ht : ThreadId.image r = t := by
            have hid := hdefers.2
            rw [hbackend] at hid
            exact Option.some.inj hid
          have hidle : (c.thread (.image r)).call = .none := by
            by_contra hcall
            have hin := h.inside r hcall
            rw [hfrom] at hin
            cases hin
          rw [← ht, hcalls.calls, hidle]
          rfl
      | leaves r ok hfrom hbackend hmoves =>
          have hin := hdefers.1
          rw [hbackend] at hin
          cases hin

theorem goesOn_proceed {replies : List Bool} (h : c.proceed t replies = some c') : GoesOn c c' :=
  ⟨.proceed t replies, rfl, h⟩

theorem goesOn_image {r : ℕ} {ok : Bool} (h : c.image r ok = some c') : GoesOn c c' :=
  ⟨.image r ok, rfl, h⟩

/-- A teardown has run to its end. -/
structure TornDown (c : Camera) (t : ThreadId) (after : AfterTeardown) (c' : Camera) : Prop where
  others : ∀ t', t' ≠ t → c'.thread t' = c.thread t'
  call : (c'.thread t).call = .none
  image : (c'.thread t).image = (c.thread t).image
  backend : c'.backend = (c.finish t after).backend

theorem TornDown.of_step {c₁ : Camera} {after : AfterTeardown} (h : TornDown c₁ t after c')
    (hothers : ∀ t', t' ≠ t → c₁.thread t' = c.thread t')
    (himage : (c₁.thread t).image = (c.thread t).image) (hbackend : c₁.backend = c.backend) :
    TornDown c t after c' := by
  refine ⟨fun t' ht => (h.others t' ht).trans (hothers t' ht), h.call, h.image.trans himage,
    h.backend.trans ?_⟩
  cases after with
  | startFails => exact hbackend
  | stopReturns | deferredEnds =>
      simp only [finish, returns, setThread, hbackend]

theorem call_setCall_self (c : Camera) (t : ThreadId) (s : CallStage) :
    ((c.setCall t s).thread t).call = s :=
  (c.call_setCall t s t).trans (if_pos rfl)

/-- A teardown gets on to its next object. The wait for the end of a session is over
after a second at the latest. -/
theorem release_goesOn {after : AfterTeardown} {x : Handle} {objects : List Handle}
    (hcall : (c.thread t).call = .releasing after (x :: objects)) :
    ∃ c₁, ReflTransGen GoesOn c c₁ ∧ (c₁.thread t).call = .releasing after objects ∧
      (∀ t', t' ≠ t → c₁.thread t' = c.thread t') ∧
      (c₁.thread t).image = (c.thread t).image ∧ c₁.backend = c.backend := by
  let w : Ndk := { c.ndk with released := c.ndk.released ++ [x] }
  by_cases hsession : x.kind = .session
  · let c₁ : Camera := { c.setCall t (.awaitClosed after x.id objects) with ndk := w }
    have hstep : c.proceed t [] = some c₁ := by
      unfold proceed
      rw [hcall]
      dsimp only
      rw [if_pos hsession]
    have hwait : (c₁.thread t).call = .awaitClosed after x.id objects := c.call_setCall_self t _
    have hnext : c₁.proceed t [] = some (c₁.setCall t (.releasing after objects)) := by
      unfold proceed
      rw [hwait]
    refine ⟨c₁.setCall t (.releasing after objects),
      .head (goesOn_proceed hstep) (.single (goesOn_proceed hnext)), c₁.call_setCall_self t _,
      fun t' ht => ?_, ?_, rfl⟩
    · rw [thread_proceed_of_ne hnext ht, thread_proceed_of_ne hstep ht]
    · rw [(c₁.besideCalls_setCall t _).images]
      exact (c.besideCalls_setCall t _).images t
  · let c₁ : Camera := { c.setCall t (.releasing after objects) with ndk := w }
    have hstep : c.proceed t [] = some c₁ := by
      unfold proceed
      rw [hcall]
      dsimp only
      rw [if_neg hsession]
    exact ⟨c₁, .single (goesOn_proceed hstep), c.call_setCall_self t _,
      fun t' ht => thread_proceed_of_ne hstep ht, (c.besideCalls_setCall t _).images t, rfl⟩

/-- No NDK call of a teardown can fail, so it ends. -/
theorem teardown_ends {after : AfterTeardown} {objects : List Handle}
    (hcall : (c.thread t).call = .releasing after objects) :
    ∃ c', ReflTransGen GoesOn c c' ∧ TornDown c t after c' := by
  induction objects generalizing c with
  | nil =>
      have hstep : c.proceed t [] = some (c.finish t after) := by
        unfold proceed
        rw [hcall]
      refine ⟨_, .single (goesOn_proceed hstep), ⟨fun t' ht => thread_proceed_of_ne hstep ht, ?_,
        ?_, rfl⟩⟩
      · rw [call_finish, if_pos rfl]
      · exact (c.besideCalls_finish t after).images t
  | cons x objects ih =>
      obtain ⟨c₁, hfirst, hnext, hothers, himage, hbackend⟩ := release_goesOn hcall
      obtain ⟨c', hrest, htorn⟩ := ih hnext
      exact ⟨c', hfirst.trans hrest, htorn.of_step hothers himage hbackend⟩

/-- Wherever the stop is past its wait, it can end. -/
theorem stop_ends_of_releasing {after : AfterTeardown} {objects : List Handle}
    (hafter : after ≠ .startFails) (hcall : (c.thread t).call = .releasing after objects) :
    ∃ c', ReflTransGen GoesOn c c' ∧ (∀ t', t' ≠ t → c'.thread t' = c.thread t') ∧
      c'.backend.isStopping = false := by
  obtain ⟨c', hgoes, htorn⟩ := teardown_ends hcall
  refine ⟨c', hgoes, htorn.others, ?_⟩
  rw [htorn.backend]
  cases after with
  | startFails => exact absurd rfl hafter
  | stopReturns | deferredEnds => rfl

/-- The frame callback of a reader is over and its guard destroyed. -/
structure CallbackOver (c : Camera) (r : ℕ) (c' : Camera) : Prop where
  goesOn : ReflTransGen GoesOn c c'
  inCallback : c'.backend.inCallback = false
  others : ∀ t, t ≠ .image r → c'.thread t = c.thread t

theorem CallbackOver.of_goesOn {c₁ : Camera} {r : ℕ} (h : CallbackOver c₁ r c')
    (hgoes : ReflTransGen GoesOn c c₁)
    (hothers : ∀ t, t ≠ .image r → c₁.thread t = c.thread t) : CallbackOver c r c' :=
  ⟨hgoes.trans h.goesOn, h.inCallback, fun t ht => (h.others t ht).trans (hothers t ht)⟩

theorem CallbackOver.of_image {c₁ : Camera} {r : ℕ} {ok : Bool} (h : CallbackOver c₁ r c')
    (hstep : c.image r ok = some c₁) : CallbackOver c r c' :=
  h.of_goesOn (.single (goesOn_image hstep)) fun _ ht => thread_image_of_ne hstep ht

theorem thread_setThread_self (c : Camera) (t : ThreadId) (th : Thread) :
    (c.setThread t th).thread t = th := by
  rw [thread_setThread, if_pos rfl]

theorem callbackOver_of_leaving {r : ℕ} (hat : (c.thread (.image r)).image = .leaving) :
    ∃ c', CallbackOver c r c' := by
  have hstep : c.image r false = some
      { c.setThread (.image r) { c.thread (.image r) with image := .away } with
        backend := { c.backend with inCallback := false, callbackThreadId := none } } := by
    unfold image
    dsimp only
    rw [hat]
  exact ⟨_, .single (goesOn_image hstep), rfl, fun _ ht => thread_image_of_ne hstep ht⟩

theorem callbackOver_of_leaves {r : ℕ} (hstep : c.image r false = some
    (c.setThread (.image r) { c.thread (.image r) with image := .leaving })) :
    ∃ c', CallbackOver c r c' := by
  obtain ⟨c', hover⟩ := callbackOver_of_leaving (c := c.setThread (.image r)
    { c.thread (.image r) with image := .leaving }) (by rw [thread_setThread_self])
  exact ⟨c', hover.of_image hstep⟩

theorem callbackOver_of_inside {r : ℕ} (hat : (c.thread (.image r)).image = .inside)
    (hidle : (c.thread (.image r)).call = .none) : ∃ c', CallbackOver c r c' := by
  refine callbackOver_of_leaves ?_
  unfold image
  dsimp only
  rw [hat]
  exact if_pos hidle

theorem callbackOver_of_idle {r : ℕ} (hguards : (c.thread (.image r)).image.guards = true)
    (hidle : (c.thread (.image r)).call = .none) : ∃ c', CallbackOver c r c' := by
  cases hat : (c.thread (.image r)).image with
  | away | entered | checked =>
      rw [hat] at hguards
      cases hguards
  | leaving => exact callbackOver_of_leaving hat
  | inside => exact callbackOver_of_inside hat hidle
  | guarded | holding =>
      refine callbackOver_of_leaves ?_
      unfold image
      dsimp only
      rw [hat]
      rfl
  | packed =>
      have hstep : c.image r false = some (c.setThread (.image r) { c.thread (.image r) with
          image := if c.backend.isRunning && c.backend.callback then .inside else .leaving }) := by
        unfold image
        dsimp only
        rw [hat]
      cases hinside : c.backend.isRunning && c.backend.callback with
      | true =>
          rw [hinside] at hstep
          obtain ⟨c', hover⟩ := callbackOver_of_inside (c := c.setThread (.image r)
            { c.thread (.image r) with image := .inside }) (by rw [thread_setThread_self])
            (by rw [thread_setThread_self]; exact hidle)
          exact ⟨c', hover.of_image hstep⟩
      | false =>
          rw [hinside] at hstep
          exact callbackOver_of_leaves hstep

/-- A callback whose call does not block can end, after its call. -/
theorem callback_ends {r : ℕ} (hguards : (c.thread (.image r)).image.guards = true)
    (hblocks : (c.thread (.image r)).call.blocks = false) : ∃ c', CallbackOver c r c' := by
  have hreleasing : ∀ {c : Camera} {after : AfterTeardown} {objects : List Handle},
      (c.thread (.image r)).image.guards = true →
      (c.thread (.image r)).call = .releasing after objects → ∃ c', CallbackOver c r c' := by
    intro c after objects hguards hcall
    obtain ⟨c₁, hgoes, htorn⟩ := teardown_ends hcall
    obtain ⟨c', hover⟩ := callbackOver_of_idle (htorn.image.symm ▸ hguards) htorn.call
    exact ⟨c', hover.of_goesOn hgoes htorn.others⟩
  cases hcall : (c.thread (.image r)).call with
  | none => exact callbackOver_of_idle hguards hcall
  | startWait cb => rw [hcall] at hblocks; cases hblocks
  | stopWait => rw [hcall] at hblocks; cases hblocks
  | callbackWait deferred => rw [hcall] at hblocks; cases hblocks
  | releasing after objects => exact hreleasing hguards hcall
  | awaitClosed after sess objects =>
      have hstep : c.proceed (.image r) [] =
          some (c.setCall (.image r) (.releasing after objects)) := by
        unfold proceed
        rw [hcall]
      obtain ⟨c', hover⟩ := hreleasing (c := c.setCall (.image r) (.releasing after objects))
        ((c.besideCalls_setCall _ _).images _ ▸ hguards) (c.call_setCall_self _ _)
      exact ⟨c', hover.of_goesOn (.single (goesOn_proceed hstep))
        fun _ ht => thread_proceed_of_ne hstep ht⟩

theorem callback_over (h : c.Unblocked) : ∃ c', ReflTransGen GoesOn c c' ∧
    c'.backend.inCallback = false ∧
    ∀ t, (c.thread t).call.blocks = true → c'.thread t = c.thread t := by
  cases hin : c.backend.inCallback with
  | false => exact ⟨c, .refl, hin, fun _ _ => rfl⟩
  | true =>
      obtain ⟨r, hid, hguards⟩ := h.guard hin
      have hcurrent := h.current (.image r) ⟨hin, hid⟩
      obtain ⟨c', hover⟩ := callback_ends hguards hcurrent
      refine ⟨c', hover.goesOn, hover.inCallback, fun t ht => hover.others t ?_⟩
      rintro rfl
      rw [hcurrent] at ht
      cases ht

theorem stop_over (h : c.Unblocked) (hsound : c.Sound) : ∃ c', ReflTransGen GoesOn c c' ∧
    c'.backend.isStopping = false ∧
    ∀ t, (c.thread t).call.blocks = true → (c.thread t).call.stops = false →
      c'.thread t = c.thread t := by
  cases hstop : c.backend.isStopping with
  | false => exact ⟨c, .refl, hstop, fun _ _ _ => rfl⟩
  | true =>
      obtain ⟨s, hs⟩ := hsound.stopper hstop
      have hother : ∀ t, (c.thread t).call.stops = false → t ≠ s := by
        rintro t ht rfl
        rw [hs] at ht
        cases ht
      cases hcall : (c.thread s).call with
      | none => rw [hcall] at hs; cases hs
      | startWait cb => rw [hcall] at hs; cases hs
      | stopWait => rw [hcall] at hs; cases hs
      | callbackWait deferred =>
          obtain ⟨c₁, hgoes, hin, hsame⟩ := callback_over h
          have hwait : (c₁.thread s).call = .callbackWait deferred := by
            rw [hsame s (hcall ▸ rfl), hcall]
          have hstep : c₁.proceed s [] =
              some (c₁.teardown s (if deferred then .deferredEnds else .stopReturns)) := by
            unfold proceed
            rw [hwait]
            dsimp only
            rw [hin, if_neg Bool.false_ne_true]
          have hafter : (if deferred then AfterTeardown.deferredEnds else .stopReturns) ≠
              .startFails := by
            cases deferred <;> simp
          obtain ⟨c', hrest, hothers, hend⟩ := stop_ends_of_releasing hafter
            ((c₁.call_teardown s _ s).trans (if_pos rfl))
          refine ⟨c', (hgoes.tail (goesOn_proceed hstep)).trans hrest, hend, fun t ht hts => ?_⟩
          rw [hothers t (hother t hts), thread_proceed_of_ne hstep (hother t hts), hsame t ht]
      | releasing after objects =>
          have hafter : after ≠ .startFails := by
            rw [hcall] at hs
            exact bne_iff_ne.mp hs
          obtain ⟨c', hgoes, hothers, hend⟩ := stop_ends_of_releasing hafter hcall
          exact ⟨c', hgoes, hend, fun t _ hts => hothers t (hother t hts)⟩
      | awaitClosed after sess objects =>
          have hafter : after ≠ .startFails := by
            rw [hcall] at hs
            exact bne_iff_ne.mp hs
          have hstep : c.proceed s [] = some (c.setCall s (.releasing after objects)) := by
            unfold proceed
            rw [hcall]
          obtain ⟨c', hgoes, hothers, hend⟩ :=
            stop_ends_of_releasing hafter (c.call_setCall_self s _)
          refine ⟨c', hgoes.head (goesOn_proceed hstep), hend, fun t _ hts => ?_⟩
          rw [hothers t (hother t hts), thread_proceed_of_ne hstep (hother t hts)]

theorem waitEnds_of_unblocked (h : c.Unblocked) (hsound : c.Sound) (t : ThreadId) :
    c.WaitEnds t := by
  have hstop : (c.thread t).call.blocks = true → (c.thread t).call.stops = false →
      ∃ c', ReflTransGen GoesOn c c' ∧ c'.thread t = c.thread t ∧
        c'.backend.isStopping = false := by
    intro hblocks hstops
    obtain ⟨c', hgoes, hend, hsame⟩ := stop_over h hsound
    exact ⟨c', hgoes, hsame t hblocks hstops, hend⟩
  unfold WaitEnds
  cases hcall : (c.thread t).call with
  | startWait cb => exact hstop (hcall ▸ rfl) (hcall ▸ rfl)
  | stopWait => exact hstop (hcall ▸ rfl) (hcall ▸ rfl)
  | callbackWait deferred =>
      obtain ⟨c', hgoes, hin, hsame⟩ := callback_over h
      exact ⟨c', hgoes, hsame t (hcall ▸ rfl), hin⟩
  | _ => exact ⟨c, .refl, rfl, trivial⟩

/-- In a run in which no call is made from the frame callback that a stop in progress
may be waiting for, every wait can end. -/
theorem wait_ends {ls : List CameraLabel}
    (hrun : Runs (guarded CallsUnblocked cameraStep) initial ls c) (t : ThreadId) :
    c.WaitEnds t := by
  have hinv : c.Unblocked ∧ c.Sound :=
    hrun.invariant (P := fun c => c.Unblocked ∧ c.Sound)
      (fun _ _ _ h hstep => ⟨unblocked_step h.1 h.2 hstep.1 hstep.2, sound_step h.2 hstep.2⟩)
      ⟨unblocked_initial, sound_initial⟩
  exact waitEnds_of_unblocked hinv.1 hinv.2 t

/-- A start, and an image up to its frame callback. -/
def intoCallback : List CameraLabel :=
  [.start (.other 0) true [], .imageAvailable 1] ++ List.replicate 5 (.image 1 true)

/-- The callback stops the camera, and another thread waits for the deferred teardown. -/
theorem wait_ends_deferred : ∃ c, Runs (guarded CallsUnblocked cameraStep) initial
    (intoCallback ++ [.stop (.image 1) 9, .stop (.other 0) 8]) c ∧
    (c.thread (.other 9)).call = .callbackWait true ∧ (c.thread (.other 0)).call = .stopWait ∧
    c.WaitEnds (.other 9) ∧ c.WaitEnds (.other 0) := by
  let c := (replay CallsUnblocked apply
    (intoCallback ++ [.stop (.image 1) 9, .stop (.other 0) 8]) initial).get (by decide +kernel)
  have hrun : Runs (guarded CallsUnblocked cameraStep) initial
      (intoCallback ++ [.stop (.image 1) 9, .stop (.other 0) 8]) c := runs_replay _
  exact ⟨c, hrun, by decide +kernel, by decide +kernel, wait_ends hrun _, wait_ends hrun _⟩

/-- The thread of reader `r` waits in its frame callback for a stop that waits, on the
thread `d`, for the end of that callback. -/
structure Deadlocked (c : Camera) (r d : ℕ) : Prop where
  isStopping : c.backend.isStopping = true
  inCallback : c.backend.inCallback = true
  streaming : c.ndk.streaming = [r]
  inside : (c.thread (.image r)).image = .inside
  away : ∀ r', r' ≠ r → (c.thread (.image r')).image = .away
  call : (c.thread (.image r)).call = .stopWait
  deferred : (c.thread (.other d)).call = .callbackWait true
  calls : ∀ t, (c.thread t).call = .none ∨ (c.thread t).call.blocks = true

variable {r d : ℕ}

theorem Deadlocked.of_kept (h : c.Deadlocked r d) (hcalls : CallsKept c c')
    (himages : ImagesKept c c') : c'.Deadlocked r d where
  isStopping := hcalls.isStopping.trans h.isStopping
  inCallback := himages.inCallback.trans h.inCallback
  streaming := hcalls.ndk ▸ h.streaming
  inside := (himages.images _).trans h.inside
  away r' hr := (himages.images _).trans (h.away r' hr)
  call := (hcalls.calls _).trans h.call
  deferred := (hcalls.calls _).trans h.deferred
  calls t := (hcalls.calls t).symm ▸ h.calls t

theorem Deadlocked.setCall (h : c.Deadlocked r d) {s : CallStage}
    (hidle : (c.thread t).call = .none) (hs : s.blocks = true) :
    (c.setCall t s).Deadlocked r d := by
  have himages := c.besideCalls_setCall t s
  refine ⟨h.isStopping, h.inCallback, h.streaming, (himages.images _).trans h.inside,
    fun r' hr => (himages.images _).trans (h.away r' hr), ?_, ?_, fun t' => ?_⟩
  · rw [call_setCall, if_neg]
    · exact h.call
    · rintro rfl
      rw [h.call] at hidle
      cases hidle
  · rw [call_setCall, if_neg]
    · exact h.deferred
    · rintro rfl
      rw [h.deferred] at hidle
      cases hidle
  · rw [call_setCall]
    split_ifs
    · exact .inr hs
    · exact h.calls t'

theorem Deadlocked.proceed (h : c.Deadlocked r d) (replies : List Bool) :
    c.proceed t replies = none := by
  have hcall := h.calls t
  unfold Camera.proceed
  cases hat : (c.thread t).call with
  | none => rfl
  | startWait cb | stopWait => exact if_pos h.isStopping
  | callbackWait deferred => exact if_pos h.inCallback
  | releasing after objects | awaitClosed after sess objects =>
      rw [hat] at hcall
      rcases hcall with hcall | hcall <;> cases hcall

theorem Deadlocked.not_delivers {l : CameraLabel} (h : c.Deadlocked r d) :
    ¬ Delivers c c' l := by
  have hat : ∀ r', (c.thread (.image r')).image = .away ∨
      (c.thread (.image r')).image = .inside ∧ r' = r := by
    intro r'
    by_cases hr : r' = r
    · exact .inr ⟨hr ▸ h.inside, hr⟩
    · exact .inl (h.away r' hr)
  intro hdelivers
  cases hdelivers with
  | arrives r' hstreaming hlive hfrom hbackend hmoves =>
      rw [h.streaming] at hstreaming
      rw [List.mem_singleton.mp hstreaming, h.inside] at hfrom
      cases hfrom
  | checks r' ok s hfrom hrun hbackend hmoves =>
      rcases hat r' with haway | ⟨hin, -⟩
      · rw [haway] at hfrom
        cases hfrom
      · rw [hin] at hfrom
        cases hfrom
  | guards r' ok hfrom hbackend hmoves =>
      rcases hat r' with haway | ⟨hin, -⟩
      · rw [haway] at hfrom
        cases hfrom
      · rw [hin] at hfrom
        cases hfrom
  | within r' ok s hfrom hidle hto hbackend hmoves =>
      rcases hat r' with haway | ⟨hin, rfl⟩
      · rw [haway] at hfrom
        cases hfrom
      · have hcall := h.call
        rw [hidle hin] at hcall
        cases hcall
  | leaves r' ok hfrom hbackend hmoves =>
      rcases hat r' with haway | ⟨hin, -⟩
      · rw [haway] at hfrom
        cases hfrom
      · rw [hin] at hfrom
        cases hfrom

theorem deadlocked_step {l : CameraLabel} (h : c.Deadlocked r d) (hsound : c.Sound)
    (hstep : cameraStep c l c') : c'.Deadlocked r d := by
  have hstopping : c.backend.isStopping ≠ false := by
    rw [h.isStopping]
    simp
  rcases callsKept_of_step hstep with hkept | ⟨t, cb, replies, rfl⟩ | ⟨t, spawned, rfl⟩ |
    ⟨t, replies, rfl⟩
  · cases touches_of_step hsound hstep with
    | call hbeside => exact h.of_kept hkept hbeside.toImagesKept
    | handler n s hcalls himages hnotices hstops => exact h.of_kept hcalls himages
    | image hcalls hnotices hdelivers => exact absurd hdelivers h.not_delivers
  · obtain ⟨hmay, ⟨-, rfl⟩ | ⟨hstop, -⟩⟩ := start_cases hstep
    · exact h.setCall (idle_of_mayStart hmay) rfl
    · exact absurd hstop hstopping
  · obtain ⟨hmay, hbegins⟩ := stop_cases hstep
    cases hbegins with
    | joins hstop heq => exact heq ▸ h.setCall (idle_of_mayStop hmay) rfl
    | nothing hrun hstop hmgr heq => exact absurd hstop hstopping
    | defers hstop hdefers hfree heq => exact absurd hstop hstopping
    | waits hstop hdefers hcallback heq => exact absurd hstop hstopping
    | tears hstop hcallback heq => exact absurd hstop hstopping
  · have hnone : c.proceed t replies = some c' := hstep
    rw [h.proceed] at hnone
    cases hnone

theorem deadlocked_runs {ls : List CameraLabel} (hrun : Runs cameraStep c ls c')
    (h : c.Deadlocked r d) (hsound : c.Sound) : c'.Deadlocked r d :=
  (hrun.invariant (P := fun c => c.Deadlocked r d ∧ c.Sound)
    (fun _ _ _ h hstep => ⟨deadlocked_step h.1 h.2 hstep, sound_step h.2 hstep⟩) ⟨h, hsound⟩).1

/-- A frame callback that stops the camera twice waits for itself, as does one that
goes on to destroy what it has stopped. -/
theorem callback_waits_forever : ∃ c, Runs cameraStep initial
    (intoCallback ++ [.stop (.image 1) 9, .stop (.image 1) 8]) c ∧
    (c.thread (.image 1)).call = .stopWait ∧
    ∀ ls c', Runs cameraStep c ls c' →
      (c'.thread (.image 1)).call = .stopWait ∧ c'.backend.isStopping = true := by
  let c := (replay (fun _ _ => True) apply
    (intoCallback ++ [.stop (.image 1) 9, .stop (.image 1) 8]) initial).get (by decide +kernel)
  have hguarded : Runs (guarded (fun _ _ => True) cameraStep) initial
      (intoCallback ++ [.stop (.image 1) 9, .stop (.image 1) 8]) c := runs_replay _
  have hrun : Runs cameraStep initial
      (intoCallback ++ [.stop (.image 1) 9, .stop (.image 1) 8]) c :=
    hguarded.mono fun _ _ _ h => h.2
  have hthreads : ∀ l ∈ intoCallback ++ [.stop (.image 1) 9, .stop (.image 1) 8],
      ∀ t ∈ l.threads, t ∈ [ThreadId.other 0, .image 1, .other 9, .other 8] := by
    decide
  have hrest : ∀ t, t ∉ [ThreadId.other 0, .image 1, .other 9, .other 8] → c.thread t = {} :=
    fun t ht => thread_of_runs hrun fun l hl hmem => ht (hthreads l hl t hmem)
  have haway : ∀ r, r ≠ 1 → (c.thread (.image r)).image = .away := by
    intro r hr
    rw [hrest (.image r) (by simp [hr])]
  have hcalls : ∀ t, (c.thread t).call = .none ∨ (c.thread t).call.blocks = true := by
    intro t
    by_cases ht : t ∈ [ThreadId.other 0, .image 1, .other 9, .other 8]
    · have hnamed : ∀ t ∈ [ThreadId.other 0, .image 1, .other 9, .other 8],
          (c.thread t).call = .none ∨ (c.thread t).call.blocks = true := by
        decide +kernel
      exact hnamed t ht
    · rw [hrest t ht]
      exact .inl rfl
  have hdead : c.Deadlocked 1 9 :=
    ⟨by decide +kernel, by decide +kernel, by decide +kernel, by decide +kernel, haway,
      by decide +kernel, by decide +kernel, hcalls⟩
  exact ⟨c, hrun, hdead.call, fun ls c' hmore =>
    have hend := deadlocked_runs hmore hdead (sound_runs hrun)
    ⟨hend.call, hend.isStopping⟩⟩

end Camera
end FaceHal
