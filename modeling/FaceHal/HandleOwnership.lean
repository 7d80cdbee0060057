import FaceHal.CameraSteps

/-!
# Who owns the objects of the camera

In every state that any number of threads can bring the camera into, the objects of
the NDK that were created and not released are those in the fields of the backend
and in the locals of the teardowns in progress, each at one place; an object that is
at none of these places was released once. A `start` that fails while no other call
overlaps it leaves the fields empty and has noted one of the camera codes.
-/
namespace FaceHal
open Program

/-- Created and not released. -/
def Ndk.Live (w : Ndk) (h : Handle) : Prop := h ∈ w.created ∧ h ∉ w.released

instance (w : Ndk) (h : Handle) : Decidable (w.Live h) := inferInstanceAs (Decidable (_ ∧ _))

/-- In `start` or `stop`; the detached thread of a deferred teardown is in neither. -/
def CallStage.inCall : CallStage → Bool
  | .none => false
  | .startWait _ | .stopWait => true
  | .callbackWait deferred => !deferred
  | .releasing after _ | .awaitClosed after _ _ => after != .deferredEnds

/-- A call of `start` or `stop`, the destructor's and a handler's included. -/
def CameraLabel.isCall : CameraLabel → Bool
  | .start _ _ _ | .stop _ _ => true
  | _ => false

namespace Camera
variable {c c' : Camera} {t : ThreadId}

/-- An object is in the fields (`none`) or in the locals of a teardown on a thread. -/
def Holds (c : Camera) (o : Option ThreadId) (h : Handle) : Prop :=
  h ∈ holdings c.backend.handles c.rest o

/-- Every object is where it belongs, or was released once. -/
structure Accounts (c : Camera) : Prop where
  live_iff : ∀ h, c.ndk.Live h ↔ ∃ o, c.Holds o h
  unique : ∀ o p h, c.Holds o h → c.Holds p h → o = p
  once : ∀ h ∈ c.ndk.created, c.ndk.released.count h = if c.ndk.Live h then 0 else 1

theorem Sound.accounts (h : c.Sound) : c.Accounts where
  live_iff x := (h.accounted.owned.held_iff x).symm
  unique := h.accounted.owned.unique
  once x hx := by
    split_ifs with hlive
    · exact List.count_eq_zero_of_not_mem hlive.2
    · have hr : x ∈ c.ndk.released := by
        by_contra hr
        exact hlive ⟨hx, hr⟩
      exact List.count_eq_one_of_mem h.accounted.owned.released_nodup hr

/-- What a failing `start` leaves behind. -/
structure StartFailed (c : Camera) : Prop where
  handles : c.backend.handles = {}
  isRunning : c.backend.isRunning = false
  isStopping : c.backend.isStopping = false
  failure : c.backend.lastStartFailure ∈ cameraFailures

/-- Where a `start` can be that no other call overlaps. -/
def StartAt (c : Camera) : CallStage → Prop
  | .none | .startWait _ => True
  | .releasing .startFails _ | .awaitClosed .startFails _ _ => c.StartFailed
  | _ => False

/-- No other thread is in a call, and this one is in `start`. -/
structure Alone (c : Camera) (t : ThreadId) : Prop where
  others : ∀ t', t' ≠ t → (c.thread t').call.inCall = false
  own : c.StartAt (c.thread t).call

theorem StartFailed.of_backend (h : c.StartFailed) (hh : c'.backend.handles = c.backend.handles)
    (hr : c'.backend.isRunning = c.backend.isRunning)
    (hs : c'.backend.isStopping = c.backend.isStopping)
    (hf : c'.backend.lastStartFailure = c.backend.lastStartFailure) : c'.StartFailed :=
  ⟨hh.trans h.handles, hr.trans h.isRunning, hs.trans h.isStopping, hf ▸ h.failure⟩

theorem StartAt.mono {s : CallStage} (h : c.StartAt s) (hf : c.StartFailed → c'.StartFailed) :
    c'.StartAt s := by
  cases s with
  | none | startWait cb => trivial
  | releasing after objects =>
      cases after with
      | startFails => exact hf h
      | _ => exact h.elim
  | awaitClosed after sess objects =>
      cases after with
      | startFails => exact hf h
      | _ => exact h.elim
  | _ => exact h.elim

theorem CallsKept.alone (h : CallsKept c c') (ha : c.Alone t) : c'.Alone t := by
  refine ⟨fun t' ht' => ?_, ?_⟩
  · rw [h.calls t']
    exact ha.others t' ht'
  · rw [h.calls t]
    exact ha.own.mono fun hf =>
      hf.of_backend h.handles h.isRunning h.isStopping h.lastStartFailure

theorem alone_update {s : CallStage} (ha : c.Alone t)
    (hcall : ∀ t', (c'.thread t').call = if t' = t then s else (c.thread t').call)
    (hs : c'.StartAt s) : c'.Alone t := by
  refine ⟨fun t' ht' => ?_, ?_⟩
  · rw [hcall, if_neg ht']
    exact ha.others t' ht'
  · rw [hcall, if_pos rfl]
    exact hs

theorem alone_openOrFail {cb : Bool} {replies : List Bool} (h : c.Sound) (ha : c.Alone t)
    (hstop : c.backend.isStopping = false) : (c.openOrFail t cb replies).Alone t := by
  rcases openOrFail_cases c t cb replies with
    ⟨-, heq⟩ | ⟨hrun, b, w, ⟨hopen, heq⟩ | ⟨hopen, heq⟩⟩
  · rw [heq]
    exact alone_update ha (c.call_returns t) trivial
  · rw [heq]
    exact alone_update ha (call_returns _ t) trivial
  · have hopened := h.opened hrun hstop hopen
    rw [heq]
    refine alone_update ha (call_teardown _ t .startFails) ?_
    exact ⟨rfl, hopened.isRunning, hopened.undisturbed.isStopping.trans hstop,
      hopened.failure rfl⟩

theorem alone_proceed {replies : List Bool} (h : c.Sound) (ha : c.Alone t)
    (hstep : c.proceed t replies = some c') : c'.Alone t := by
  have hown := ha.own
  cases proceed_cases hstep with
  | opens cb hcall hstop heq => exact heq ▸ alone_openOrFail h ha hstop
  | joined hcall hstop heq => rw [hcall] at hown; exact hown.elim
  | takes deferred hcall hcallback heq => rw [hcall] at hown; exact hown.elim
  | releases after x objects hcall heq =>
      rw [hcall] at hown
      rw [heq]
      cases after with
      | startFails =>
          refine alone_update ha (c.call_setCall t _) ?_
          split_ifs
          · exact hown.of_backend rfl rfl rfl rfl
          · exact hown.of_backend rfl rfl rfl rfl
      | _ => exact hown.elim
  | closed after sess objects hcall heq =>
      rw [hcall] at hown
      rw [heq]
      cases after with
      | startFails => exact alone_update ha (c.call_setCall t _) (hown.of_backend rfl rfl rfl rfl)
      | _ => exact hown.elim
  | ends after hcall heq => exact heq ▸ alone_update ha (c.call_finish t after) trivial

theorem alone_update_other {s : CallStage} {t' : ThreadId} (ha : c.Alone t) (ht : t' ≠ t)
    (hcall : ∀ u, (c'.thread u).call = if u = t' then s else (c.thread u).call)
    (hs : s.inCall = false) (hf : c.StartFailed → c'.StartFailed) : c'.Alone t := by
  refine ⟨fun u hu => ?_, ?_⟩
  · rw [hcall]
    split_ifs
    · exact hs
    · exact ha.others u hu
  · rw [hcall, if_neg (Ne.symm ht)]
    exact ha.own.mono hf

/-- Only a deferred teardown goes on elsewhere. It runs during a stop, so not while
the failed start tears down. -/
theorem alone_proceed_other {replies : List Bool} {t' : ThreadId} (h : c.Sound) (ha : c.Alone t)
    (ht : t' ≠ t) (hstep : c.proceed t' replies = some c') : c'.Alone t := by
  have hout := ha.others t' ht
  have hf : (c.thread t').call.stops = true → c.StartFailed → c'.StartFailed := by
    intro hstops hfailed
    have hstop := h.stopping t' hstops
    rw [hfailed.isStopping] at hstop
    cases hstop
  cases proceed_cases hstep with
  | opens cb hcall hstop heq => rw [hcall] at hout; cases hout
  | joined hcall hstop heq => rw [hcall] at hout; cases hout
  | takes deferred hcall hcallback heq =>
      rw [hcall] at hout hf
      cases deferred with
      | true => exact alone_update_other ha ht (heq ▸ call_teardown _ t' _) rfl (hf rfl)
      | false => cases hout
  | releases after x objects hcall heq =>
      rw [hcall] at hout hf
      cases after with
      | deferredEnds =>
          subst heq
          refine alone_update_other ha ht (c.call_setCall t' _) ?_ (hf rfl)
          split_ifs
          · rfl
          · rfl
      | _ => cases hout
  | closed after sess objects hcall heq =>
      rw [hcall] at hout hf
      cases after with
      | deferredEnds => exact alone_update_other ha ht (heq ▸ c.call_setCall t' _) rfl (hf rfl)
      | _ => cases hout
  | ends after hcall heq =>
      rw [hcall] at hout hf
      cases after with
      | deferredEnds => exact alone_update_other ha ht (heq ▸ c.call_finish t' _) rfl (hf rfl)
      | _ => cases hout

theorem alone_step {l : CameraLabel} (h : c.Sound) (ha : c.Alone t) (hl : l.isCall = false)
    (hstep : cameraStep c l c') : c'.Alone t := by
  rcases callsKept_of_step hstep with hkept | ⟨t', cb, replies, rfl⟩ | ⟨t', spawned, rfl⟩ |
    ⟨t', replies, rfl⟩
  · exact hkept.alone ha
  · cases hl
  · cases hl
  · by_cases ht : t' = t
    · subst ht
      exact alone_proceed h ha hstep
    · exact alone_proceed_other h ha ht hstep

theorem alone_start {cb : Bool} {replies : List Bool} (h : c.Sound)
    (hidle : ∀ t', (c.thread t').call.inCall = false)
    (hstep : cameraStep c (.start t cb replies) c') : c'.Alone t := by
  obtain ⟨hmay, hcases⟩ := start_cases hstep
  have ha : c.Alone t := by
    refine ⟨fun t' _ => hidle t', ?_⟩
    rw [idle_of_mayStart hmay]
    trivial
  rcases hcases with ⟨-, rfl⟩ | ⟨hstop, rfl⟩
  · exact alone_update ha (c.call_setCall t _) trivial
  · exact alone_openOrFail h ha hstop

theorem alone_runs {ms : List CameraLabel} (hrun : Runs cameraStep c ms c') (h : c.Sound)
    (ha : c.Alone t) (hms : ∀ l ∈ ms, l.isCall = false) : c'.Alone t := by
  induction hrun with
  | nil s => exact ha
  | cons hstep _ ih =>
      exact ih (sound_step h hstep)
        (alone_step h ha (hms _ List.mem_cons_self) hstep)
        fun l hl => hms l (List.mem_cons_of_mem _ hl)

/-- A start that returns false without another call in between leaves the camera closed with
its failure noted. -/
theorem closed_of_failed_start {cb : Bool} {replies more : List Bool} {ms : List CameraLabel}
    {c₁ c₂ c₃ : Camera} (h : c.Sound) (hidle : ∀ t', (c.thread t').call.inCall = false)
    (hstart : cameraStep c (.start t cb replies) c₁) (hmore : Runs cameraStep c₁ ms c₂)
    (hms : ∀ l ∈ ms, l.isCall = false) (hat : (c₂.thread t).call = .releasing .startFails [])
    (hlast : cameraStep c₂ (.proceed t more) c₃) :
    (c₃.thread t).call = .none ∧ c₃.backend.handles = {} ∧ c₃.backend.isRunning = false ∧
      c₃.backend.lastStartFailure ∈ cameraFailures ∧ c₃.backend.lastStartFailure ≠ 0 := by
  have ha := alone_runs hmore (sound_step h hstart) (alone_start h hidle hstart) hms
  have hfailed : c₂.StartFailed := by
    have hown := ha.own
    rwa [hat] at hown
  cases proceed_cases (show c₂.proceed t more = some c₃ from hlast) with
  | ends after hcall heq =>
      rw [hat] at hcall
      obtain ⟨rfl, -⟩ := CallStage.releasing.inj hcall
      rw [heq]
      exact ⟨(c₂.call_returns t t).trans (if_pos rfl), hfailed.handles, hfailed.isRunning,
        hfailed.failure, fun hzero => zero_not_mem_cameraFailures (hzero ▸ hfailed.failure)⟩
  | opens _ hcall _ _ | joined hcall _ _ | takes _ hcall _ _ | closed _ _ _ hcall _ =>
      rw [hat] at hcall
      cases hcall
  | releases after x objects hcall heq =>
      rw [hat] at hcall
      cases hcall

end Camera
end FaceHal
