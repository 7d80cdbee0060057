import FaceHal.ReaderLifetime

/-!
# A camera that nobody starts any more

Once the last user of a camera is gone nobody calls `start`, and the destructors call `stop`. Such
a stop ends with the camera shut: not running, not stopping and with empty fields, whatever the
image threads and the handlers of notifications still do. A stop that is made from the frame
callback is deferred, and the next one then waits for ever.
-/
namespace FaceHal

/-- In `start`, or in the teardown of a start that has failed. -/
def CallStage.starts : CallStage → Bool
  | .startWait _ | .releasing .startFails _ | .awaitClosed .startFails _ _ => true
  | _ => false

theorem CallStage.idle_of_not {s : CallStage} (hstarts : s.starts = false)
    (hstops : s.stops = false) : s = .none ∨ s = .stopWait := by
  cases s with
  | none => exact .inl rfl
  | stopWait => exact .inr rfl
  | startWait cb => cases hstarts
  | callbackWait deferred => cases hstops
  | releasing after objects | awaitClosed after sess objects =>
      cases after with
      | startFails => cases hstarts
      | _ => cases hstops

namespace Camera
variable {c c' : Camera} {t : ThreadId} {r : ℕ} {l : CameraLabel}

theorem starts_proceed {t' : ThreadId} {replies : List Bool} (h : c.proceed t' replies = some c')
    (hstarts : (c'.thread t).call.starts = true) : (c.thread t).call.starts = true := by
  by_cases ht : t = t'
  · subst ht
    cases proceed_cases h with
    | opens cb hcall hstop heq =>
        rw [hcall]
        rfl
    | joined hcall hstop heq =>
        rw [heq, call_returns, if_pos rfl] at hstarts
        cases hstarts
    | takes deferred hcall hcallback heq =>
        rw [heq, call_teardown, if_pos rfl] at hstarts
        cases deferred <;> cases hstarts
    | releases after x objects hcall heq =>
        rw [heq] at hstarts
        dsimp only at hstarts
        rw [call_setCall, if_pos rfl] at hstarts
        rw [hcall]
        cases after with
        | startFails => rfl
        | _ => split_ifs at hstarts <;> cases hstarts
    | closed after sess objects hcall heq =>
        rw [heq, call_setCall, if_pos rfl] at hstarts
        rw [hcall]
        cases after with
        | startFails => rfl
        | _ => cases hstarts
    | ends after hcall heq =>
        rw [heq, call_finish, if_pos rfl] at hstarts
        cases hstarts
  · rwa [thread_proceed_of_ne h ht] at hstarts

theorem starts_stop {t' : ThreadId} {spawned : ℕ} (h : StopBegins c t' spawned c')
    (hstarts : (c'.thread t).call.starts = true) : (c.thread t).call.starts = true := by
  cases h with
  | nothing hrun hstop hmgr heq =>
      rw [heq, call_returns] at hstarts
      split_ifs at hstarts with ht
      · cases hstarts
      · exact hstarts
  | joins hstop heq =>
      rw [heq, call_setCall] at hstarts
      split_ifs at hstarts with ht
      · cases hstarts
      · exact hstarts
  | defers hstop hdefers hfree heq =>
      rw [heq, call_setCall, call_returns] at hstarts
      split_ifs at hstarts with hs ht
      · cases hstarts
      · cases hstarts
      · exact hstarts
  | waits hstop hdefers hcallback heq =>
      rw [heq, call_setCall] at hstarts
      split_ifs at hstarts with ht
      · cases hstarts
      · exact hstarts
  | tears hstop hcallback heq =>
      rw [heq, call_teardown] at hstarts
      split_ifs at hstarts with ht
      · cases hstarts
      · exact hstarts

theorem starts_of_step (hstep : cameraStep c l c') (hstarts : (c'.thread t).call.starts = true) :
    (c.thread t).call.starts = true ∨ ∃ cb replies, l = .start t cb replies := by
  rcases callsKept_of_step hstep with hkept | ⟨t', cb, replies, rfl⟩ | ⟨t', spawned, rfl⟩ |
    ⟨t', replies, rfl⟩
  · exact .inl (hkept.calls t ▸ hstarts)
  · by_cases ht : t = t'
    · exact .inr ⟨cb, replies, ht ▸ rfl⟩
    · exact .inl (thread_start_of_ne hstep ht ▸ hstarts)
  · exact .inl (starts_stop (stop_cases hstep).2 hstarts)
  · exact .inl (starts_proceed hstep hstarts)

/-- The camera was stopped by this thread, and when its call is over the stop is. -/
structure Shut (c : Camera) (t : ThreadId) : Prop where
  isRunning : c.backend.isRunning = false
  ended : (c.thread t).call = .none → c.backend.isStopping = false

theorem shut_of_stop {spawned : ℕ} (h : c.Sound) (hdirect : ¬ c.Defers t)
    (hstep : cameraStep c (.stop t spawned) c') : c'.Shut t := by
  cases (stop_cases hstep).2 with
  | nothing hrun hstop hmgr heq =>
      rw [heq]
      exact ⟨hrun, fun _ => hstop⟩
  | joins hstop heq =>
      have hrun : c.backend.isRunning = false := by
        by_contra hrun
        rw [h.running (by simpa using hrun)] at hstop
        cases hstop
      refine ⟨heq ▸ hrun, fun hcall => ?_⟩
      rw [heq, call_setCall, if_pos rfl] at hcall
      cases hcall
  | defers hstop hdefers hfree heq => exact absurd hdefers hdirect
  | waits hstop hdefers hcallback heq =>
      refine ⟨heq ▸ rfl, fun hcall => ?_⟩
      rw [heq, call_setCall, if_pos rfl] at hcall
      cases hcall
  | tears hstop hcallback heq =>
      refine ⟨heq ▸ rfl, fun hcall => ?_⟩
      rw [heq, call_teardown, if_pos rfl] at hcall
      cases hcall

theorem stop_idle {spawned : ℕ} (h : c.Sound) (hrun : c.backend.isRunning = false)
    (hstop : c.backend.isStopping = false) : c.stop t spawned = some (c.returns t) := by
  unfold stop
  dsimp only
  rw [hrun, hstop, h.idle hrun hstop]
  rfl

theorem off_of_stop {spawned : ℕ} (h : c.Sound) (hrun : c.backend.isRunning = false)
    (hstop : c.backend.isStopping = false) (hstep : cameraStep c (.stop t spawned) c') :
    c'.backend.isRunning = false ∧ c'.backend.isStopping = false := by
  have hreturns : c.stop t spawned = some c' := by
    unfold cameraStep apply at hstep
    dsimp only at hstep
    rwa [if_pos (stop_cases hstep).1] at hstep
  rw [stop_idle h hrun hstop] at hreturns
  obtain rfl := Option.some.inj hreturns
  exact ⟨hrun, hstop⟩

theorem off_step (h : c.Sound) (hrun : c.backend.isRunning = false)
    (hstop : c.backend.isStopping = false) (hquiet : ∀ t cb replies, l ≠ .start t cb replies)
    (hstarts : ∀ t, (c.thread t).call.starts = false) (hstep : cameraStep c l c') :
    c'.backend.isRunning = false ∧ c'.backend.isStopping = false := by
  rcases callsKept_of_step hstep with hkept | ⟨t, cb, replies, rfl⟩ | ⟨t, spawned, rfl⟩ |
    ⟨t, replies, rfl⟩
  · exact ⟨hkept.isRunning.trans hrun, hkept.isStopping.trans hstop⟩
  · exact absurd rfl (hquiet t cb replies)
  · exact off_of_stop h hrun hstop hstep
  · cases proceed_cases (show c.proceed t replies = some c' from hstep) with
    | opens cb hcall hfree heq =>
        have hnot := hstarts t
        rw [hcall] at hnot
        cases hnot
    | ends after hcall heq =>
        rw [heq]
        cases after with
        | startFails => exact ⟨hrun, hstop⟩
        | _ => exact ⟨hrun, rfl⟩
    | joined _ _ heq | takes _ _ _ heq | releases _ _ _ _ heq | closed _ _ _ _ heq =>
        rw [heq]
        exact ⟨hrun, hstop⟩

theorem shut_step (h : c.Sound) (hs : c.Shut t) (hquiet : ∀ t cb replies, l ≠ .start t cb replies)
    (hstarts : ∀ t', (c.thread t').call.starts = false) (hstep : cameraStep c l c') : c'.Shut t := by
  cases hstop : c.backend.isStopping with
  | false =>
      obtain ⟨hrun', hstop'⟩ := off_step h hs.isRunning hstop hquiet hstarts hstep
      exact ⟨hrun', fun _ => hstop'⟩
  | true =>
      have hbusy : (c.thread t).call ≠ .none := by
        intro hcall
        rw [hs.ended hcall] at hstop
        cases hstop
      have hgoes : ∀ t' s, s ≠ .none → c'.backend.isRunning = c.backend.isRunning →
          (c'.thread t).call = (if t = t' then s else (c.thread t).call) → c'.Shut t := by
        intro t' s hs' hrun hcall
        refine ⟨hrun.trans hs.isRunning, fun hnone => ?_⟩
        rw [hcall] at hnone
        split_ifs at hnone
        · exact absurd hnone hs'
        · exact absurd hnone hbusy
      rcases callsKept_of_step hstep with hkept | ⟨t', cb, replies, rfl⟩ | ⟨t', spawned, rfl⟩ |
        ⟨t', replies, rfl⟩
      · exact ⟨hkept.isRunning.trans hs.isRunning, fun hcall => absurd (hkept.calls t ▸ hcall) hbusy⟩
      · exact absurd rfl (hquiet t' cb replies)
      · cases (stop_cases hstep).2 with
        | joins _ heq =>
            exact hgoes t' .stopWait CallStage.noConfusion (heq ▸ rfl) (heq ▸ call_setCall ..)
        | nothing _ hidle _ _ => rw [hidle] at hstop; cases hstop
        | defers hidle _ _ _ => rw [hidle] at hstop; cases hstop
        | waits hidle _ _ _ => rw [hidle] at hstop; cases hstop
        | tears hidle _ _ => rw [hidle] at hstop; cases hstop
      · cases proceed_cases (show c.proceed t' replies = some c' from hstep) with
        | opens cb hcall hidle heq => rw [hidle] at hstop; cases hstop
        | joined hcall hidle heq => rw [hidle] at hstop; cases hstop
        | takes deferred hcall hcallback heq =>
            exact hgoes t' _ CallStage.noConfusion (heq ▸ rfl) (heq ▸ call_teardown ..)
        | releases after x objects hcall heq =>
            refine hgoes t' (if x.kind = .session then .awaitClosed after x.id objects
              else .releasing after objects) ?_ (heq ▸ rfl) (heq ▸ call_setCall ..)
            split_ifs <;> exact CallStage.noConfusion
        | closed after sess objects hcall heq =>
            exact hgoes t' _ CallStage.noConfusion (heq ▸ rfl) (heq ▸ call_setCall ..)
        | ends after hcall heq =>
            rw [heq]
            cases after with
            | startFails =>
                have hnot := hstarts t'
                rw [hcall] at hnot
                cases hnot
            | _ => exact ⟨hs.isRunning, fun _ => rfl⟩

/-- No image thread has passed the check of a camera that is shut. -/
theorem Current.away_or_entered (h : c.Current) (hsound : c.Sound)
    (hrun : c.backend.isRunning = false) (hstop : c.backend.isStopping = false) (r : ℕ) :
    (c.thread (.image r)).image = .away ∨ (c.thread (.image r)).image = .entered := by
  have hpassed := h.none_passed (hsound.idle hrun hstop) r
  cases himage : (c.thread (.image r)).image with
  | away => exact .inl rfl
  | entered => exact .inr rfl
  | _ =>
      rw [himage] at hpassed
      cases hpassed

/-- Only an image thread can be the one of the current guard. -/
theorem Guarded.not_defers_other (h : c.Guarded) (n : ℕ) : ¬ c.Defers (.other n) := by
  rintro ⟨hin, hid⟩
  obtain ⟨r, hr, -⟩ := h.guard hin
  rw [hid] at hr
  cases hr

/-- The thread that is inside the frame callback is the one of the current guard. -/
theorem Current.defers_of_inside (h : c.Current)
    (hinside : (c.thread (.image r)).image = .inside) : c.Defers (.image r) := by
  have hin := h.guards r (by rw [hinside]; rfl)
  obtain ⟨r', hid, hguards⟩ := h.guard hin
  have hrdr := h.current r' (ImageStage.passed_of_guards hguards)
  rw [h.current r (by rw [hinside]; rfl)] at hrdr
  exact ⟨hin, hid.trans (congrArg _ (congrArg _ (Option.some.inj hrdr).symm))⟩

/-- The stop is deferred, or joins one that is in progress. -/
theorem stopping_of_stop {spawned : ℕ} (h : c.Current) (hsound : c.Sound)
    (hinside : (c.thread (.image r)).image = .inside)
    (hstep : cameraStep c (.stop (.image r) spawned) c') : c'.backend.isStopping = true ∧
      (c.backend.isStopping = true → (c'.thread (.image r)).call = .stopWait) := by
  have hdefers := h.defers_of_inside hinside
  cases (stop_cases hstep).2 with
  | nothing hrun hstop hmgr heq =>
      have hrdr := h.current r (by rw [hinside]; rfl)
      rw [hsound.idle hrun hstop] at hrdr
      cases hrdr
  | joins hstop heq =>
      rw [heq]
      exact ⟨hstop, fun _ => (call_setCall ..).trans (if_pos rfl)⟩
  | defers hstop _ hfree heq =>
      rw [heq, hstop]
      exact ⟨rfl, fun hfalse => absurd hfalse Bool.false_ne_true⟩
  | waits hstop hnot hcallback heq => exact absurd hdefers hnot
  | tears hstop hcallback heq =>
      rw [hdefers.1] at hcallback
      cases hcallback

theorem stopping_of_step (h : c.Current) (hsound : c.Sound)
    (hinside : (c.thread (.image r)).image = .inside) (hstop : c.backend.isStopping = true)
    (hstep : cameraStep c l c') : c'.backend.isStopping = true := by
  have hidle : c.backend.isStopping ≠ false := by
    rw [hstop]
    simp
  cases effect_of_step hstep with
  | quiet hcalls hhandles hrunning hstopping hndk => exact hstopping.trans hstop
  | opened cb hl hrun hnone hopen hcalls => exact absurd hnone hidle
  | failed t' cb b hrun hnone hfree hopen hbackend hmoves => exact absurd hnone hidle
  | waits t' deferred hnone hcallback hfree hndk hbackend hmoves => exact absurd hnone hidle
  | stops t' spawned hl hnone hcallback hfree hndk hbackend hmoves => exact absurd hnone hidle
  | takes t' after hafter hwaits hcallback hndk hbackend hmoves =>
      rw [hbackend]
      exact hstop
  | releases t' after x objects hcall hbackend hndk hmoves => rwa [hbackend]
  | ends t' after hafter hcall hbackend hndk hmoves =>
      -- the thread that ends the stop is its only one, so the fields are empty by now
      have hstops : (c.thread t').call.stops = true := by
        rw [hcall]
        cases after with
        | startFails => exact absurd rfl hafter
        | _ => rfl
      have hrun : c.backend.isRunning = false := by
        by_contra hrun
        exact hidle (hsound.running (by simpa using hrun))
      have hempty := hsound.empty hrun fun s => by
        by_contra hwaits
        rw [Bool.not_eq_false] at hwaits
        obtain rfl := hsound.unique s t' (stops_of_waits hwaits) hstops
        rw [hcall] at hwaits
        cases hwaits
      have hrdr := h.current r (by rw [hinside]; rfl)
      rw [hempty] at hrdr
      cases hrdr

/-- Only its own step takes an image thread out of the frame callback. -/
theorem inside_of_step (hsound : c.Sound) (hinside : (c.thread (.image r)).image = .inside)
    (hl : ∀ ok, l ≠ .image r ok) (hstep : cameraStep c l c') :
    (c'.thread (.image r)).image = .inside := by
  cases touches_of_step hsound hstep with
  | call hbeside => rwa [hbeside.images]
  | handler n s hcalls himages hnotices hstops => rwa [himages.images]
  | image hcalls hnotices hdelivers =>
      have hmoves : ∀ {r' : ℕ} {s : ImageStage}, ImageMoves c c' r' s → r' ≠ r →
          (c'.thread (.image r)).image = .inside := fun hmoves hne => by
        rwa [hmoves, if_neg hne.symm]
      have hne : ∀ {r' : ℕ} {ok : Bool}, l = .image r' ok → r' ≠ r := by
        rintro r' ok rfl rfl
        exact hl ok rfl
      cases hdelivers with
      | arrives r' hstreaming hlive hfrom hbackend hm =>
          refine hmoves hm ?_
          rintro rfl
          rw [hinside] at hfrom
          cases hfrom
      | checks r' ok s hfrom hrun hbackend hm => exact hmoves hm (hne rfl)
      | guards r' ok hfrom hbackend hm => exact hmoves hm (hne rfl)
      | within r' ok s hfrom hidle hto hbackend hm => exact hmoves hm (hne rfl)
      | leaves r' ok hfrom hbackend hm => exact hmoves hm (hne rfl)

end Camera
end FaceHal
