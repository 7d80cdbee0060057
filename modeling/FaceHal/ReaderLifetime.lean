import FaceHal.ImageThreads

/-!
# How long a reader lives

A stop waits for the end of the frame callback before it deletes the reader, but an
image thread is seen to be in the callback only from the construction of its guard,
not from the check of `mIsRunning` before it. When no stop falls into that gap and
no check lets an image of an earlier start pass, a reader is deleted only after its
last use, and after a stop has returned no earlier image reaches the frame callback.
-/
namespace FaceHal
open Program

/-- The reader is still to be used, or an image of it is held. -/
def ImageStage.usesReader : ImageStage → Bool
  | .checked | .guarded | .holding => true
  | _ => false

theorem ImageStage.passed_of_usesReader {s : ImageStage} (h : s.usesReader = true) :
    s.passed = true := by
  cases s with
  | checked | guarded | holding => rfl
  | _ => cases h

namespace Camera
variable {c c' : Camera} {t : ThreadId} {r : ℕ}

/-- A stop that finds no frame callback finds no thread on its way to one either, and
the check lets only the current reader pass. -/
def GapsMissed (c : Camera) : CameraLabel → Prop
  | .stop _ _ => c.backend.inCallback = false →
      ∀ r ∈ c.ndk.streaming, (c.thread (.image r)).image ≠ .checked
  | .image r _ => (c.thread (.image r)).image = .entered → c.backend.isRunning = true →
      c.backend.handles.rdr = some r
  | _ => True

instance (c : Camera) (l : CameraLabel) : Decidable (c.GapsMissed l) :=
  match l with
  | .stop _ _ | .image _ _ => inferInstanceAs (Decidable (_ → _))
  | .start _ _ _ | .proceed _ _ | .imageAvailable _ | .notify _ _ | .handle _ =>
      inferInstanceAs (Decidable True)

/-- The threads that have passed the check are those of the current reader. -/
structure Current (c : Camera) : Prop extends Guarded c where
  created : ∀ r ∈ c.ndk.streaming, ⟨.reader, r⟩ ∈ c.ndk.created
  streaming : ∀ r, (c.thread (.image r)).image ≠ .away → r ∈ c.ndk.streaming
  current : ∀ r, (c.thread (.image r)).image.passed = true → c.backend.handles.rdr = some r
  guards : ∀ r, (c.thread (.image r)).image.guards = true → c.backend.inCallback = true
  unchecked : c.backend.isStopping = true → ∀ r, (c.thread (.image r)).image ≠ .checked

theorem current_initial : Current initial where
  toGuarded := guarded_initial
  created r hr := by cases hr
  streaming r hr := absurd rfl hr
  current r hr := by cases hr
  guards r hr := by cases hr
  unchecked h := by cases h

theorem checked_or_guards {s : ImageStage} (h : s.passed = true) :
    s = .checked ∨ s.guards = true := by
  cases s with
  | away | entered => cases h
  | checked => exact .inl rfl
  | _ => exact .inr rfl

theorem Current.none_passed (h : c.Current) (hempty : c.backend.handles = {}) (r : ℕ) :
    (c.thread (.image r)).image.passed = false := by
  cases hpassed : (c.thread (.image r)).image.passed with
  | false => rfl
  | true =>
      have hrdr := h.current r hpassed
      rw [hempty] at hrdr
      cases hrdr

theorem Sound.reader_fresh (h : c.Sound) {cb : Bool} {b : CameraBackend} {w : Ndk} {ok : Bool}
    (hrun : c.backend.isRunning = false) (hstop : c.backend.isStopping = false)
    (hopen : Run ndkEnv (c.backend.openCamera cb) c.ndk (b, ok) w)
    (hrdr : b.handles.rdr = some r) : ⟨.reader, r⟩ ∉ c.ndk.created := by
  have hopened := h.opened hrun hstop hopen
  have hheld : (⟨.reader, r⟩ : Handle) ∈ holdings b.handles c.rest none :=
    CameraHandles.mem_inOrder.mpr hrdr
  intro hcreated
  have hlive : (⟨.reader, r⟩ : Handle) ∉ c.ndk.released := fun hreleased =>
    hopened.accounted.owned.not_released hheld (hopened.grown.released _ hreleased)
  obtain ⟨o, ho⟩ := (h.accounted.owned.held_iff _).mpr ⟨hcreated, hlive⟩
  cases o with
  | none =>
      rw [h.idle hrun hstop] at ho
      cases ho
  | some s => cases hopened.accounted.owned.unique (some s) none _ ho hheld

/-- A step of a call that keeps the fields keeps what is current. -/
theorem Current.of_handles (h : c.Current) (hguarded : c'.Guarded) (himages : ImagesKept c c')
    (hhandles : c'.backend.handles = c.backend.handles)
    (hcreated : c'.ndk.created = c.ndk.created) (hstreaming : c'.ndk.streaming = c.ndk.streaming)
    (hunchecked : c'.backend.isStopping = true → ∀ r, (c.thread (.image r)).image ≠ .checked) :
    c'.Current where
  toGuarded := hguarded
  created := by
    rw [hcreated, hstreaming]
    exact h.created
  streaming r hr := by
    rw [hstreaming]
    exact h.streaming r (himages.images _ ▸ hr)
  current r hr := by
    rw [hhandles]
    exact h.current r (himages.images _ ▸ hr)
  guards r hr := by
    rw [himages.inCallback]
    exact h.guards r (himages.images _ ▸ hr)
  unchecked hs r := by
    rw [himages.images]
    exact hunchecked hs r

/-- A step of a call may change the fields when no thread has passed the check. -/
theorem Current.of_none_passed (h : c.Current) (hguarded : c'.Guarded)
    (himages : ImagesKept c c') (hnone : ∀ r, (c.thread (.image r)).image.passed = false)
    (hcreated : ∀ r ∈ c'.ndk.streaming, ⟨.reader, r⟩ ∈ c'.ndk.created)
    (hstreaming : ∀ r ∈ c.ndk.streaming, r ∈ c'.ndk.streaming) : c'.Current := by
  have hnone' : ∀ r, (c'.thread (.image r)).image.passed = false := by
    intro r
    rw [himages.images]
    exact hnone r
  refine ⟨hguarded, hcreated, fun r hr => ?_, fun r hr => ?_, fun r hr => ?_, fun _ r hr => ?_⟩
  · exact hstreaming r (h.streaming r (himages.images _ ▸ hr))
  · rw [hnone' r] at hr
    cases hr
  · have hpassed := hnone' r
    rw [ImageStage.passed_of_guards hr] at hpassed
    cases hpassed
  · have hpassed := hnone' r
    rw [hr] at hpassed
    cases hpassed

theorem current_call {l : CameraLabel} (h : c.Current) (hsound : c.Sound)
    (hallowed : c.GapsMissed l) (hguarded : c'.Guarded) (himages : ImagesKept c c')
    (heffect : Effect c c' l) : c'.Current := by
  -- the fields are given up only when no thread has passed the check
  have htaken : c.backend.inCallback = false →
      (∀ r ∈ c.ndk.streaming, (c.thread (.image r)).image ≠ .checked) →
      ∀ r, (c.thread (.image r)).image.passed = false := by
    intro hcallback hunchecked r
    by_contra hpassed
    rw [Bool.not_eq_false] at hpassed
    rcases checked_or_guards hpassed with hchecked | hguards
    · refine hunchecked r (h.streaming r fun haway => ?_) hchecked
      rw [hchecked] at haway
      cases haway
    · rw [h.guards r hguards] at hcallback
      cases hcallback
  cases heffect with
  | quiet hcalls hhandles hrunning hstopping hndk =>
      refine h.of_handles hguarded himages hhandles (by rw [hndk]) (by rw [hndk]) ?_
      rw [hstopping]
      exact h.unchecked
  | opened cb hl hrun hstop hopen hcalls =>
      have hopened := hsound.opened hrun hstop hopen
      refine h.of_none_passed hguarded himages (h.none_passed (hsound.idle hrun hstop)) ?_ ?_
      · rw [hopened.streaming]
        intro r hr
        rcases List.mem_append.mp hr with hr | hr
        · have hrdr : c'.backend.handles.rdr = some r := Option.mem_toList.mp hr
          exact hopened.accounted.owned.created_of_held (o := none)
            (CameraHandles.mem_inOrder.mpr hrdr)
        · exact hopened.grown.created.subset (h.created r hr)
      · rw [hopened.streaming]
        exact fun r hr => List.mem_append_right _ hr
  | failed t cb b hrun hstop hidle hopen hbackend hmoves =>
      have hopened := hsound.opened hrun hstop hopen
      refine h.of_none_passed hguarded himages (h.none_passed (hsound.idle hrun hstop)) ?_ ?_
      · rw [hopened.streaming]
        exact fun r hr => hopened.grown.created.subset (h.created r hr)
      · rw [hopened.streaming]
        exact fun r hr => hr
  | waits t deferred hstop hcallback hidle hndk hbackend hmoves =>
      refine h.of_handles hguarded himages (by rw [hbackend]) (by rw [hndk]) (by rw [hndk]) ?_
      -- the callback is the current reader's, so its thread is past the gap
      obtain ⟨r, -, hguards⟩ := h.guard hcallback
      intro _ r' hchecked
      have hrdr := h.current r (ImageStage.passed_of_guards hguards)
      rw [h.current r' (by rw [hchecked]; rfl)] at hrdr
      rw [← Option.some.inj hrdr, hchecked] at hguards
      cases hguards
  | stops t spawned hl hstop hcallback hidle hndk hbackend hmoves =>
      subst hl
      refine h.of_none_passed hguarded himages (htaken hcallback (hallowed hcallback)) ?_ ?_
      · rw [hndk]
        exact h.created
      · rw [hndk]
        exact fun r hr => hr
  | takes t after hafter hwaits hcallback hndk hbackend hmoves =>
      have hunchecked := h.unchecked (hsound.stopping t (stops_of_waits hwaits))
      refine h.of_none_passed hguarded himages
        (htaken hcallback fun r _ => hunchecked r) ?_ ?_
      · rw [hndk]
        exact h.created
      · rw [hndk]
        exact fun r hr => hr
  | releases t after x objects hcall hbackend hndk hmoves =>
      refine h.of_handles hguarded himages (by rw [hbackend]) (by rw [hndk]) (by rw [hndk]) ?_
      rw [hbackend]
      exact h.unchecked
  | ends t after hafter hcall hbackend hndk hmoves =>
      refine h.of_handles hguarded himages (by rw [hbackend]) (by rw [hndk]) (by rw [hndk]) ?_
      rw [hbackend]
      intro hfalse
      cases hfalse

theorem Current.of_moves (h : c.Current) (hguarded : c'.Guarded) (hcalls : CallsKept c c')
    {s : ImageStage} (hmoves : ImageMoves c c' r s)
    (hstreaming : s ≠ .away → r ∈ c.ndk.streaming)
    (hcurrent : s.passed = true → c.backend.handles.rdr = some r)
    (hguards : s.guards = true → c'.backend.inCallback = true)
    (hothers : ∀ r', r' ≠ r → (c.thread (.image r')).image.guards = true →
      c'.backend.inCallback = true)
    (hunchecked : c.backend.isStopping = true → s ≠ .checked) : c'.Current := by
  refine ⟨hguarded, ?_, fun r' hr' => ?_, fun r' hr' => ?_, fun r' hr' => ?_, fun hs r' => ?_⟩
  · rw [hcalls.ndk]
    exact h.created
  · rw [hcalls.ndk]
    rw [hmoves] at hr'
    split_ifs at hr' with heq
    · exact heq ▸ hstreaming hr'
    · exact h.streaming r' hr'
  · rw [hcalls.handles]
    rw [hmoves] at hr'
    split_ifs at hr' with heq
    · exact heq ▸ hcurrent hr'
    · exact h.current r' hr'
  · rw [hmoves] at hr'
    split_ifs at hr' with heq
    · exact hguards hr'
    · exact hothers r' heq hr'
  · rw [hcalls.isStopping] at hs
    rw [hmoves]
    split_ifs
    · exact hunchecked hs
    · exact h.unchecked hs r'

theorem current_image {l : CameraLabel} (h : c.Current) (hsound : c.Sound)
    (hallowed : c.GapsMissed l) (hguarded : c'.Guarded) (hcalls : CallsKept c c')
    (hdelivers : Delivers c c' l) : c'.Current := by
  have hsame : c'.backend = c.backend → ∀ r', (c.thread (.image r')).image.guards = true →
      c'.backend.inCallback = true := by
    intro hbackend r' hguards
    rw [hbackend]
    exact h.guards r' hguards
  cases hdelivers with
  | arrives r hstreaming hlive hfrom hbackend hmoves =>
      exact h.of_moves hguarded hcalls hmoves (fun _ => hstreaming) nofun nofun
        (fun r' _ => hsame hbackend r') (fun _ => by simp)
  | checks r ok s hfrom hrun hbackend hmoves =>
      have hon : r ∈ c.ndk.streaming := h.streaming r (by rw [hfrom]; simp)
      rcases hrun with ⟨rfl, hrun⟩ | rfl
      · refine h.of_moves hguarded hcalls hmoves (fun _ => hon) (fun _ => hallowed hfrom hrun)
          nofun (fun r' _ => hsame hbackend r') fun hs => ?_
        rw [hsound.running hrun] at hs
        cases hs
      · exact h.of_moves hguarded hcalls hmoves (fun _ => hon) nofun nofun
          (fun r' _ => hsame hbackend r') (fun _ => by simp)
  | guards r ok hfrom hbackend hmoves =>
      have hon : r ∈ c.ndk.streaming := h.streaming r (by rw [hfrom]; simp)
      have hin : c'.backend.inCallback = true := by rw [hbackend]
      exact h.of_moves hguarded hcalls hmoves (fun _ => hon)
        (fun _ => h.current r (by rw [hfrom]; rfl)) (fun _ => hin) (fun _ _ _ => hin)
        (fun _ => by simp)
  | within r ok s hfrom hidle hto hbackend hmoves =>
      have hon : r ∈ c.ndk.streaming := h.streaming r fun haway => by
        rw [haway] at hfrom
        cases hfrom
      refine h.of_moves hguarded hcalls hmoves (fun _ => hon)
        (fun _ => h.current r (ImageStage.passed_of_guards hfrom))
        (fun _ => hsame hbackend r hfrom) (fun r' _ => hsame hbackend r') ?_
      rintro - rfl
      cases hto
  | leaves r ok hfrom hbackend hmoves =>
      have hon : r ∈ c.ndk.streaming := h.streaming r (by rw [hfrom]; simp)
      refine h.of_moves hguarded hcalls hmoves (fun _ => hon) nofun nofun ?_ (fun _ => by simp)
      -- no other reader is current, so no other thread has its guard
      intro r' hne hguards
      have hrdr := h.current r' (ImageStage.passed_of_guards hguards)
      rw [h.current r (by rw [hfrom]; rfl)] at hrdr
      exact absurd (Option.some.inj hrdr).symm hne

theorem current_step {l : CameraLabel} (h : c.Current) (hsound : c.Sound)
    (hallowed : c.GapsMissed l) (hstep : cameraStep c l c') : c'.Current := by
  have hguarded := guarded_step h.toGuarded hsound hstep
  cases touches_of_step hsound hstep with
  | call hbeside =>
      exact current_call h hsound hallowed hguarded hbeside.toImagesKept (effect_of_step hstep)
  | handler n s hcalls himages hnotices hstops =>
      exact current_call h hsound hallowed hguarded himages hcalls.effect
  | image hcalls hnotices hdelivers =>
      exact current_image h hsound hallowed hguarded hcalls hdelivers

theorem current_runs {ls : List CameraLabel} (hrun : Runs (guarded GapsMissed cameraStep) c ls c')
    (h : c.Current ∧ c.Sound) : c'.Current ∧ c'.Sound :=
  hrun.invariant (P := fun c => c.Current ∧ c.Sound)
    (fun _ _ _ h hstep => ⟨current_step h.1 h.2 hstep.1 hstep.2, sound_step h.2 hstep.2⟩) h

theorem Current.unused (h : c.Current) (hsound : c.Sound) {after : AfterTeardown}
    {objects : List Handle}
    (hcall : (c.thread t).call = .releasing after (⟨.reader, r⟩ :: objects)) :
    (c.thread (.image r)).image.usesReader = false := by
  cases huses : (c.thread (.image r)).image.usesReader with
  | false => rfl
  | true =>
      have hfield : (⟨.reader, r⟩ : Handle) ∈ holdings c.backend.handles c.rest none :=
        CameraHandles.mem_inOrder.mpr (h.current r (ImageStage.passed_of_usesReader huses))
      have htaken : (⟨.reader, r⟩ : Handle) ∈ holdings c.backend.handles c.rest (some t) := by
        change _ ∈ (c.thread t).call.objects
        rw [hcall]
        exact List.mem_cons_self
      cases hsound.accounted.owned.unique none (some t) _ hfield htaken

/-- The reader was created and is not current any more. -/
def Past (c : Camera) (r : ℕ) : Prop :=
  ⟨.reader, r⟩ ∈ c.ndk.created ∧ c.backend.handles.rdr ≠ some r

theorem past_step {l : CameraLabel} (h : c.Past r) (hsound : c.Sound)
    (hstep : cameraStep c l c') : c'.Past r := by
  obtain ⟨hcreated, hrdr⟩ := h
  cases effect_of_step hstep with
  | quiet hcalls hhandles hrunning hstopping hndk =>
      rw [Past, hndk, hhandles]
      exact ⟨hcreated, hrdr⟩
  | opened cb hl hrun hstop hopen hcalls =>
      exact ⟨(hsound.opened hrun hstop hopen).grown.created.subset hcreated, fun hnew =>
        hsound.reader_fresh hrun hstop hopen hnew hcreated⟩
  | failed t cb b hrun hstop hidle hopen hbackend hmoves =>
      rw [Past, hbackend]
      exact ⟨(hsound.opened hrun hstop hopen).grown.created.subset hcreated, by simp⟩
  | waits t deferred hstop hcallback hidle hndk hbackend hmoves =>
      rw [Past, hndk, hbackend]
      exact ⟨hcreated, hrdr⟩
  | stops t spawned hl hstop hcallback hidle hndk hbackend hmoves =>
      rw [Past, hndk, hbackend]
      exact ⟨hcreated, by simp⟩
  | takes t after hafter hwaits hcallback hndk hbackend hmoves =>
      rw [Past, hndk, hbackend]
      exact ⟨hcreated, by simp⟩
  | releases t after x objects hcall hbackend hndk hmoves =>
      rw [Past, hndk, hbackend]
      exact ⟨hcreated, hrdr⟩
  | ends t after hafter hcall hbackend hndk hmoves =>
      rw [Past, hndk, hbackend]
      exact ⟨hcreated, hrdr⟩

/-- The stop that this thread is in has not begun to tear down yet. -/
structure Pending (c : Camera) (t : ThreadId) (r : ℕ) : Prop where
  created : ⟨.reader, r⟩ ∈ c.ndk.created
  stage : (c.thread t).call = .stopWait ∨ (c.thread t).call.waits = true
  waiter : ∃ s, (c.thread s).call.waits = true

/-- During a stop the threads that wait for its end stay where they are. -/
theorem stopWait_of_step {l : CameraLabel} (hstop : c.backend.isStopping = true)
    (hcall : (c.thread t).call = .stopWait) (hstep : cameraStep c l c') :
    (c'.thread t).call = .stopWait := by
  by_cases ht : t ∈ l.threads
  · rcases callsKept_of_step hstep with hkept | ⟨t', cb, replies, rfl⟩ | ⟨t', spawned, rfl⟩ |
      ⟨t', replies, rfl⟩
    · rw [hkept.calls, hcall]
    · have hidle := idle_of_mayStart (start_cases hstep).1
      rw [← List.mem_singleton.mp ht, hcall] at hidle
      cases hidle
    · obtain ⟨hmay, hbegins⟩ := stop_cases hstep
      cases hbegins with
      | joins hjoins heq =>
          rw [heq, call_setCall, hcall]
          split_ifs <;> rfl
      | nothing hrun hidle hmgr heq => rw [hidle] at hstop; cases hstop
      | defers hidle hdefers hfree heq => rw [hidle] at hstop; cases hstop
      | waits hidle hdefers hcallback heq => rw [hidle] at hstop; cases hstop
      | tears hidle hcallback heq => rw [hidle] at hstop; cases hstop
    · obtain rfl := List.mem_singleton.mp ht
      have hblocked : c.proceed t replies = none := by
        unfold proceed
        rw [hcall]
        exact if_pos hstop
      have hsome : c.proceed t replies = some c' := hstep
      rw [hblocked] at hsome
      cases hsome
  · rw [thread_of_step hstep ht, hcall]

theorem pending_step {l : CameraLabel} (h : c.Pending t r) (hsound : c.Sound)
    (hstep : cameraStep c l c') : c'.Past r ∨ c'.Pending t r := by
  obtain ⟨s, hs⟩ := h.waiter
  have hstopping := hsound.stopping s (stops_of_waits hs)
  have hkeep : c'.ndk.created = c.ndk.created →
      (∀ t', (c.thread t').call.waits = true → (c'.thread t').call.waits = true) →
      c'.Past r ∨ c'.Pending t r := by
    intro hcreated hwaits
    refine .inr ⟨hcreated ▸ h.created, ?_, s, hwaits s hs⟩
    exact h.stage.imp (fun hcall => stopWait_of_step hstopping hcall hstep) (hwaits t)
  have hidle : c.backend.isStopping ≠ false := by
    rw [hstopping]
    simp
  cases effect_of_step hstep with
  | quiet hcalls hhandles hrunning hstop hndk =>
      refine hkeep (by rw [hndk]) fun t' ht' => ?_
      rw [(hcalls t').waits]
      exact ht'
  | opened cb hl hrun hstop hopen hcalls => exact absurd hstop hidle
  | failed t' cb b hrun hstop hnone hopen hbackend hmoves => exact absurd hstop hidle
  | waits t' deferred hstop hcallback hnone hndk hbackend hmoves => exact absurd hstop hidle
  | stops t' spawned hl hstop hcallback hnone hndk hbackend hmoves => exact absurd hstop hidle
  | takes t' after hafter hwaits hcallback hndk hbackend hmoves =>
      left
      rw [Past, hndk, hbackend]
      exact ⟨h.created, by simp⟩
  | releases t' after x objects hcall hbackend hndk hmoves =>
      refine hkeep (by rw [hndk]) fun t'' ht'' => ?_
      rw [hmoves.waits]
      split_ifs with heq
      · rw [heq, hcall] at ht''
        cases ht''
      · exact ht''
  | ends t' after hafter hcall hbackend hndk hmoves =>
      refine hkeep (by rw [hndk]) fun t'' ht'' => ?_
      rw [hmoves.waits]
      split_ifs with heq
      · rw [heq, hcall] at ht''
        cases ht''
      · exact ht''

theorem past_runs {ls : List CameraLabel} (hrun : Runs cameraStep c ls c')
    (h : c.Past r ∧ c.Sound) : c'.Past r :=
  (hrun.invariant (P := fun c => c.Past r ∧ c.Sound)
    (fun _ _ _ h hstep => ⟨past_step h.1 h.2 hstep, sound_step h.2 hstep⟩) h).1

theorem past_of_returned {ls : List CameraLabel} (hrun : Runs cameraStep c ls c')
    (h : c.Past r ∨ c.Pending t r) (hsound : c.Sound) (hcall : (c'.thread t).call = .none) :
    c'.Past r := by
  have hend := (hrun.invariant (P := fun c => (c.Past r ∨ c.Pending t r) ∧ c.Sound)
    (fun _ _ _ h hstep => ⟨h.1.elim (fun hpast => .inl (past_step hpast h.2 hstep))
      fun hpending => pending_step hpending h.2 hstep, sound_step h.2 hstep⟩) ⟨h, hsound⟩).1
  rcases hend with hpast | hpending
  · exact hpast
  · rcases hpending.stage with hstage | hstage
    · rw [hcall] at hstage
      cases hstage
    · rw [hcall] at hstage
      cases hstage

/-- How a stop begins that is not deferred. -/
theorem past_or_pending {spawned : ℕ} (hsound : c.Sound)
    (hcreated : ⟨.reader, r⟩ ∈ c.ndk.created)
    (hdirect : c.backend.isStopping = false → ¬ c.Defers t)
    (hstep : cameraStep c (.stop t spawned) c') : c'.Past r ∨ c'.Pending t r := by
  obtain ⟨hmay, hbegins⟩ := stop_cases hstep
  cases hbegins with
  | nothing hrun hstop hmgr heq =>
      have hrdr : c.backend.handles.rdr ≠ some r := by
        rw [hsound.idle hrun hstop]
        simp
      exact .inl (heq ▸ ⟨hcreated, hrdr⟩)
  | joins hstop heq =>
      by_cases hrdr : c.backend.handles.rdr = some r
      · have hwaiter : ∃ s, (c.thread s).call.waits = true := by
          by_contra hnone
          push Not at hnone
          have hrun : c.backend.isRunning = false := by
            by_contra hrun
            rw [hsound.running (by simpa using hrun)] at hstop
            cases hstop
          rw [hsound.empty hrun fun s => by simpa using hnone s] at hrdr
          cases hrdr
        obtain ⟨s, hs⟩ := hwaiter
        have hst : s ≠ t := by
          rintro rfl
          rw [idle_of_mayStop hmay] at hs
          cases hs
        rw [heq]
        refine .inr ⟨hcreated, .inl ?_, s, ?_⟩
        · rw [call_setCall, if_pos rfl]
        · rw [call_setCall, if_neg hst]
          exact hs
      · exact .inl (heq ▸ ⟨hcreated, hrdr⟩)
  | defers hstop hdefers hfree heq => exact absurd hdefers (hdirect hstop)
  | waits hstop hdefers hcallback heq =>
      have hwaits : (c'.thread t).call.waits = true := by
        rw [heq, call_setCall, if_pos rfl]
        rfl
      exact .inr ⟨heq ▸ hcreated, .inr hwaits, t, hwaits⟩
  | tears hstop hcallback heq =>
      have hrdr : c'.backend.handles.rdr ≠ some r := by
        rw [heq]
        change (none : Option ℕ) ≠ some r
        simp
      exact .inl ⟨heq ▸ hcreated, hrdr⟩

/-- A teardown deletes a reader that is not used any more, and once a stop that was not
deferred has returned no earlier image reaches the frame callback. -/
theorem reader_outlives_use {ls : List CameraLabel}
    (hrun : Runs (guarded GapsMissed cameraStep) initial ls c) :
    (∀ t after r objects, (c.thread t).call = .releasing after (⟨.reader, r⟩ :: objects) →
        (c.thread (.image r)).image.usesReader = false) ∧
      ∀ t r spawned c₁ ms c₂ ns c₃, (c.thread (.image r)).image ≠ .away →
        (c.backend.isStopping = false → ¬ c.Defers t) →
        guarded GapsMissed cameraStep c (.stop t spawned) c₁ →
        Runs (guarded GapsMissed cameraStep) c₁ ms c₂ → (c₂.thread t).call = .none →
        Runs (guarded GapsMissed cameraStep) c₂ ns c₃ →
        (c₃.thread (.image r)).image ≠ .inside := by
  have hinv := current_runs hrun ⟨current_initial, sound_initial⟩
  refine ⟨fun t after r objects hcall => hinv.1.unused hinv.2 hcall, ?_⟩
  intro t r spawned c₁ ms c₂ ns c₃ hat hdirect hstop hreturns hcall hlater hinside
  have hunguarded : ∀ {c c' : Camera} {ls : List CameraLabel},
      Runs (guarded GapsMissed cameraStep) c ls c' → Runs cameraStep c ls c' :=
    fun hruns => hruns.mono fun _ _ _ h => h.2
  have hcreated := hinv.1.created r (hinv.1.streaming r hat)
  have hsound₁ := sound_step hinv.2 hstop.2
  have hinv₂ := current_runs hreturns ⟨current_step hinv.1 hinv.2 hstop.1 hstop.2, hsound₁⟩
  have hpast₂ := past_of_returned (hunguarded hreturns)
    (past_or_pending hinv.2 hcreated hdirect hstop.2) hsound₁ hcall
  have hpast₃ := past_runs (hunguarded hlater) ⟨hpast₂, hinv₂.2⟩
  have hinv₃ := current_runs hlater hinv₂
  exact hpast₃.2 (hinv₃.1.current r (by rw [hinside]; rfl))

/-- A stop while the frame callback is running: no image that was under way then gets
to the callback after the stop. -/
theorem reader_outlives_use_stopped : ∃ c c₁ c₂,
    Runs (guarded GapsMissed cameraStep) initial
      ([.start (.other 0) true [], .imageAvailable 1] ++ List.replicate 5 (.image 1 true)) c ∧
    (c.thread (.image 1)).image = .inside ∧
    guarded GapsMissed cameraStep c (.stop (.other 2) 9) c₁ ∧
    Runs (guarded GapsMissed cameraStep) c₁
      (List.replicate 2 (.image 1 true) ++ List.replicate 11 (.proceed (.other 2) [])) c₂ ∧
    (c₂.thread (.other 2)).call = .none ∧
    ∀ ns c₃, Runs (guarded GapsMissed cameraStep) c₂ ns c₃ →
      (c₃.thread (.image 1)).image ≠ .inside := by
  let c := (replay GapsMissed apply
    ([.start (.other 0) true [], .imageAvailable 1] ++ List.replicate 5 (.image 1 true))
    initial).get (by decide +kernel)
  let c₁ := (c.apply (.stop (.other 2) 9)).get (by decide +kernel)
  let c₂ := (replay GapsMissed apply
    (List.replicate 2 (.image 1 true) ++ List.replicate 11 (.proceed (.other 2) []))
    c₁).get (by decide +kernel)
  have hrun : Runs (guarded GapsMissed cameraStep) initial
      ([.start (.other 0) true [], .imageAvailable 1] ++ List.replicate 5 (.image 1 true)) c :=
    runs_replay _
  have hstop : guarded GapsMissed cameraStep c (.stop (.other 2) 9) c₁ :=
    ⟨by decide +kernel, (Option.some_get _).symm⟩
  have hreturns : Runs (guarded GapsMissed cameraStep) c₁
      (List.replicate 2 (.image 1 true) ++ List.replicate 11 (.proceed (.other 2) [])) c₂ :=
    runs_replay _
  have hinside : (c.thread (.image 1)).image = .inside := by decide +kernel
  have hcall : (c₂.thread (.other 2)).call = .none := by decide +kernel
  have hdirect : ¬ c.Defers (.other 2) := by decide +kernel
  exact ⟨c, c₁, c₂, hrun, hinside, hstop, hreturns, hcall, fun ns c₃ hlater =>
    (reader_outlives_use hrun).2 (.other 2) 1 9 c₁ _ c₂ ns c₃ (by rw [hinside]; simp)
      (fun _ => hdirect) hstop hreturns hcall hlater⟩

/-- The stop comes between the check and the guard: the reader is deleted before the
thread acquires its image. -/
theorem reader_deleted_in_use : ∃ c c',
    Runs cameraStep initial ([.start (.other 0) true [], .imageAvailable 1, .image 1 true,
      .stop (.other 2) 9] ++ List.replicate 7 (.proceed (.other 2) [])) c ∧
    (c.thread (.other 2)).call = .releasing .stopReturns [⟨.reader, 1⟩, ⟨.manager, 0⟩] ∧
    (c.thread (.image 1)).image.usesReader = true ∧
    Runs cameraStep c [.proceed (.other 2) [], .image 1 true, .image 1 true] c' ∧
    ⟨.reader, 1⟩ ∈ c'.ndk.released ∧ (c'.thread (.image 1)).image = .holding := by
  let c := (replay (fun _ _ => True) apply ([.start (.other 0) true [], .imageAvailable 1,
    .image 1 true, .stop (.other 2) 9] ++ List.replicate 7 (.proceed (.other 2) []))
    initial).get (by decide +kernel)
  let c' := (replay (fun _ _ => True) apply
    [.proceed (.other 2) [], .image 1 true, .image 1 true] c).get (by decide +kernel)
  have hrun : Runs (guarded (fun _ _ => True) cameraStep) initial
      ([.start (.other 0) true [], .imageAvailable 1, .image 1 true, .stop (.other 2) 9] ++
        List.replicate 7 (.proceed (.other 2) [])) c := runs_replay _
  have hmore : Runs (guarded (fun _ _ => True) cameraStep) c
      [.proceed (.other 2) [], .image 1 true, .image 1 true] c' := runs_replay _
  exact ⟨c, c', hrun.mono fun _ _ _ h => h.2, by decide +kernel, by decide +kernel,
    hmore.mono fun _ _ _ h => h.2, by decide +kernel, by decide +kernel⟩

end Camera
end FaceHal
