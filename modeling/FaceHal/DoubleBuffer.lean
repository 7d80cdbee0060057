import FaceHal.FramePreview

/-!
# The two bitmaps of the preview

The looper converts into the bitmap that it has not handed on last, and the UI thread draws
what it was handed last of the calls that it has made. So the slots of the drawn bitmap and of
the bitmaps that wait for the UI thread alternate, up to the one that the looper spares. The
converter writes the bitmap on the screen exactly when an odd number of calls waits.
-/
namespace FaceHal

/-- Neighbours differ, and the last one is as given. -/
def Alternates (last : Bool) : List Bool → Prop
  | [] => True
  | b :: rest => b = (last ^^ decide (Odd rest.length)) ∧ Alternates last rest

theorem Alternates.append {last : Bool} {l : List Bool} (h : Alternates last l) :
    Alternates (!last) (l ++ [!last]) := by
  induction l with
  | nil => exact ⟨(Bool.xor_false _).symm, trivial⟩
  | cons b l ih =>
      refine ⟨?_, ih h.2⟩
      have hlength : (l ++ [!last]).length = l.length + 1 := List.length_append
      have hflip : decide (Odd (l.length + 1)) = !decide (Odd l.length) := by
        rw [← decide_not]
        exact decide_eq_decide.mpr Nat.odd_add_one
      change b = (!last ^^ decide (Odd (l ++ [!last]).length))
      rw [hlength, hflip, Bool.not_xor_not]
      exact h.1

theorem Alternates.of_append {last : Bool} {l l' : List Bool} (h : Alternates last (l ++ l')) :
    Alternates last l' := by
  induction l with
  | nil => exact h
  | cons b l ih => exact ih h.2

theorem Alternates.head {last b : Bool} {l : List Bool} (h : Alternates last (b :: l)) :
    b = !last ↔ Odd l.length := by
  have hb : b = (last ^^ decide (Odd l.length)) := h.1
  rw [hb]
  by_cases hodd : Odd l.length
  · simp only [hodd, decide_true, Bool.xor_true]
  · simp only [hodd, decide_false, Bool.xor_false, iff_false]
    cases last <;> decide

namespace FramePreview

/-- The bitmap that is converted and not yet handed on. -/
def publishing (s : FramePreview) : List Bitmap :=
  match s.rendering with
  | some ⟨_, .publish bitmap⟩ => [bitmap]
  | _ => []

/-- The bitmaps from the drawn one on, in the order in which they were handed on. -/
def handedOn (s : FramePreview) : List Bitmap :=
  (s.shown.toList ++ s.uiTasks).map Prod.fst ++ s.publishing

/-- The bitmap that the next conversion writes. -/
def spare (s : FramePreview) : Option Bitmap :=
  if s.usingBitmap1 then s.reusableBitmap2 else s.reusableBitmap1

/-- `slot` says which of the two fields a bitmap was created for. -/
structure Buffered (slot : ℕ → Bool) (s : FramePreview) : Prop where
  alternates : Alternates s.usingBitmap1 (s.handedOn.map fun b => slot b.number)
  old : ∀ b ∈ s.handedOn, b.number < s.created
  first : ∀ b, s.reusableBitmap1 = some b → b.number < s.created ∧ slot b.number = true
  second : ∀ b, s.reusableBitmap2 = some b → b.number < s.created ∧ slot b.number = false
  target : ∀ frame b, s.rendering = some ⟨frame, .convert b⟩ →
    b.number < s.created ∧ slot b.number = !s.usingBitmap1 ∧
      (s.spare = some b ∨ s.reusableBitmap1 = none ∧ s.reusableBitmap2 = none)

section steps
variable {s t : FramePreview} {slot : ℕ → Bool} {frame : VisionFrame} {b : Bitmap} {ok : Bool}

theorem Buffered.reslot (h : s.Buffered slot) {slot' : ℕ → Bool}
    (hslot : ∀ n < s.created, slot' n = slot n) : s.Buffered slot' where
  alternates := by
    have hsame : s.handedOn.map (fun b => slot' b.number) =
        s.handedOn.map fun b => slot b.number :=
      List.map_congr_left fun b hb => hslot _ (h.old b hb)
    rw [hsame]
    exact h.alternates
  old := h.old
  first b hb := ⟨(h.first b hb).1, (hslot _ (h.first b hb).1).trans (h.first b hb).2⟩
  second b hb := ⟨(h.second b hb).1, (hslot _ (h.second b hb).1).trans (h.second b hb).2⟩
  target frame b hb := by
    obtain ⟨hold, htarget, hspare⟩ := h.target frame b hb
    exact ⟨hold, (hslot _ hold).trans htarget, hspare⟩

theorem renderStep_choose : s.renderStep ⟨frame, .choose⟩ ok =
    s.spare.elim (s.goOn frame .finish) fun bitmap => s.goOn frame (.convert bitmap) := by
  unfold renderStep
  dsimp only
  change _ = (if s.usingBitmap1 then s.reusableBitmap2 else s.reusableBitmap1).elim _ _
  cases if s.usingBitmap1 then s.reusableBitmap2 else s.reusableBitmap1 <;> rfl

theorem Buffered.of_spare (h : s.Buffered slot) (hb : s.spare = some b) :
    b.number < s.created ∧ slot b.number = !s.usingBitmap1 := by
  unfold spare at hb
  cases husing : s.usingBitmap1 with
  | true =>
      rw [husing] at hb
      exact h.second b hb
  | false =>
      rw [husing] at hb
      exact h.first b hb

/-- An invocation of `onFrame` changes the flag, its own entry and the posted frames only. -/
theorem onFrameStep_keeps (s : FramePreview) (i : ℕ) (call : OnFrame) (ok : Bool) :
    ∃ flag received posted, s.onFrameStep i call ok =
      { s with isProcessingFrame := flag, received := received, posted := posted } := by
  unfold onFrameStep
  cases call.stage with
  | read =>
      dsimp only
      split
      · split_ifs <;> exact ⟨_, _, _, rfl⟩
      · exact ⟨_, _, _, rfl⟩
  | compareAndSet | close _ | post _ =>
      dsimp only
      split_ifs <;> exact ⟨_, _, _, rfl⟩
  | closeFailed | resetFlag | closeDropped | returned => exact ⟨_, _, _, rfl⟩

theorem Buffered.goOn (h : s.Buffered slot) (hpublishing : s.publishing = []) {stage : RenderStage}
    (hconvert : ∀ b, stage ≠ .convert b) (hpublish : ∀ b, stage ≠ .publish b) :
    (s.goOn frame stage).Buffered slot := by
  have hhanded : (s.goOn frame stage).handedOn = s.handedOn := by
    have hnone : (s.goOn frame stage).publishing = [] := by
      cases stage with
      | publish b => exact absurd rfl (hpublish b)
      | _ => rfl
    unfold handedOn
    rw [hnone, hpublishing]
    rfl
  refine ⟨?_, ?_, h.first, h.second, ?_⟩
  · rw [hhanded]
    exact h.alternates
  · rw [hhanded]
    exact h.old
  · intro frame' b hb
    exact absurd (congrArg Rendering.stage (Option.some.inj hb)) (hconvert b)

theorem Buffered.recycle (h : s.Buffered slot) (bitmap : Option Bitmap) :
    (s.recycle bitmap).Buffered slot :=
  ⟨h.alternates, h.old, h.first, h.second, h.target⟩

theorem Buffered.allocate (h : s.Buffered slot)
    (hconvert : ∀ frame b, s.rendering ≠ some ⟨frame, .convert b⟩) (width height : Int32) :
    ({ s with reusableBitmap1 := some ⟨s.created, width, height⟩,
              created := s.created + 1 }.Buffered (Function.update slot s.created true)) ∧
    ({ s with reusableBitmap2 := some ⟨s.created, width, height⟩,
              created := s.created + 1 }.Buffered (Function.update slot s.created false)) := by
  have hother : ∀ value, ∀ n < s.created, Function.update slot s.created value n = slot n :=
    fun value n hn => Function.update_of_ne (Nat.ne_of_lt hn) _ _
  have hlater : ∀ {n}, n < s.created → n < s.created + 1 := Nat.lt_succ_of_lt
  constructor
  · have h' := h.reslot (hother true)
    refine ⟨h'.alternates, fun b hb => hlater (h'.old b hb), ?_,
      fun b hb => (h'.second b hb).imp_left hlater, fun frame b hb => absurd hb (hconvert frame b)⟩
    intro b hb
    obtain rfl := Option.some.inj hb
    exact ⟨Nat.lt_succ_self _, Function.update_self _ _ _⟩
  · have h' := h.reslot (hother false)
    refine ⟨h'.alternates, fun b hb => hlater (h'.old b hb),
      fun b hb => (h'.first b hb).imp_left hlater, ?_,
      fun frame b hb => absurd hb (hconvert frame b)⟩
    intro b hb
    obtain rfl := Option.some.inj hb
    exact ⟨Nat.lt_succ_self _, Function.update_self _ _ _⟩

theorem buffered_renderStep (h : s.Buffered slot) {r : Rendering} (hr : s.rendering = some r) :
    ∃ slot', (s.renderStep r ok).Buffered slot' := by
  obtain ⟨frame, stage⟩ := r
  have hstay : ∀ {slot'} {u : FramePreview} {stage'}, u.Buffered slot' → u.publishing = [] →
      (∀ b, stage' ≠ RenderStage.convert b) → (∀ b, stage' ≠ RenderStage.publish b) →
      ∃ slot', (u.goOn frame stage').Buffered slot' :=
    fun hu hnone hconvert hpublish => ⟨_, hu.goOn hnone hconvert hpublish⟩
  unfold renderStep
  cases stage with
  | allocateFirst =>
      have hnone : s.publishing = [] := by
        rw [publishing, hr]
      dsimp only
      split_ifs
      · exact hstay h hnone nofun nofun
      · refine hstay ((h.recycle s.reusableBitmap1).allocate ?_ _ _).1 hnone nofun nofun
        intro frame' b hb
        cases hr.symm.trans hb
      · exact hstay (h.recycle s.reusableBitmap1) hnone nofun nofun
  | allocateSecond =>
      have hnone : s.publishing = [] := by
        rw [publishing, hr]
      dsimp only
      split_ifs
      · exact hstay h hnone nofun nofun
      · refine hstay ((h.recycle s.reusableBitmap2).allocate ?_ _ _).2 hnone nofun nofun
        intro frame' b hb
        cases hr.symm.trans hb
      · exact hstay (h.recycle s.reusableBitmap2) hnone nofun nofun
  | choose =>
      have hnone : s.publishing = [] := by
        rw [publishing, hr]
      dsimp only
      split
      · exact hstay h hnone nofun nofun
      · next bitmap hbitmap =>
          have hhanded : (s.goOn frame (.convert bitmap)).handedOn = s.handedOn := by
            unfold handedOn
            rw [hnone]
            rfl
          refine ⟨slot, hhanded ▸ h.alternates, hhanded ▸ h.old, h.first, h.second, ?_⟩
          intro frame' b hb
          cases hb
          exact ⟨(h.of_spare hbitmap).1, (h.of_spare hbitmap).2, .inl hbitmap⟩
  | convert bitmap =>
      have hnone : s.publishing = [] := by
        rw [publishing, hr]
      obtain ⟨hold, hslot, -⟩ := h.target frame bitmap hr
      dsimp only
      split_ifs
      · -- the slots of what was handed on alternate up to the one spared; now the other is
        have hhanded : ({ s with usingBitmap1 := !s.usingBitmap1 }.goOn frame
            (.publish bitmap)).handedOn = s.handedOn ++ [bitmap] := by
          unfold handedOn
          rw [hnone, List.append_nil]
          rfl
        refine ⟨slot, ?_, ?_, h.first, h.second, ?_⟩
        · rw [hhanded, List.map_append, List.map_singleton, hslot]
          exact h.alternates.append
        · rw [hhanded]
          intro b hb
          rcases List.mem_append.mp hb with hb | hb
          · exact h.old b hb
          · obtain rfl := List.mem_singleton.mp hb
            exact hold
        · intro frame' b hb
          cases hb
      · exact hstay h hnone nofun nofun
  | publish bitmap =>
      have hhanded : ({ s with uiTasks := s.uiTasks ++ [(bitmap, frame.angle)] }.goOn frame
          .finish).handedOn = s.handedOn := by
        have hpublishing : s.publishing = [bitmap] := by
          rw [publishing, hr]
        unfold handedOn
        rw [hpublishing]
        change (s.shown.toList ++ (s.uiTasks ++ [(bitmap, frame.angle)])).map Prod.fst ++ [] = _
        rw [List.append_nil, ← List.append_assoc, List.map_append, List.map_singleton]
      refine ⟨slot, hhanded ▸ h.alternates, hhanded ▸ h.old, h.first, h.second, ?_⟩
      intro frame' b hb
      cases hb
  | finish =>
      have hhanded : { s with isProcessingFrame := false, rendering := none }.handedOn =
          s.handedOn := by
        have hnone : s.publishing = [] := by
          rw [publishing, hr]
        unfold handedOn
        rw [hnone]
        rfl
      refine ⟨slot, hhanded ▸ h.alternates, hhanded ▸ h.old, h.first, h.second, ?_⟩
      intro frame' b hb
      cases hb

theorem buffered_step {l : PreviewLabel} (h : ∃ slot, s.Buffered slot)
    (hstep : previewStep s l t) : ∃ slot, t.Buffered slot := by
  obtain ⟨slot, h⟩ := h
  unfold previewStep at hstep
  cases l with
  | onFrame frame =>
      obtain rfl := Option.some.inj hstep
      exact ⟨slot, h.alternates, h.old, h.first, h.second, h.target⟩
  | binder i ok =>
      obtain ⟨call, -, rfl⟩ := Option.map_eq_some_iff.mp hstep
      obtain ⟨flag, received, posted, heq⟩ := s.onFrameStep_keeps i call ok
      rw [heq]
      exact ⟨slot, h.alternates, h.old, h.first, h.second, h.target⟩
  | background ok =>
      obtain rfl := Option.some.inj hstep
      unfold backgroundStep
      split
      · next r hr => exact buffered_renderStep h hr
      · next frame rest hr hposted =>
          have hnone : s.publishing = [] := by
            rw [publishing, hr]
          have hrest : { s with posted := rest }.Buffered slot :=
            ⟨h.alternates, h.old, h.first, h.second, h.target⟩
          exact ⟨slot, hrest.goOn hnone nofun nofun⟩
      · exact ⟨slot, h⟩
  | ui =>
      obtain ⟨task, htask, rfl⟩ := Option.map_eq_some_iff.mp hstep
      obtain ⟨rest, huiTasks⟩ : ∃ rest, s.uiTasks = task :: rest :=
        List.head?_eq_some_iff.mp htask
      have heq : s.handedOn = s.shown.toList.map Prod.fst ++
          { s with uiTasks := s.uiTasks.tail, shown := some task }.handedOn := by
        simp only [handedOn, publishing, huiTasks, List.tail_cons, Option.toList_some,
          List.map_append, List.append_assoc, List.cons_append, List.nil_append]
      refine ⟨slot, ?_, ?_, h.first, h.second, h.target⟩
      · have halternates := h.alternates
        rw [heq, List.map_append] at halternates
        exact halternates.of_append
      · intro b hb
        exact h.old b (heq ▸ List.mem_append_right _ hb)
  | onDestroy =>
      obtain rfl := Option.some.inj hstep
      refine ⟨slot, h.alternates, h.old, nofun, nofun, ?_⟩
      intro frame b hb
      obtain ⟨hold, htarget, -⟩ := h.target frame b hb
      exact ⟨hold, htarget, .inr ⟨rfl, rfl⟩⟩

theorem buffered_initial : initial.Buffered fun _ => true :=
  ⟨trivial, nofun, nofun, nofun, nofun⟩

theorem buffered_runs {ls : List PreviewLabel} (h : Runs previewStep initial ls s) :
    ∃ slot, s.Buffered slot :=
  h.invariant (P := fun s => ∃ slot, s.Buffered slot)
    (fun _ _ _ hs hstep => buffered_step hs hstep) ⟨_, buffered_initial⟩

/-- In every interleaving, through changes of the size, failures and the destruction of the
screen: the bitmap that is converted is on the screen only if an odd number of calls waits for
the UI thread, and if so it is, unless what is on the screen is neither bitmap any more. -/
theorem tearing_iff {ls : List PreviewLabel} (h : Runs previewStep initial ls s) {c : Bitmap}
    {angle : Int32} (hconvert : s.rendering = some ⟨frame, .convert b⟩)
    (hshown : s.shown = some (c, angle)) :
    (c = b → Odd s.uiTasks.length) ∧
      (s.reusableBitmap1 = some c ∨ s.reusableBitmap2 = some c → Odd s.uiTasks.length → c = b) := by
  obtain ⟨slot, hbuffered⟩ := buffered_runs h
  obtain ⟨-, hslot, hspare⟩ := hbuffered.target frame b hconvert
  have hodd : slot c.number = !s.usingBitmap1 ↔ Odd s.uiTasks.length := by
    have halternates := hbuffered.alternates
    have hhanded : s.handedOn = c :: s.uiTasks.map Prod.fst := by
      simp only [handedOn, publishing, hconvert, hshown, Option.toList_some, List.append_nil,
        List.cons_append, List.nil_append, List.map_cons]
    rw [hhanded, List.map_cons] at halternates
    rw [halternates.head, List.length_map, List.length_map]
  refine ⟨fun hcb => ?_, fun hcurrent hwaiting => ?_⟩
  · rw [← hodd, hcb]
    exact hslot
  · have hc := hodd.mpr hwaiting
    have hcspare : s.spare = some c := by
      unfold spare
      rcases hcurrent with hfirst | hsecond
      · rw [(hbuffered.first c hfirst).2] at hc
        rw [if_neg]
        · exact hfirst
        · intro husing
          rw [husing] at hc
          cases hc
      · rw [(hbuffered.second c hsecond).2] at hc
        rw [if_pos]
        · exact hsecond
        · cases husing : s.usingBitmap1 with
          | true => rfl
          | false =>
              rw [husing] at hc
              cases hc
    rcases hspare with hb | ⟨hfirst, hsecond⟩
    · exact Option.some.inj (hcspare.symm.trans hb)
    · rcases hcurrent with hc | hc
      · cases hfirst.symm.trans hc
      · cases hsecond.symm.trans hc

/-- The labels of a frame up to its conversion, and on to the end of its task. -/
def untilConverted (i : ℕ) : List PreviewLabel :=
  .onFrame ⟨[1, 2, 3, 4, 5, 6], 2, 2, 0⟩ :: List.replicate 4 (.binder i true) ++
    List.replicate 4 (.background true)

def untilDone (i : ℕ) : List PreviewLabel := untilConverted i ++ List.replicate 3 (.background true)

/-- The UI thread draws the first frame and leaves the second one waiting. -/
def stalledScreen : List PreviewLabel := untilDone 0 ++ [.ui] ++ untilDone 1 ++ untilConverted 2

/-- The third frame is written to the screen while it is drawn. -/
theorem tearing_stalled : ∃ s, Runs previewStep initial stalledScreen s ∧
    ∃ frame b angle, s.rendering = some ⟨frame, .convert b⟩ ∧ s.shown = some (b, angle) ∧
      Odd s.uiTasks.length := by
  have hreplay : (replay (fun _ _ => True) PreviewLabel.apply stalledScreen initial).map
      (fun s => (s.rendering, s.shown)) = some (some ⟨⟨[1, 2, 3, 4, 5, 6], 2, 2, 0⟩,
        .convert ⟨1, 2, 2⟩⟩, some (⟨1, 2, 2⟩, 0)) := by
    decide +kernel
  obtain ⟨s, hs, hend⟩ := Option.map_eq_some_iff.mp hreplay
  obtain ⟨hconvert, hshown⟩ := Prod.mk.inj hend
  have hrun : Runs previewStep initial stalledScreen s :=
    (runs_of_replay hs).mono fun _ _ _ h => h.2
  exact ⟨s, hrun, _, _, _, hconvert, hshown, (tearing_iff hrun hconvert hshown).1 rfl⟩

end steps
end FramePreview
end FaceHal
