import FaceHal.Transition
import FaceHal.VisionServiceImpl
import Mathlib.Algebra.Ring.Parity

/-!
# The preview of the enrolment screen

The app gets each frame as a descriptor on a binder thread, claims a flag, reads the bytes,
closes the descriptor and posts the frame to a background looper, which converts it into one
of two bitmaps, hands the bitmap to the UI thread and resets the flag. A frame that comes
while the flag is set is dropped. Every path closes its descriptor. The flag is set exactly
while a frame is on its way, until the screen is destroyed; a frame that is posted after that
is lost and the flag stays set.

A step that is not `ok` throws an `Exception`, which is what the handlers catch. An `Error`, such as
the `OutOfMemoryError` of an array that is too large, passes them all and is not modelled. A `close`
in a handler is taken to close the descriptor also when it throws.
-/
namespace FaceHal

/-- Where an invocation of `onFrame` is. The names say what its next step does. -/
inductive OnFrameStage where
  | compareAndSet
  | read
  | close (data : List UInt8)
  | post (data : List UInt8)
  /-- The handler of an exception, with the flag still set. -/
  | closeFailed
  | resetFlag
  | closeDropped
  | returned
deriving DecidableEq, Repr

structure OnFrame where
  frame : VisionFrame
  stage : OnFrameStage
  closed : Bool
deriving DecidableEq, Repr

/-- An `android.graphics.Bitmap`, known by its number. -/
structure Bitmap where
  number : ℕ
  width : Int32
  height : Int32
deriving DecidableEq, Repr

/-- Where `renderFrame` is. -/
inductive RenderStage where
  | allocateFirst
  | allocateSecond
  | choose
  /-- The converter writes the bitmap. -/
  | convert (bitmap : Bitmap)
  | publish (bitmap : Bitmap)
  | finish
deriving DecidableEq, Repr

structure Rendering where
  frame : VisionFrame
  stage : RenderStage
deriving DecidableEq, Repr

structure FramePreview where
  isProcessingFrame : Bool
  /-- All invocations of `onFrame`. -/
  received : List OnFrame
  /-- The tasks of the background looper. -/
  posted : List VisionFrame
  rendering : Option Rendering
  hasConverter : Bool
  hasQuit : Bool
  reusableBitmap1 : Option Bitmap
  reusableBitmap2 : Option Bitmap
  usingBitmap1 : Bool
  created : ℕ
  recycled : List ℕ
  /-- The calls of `setFrame` that the UI thread has still to make. -/
  uiTasks : List (Bitmap × Int32)
  /-- What the view draws. -/
  shown : Option (Bitmap × Int32)
deriving DecidableEq, Repr

inductive PreviewLabel where
  | onFrame (frame : VisionFrame)
  /-- An invocation of `onFrame` goes on. `ok` says that no `Exception` is thrown. -/
  | binder (i : ℕ) (ok : Bool)
  /-- The looper takes a task or goes on with the one it has. -/
  | background (ok : Bool)
  /-- The UI thread makes a call of `setFrame`. -/
  | ui
  | onDestroy
deriving DecidableEq, Repr

namespace FramePreview

def initial : FramePreview := ⟨false, [], [], none, true, false, none, none, true, 0, [], [], none⟩

/-- `(width * height * 1.5).toInt()` -/
def frameSize (width height : Int32) : Int :=
  max (min (Int.tdiv ((width * height).toInt * 3) 2) (2 ^ 31 - 1)) (-2 ^ 31)

/-- What `FileInputStream.read` leaves in a fresh array, if there can be one of this size. -/
def readFrame (frame : VisionFrame) : Option (List UInt8) :=
  let size := frameSize frame.width frame.height
  if size < 0 then none
  else
    some (frame.data.take size.toNat ++ List.replicate (size.toNat - frame.data.length) 0)

def goto (s : FramePreview) (i : ℕ) (call : OnFrame) (stage : OnFrameStage) : FramePreview :=
  { s with received := s.received.set i { call with stage := stage } }

/-- The descriptor is closed and the invocation goes on. -/
def closeAndGoto (s : FramePreview) (i : ℕ) (call : OnFrame) (stage : OnFrameStage) :
    FramePreview := s.goto i { call with closed := true } stage

def onFrameStep (s : FramePreview) (i : ℕ) (call : OnFrame) (ok : Bool) : FramePreview :=
  match call.stage with
  | .compareAndSet =>
      if s.isProcessingFrame then s.goto i call .closeDropped
      else { s with isProcessingFrame := true }.goto i call .read
  | .read =>
      match readFrame call.frame with
      | some data => if ok then s.goto i call (.close data) else s.goto i call .closeFailed
      | none => s.goto i call .closeFailed
  | .close data =>
      if ok then s.closeAndGoto i call (.post data) else s.goto i call .closeFailed
  | .post data =>
      if s.hasQuit then s.goto i call .returned
      else { s with posted := s.posted ++ [{ call.frame with data := data }] }.goto i call .returned
  | .closeFailed => s.closeAndGoto i call .resetFlag
  | .resetFlag => { s with isProcessingFrame := false }.goto i call .returned
  | .closeDropped => s.closeAndGoto i call .returned
  | .returned => s

/-- The bitmap does for a frame of this size. -/
def fits (bitmap : Option Bitmap) (frame : VisionFrame) : Bool :=
  bitmap.any fun b => b.width == frame.width && b.height == frame.height

def recycle (s : FramePreview) (bitmap : Option Bitmap) : FramePreview :=
  { s with recycled := (bitmap.map Bitmap.number).toList ++ s.recycled }

def goOn (s : FramePreview) (frame : VisionFrame) (stage : RenderStage) : FramePreview :=
  { s with rendering := some ⟨frame, stage⟩ }

def renderStep (s : FramePreview) (r : Rendering) (ok : Bool) : FramePreview :=
  match r.stage with
  | .allocateFirst =>
      if fits s.reusableBitmap1 r.frame then s.goOn r.frame .allocateSecond
      else
        let s := s.recycle s.reusableBitmap1
        if ok then
          { s with
            reusableBitmap1 := some ⟨s.created, r.frame.width, r.frame.height⟩
            created := s.created + 1 }.goOn r.frame .allocateSecond
        else s.goOn r.frame .finish
  | .allocateSecond =>
      if fits s.reusableBitmap2 r.frame then s.goOn r.frame .choose
      else
        let s := s.recycle s.reusableBitmap2
        if ok then
          { s with
            reusableBitmap2 := some ⟨s.created, r.frame.width, r.frame.height⟩
            created := s.created + 1 }.goOn r.frame .choose
        else s.goOn r.frame .finish
  | .choose =>
      match if s.usingBitmap1 then s.reusableBitmap2 else s.reusableBitmap1 with
      | none => s.goOn r.frame .finish
      | some bitmap => s.goOn r.frame (.convert bitmap)
  | .convert bitmap =>
      -- without a converter nothing is written and the bitmap is handed on as it is
      if ok || !s.hasConverter then
        { s with usingBitmap1 := !s.usingBitmap1 }.goOn r.frame (.publish bitmap)
      else s.goOn r.frame .finish
  | .publish bitmap =>
      { s with uiTasks := s.uiTasks ++ [(bitmap, r.frame.angle)] }.goOn r.frame .finish
  | .finish => { s with isProcessingFrame := false, rendering := none }

def backgroundStep (s : FramePreview) (ok : Bool) : FramePreview :=
  match s.rendering, s.posted with
  | some r, _ => s.renderStep r ok
  | none, frame :: rest => { s with posted := rest }.goOn frame .allocateFirst
  | none, [] => s

def onDestroy (s : FramePreview) : FramePreview :=
  let s := (s.recycle s.reusableBitmap1).recycle s.reusableBitmap2
  { s with
    hasQuit := true
    hasConverter := false
    reusableBitmap1 := none
    reusableBitmap2 := none }

end FramePreview

open FramePreview in
def PreviewLabel.apply (s : FramePreview) : PreviewLabel → Option FramePreview
  | .onFrame frame => some { s with received := s.received ++ [⟨frame, .compareAndSet, false⟩] }
  | .binder i ok => (s.received[i]?).map fun call => s.onFrameStep i call ok
  | .background ok => some (s.backgroundStep ok)
  | .ui => s.uiTasks.head?.map fun task => { s with uiTasks := s.uiTasks.tail, shown := some task }
  | .onDestroy => some s.onDestroy

def previewStep : System FramePreview PreviewLabel := fun s l t => l.apply s = some t

/-- The invocation has claimed the flag and not yet passed it on or reset it. -/
def OnFrame.holds (call : OnFrame) : Bool :=
  match call.stage with
  | .read | .close _ | .post _ | .closeFailed | .resetFlag => true
  | _ => false

/-- Where the descriptor must be closed by now. -/
def OnFrame.Tidy (call : OnFrame) : Prop :=
  match call.stage with
  | .post _ | .resetFlag | .returned => call.closed = true
  | _ => True

/-- A bound on the steps from here to the reset of the flag. -/
def OnFrame.stepsLeft (call : OnFrame) : ℕ :=
  match call.stage with
  | .read => 10
  | .close _ => 9
  | .post _ => 8
  | .closeFailed => 2
  | .resetFlag => 1
  | _ => 0

def RenderStage.stepsLeft : RenderStage → ℕ
  | .allocateFirst => 6
  | .allocateSecond => 5
  | .choose => 4
  | .convert _ => 3
  | .publish _ => 2
  | .finish => 1

namespace FramePreview

/-- The frames on their way from the claim of the flag to its reset. -/
def inFlight (s : FramePreview) : ℕ :=
  s.received.countP OnFrame.holds + s.posted.length + s.rendering.toList.length

/-- The flag is set for the one frame on its way, or for one that was lost. -/
structure Gated (s : FramePreview) : Prop where
  atMostOne : s.inFlight ≤ 1
  set : s.inFlight = 1 → s.isProcessingFrame = true
  onlyFor : s.isProcessingFrame = true → s.inFlight = 1 ∨ s.hasQuit = true

def Tidy (s : FramePreview) : Prop := ∀ call ∈ s.received, call.Tidy

section steps
variable {s t : FramePreview} {i : ℕ} {call : OnFrame} {ok : Bool}

theorem inFlight_set (hi : s.received[i]? = some call) {call' : OnFrame} {n : ℕ}
    (hreceived : t.received = s.received.set i call')
    (hposted : t.posted.length = s.posted.length + n) (hrendering : t.rendering = s.rendering) :
    t.inFlight + call.holds.toNat = s.inFlight + n + call'.holds.toNat := by
  obtain ⟨hlen, rfl⟩ := List.getElem?_eq_some_iff.mp hi
  have hcounted : s.received[i].holds.toNat ≤ s.received.countP OnFrame.holds := by
    cases h : s.received[i].holds with
    | false => exact Nat.zero_le _
    | true => exact List.countP_pos_iff.mpr ⟨_, List.getElem_mem hlen, h⟩
  have htoNat : ∀ b : Bool, (if b = true then 1 else 0) = b.toNat := by decide
  unfold inFlight
  rw [hreceived, hposted, hrendering, List.countP_set hlen, htoNat, htoNat]
  omega

theorem Gated.congr (h : s.Gated) (hcount : t.inFlight = s.inFlight)
    (hflag : t.isProcessingFrame = s.isProcessingFrame)
    (hquit : s.hasQuit = true → t.hasQuit = true) : t.Gated := by
  refine ⟨?_, ?_, ?_⟩
  · rw [hcount]
    exact h.atMostOne
  · rw [hcount, hflag]
    exact h.set
  · rw [hcount, hflag]
    exact fun hset => (h.onlyFor hset).imp_right hquit

/-- An invocation that holds the flag is the frame on its way. -/
theorem Gated.held (h : s.Gated) (hi : s.received[i]? = some call) (hholds : call.holds = true) :
    s.inFlight = 1 := by
  have hpos : 0 < s.received.countP OnFrame.holds :=
    List.countP_pos_iff.mpr ⟨call, List.mem_of_getElem? hi, hholds⟩
  have hle := h.atMostOne
  unfold inFlight at hle ⊢
  omega

theorem gated_onFrameStep (h : s.Gated) (hi : s.received[i]? = some call) :
    (s.onFrameStep i call ok).Gated := by
  obtain ⟨frame, stage, closed⟩ := call
  have hmove : ∀ {t : FramePreview} {call' : OnFrame}, t.received = s.received.set i call' →
      t.posted = s.posted → t.rendering = s.rendering →
      t.isProcessingFrame = s.isProcessingFrame → t.hasQuit = s.hasQuit →
      call'.holds = OnFrame.holds ⟨frame, stage, closed⟩ → t.Gated := by
    intro t call' hreceived hposted hrendering hflag hquit hholds
    have hcount := inFlight_set hi (n := 0) hreceived (by rw [hposted]; rfl) hrendering
    rw [hholds] at hcount
    exact h.congr (by omega) hflag fun hq => hquit.trans hq
  cases stage with
  | compareAndSet =>
      unfold onFrameStep
      dsimp only
      split_ifs with hflag
      · exact hmove rfl rfl rfl rfl rfl rfl
      · have hcount := inFlight_set (t := { s with isProcessingFrame := true }.goto i
          ⟨frame, .compareAndSet, closed⟩ .read) hi (n := 0) rfl rfl rfl
        have hnone : s.inFlight ≠ 1 := fun hone => hflag (h.set hone)
        have hle := h.atMostOne
        have hone : ({ s with isProcessingFrame := true }.goto i
            ⟨frame, .compareAndSet, closed⟩ .read).inFlight = 1 := by
          simp only [OnFrame.holds, Bool.toNat_false, Bool.toNat_true] at hcount
          omega
        exact ⟨Nat.le_of_eq hone, fun _ => rfl, fun _ => .inl hone⟩
  | read =>
      unfold onFrameStep
      dsimp only
      split
      · split_ifs <;> exact hmove rfl rfl rfl rfl rfl rfl
      · exact hmove rfl rfl rfl rfl rfl rfl
  | close data =>
      unfold onFrameStep
      dsimp only
      split_ifs <;> exact hmove rfl rfl rfl rfl rfl rfl
  | post data =>
      have hheld := h.held hi rfl
      unfold onFrameStep
      dsimp only
      split_ifs with hquit
      · -- the looper is gone: the frame is lost and the flag stays set
        have hcount := inFlight_set (t := s.goto i ⟨frame, .post data, closed⟩ .returned) hi
          (n := 0) rfl rfl rfl
        have hnone : (s.goto i ⟨frame, .post data, closed⟩ .returned).inFlight = 0 := by
          simp only [OnFrame.holds, Bool.toNat_false, Bool.toNat_true] at hcount
          omega
        exact ⟨by omega, fun hone => by omega, fun _ => .inr hquit⟩
      · have hcount := inFlight_set (t := { s with posted := s.posted ++
          [{ frame with data := data }] }.goto i ⟨frame, .post data, closed⟩ .returned) hi (n := 1)
          rfl List.length_append rfl
        refine h.congr ?_ rfl id
        simp only [OnFrame.holds, Bool.toNat_false, Bool.toNat_true] at hcount
        omega
  | closeFailed => exact hmove rfl rfl rfl rfl rfl rfl
  | resetFlag =>
      have hheld := h.held hi rfl
      have hcount := inFlight_set (t := { s with isProcessingFrame := false }.goto i
        ⟨frame, .resetFlag, closed⟩ .returned) hi (n := 0) rfl rfl rfl
      have hnone : ({ s with isProcessingFrame := false }.goto i
          ⟨frame, .resetFlag, closed⟩ .returned).inFlight = 0 := by
        simp only [OnFrame.holds, Bool.toNat_false, Bool.toNat_true] at hcount
        omega
      exact ⟨hnone ▸ Nat.zero_le 1, fun hone => absurd (hnone.symm.trans hone) Nat.zero_ne_one,
        nofun⟩
  | closeDropped => exact hmove rfl rfl rfl rfl rfl rfl
  | returned => exact h

theorem renderStep_keeps {r : Rendering} (hstage : r.stage ≠ .finish) :
    (s.renderStep r ok).received = s.received ∧ (s.renderStep r ok).posted = s.posted ∧
      (s.renderStep r ok).isProcessingFrame = s.isProcessingFrame ∧
      (s.renderStep r ok).hasQuit = s.hasQuit ∧
      ∃ stage, (s.renderStep r ok).rendering = some ⟨r.frame, stage⟩ := by
  obtain ⟨frame, stage⟩ := r
  unfold renderStep
  cases stage with
  | finish => exact absurd rfl hstage
  | choose => dsimp only; split <;> exact ⟨rfl, rfl, rfl, rfl, _, rfl⟩
  | publish bitmap => exact ⟨rfl, rfl, rfl, rfl, _, rfl⟩
  | _ => dsimp only; split_ifs <;> exact ⟨rfl, rfl, rfl, rfl, _, rfl⟩

theorem gated_backgroundStep (h : s.Gated) : (s.backgroundStep ok).Gated := by
  unfold backgroundStep
  split
  · next _ r hr =>
      by_cases hstage : r.stage = .finish
      · have hnone : (s.renderStep r ok).inFlight = 0 := by
          have hle := h.atMostOne
          simp only [inFlight, hr, Option.toList_some, List.length_singleton] at hle
          simp only [inFlight, renderStep, hstage, Option.toList_none, List.length_nil]
          omega
        refine ⟨hnone ▸ Nat.zero_le 1,
          fun hone => absurd (hnone.symm.trans hone) Nat.zero_ne_one, ?_⟩
        intro hflag
        simp only [renderStep, hstage] at hflag
        cases hflag
      · obtain ⟨hreceived, hposted, hflag, hquit, stage, hrendering⟩ :=
          @renderStep_keeps s ok r hstage
        refine h.congr ?_ hflag fun hq => hquit.trans hq
        simp only [inFlight, hreceived, hposted, hrendering, hr, Option.toList_some,
          List.length_singleton]
  · next frame rest hr hposted =>
      refine h.congr ?_ rfl id
      simp only [inFlight, goOn, hr, hposted, Option.toList_some, Option.toList_none,
        List.length_cons, List.length_nil]
      omega
  · exact h

theorem gated_step {l : PreviewLabel} (h : s.Gated) (hstep : previewStep s l t) : t.Gated := by
  unfold previewStep at hstep
  cases l with
  | onFrame frame =>
      obtain rfl := Option.some.inj hstep
      refine h.congr ?_ rfl id
      simp only [inFlight, List.countP_append]
      rfl
  | binder i ok =>
      obtain ⟨call, hi, rfl⟩ := Option.map_eq_some_iff.mp hstep
      exact gated_onFrameStep h hi
  | background ok =>
      obtain rfl := Option.some.inj hstep
      exact gated_backgroundStep h
  | ui =>
      obtain ⟨task, -, rfl⟩ := Option.map_eq_some_iff.mp hstep
      exact h.congr rfl rfl id
  | onDestroy =>
      obtain rfl := Option.some.inj hstep
      exact h.congr rfl rfl fun _ => rfl

theorem gated_initial : initial.Gated := ⟨Nat.zero_le 1, nofun, nofun⟩

theorem tidy_set (h : s.Tidy) {call' : OnFrame} (hreceived : t.received = s.received.set i call')
    (hcall : call'.Tidy) : t.Tidy := by
  intro c hc
  rw [hreceived] at hc
  rcases List.mem_or_eq_of_mem_set hc with hc | rfl
  · exact h c hc
  · exact hcall

theorem tidy_onFrameStep (h : s.Tidy) (hi : s.received[i]? = some call) :
    (s.onFrameStep i call ok).Tidy := by
  have hcall : call.Tidy := h call (List.mem_of_getElem? hi)
  obtain ⟨frame, stage, closed⟩ := call
  unfold onFrameStep
  cases stage with
  | compareAndSet => dsimp only; split_ifs <;> exact tidy_set h rfl trivial
  | read =>
      dsimp only
      split
      · split_ifs <;> exact tidy_set h rfl trivial
      · exact tidy_set h rfl trivial
  | close data =>
      dsimp only
      split_ifs
      · exact tidy_set h rfl rfl
      · exact tidy_set h rfl trivial
  | post data => dsimp only; split_ifs <;> exact tidy_set h rfl hcall
  | closeFailed => exact tidy_set h rfl rfl
  | resetFlag => exact tidy_set h rfl hcall
  | closeDropped => exact tidy_set h rfl rfl
  | returned => exact h

theorem received_backgroundStep : (s.backgroundStep ok).received = s.received := by
  unfold backgroundStep
  split
  · next _ r _ =>
      by_cases hstage : r.stage = .finish
      · simp only [renderStep, hstage]
      · exact (renderStep_keeps hstage).1
  · rfl
  · rfl

theorem hasQuit_onFrameStep : (s.onFrameStep i call ok).hasQuit = s.hasQuit := by
  unfold onFrameStep
  cases call.stage with
  | read =>
      dsimp only
      split
      · split_ifs <;> rfl
      · rfl
  | compareAndSet | close _ | post _ =>
      dsimp only
      split_ifs <;> rfl
  | _ => rfl

theorem hasQuit_backgroundStep : (s.backgroundStep ok).hasQuit = s.hasQuit := by
  unfold backgroundStep
  split
  · next _ r _ =>
      by_cases hstage : r.stage = .finish
      · simp only [renderStep, hstage]
      · exact (renderStep_keeps hstage).2.2.2.1
  · rfl
  · rfl

theorem tidy_step {l : PreviewLabel} (h : s.Tidy) (hstep : previewStep s l t) : t.Tidy := by
  unfold previewStep at hstep
  cases l with
  | onFrame frame =>
      obtain rfl := Option.some.inj hstep
      intro c hc
      rcases List.mem_append.mp hc with hc | hc
      · exact h c hc
      · obtain rfl := List.mem_singleton.mp hc
        trivial
  | binder i ok =>
      obtain ⟨call, hi, rfl⟩ := Option.map_eq_some_iff.mp hstep
      exact tidy_onFrameStep h hi
  | background ok =>
      obtain rfl := Option.some.inj hstep
      intro c hc
      rw [received_backgroundStep] at hc
      exact h c hc
  | ui =>
      obtain ⟨task, -, rfl⟩ := Option.map_eq_some_iff.mp hstep
      exact h
  | onDestroy =>
      obtain rfl := Option.some.inj hstep
      exact h

/-- In every interleaving of the binder threads, the looper and the UI thread, one frame at
most is on its way, the flag is set for it and for no other as long as the looper lives, and
every invocation of `onFrame` that has returned has closed its descriptor. -/
theorem one_frame_at_a_time {ls : List PreviewLabel} (h : Runs previewStep initial ls s) :
    s.inFlight ≤ 1 ∧ (s.hasQuit = false → (s.isProcessingFrame = true ↔ s.inFlight = 1)) ∧
      ∀ call ∈ s.received, call.stage = .returned → call.closed = true := by
  have hgated : s.Gated := h.invariant (fun s l t hs hstep => gated_step hs hstep) gated_initial
  have htidy : s.Tidy := h.invariant (fun s l t hs hstep => tidy_step hs hstep) nofun
  refine ⟨hgated.atMostOne, fun hquit => ⟨fun hflag => ?_, hgated.set⟩,
    fun call hcall hreturned => ?_⟩
  · refine (hgated.onlyFor hflag).resolve_right ?_
    rw [hquit]
    exact Bool.false_ne_true
  · have hclosed := htidy call hcall
    unfold OnFrame.Tidy at hclosed
    rw [hreturned] at hclosed
    exact hclosed

/-- A second frame comes in while the first one is read. -/
def overtaken : List PreviewLabel :=
  [.onFrame ⟨[1, 2, 3, 4, 5, 6], 2, 2, 90⟩, .binder 0 true,
    .onFrame ⟨[6, 5, 4, 3, 2, 1], 2, 2, 90⟩, .binder 1 true, .binder 1 true, .binder 0 true,
    .binder 0 true, .binder 0 true, .background true]

/-- The first frame is rendered and the second one is gone. -/
theorem one_frame_at_a_time_overtaken : ∃ s, Runs previewStep initial overtaken s ∧
    s.isProcessingFrame = true ∧ s.inFlight = 1 := by
  have hrun : Runs previewStep initial overtaken _ := .cons rfl (.cons rfl (.cons rfl (.cons rfl
    (.cons rfl (.cons rfl (.cons rfl (.cons rfl (.cons rfl (.nil _)))))))))
  exact ⟨_, hrun, rfl, ((one_frame_at_a_time hrun).2.1 rfl).mp rfl⟩

theorem sum_map_set {α : Type} (g : α → ℕ) {l : List α} {a : α} {i : ℕ} (hi : l[i]? = some a)
    (b : α) : ((l.set i b).map g).sum + g a = (l.map g).sum + g b := by
  induction l generalizing i with
  | nil => cases hi
  | cons x l ih =>
      cases i with
      | zero =>
          obtain rfl : x = a := Option.some.inj hi
          simp only [List.set_cons_zero, List.map_cons, List.sum_cons]
          omega
      | succ i =>
          have hrest := ih (i := i) hi
          simp only [List.set_cons_succ, List.map_cons, List.sum_cons]
          omega

def stepsLeft (s : FramePreview) : ℕ :=
  (s.received.map OnFrame.stepsLeft).sum + 7 * s.posted.length +
    (s.rendering.toList.map fun r => r.stage.stepsLeft).sum

theorem stepsLeft_le (s : FramePreview) : s.stepsLeft ≤ 10 * s.inFlight := by
  have hcalls : ∀ l : List OnFrame, (l.map OnFrame.stepsLeft).sum ≤ 10 * l.countP OnFrame.holds := by
    intro l
    induction l with
    | nil => exact Nat.le_refl 0
    | cons call l ih =>
        rw [List.map_cons, List.sum_cons, List.countP_cons]
        have hcall : call.stepsLeft ≤ 10 * if call.holds = true then 1 else 0 := by
          unfold OnFrame.stepsLeft OnFrame.holds
          split <;> simp
        omega
  have hrendering : (s.rendering.toList.map fun r => r.stage.stepsLeft).sum ≤
      10 * s.rendering.toList.length := by
    cases s.rendering with
    | none => exact Nat.le_refl 0
    | some r =>
        simp only [Option.toList_some, List.map_cons, List.map_nil, List.sum_singleton,
          List.length_singleton]
        cases r.stage <;> simp [RenderStage.stepsLeft]
  have := hcalls s.received
  unfold stepsLeft inFlight
  omega

theorem stepsLeft_set (hi : s.received[i]? = some call) {call' : OnFrame} {n : ℕ}
    (hreceived : t.received = s.received.set i call')
    (hposted : t.posted.length = s.posted.length + n) (hrendering : t.rendering = s.rendering) :
    t.stepsLeft + call.stepsLeft = s.stepsLeft + 7 * n + call'.stepsLeft := by
  have hsum := sum_map_set OnFrame.stepsLeft hi call'
  unfold stepsLeft
  rw [hreceived, hposted, hrendering]
  omega

theorem stepsLeft_onFrameStep (hi : s.received[i]? = some call) (hholds : call.holds = true)
    (hquit : s.hasQuit = false) : (s.onFrameStep i call ok).stepsLeft < s.stepsLeft := by
  obtain ⟨frame, stage, closed⟩ := call
  have hmove : ∀ {t : FramePreview} {call' : OnFrame}, t.received = s.received.set i call' →
      t.posted = s.posted → t.rendering = s.rendering →
      call'.stepsLeft < OnFrame.stepsLeft ⟨frame, stage, closed⟩ → t.stepsLeft < s.stepsLeft := by
    intro t call' hreceived hposted hrendering hless
    have hsum := stepsLeft_set hi (n := 0) hreceived (by rw [hposted]; rfl) hrendering
    omega
  unfold onFrameStep
  cases stage with
  | compareAndSet | closeDropped | returned => cases hholds
  | read =>
      dsimp only
      split
      · split_ifs
        · exact hmove rfl rfl rfl (Nat.lt_succ_self 9)
        · exact hmove rfl rfl rfl (show 2 < 10 by decide)
      · exact hmove rfl rfl rfl (show 2 < 10 by decide)
  | close data =>
      dsimp only
      split_ifs
      · exact hmove rfl rfl rfl (Nat.lt_succ_self 8)
      · exact hmove rfl rfl rfl (show 2 < 9 by decide)
  | post data =>
      have hlive : ¬ s.hasQuit = true := by
        rw [hquit]
        exact Bool.false_ne_true
      dsimp only
      rw [if_neg hlive]
      have hsum := stepsLeft_set (t := { s with posted := s.posted ++
        [{ frame with data := data }] }.goto i ⟨frame, .post data, closed⟩ .returned) hi (n := 1)
        rfl List.length_append rfl
      simp only [OnFrame.stepsLeft] at hsum
      omega
  | closeFailed => exact hmove rfl rfl rfl (Nat.lt_succ_self 1)
  | resetFlag => exact hmove rfl rfl rfl Nat.zero_lt_one

theorem stepsLeft_renderStep {r : Rendering} (hr : s.rendering = some r) :
    (s.renderStep r ok).stepsLeft < s.stepsLeft := by
  obtain ⟨frame, stage⟩ := r
  have hmove : ∀ {t : FramePreview} {stage' : RenderStage}, t.received = s.received →
      t.posted = s.posted → t.rendering = some ⟨frame, stage'⟩ →
      stage'.stepsLeft < stage.stepsLeft → t.stepsLeft < s.stepsLeft := by
    intro t stage' hreceived hposted hrendering hless
    simp only [stepsLeft, hreceived, hposted, hrendering, hr, Option.toList_some, List.map_cons,
      List.map_nil, List.sum_singleton]
    omega
  unfold renderStep
  cases stage with
  | allocateFirst =>
      dsimp only
      split_ifs
      · exact hmove rfl rfl rfl (Nat.lt_succ_self 5)
      · exact hmove rfl rfl rfl (Nat.lt_succ_self 5)
      · exact hmove rfl rfl rfl (show 1 < 6 by decide)
  | allocateSecond =>
      dsimp only
      split_ifs
      · exact hmove rfl rfl rfl (Nat.lt_succ_self 4)
      · exact hmove rfl rfl rfl (Nat.lt_succ_self 4)
      · exact hmove rfl rfl rfl (show 1 < 5 by decide)
  | choose =>
      dsimp only
      split
      · exact hmove rfl rfl rfl (show 1 < 4 by decide)
      · exact hmove rfl rfl rfl (Nat.lt_succ_self 3)
  | convert bitmap =>
      dsimp only
      split_ifs
      · exact hmove rfl rfl rfl (Nat.lt_succ_self 2)
      · exact hmove rfl rfl rfl (show 1 < 3 by decide)
  | publish bitmap => exact hmove rfl rfl rfl (Nat.lt_succ_self 1)
  | finish =>
      simp only [stepsLeft, hr, Option.toList_some, Option.toList_none, List.map_cons,
        List.map_nil, List.sum_singleton, List.sum_nil, RenderStage.stepsLeft]
      omega

/-- A step of the thread that has the frame. -/
inductive HolderLabel (ok : Bool) : PreviewLabel → Prop
  | binder (i : ℕ) : HolderLabel ok (.binder i ok)
  | background : HolderLabel ok (.background ok)

/-- While the flag is set and the looper lives, some thread has the frame, and its next step
brings the reset nearer whether it throws or not. -/
theorem exists_holderStep (h : s.Gated) (hflag : s.isProcessingFrame = true)
    (hquit : s.hasQuit = false) (ok : Bool) : ∃ l t, HolderLabel ok l ∧ previewStep s l t ∧
      t.hasQuit = false ∧ t.stepsLeft < s.stepsLeft := by
  have hone : s.inFlight = 1 := by
    refine (h.onlyFor hflag).resolve_right ?_
    rw [hquit]
    exact Bool.false_ne_true
  by_cases hheld : ∃ call ∈ s.received, call.holds = true
  · obtain ⟨call, hcall, hholds⟩ := hheld
    obtain ⟨i, hlen, rfl⟩ := List.getElem_of_mem hcall
    have hi : s.received[i]? = some s.received[i] := List.getElem?_eq_getElem hlen
    refine ⟨.binder i ok, s.onFrameStep i s.received[i] ok, .binder i, ?_, ?_,
      stepsLeft_onFrameStep hi hholds hquit⟩
    · exact Option.map_eq_some_iff.mpr ⟨_, hi, rfl⟩
    · rw [hasQuit_onFrameStep]
      exact hquit
  refine ⟨.background ok, _, .background, rfl, ?_, ?_⟩
  · rw [hasQuit_backgroundStep]
    exact hquit
  have hnone : s.received.countP OnFrame.holds = 0 := by
    rw [List.countP_eq_zero]
    intro call hcall hholds
    exact hheld ⟨call, hcall, hholds⟩
  unfold backgroundStep
  split
  · next _ r hr => exact stepsLeft_renderStep hr
  · next frame rest hr hposted =>
      simp only [stepsLeft, goOn, hr, hposted, Option.toList_some, Option.toList_none,
        List.map_cons, List.map_nil, List.sum_singleton, List.sum_nil, List.length_cons,
        RenderStage.stepsLeft]
      omega
  · next hr hposted =>
      unfold inFlight at hone
      rw [hnone, hr, hposted] at hone
      cases hone

/-- Until the screen is destroyed no `Exception` leaves the flag stuck: whichever of its steps throw
one, the thread that has the frame resets the flag after ten steps at most. -/
theorem flag_given_back {ls : List PreviewLabel} (h : Runs previewStep initial ls s)
    (hquit : s.hasQuit = false) (oks : ℕ → Bool) : ∃ ms t, Runs previewStep s ms t ∧
      t.isProcessingFrame = false ∧ ms.length ≤ 10 ∧
      ∀ k l, ms[k]? = some l → HolderLabel (oks k) l := by
  have hgated : s.Gated := h.invariant (fun s l t hs hstep => gated_step hs hstep) gated_initial
  have hbound : s.stepsLeft ≤ 10 := by
    have hle := s.stepsLeft_le
    have hone := hgated.atMostOne
    omega
  suffices hrun : ∀ n (s : FramePreview), s.stepsLeft = n → s.Gated → s.hasQuit = false →
      ∀ oks : ℕ → Bool, ∃ ms t, Runs previewStep s ms t ∧ t.isProcessingFrame = false ∧
        ms.length ≤ n ∧ ∀ k l, ms[k]? = some l → HolderLabel (oks k) l by
    obtain ⟨ms, t, hms, hflag, hlen, hlabels⟩ := hrun _ s rfl hgated hquit oks
    exact ⟨ms, t, hms, hflag, Nat.le_trans hlen hbound, hlabels⟩
  intro n
  induction n using Nat.strongRecOn with
  | _ n ih =>
      intro s hn hgated hquit oks
      cases hflag : s.isProcessingFrame with
      | false => exact ⟨[], s, .nil s, hflag, Nat.zero_le n, fun k l hk => by cases hk⟩
      | true =>
          obtain ⟨l, t, hl, hstep, hquit', hless⟩ := exists_holderStep hgated hflag hquit (oks 0)
          obtain ⟨ms, u, hms, hdone, hlen, hlabels⟩ := ih t.stepsLeft (hn ▸ hless) t rfl
            (gated_step hgated hstep) hquit' fun k => oks (k + 1)
          refine ⟨l :: ms, u, .cons hstep hms, hdone, ?_, ?_⟩
          · rw [List.length_cons]
            omega
          · intro k l' hk
            cases k with
            | zero =>
                obtain rfl := Option.some.inj hk
                exact hl
            | succ k => exact hlabels k l' hk

/-- The first frame can still not be drawn, and the next one may come. -/
theorem flag_given_back_overtaken : ∃ s ms t, Runs previewStep initial overtaken s ∧
    Runs previewStep s ms t ∧ t.isProcessingFrame = false ∧
    ∀ (k : ℕ) l, ms[k]? = some l → HolderLabel false l := by
  have hrun : Runs previewStep initial overtaken _ := .cons rfl (.cons rfl (.cons rfl (.cons rfl
    (.cons rfl (.cons rfl (.cons rfl (.cons rfl (.cons rfl (.nil _)))))))))
  obtain ⟨ms, t, hms, hflag, -, hlabels⟩ := flag_given_back hrun rfl fun _ => false
  exact ⟨_, ms, t, hrun, hms, hflag, hlabels⟩

end steps
end FramePreview
end FaceHal
