import FaceHal.DoubleBuffer
import FaceHal.Nv21Packing
import Mathlib.Data.List.Nodup

/-!
# What the preview shows

A history of the frames beside a run: who claimed the flag, what was posted to the looper and
handed on to the UI thread, and what the bitmaps hold. The frames that are handed on are the
bytes that were read, in the order of the claims, and none twice. Once the UI thread has
caught up, the screen shows the last of them with its own angle, and whole unless its bitmap
was recycled, which takes a frame of another size: the looper then recycles its bitmaps before it
makes new ones, and the screen goes on drawing a bitmap without pixels until the next call.
-/
namespace FaceHal

structure Screen where
  claimed : List ℕ
  /-- What was posted, by which invocation. -/
  accepted : List (ℕ × VisionFrame)
  published : List VisionFrame
  /-- The frame in each bitmap, `none` while it is written, after a failure and once it is
  recycled. -/
  contents : ℕ → Option VisionFrame

namespace Screen
open FramePreview

def blank : Screen := ⟨[], [], [], fun _ => none⟩

def write (x : Screen) (bitmap : Bitmap) (frame : Option VisionFrame) : Screen :=
  { x with contents := Function.update x.contents bitmap.number frame }

def erase (x : Screen) (bitmap : Option Bitmap) : Screen :=
  { x with contents := fun n => if bitmap.map Bitmap.number = some n then none else x.contents n }

def binder (x : Screen) (s : FramePreview) (i : ℕ) (call : OnFrame) : Screen :=
  match call.stage with
  | .compareAndSet => if s.isProcessingFrame then x else { x with claimed := x.claimed ++ [i] }
  | .post data =>
      if s.hasQuit then x
      else { x with accepted := x.accepted ++ [(i, { call.frame with data := data })] }
  | _ => x

def background (x : Screen) (s t : FramePreview) : Screen :=
  match s.rendering with
  | some ⟨frame, .allocateFirst⟩ =>
      if fits s.reusableBitmap1 frame then x else x.erase s.reusableBitmap1
  | some ⟨frame, .allocateSecond⟩ =>
      if fits s.reusableBitmap2 frame then x else x.erase s.reusableBitmap2
  | some ⟨_, .choose⟩ => if s.hasConverter then x.erase s.spare else x
  | some ⟨frame, .convert bitmap⟩ =>
      if s.hasConverter ∧ t.publishing = [bitmap] ∧ bitmap.number ∉ s.recycled then
        x.write bitmap (some frame)
      else x
  | some ⟨frame, .publish _⟩ => { x with published := x.published ++ [frame] }
  | _ => x

/-- What a step adds to the history. -/
def record (s : FramePreview) (l : PreviewLabel) (t : FramePreview) (x : Screen) : Screen :=
  match l with
  | .binder i _ => (s.received[i]?).elim x fun call => x.binder s i call
  | .background _ => x.background s t
  | .onDestroy => (x.erase s.reusableBitmap1).erase s.reusableBitmap2
  | _ => x

end Screen

namespace FramePreview

/-- The frame that the looper has and has not handed on or given up. -/
def underway (s : FramePreview) : List VisionFrame :=
  match s.rendering with
  | some ⟨_, .finish⟩ => []
  | some ⟨frame, _⟩ => [frame]
  | none => []

/-- The bytes that an invocation carries to its end. -/
def carried : OnFrameStage → Option (List UInt8)
  | .close data | .post data => some data
  | _ => none

/-- The frame was read by this invocation, which is over. -/
def ReadBy (s : FramePreview) (i : ℕ) (frame : VisionFrame) : Prop :=
  ∃ call, s.received[i]? = some call ∧ call.stage = .returned ∧
    readFrame call.frame = some frame.data ∧ frame = { call.frame with data := frame.data }

structure Ordered (s : FramePreview) (x : Screen) : Prop where
  read : ∀ call ∈ s.received, carried call.stage = none ∨
    readFrame call.frame = carried call.stage
  accepted : ∀ p ∈ x.accepted, s.ReadBy p.1 p.2
  nodup : (x.accepted.map Prod.fst).Nodup
  claimed : (x.accepted.map Prod.fst).Sublist x.claimed
  /-- Who has the flag claimed it last, and nothing came of that yet. -/
  holder : ∀ i call, s.received[i]? = some call → call.holds = true →
    ∃ earlier, x.claimed = earlier ++ [i] ∧ (x.accepted.map Prod.fst).Sublist earlier
  inOrder : (x.published ++ s.underway ++ s.posted).Sublist (x.accepted.map Prod.snd)

section order
variable {s t : FramePreview} {x : Screen} {i : ℕ} {call call' : OnFrame} {ok : Bool}

theorem ReadBy.set {frame : VisionFrame} {j : ℕ} (h : s.ReadBy j frame)
    (hi : s.received[i]? = some call) (hstage : call.stage ≠ .returned)
    (hreceived : t.received = s.received.set i call') : t.ReadBy j frame := by
  obtain ⟨owner, howner, hreturned, hread⟩ := h
  refine ⟨owner, ?_, hreturned, hread⟩
  have hne : i ≠ j := by
    rintro rfl
    obtain rfl := Option.some.inj (hi.symm.trans howner)
    exact hstage hreturned
  rw [hreceived, List.getElem?_set_ne hne]
  exact howner

theorem read_set (h : s.Ordered x) (hreceived : t.received = s.received.set i call')
    (hread : carried call'.stage = none ∨ readFrame call'.frame = carried call'.stage) :
    ∀ c ∈ t.received, carried c.stage = none ∨ readFrame c.frame = carried c.stage := by
  intro c hc
  rw [hreceived] at hc
  rcases List.mem_or_eq_of_mem_set hc with hc | rfl
  · exact h.read c hc
  · exact hread

/-- An invocation that neither claims the flag nor posts a frame. -/
theorem Ordered.move (h : s.Ordered x) (hi : s.received[i]? = some call)
    (hstage : call.stage ≠ .returned) (hreceived : t.received = s.received.set i call')
    (hposted : t.posted = s.posted) (hrendering : t.rendering = s.rendering)
    (hholds : call'.holds = true → call.holds = true)
    (hread : carried call'.stage = none ∨ readFrame call'.frame = carried call'.stage) :
    t.Ordered x := by
  refine ⟨read_set h hreceived hread, fun p hp => (h.accepted p hp).set hi hstage hreceived,
    h.nodup, h.claimed, ?_, ?_⟩
  · intro j c hj hc
    rw [hreceived] at hj
    by_cases hij : i = j
    · subst hij
      rw [List.getElem?_set_self (List.getElem?_eq_some_iff.mp hi).1] at hj
      obtain rfl := Option.some.inj hj
      exact h.holder i call hi (hholds hc)
    · rw [List.getElem?_set_ne hij] at hj
      exact h.holder j c hj hc
  · unfold underway
    rw [hposted, hrendering]
    exact h.inOrder

theorem Gated.no_holder (h : s.Gated) (helsewhere : s.isProcessingFrame = false ∨ s.posted ≠ []) :
    ∀ (i : ℕ) (call : OnFrame), s.received[i]? = some call → call.holds = false := by
  intro i call hi
  cases hholds : call.holds with
  | false => rfl
  | true =>
      have hone := h.held hi hholds
      have hpos : 0 < s.received.countP OnFrame.holds :=
        List.countP_pos_iff.mpr ⟨call, List.mem_of_getElem? hi, hholds⟩
      rcases helsewhere with hflag | hposted
      · exact absurd (hflag.symm.trans (h.set hone)) Bool.false_ne_true
      · have hlen := List.length_pos_of_ne_nil hposted
        unfold inFlight at hone
        omega

theorem ordered_onFrameStep (h : s.Ordered x) (hgated : s.Gated)
    (hi : s.received[i]? = some call) : (s.onFrameStep i call ok).Ordered (x.binder s i call) := by
  have hgated' : (s.onFrameStep i call ok).Gated := gated_onFrameStep hgated hi
  have hlen := (List.getElem?_eq_some_iff.mp hi).1
  have hread := h.read call (List.mem_of_getElem? hi)
  obtain ⟨frame, stage, closed⟩ := call
  unfold onFrameStep Screen.binder at *
  cases stage with
  | compareAndSet =>
      dsimp only at hgated' ⊢
      split_ifs with hflag
      · exact h.move hi (by rintro ⟨⟩) rfl rfl rfl id (.inl rfl)
      · have hnobody := hgated.no_holder (.inl (Bool.eq_false_iff.mpr hflag))
        refine ⟨read_set h rfl (.inl rfl), fun p hp => (h.accepted p hp).set hi (by rintro ⟨⟩) rfl,
          h.nodup, h.claimed.trans (List.sublist_append_left _ _), ?_, h.inOrder⟩
        intro j c hj hc
        by_cases hij : i = j
        · subst hij
          exact ⟨x.claimed, rfl, h.claimed⟩
        · refine absurd hc ?_
          rw [hnobody j c ((List.getElem?_set_ne hij).symm.trans hj)]
          exact Bool.false_ne_true
  | read =>
      dsimp only at hgated' ⊢
      split
      · next data hdata =>
          split_ifs
          · exact h.move hi (by rintro ⟨⟩) rfl rfl rfl id (.inr hdata)
          · exact h.move hi (by rintro ⟨⟩) rfl rfl rfl id (.inl rfl)
      · exact h.move hi (by rintro ⟨⟩) rfl rfl rfl id (.inl rfl)
  | close data =>
      dsimp only at hgated' ⊢
      split_ifs
      · exact h.move hi (by rintro ⟨⟩) rfl rfl rfl id hread
      · exact h.move hi (by rintro ⟨⟩) rfl rfl rfl id (.inl rfl)
  | post data =>
      dsimp only at hgated' ⊢
      split_ifs at hgated' ⊢ with hquit
      · exact h.move hi (by rintro ⟨⟩) rfl rfl rfl (fun _ => rfl) (.inl rfl)
      · -- the frame is the last one claimed, and nobody holds the flag from here on
        obtain ⟨earlier, hclaimed, hearlier⟩ := h.holder i _ hi rfl
        have hposted : s.posted ++ [{ frame with data := data }] ≠ [] :=
          List.append_ne_nil_of_right_ne_nil _ (List.cons_ne_nil _ _)
        have hnobody := hgated'.no_holder (.inr hposted)
        have hfresh : i ∉ x.accepted.map Prod.fst := by
          intro hmem
          obtain ⟨p, hp, rfl⟩ := List.mem_map.mp hmem
          obtain ⟨owner, howner, hreturned, -⟩ := h.accepted p hp
          obtain rfl := Option.some.inj (hi.symm.trans howner)
          cases hreturned
        refine ⟨read_set h rfl (.inl rfl), ?_, ?_, ?_, ?_, ?_⟩
        · intro p hp
          rcases List.mem_append.mp hp with hp | hp
          · exact (h.accepted p hp).set hi (by rintro ⟨⟩) rfl
          · obtain rfl := List.mem_singleton.mp hp
            refine ⟨_, List.getElem?_set_self hlen, rfl, ?_, rfl⟩
            exact hread.resolve_left (by rintro ⟨⟩)
        · rw [List.map_append, List.nodup_append_comm]
          exact List.nodup_cons.mpr ⟨hfresh, h.nodup⟩
        · rw [List.map_append]
          change List.Sublist (_ ++ [i]) x.claimed
          rw [hclaimed]
          exact hearlier.append_right [i]
        · intro j c hj hc
          rw [hnobody j c hj] at hc
          cases hc
        · rw [List.map_append]
          change List.Sublist (x.published ++ s.underway ++ (s.posted ++ _)) _
          rw [← List.append_assoc]
          exact h.inOrder.append_right _
  | closeFailed => exact h.move hi (by rintro ⟨⟩) rfl rfl rfl id (.inl rfl)
  | resetFlag => exact h.move hi (by rintro ⟨⟩) rfl rfl rfl (fun _ => rfl) (.inl rfl)
  | closeDropped => exact h.move hi (by rintro ⟨⟩) rfl rfl rfl id (.inl rfl)
  | returned => exact h

theorem ReadBy.congr {frame : VisionFrame} {j : ℕ} (h : s.ReadBy j frame)
    (hreceived : t.received = s.received) : t.ReadBy j frame := by
  unfold ReadBy
  rw [hreceived]
  exact h

theorem Ordered.elsewhere (h : s.Ordered x) {y : Screen} (hreceived : t.received = s.received)
    (hclaimed : y.claimed = x.claimed) (haccepted : y.accepted = x.accepted)
    (hframes : (y.published ++ t.underway ++ t.posted).Sublist
      (x.published ++ s.underway ++ s.posted)) : t.Ordered y := by
  refine ⟨hreceived ▸ h.read, ?_, haccepted ▸ h.nodup, ?_, ?_, ?_⟩
  · intro p hp
    rw [haccepted] at hp
    exact (h.accepted p hp).congr hreceived
  · rw [haccepted, hclaimed]
    exact h.claimed
  · rw [hreceived, haccepted, hclaimed]
    exact h.holder
  · rw [haccepted]
    exact hframes.trans h.inOrder

theorem underway_goOn (s : FramePreview) (frame : VisionFrame) (stage : RenderStage) :
    (s.goOn frame stage).underway.Sublist [frame] := by
  cases stage with
  | finish => exact List.nil_sublist _
  | _ => exact List.Sublist.refl _

theorem ordered_renderStep (h : s.Ordered x) {r : Rendering} (hr : s.rendering = some r) :
    (s.renderStep r ok).Ordered (x.background s (s.renderStep r ok)) := by
  obtain ⟨frame, stage⟩ := r
  have hgoOn : ∀ {u : FramePreview} {y : Screen} {stage' : RenderStage}, s.underway = [frame] →
      u.received = s.received → u.posted = s.posted → y.claimed = x.claimed →
      y.accepted = x.accepted → y.published = x.published → (u.goOn frame stage').Ordered y := by
    intro u y stage' hunderway hreceived hposted hclaimed haccepted hpublished
    refine h.elsewhere hreceived hclaimed haccepted ?_
    rw [hunderway, hpublished]
    change List.Sublist (_ ++ _ ++ u.posted) _
    rw [hposted]
    exact ((underway_goOn u frame stage').append_left _).append_right _
  unfold renderStep Screen.background
  rw [hr]
  cases stage with
  | allocateFirst =>
      have hunderway : s.underway = [frame] := by
        rw [underway, hr]
      dsimp only
      split_ifs <;> exact hgoOn hunderway rfl rfl rfl rfl rfl
  | allocateSecond =>
      have hunderway : s.underway = [frame] := by
        rw [underway, hr]
      dsimp only
      split_ifs <;> exact hgoOn hunderway rfl rfl rfl rfl rfl
  | choose =>
      have hunderway : s.underway = [frame] := by
        rw [underway, hr]
      change (s.renderStep ⟨frame, .choose⟩ ok).Ordered (if s.hasConverter then _ else x)
      rw [renderStep_choose]
      cases s.spare with
      | none => split_ifs <;> exact hgoOn hunderway rfl rfl rfl rfl rfl
      | some bitmap => split_ifs <;> exact hgoOn hunderway rfl rfl rfl rfl rfl
  | convert bitmap =>
      have hunderway : s.underway = [frame] := by
        rw [underway, hr]
      dsimp only
      split_ifs <;> exact hgoOn hunderway rfl rfl rfl rfl rfl
  | publish bitmap =>
      refine h.elsewhere rfl rfl rfl ?_
      have hunderway : s.underway = [frame] := by
        rw [underway, hr]
      rw [hunderway]
      change List.Sublist (x.published ++ [frame] ++ [] ++ s.posted) _
      rw [List.append_nil]
  | finish =>
      refine h.elsewhere rfl rfl rfl ?_
      have hunderway : s.underway = [] := by
        rw [underway, hr]
      rw [hunderway]
      exact List.Sublist.refl _

theorem ordered_step {l : PreviewLabel} (h : s.Ordered x) (hgated : s.Gated)
    (hstep : previewStep s l t) : t.Ordered (Screen.record s l t x) := by
  unfold previewStep at hstep
  cases l with
  | onFrame frame =>
      obtain rfl := Option.some.inj hstep
      have hkept : ∀ {j : ℕ} {c : OnFrame}, s.received[j]? = some c →
          (s.received ++ [⟨frame, .compareAndSet, false⟩])[j]? = some c := by
        intro j c hj
        rw [List.getElem?_append_left (List.getElem?_eq_some_iff.mp hj).1]
        exact hj
      refine ⟨?_, ?_, h.nodup, h.claimed, ?_, h.inOrder⟩
      · intro c hc
        rcases List.mem_append.mp hc with hc | hc
        · exact h.read c hc
        · obtain rfl := List.mem_singleton.mp hc
          exact .inl rfl
      · intro p hp
        obtain ⟨owner, howner, hread⟩ := h.accepted p hp
        exact ⟨owner, hkept howner, hread⟩
      · intro j c hj hc
        rcases Nat.lt_or_ge j s.received.length with hlt | hge
        · rw [List.getElem?_append_left hlt] at hj
          exact h.holder j c hj hc
        · rw [List.getElem?_append_right hge] at hj
          obtain rfl := List.mem_singleton.mp (List.mem_of_getElem? hj)
          cases hc
  | binder i ok =>
      obtain ⟨call, hi, rfl⟩ := Option.map_eq_some_iff.mp hstep
      unfold Screen.record
      dsimp only
      rw [hi]
      exact ordered_onFrameStep h hgated hi
  | background ok =>
      obtain rfl := Option.some.inj hstep
      unfold Screen.record backgroundStep
      cases hr : s.rendering with
      | some r => exact ordered_renderStep h hr
      | none =>
          dsimp only
          have hhistory : ∀ u, x.background s u = x := by
            intro u
            rw [Screen.background, hr]
          rw [hhistory]
          have hunderway : s.underway = [] := by
            rw [underway, hr]
          cases hposted : s.posted with
          | nil => exact h
          | cons frame rest =>
              refine h.elsewhere rfl rfl rfl ?_
              rw [hunderway, hposted, List.append_nil]
              change List.Sublist (x.published ++ [frame] ++ rest) _
              rw [List.append_assoc, List.singleton_append]
  | ui =>
      obtain ⟨task, -, rfl⟩ := Option.map_eq_some_iff.mp hstep
      exact h.elsewhere rfl rfl rfl (List.Sublist.refl _)
  | onDestroy =>
      obtain rfl := Option.some.inj hstep
      exact h.elsewhere rfl rfl rfl (List.Sublist.refl _)

end order

/-- What was handed on last is whole, unless it was recycled or the screen is destroyed. -/
structure Shows (s : FramePreview) (x : Screen) : Prop where
  converter : s.hasQuit = false → s.hasConverter = true
  recycled : ∀ n ∈ s.recycled, x.contents n = none
  converted : ∀ frame b, s.hasQuit = false → s.rendering = some ⟨frame, .publish b⟩ →
    b.number ∉ s.recycled → x.contents b.number = some frame
  last : ∀ earlier c angle, s.hasQuit = false →
    s.shown.toList ++ s.uiTasks = earlier ++ [(c, angle)] →
    ∃ frame, x.published.getLast? = some frame ∧ frame.angle = angle ∧
      (c.number ∉ s.recycled → x.contents c.number = some frame)

section contents
variable {s t : FramePreview} {x y : Screen} {slot : ℕ → Bool} {b c : Bitmap} {angle : Int32}
  {earlier : List (Bitmap × Int32)} {i : ℕ} {call : OnFrame} {ok : Bool}

/-- The next conversion spares what was handed on last. -/
theorem Buffered.ne_last (h : s.Buffered slot) (hpublishing : s.publishing = [])
    (hlast : s.shown.toList ++ s.uiTasks = earlier ++ [(c, angle)])
    (hb : slot b.number = !s.usingBitmap1) : c.number ≠ b.number := by
  have halternates := h.alternates
  have hhanded : s.handedOn = earlier.map Prod.fst ++ [c] := by
    unfold handedOn
    rw [hpublishing, hlast, List.append_nil, List.map_append, List.map_singleton]
  rw [hhanded, List.map_append] at halternates
  have hc := halternates.of_append.head
  intro heq
  rw [← heq] at hb
  exact Nat.not_odd_zero (hc.mp hb)

theorem Shows.step (h : s.Shows x) (hquit : t.hasQuit = s.hasQuit)
    (hconverter : t.hasConverter = s.hasConverter) (hshown : t.shown = s.shown)
    (huiTasks : t.uiTasks = s.uiTasks) (hpublished : y.published = x.published)
    (hrecycled : ∀ n ∈ t.recycled, y.contents n = none)
    (hcontents : ∀ earlier c angle, s.shown.toList ++ s.uiTasks = earlier ++ [(c, angle)] →
      c.number ∉ t.recycled → c.number ∉ s.recycled ∧ y.contents c.number = x.contents c.number)
    (hconverted : ∀ frame b, s.hasQuit = false → t.rendering = some ⟨frame, .publish b⟩ →
      b.number ∉ t.recycled → y.contents b.number = some frame) : t.Shows y := by
  refine ⟨?_, hrecycled, ?_, ?_⟩
  · rw [hquit, hconverter]
    exact h.converter
  · rw [hquit]
    exact fun frame b => hconverted frame b
  · rw [hquit, hshown, huiTasks, hpublished]
    intro earlier c angle hq hlast
    obtain ⟨frame, hpublished, hangle, hwhole⟩ := h.last earlier c angle hq hlast
    refine ⟨frame, hpublished, hangle, fun hc => ?_⟩
    obtain ⟨hold, hsame⟩ := hcontents earlier c angle hlast hc
    exact hsame.trans (hwhole hold)

theorem mem_recycle {bitmap : Option Bitmap} {n : ℕ} :
    n ∈ (s.recycle bitmap).recycled ↔ bitmap.map Bitmap.number = some n ∨ n ∈ s.recycled := by
  change n ∈ (bitmap.map Bitmap.number).toList ++ s.recycled ↔ _
  rw [List.mem_append, Option.mem_toList]

/-- What is recycled has no pixels afterwards. -/
theorem Shows.recycled_erase (h : s.Shows x) {bitmap : Option Bitmap} :
    ∀ n ∈ (s.recycle bitmap).recycled, (x.erase bitmap).contents n = none := by
  intro n hn
  change (if bitmap.map Bitmap.number = some n then none else x.contents n) = none
  split_ifs with hbitmap
  · rfl
  · exact h.recycled n ((mem_recycle.mp hn).resolve_left hbitmap)

theorem Shows.recycle (h : s.Shows x) {bitmap : Option Bitmap} (hquit : t.hasQuit = s.hasQuit)
    (hconverter : t.hasConverter = s.hasConverter) (hshown : t.shown = s.shown)
    (huiTasks : t.uiTasks = s.uiTasks) (hrecycled : t.recycled = (s.recycle bitmap).recycled)
    (hrendering : ∀ frame b, t.rendering = some ⟨frame, .publish b⟩ →
      s.rendering = some ⟨frame, .publish b⟩) : t.Shows (x.erase bitmap) := by
  refine h.step hquit hconverter hshown huiTasks rfl ?_ ?_ ?_
  · rw [hrecycled]
    exact h.recycled_erase
  · intro earlier c angle _ hc
    rw [hrecycled, mem_recycle, not_or] at hc
    exact ⟨hc.2, if_neg hc.1⟩
  · intro frame b hq hb hkept
    rw [hrecycled, mem_recycle, not_or] at hkept
    exact (if_neg hkept.1).trans (h.converted frame b hq (hrendering frame b hb) hkept.2)

theorem shows_renderStep (h : s.Shows x) (hbuffered : s.Buffered slot) {r : Rendering}
    (hr : s.rendering = some r) (ht : s.renderStep r ok = t) : t.Shows (x.background s t) := by
  obtain ⟨frame, stage⟩ := r
  have hidle : ∀ {stage' : RenderStage}, (∀ b, stage' ≠ .publish b) →
      (s.goOn frame stage').Shows x := by
    intro stage' hstage
    refine h.step rfl rfl rfl rfl rfl h.recycled (fun _ _ _ _ hc => ⟨hc, rfl⟩) ?_
    rintro _ b _ ⟨⟩
    exact absurd rfl (hstage b)
  unfold Screen.background
  unfold renderStep at ht
  rw [hr]
  cases stage with
  | allocateFirst =>
      dsimp only at ht ⊢
      split_ifs at ht ⊢ with hfits <;> subst ht
      · exact hidle (by rintro _ ⟨⟩)
      · exact h.recycle rfl rfl rfl rfl rfl (by rintro _ _ ⟨⟩)
      · exact h.recycle rfl rfl rfl rfl rfl (by rintro _ _ ⟨⟩)
  | allocateSecond =>
      dsimp only at ht ⊢
      split_ifs at ht ⊢ with hfits <;> subst ht
      · exact hidle (by rintro _ ⟨⟩)
      · exact h.recycle rfl rfl rfl rfl rfl (by rintro _ _ ⟨⟩)
      · exact h.recycle rfl rfl rfl rfl rfl (by rintro _ _ ⟨⟩)
  | choose =>
      have hnone : s.publishing = [] := by
        rw [publishing, hr]
      change s.renderStep ⟨frame, .choose⟩ ok = t at ht
      rw [renderStep_choose] at ht
      dsimp only
      have ht' : ∃ stage', (∀ b, stage' ≠ .publish b) ∧ s.goOn frame stage' = t := by
        cases hspare : s.spare with
        | none => exact ⟨.finish, by rintro _ ⟨⟩, by rw [hspare] at ht; exact ht⟩
        | some bitmap => exact ⟨.convert bitmap, by rintro _ ⟨⟩, by rw [hspare] at ht; exact ht⟩
      obtain ⟨stage', hstage, rfl⟩ := ht'
      split_ifs
      · refine h.step rfl rfl rfl rfl rfl ?_ ?_ ?_
        · intro n hn
          change (if _ then none else x.contents n) = none
          split_ifs
          · rfl
          · exact h.recycled n hn
        · intro earlier c angle hlast hc
          refine ⟨hc, if_neg fun hspare => ?_⟩
          obtain ⟨bitmap, hspare, hnumber⟩ := Option.map_eq_some_iff.mp hspare
          exact hbuffered.ne_last hnone hlast (hbuffered.of_spare hspare).2 hnumber.symm
        · rintro _ b _ ⟨⟩
          exact absurd rfl (hstage b)
      · exact hidle hstage
  | convert bitmap =>
      have hnone : s.publishing = [] := by
        rw [publishing, hr]
      have hslot := (hbuffered.target frame bitmap hr).2.1
      dsimp only at ht ⊢
      split_ifs at ht with hok
      · subst ht
        split_ifs with hwrites
        · refine h.step rfl rfl rfl rfl rfl ?_ ?_ ?_
          · intro n hn
            exact (Function.update_of_ne (ne_of_mem_of_not_mem hn hwrites.2.2) _ _).trans
              (h.recycled n hn)
          · intro earlier c angle hlast hc
            exact ⟨hc, Function.update_of_ne (hbuffered.ne_last hnone hlast hslot) _ _⟩
          · rintro frame' b - ⟨⟩ -
            exact Function.update_self _ _ _
        · refine h.step rfl rfl rfl rfl rfl h.recycled (fun _ _ _ _ hc => ⟨hc, rfl⟩) ?_
          rintro frame' b hquit ⟨⟩ hb
          exact absurd ⟨h.converter hquit, rfl, hb⟩ hwrites
      · subst ht
        rw [if_neg]
        · exact hidle (by rintro _ ⟨⟩)
        · rintro ⟨-, hpublishing, -⟩
          cases hpublishing
  | publish bitmap =>
      dsimp only at ht ⊢
      subst ht
      refine ⟨h.converter, h.recycled, by rintro _ _ _ ⟨⟩, ?_⟩
      intro earlier c angle hquit hlast
      have hend : (s.shown.toList ++ s.uiTasks) ++ [(bitmap, frame.angle)] =
          earlier ++ [(c, angle)] := by
        rw [← hlast, List.append_assoc]
        rfl
      have htask := List.append_inj_right' hend rfl
      cases htask
      exact ⟨frame, List.getLast?_concat, rfl, h.converted frame _ hquit hr⟩
  | finish =>
      subst ht
      exact h.step rfl rfl rfl rfl rfl h.recycled (fun _ _ _ _ hc => ⟨hc, rfl⟩)
        (by rintro _ _ _ ⟨⟩)

theorem shows_step {l : PreviewLabel} (h : s.Shows x) (hbuffered : s.Buffered slot)
    (hstep : previewStep s l t) : t.Shows (Screen.record s l t x) := by
  unfold previewStep at hstep
  cases l with
  | onFrame frame =>
      obtain rfl := Option.some.inj hstep
      exact ⟨h.converter, h.recycled, h.converted, h.last⟩
  | binder i ok =>
      obtain ⟨call, hi, rfl⟩ := Option.map_eq_some_iff.mp hstep
      obtain ⟨flag, received, posted, heq⟩ := s.onFrameStep_keeps i call ok
      obtain ⟨hpublished, hcontents⟩ : (x.binder s i call).published = x.published ∧
          (x.binder s i call).contents = x.contents := by
        unfold Screen.binder
        split
        · split_ifs <;> exact ⟨rfl, rfl⟩
        · split_ifs <;> exact ⟨rfl, rfl⟩
        · exact ⟨rfl, rfl⟩
      unfold Screen.record
      dsimp only
      rw [hi, heq]
      refine h.step rfl rfl rfl rfl hpublished ?_
        (fun _ _ _ _ hc => ⟨hc, congrFun hcontents _⟩) ?_
      · exact fun n hn => (congrFun hcontents n).trans (h.recycled n hn)
      · exact fun frame b hquit hb hkept =>
          (congrFun hcontents _).trans (h.converted frame b hquit hb hkept)
  | background ok =>
      obtain rfl := Option.some.inj hstep
      unfold Screen.record backgroundStep
      cases hr : s.rendering with
      | some r => exact shows_renderStep h hbuffered hr rfl
      | none =>
          dsimp only
          have hhistory : ∀ u, x.background s u = x := by
            intro u
            rw [Screen.background, hr]
          rw [hhistory]
          cases s.posted with
          | nil => exact h
          | cons frame rest => exact ⟨h.converter, h.recycled, by rintro _ _ _ ⟨⟩, h.last⟩
  | ui =>
      obtain ⟨task, htask, rfl⟩ := Option.map_eq_some_iff.mp hstep
      obtain ⟨rest, huiTasks⟩ : ∃ rest, s.uiTasks = task :: rest :=
        List.head?_eq_some_iff.mp htask
      refine ⟨h.converter, h.recycled, h.converted, ?_⟩
      intro earlier c angle hquit hlast
      refine h.last (s.shown.toList ++ earlier) c angle hquit ?_
      rw [huiTasks, List.append_assoc, ← hlast, huiTasks]
      rfl
  | onDestroy =>
      obtain rfl := Option.some.inj hstep
      have hfirst : (s.recycle s.reusableBitmap1).Shows (x.erase s.reusableBitmap1) :=
        h.recycle rfl rfl rfl rfl rfl fun _ _ => id
      refine ⟨?_, hfirst.recycled_erase, ?_, ?_⟩
      · intro hquit
        cases hquit
      · intro frame b hquit
        cases hquit
      · intro earlier c angle hquit
        cases hquit

end contents

section sized
variable {s t : FramePreview} {width height : Int32} {i : ℕ} {call : OnFrame} {ok : Bool}

def HasSize (width height : Int32) (frame : VisionFrame) : Prop :=
  frame.width = width ∧ frame.height = height

/-- All frames so far came in one size. -/
structure Sized (width height : Int32) (s : FramePreview) : Prop where
  posted : ∀ frame ∈ s.posted, HasSize width height frame
  rendering : ∀ r, s.rendering = some r → HasSize width height r.frame
  first : ∀ b, s.reusableBitmap1 = some b → b.width = width ∧ b.height = height
  second : ∀ b, s.reusableBitmap2 = some b → b.width = width ∧ b.height = height
  kept : s.hasQuit = false → s.recycled = []

theorem sized_onFrameStep (h : s.Sized width height)
    (hcall : HasSize width height call.frame) :
    (s.onFrameStep i call ok).Sized width height := by
  obtain ⟨flag, received, posted, heq⟩ := s.onFrameStep_keeps i call ok
  have hposted : posted = s.posted ∨
      ∃ data, posted = s.posted ++ [{ call.frame with data := data }] := by
    have hposted : (s.onFrameStep i call ok).posted = posted := by rw [heq]
    rw [← hposted]
    unfold onFrameStep
    cases call.stage with
    | read =>
        dsimp only
        split
        · split_ifs <;> exact .inl rfl
        · exact .inl rfl
    | compareAndSet | close _ =>
        dsimp only
        split_ifs <;> exact .inl rfl
    | post data =>
        dsimp only
        split_ifs
        · exact .inl rfl
        · exact .inr ⟨data, rfl⟩
    | closeFailed | resetFlag | closeDropped | returned => exact .inl rfl
  rw [heq]
  refine ⟨?_, h.rendering, h.first, h.second, h.kept⟩
  intro frame hframe
  rcases hposted with rfl | ⟨data, rfl⟩
  · exact h.posted frame hframe
  · rcases List.mem_append.mp hframe with hframe | hframe
    · exact h.posted frame hframe
    · obtain rfl := List.mem_singleton.mp hframe
      exact hcall

/-- A bitmap is recycled only if it does not do for the frame. -/
theorem recycle_of_sized {bitmap : Option Bitmap} {frame : VisionFrame}
    (hbitmap : ∀ b, bitmap = some b → b.width = width ∧ b.height = height)
    (hframe : HasSize width height frame) (hfits : ¬ fits bitmap frame = true) :
    s.recycle bitmap = s := by
  cases bitmap with
  | none => rfl
  | some b =>
      obtain ⟨hwidth, hheight⟩ := hbitmap b rfl
      refine absurd ?_ hfits
      change (b.width == frame.width && b.height == frame.height) = true
      rw [hwidth, hheight, hframe.1, hframe.2, beq_self_eq_true, beq_self_eq_true]
      rfl

theorem sized_renderStep (h : s.Sized width height) {r : Rendering} (hr : s.rendering = some r) :
    (s.renderStep r ok).Sized width height := by
  have hframe := h.rendering r hr
  have hgoOn : ∀ {u : FramePreview} {stage : RenderStage}, u.Sized width height →
      (u.goOn r.frame stage).Sized width height := by
    intro u stage hu
    refine ⟨hu.posted, ?_, hu.first, hu.second, hu.kept⟩
    rintro _ ⟨⟩
    exact hframe
  unfold renderStep
  cases r.stage with
  | allocateFirst =>
      dsimp only
      split_ifs with hfits
      · exact hgoOn h
      · rw [recycle_of_sized h.first hframe hfits]
        refine hgoOn ⟨h.posted, h.rendering, ?_, h.second, h.kept⟩
        rintro _ ⟨⟩
        exact hframe
      · rw [recycle_of_sized h.first hframe hfits]
        exact hgoOn h
  | allocateSecond =>
      dsimp only
      split_ifs with hfits
      · exact hgoOn h
      · rw [recycle_of_sized h.second hframe hfits]
        refine hgoOn ⟨h.posted, h.rendering, h.first, ?_, h.kept⟩
        rintro _ ⟨⟩
        exact hframe
      · rw [recycle_of_sized h.second hframe hfits]
        exact hgoOn h
  | choose =>
      dsimp only
      split <;> exact hgoOn h
  | convert bitmap =>
      dsimp only
      split_ifs
      · exact hgoOn (u := { s with usingBitmap1 := !s.usingBitmap1 })
          ⟨h.posted, h.rendering, h.first, h.second, h.kept⟩
      · exact hgoOn h
  | publish bitmap =>
      exact hgoOn (u := { s with uiTasks := _ })
        ⟨h.posted, h.rendering, h.first, h.second, h.kept⟩
  | finish => exact ⟨h.posted, by rintro _ ⟨⟩, h.first, h.second, h.kept⟩

theorem sized_step {l : PreviewLabel} (h : s.Sized width height)
    (hreceived : ∀ call ∈ s.received, HasSize width height call.frame)
    (hstep : previewStep s l t) : t.Sized width height := by
  unfold previewStep at hstep
  cases l with
  | onFrame frame =>
      obtain rfl := Option.some.inj hstep
      exact ⟨h.posted, h.rendering, h.first, h.second, h.kept⟩
  | binder i ok =>
      obtain ⟨call, hi, rfl⟩ := Option.map_eq_some_iff.mp hstep
      exact sized_onFrameStep h (hreceived call (List.mem_of_getElem? hi))
  | background ok =>
      obtain rfl := Option.some.inj hstep
      unfold backgroundStep
      split
      · next _ r hr => exact sized_renderStep h hr
      · next frame rest _ hposted =>
          refine ⟨?_, ?_, h.first, h.second, h.kept⟩
          · exact fun frame' hframe' => h.posted frame' (hposted ▸ List.mem_cons_of_mem _ hframe')
          · rintro _ ⟨⟩
            exact h.posted frame (hposted ▸ List.mem_cons_self)
      · exact h
  | ui =>
      obtain ⟨task, -, rfl⟩ := Option.map_eq_some_iff.mp hstep
      exact ⟨h.posted, h.rendering, h.first, h.second, h.kept⟩
  | onDestroy =>
      obtain rfl := Option.some.inj hstep
      exact ⟨h.posted, h.rendering, by rintro _ ⟨⟩, by rintro _ ⟨⟩, by rintro ⟨⟩⟩

theorem frames_onFrameStep (hi : s.received[i]? = some call) :
    (s.onFrameStep i call ok).received.map OnFrame.frame = s.received.map OnFrame.frame := by
  obtain ⟨hlen, hcall⟩ := List.getElem?_eq_some_iff.mp hi
  have hset : ∀ call' : OnFrame, call'.frame = call.frame →
      (s.received.set i call').map OnFrame.frame = s.received.map OnFrame.frame := by
    intro call' hframe
    have hlen' : i < (s.received.map OnFrame.frame).length := by simpa using hlen
    have hsame : (s.received.map OnFrame.frame)[i] = call.frame := by
      rw [List.getElem_map, hcall]
    rw [List.map_set, hframe, ← hsame]
    exact List.set_getElem_self _
  unfold onFrameStep
  cases call.stage with
  | read =>
      dsimp only
      split
      · split_ifs <;> exact hset _ rfl
      · exact hset _ rfl
  | compareAndSet | close _ | post _ =>
      dsimp only
      split_ifs <;> exact hset _ rfl
  | closeFailed | resetFlag | closeDropped => exact hset _ rfl
  | returned => rfl

theorem frames_step {l : PreviewLabel} (hstep : previewStep s l t) :
    s.received.map OnFrame.frame ⊆ t.received.map OnFrame.frame := by
  unfold previewStep at hstep
  cases l with
  | onFrame frame =>
      obtain rfl := Option.some.inj hstep
      exact List.map_subset _ (List.subset_append_left _ _)
  | binder i ok =>
      obtain ⟨call, hi, rfl⟩ := Option.map_eq_some_iff.mp hstep
      rw [frames_onFrameStep hi]
      exact List.Subset.refl _
  | background ok =>
      obtain rfl := Option.some.inj hstep
      rw [received_backgroundStep]
      exact List.Subset.refl _
  | ui =>
      obtain ⟨task, -, rfl⟩ := Option.map_eq_some_iff.mp hstep
      exact List.Subset.refl _
  | onDestroy =>
      obtain rfl := Option.some.inj hstep
      exact List.Subset.refl _

/-- While the frames come in one size, nothing is recycled before the screen is destroyed. -/
theorem recycled_of_sized {ls : List PreviewLabel} (h : Runs previewStep initial ls s)
    (hreceived : ∀ frame ∈ s.received.map OnFrame.frame, HasSize width height frame)
    (hquit : s.hasQuit = false) : s.recycled = [] := by
  have hsized := h.invariant (P := fun s : FramePreview =>
    (∀ frame ∈ s.received.map OnFrame.frame, HasSize width height frame) →
      s.Sized width height) ?_ ?_
  · exact (hsized hreceived).kept hquit
  · intro s l t hs hstep hframes
    have hbefore : ∀ frame ∈ s.received.map OnFrame.frame, HasSize width height frame :=
      fun frame hframe => hframes frame (frames_step hstep hframe)
    exact sized_step (hs hbefore) (fun call hcall => hbefore _ (List.mem_map_of_mem hcall)) hstep
  · intro _
    refine ⟨?_, by rintro _ ⟨⟩, by rintro _ ⟨⟩, by rintro _ ⟨⟩, fun _ => rfl⟩
    intro frame hframe
    cases hframe

end sized

section runs
variable {s : FramePreview} {x : Screen} {ls : List PreviewLabel}

/-- A run of the screen, with what it has shown. -/
def Previews (ls : List PreviewLabel) (s : FramePreview) (x : Screen) : Prop :=
  Runs (withHistory previewStep Screen.record) (initial, Screen.blank) ls (s, x)

theorem Previews.kept (h : Previews ls s x) :
    s.Gated ∧ (∃ slot, s.Buffered slot) ∧ s.Ordered x ∧ s.Shows x := by
  refine Runs.invariant (P := fun z : FramePreview × Screen => z.1.Gated ∧
    (∃ slot, z.1.Buffered slot) ∧ z.1.Ordered z.2 ∧ z.1.Shows z.2) ?_ h ?_
  · rintro ⟨s, x⟩ l ⟨t, y⟩ ⟨hgated, ⟨slot, hbuffered⟩, hordered, hshows⟩ ⟨hstep, hrecord⟩
    obtain rfl : y = Screen.record s l t x := hrecord
    exact ⟨gated_step hgated hstep, buffered_step ⟨slot, hbuffered⟩ hstep,
      ordered_step hordered hgated hstep, shows_step hshows hbuffered hstep⟩
  · refine ⟨gated_initial, ⟨_, buffered_initial⟩, ?_, ?_⟩
    · refine ⟨?_, ?_, List.nodup_nil, List.Sublist.refl _, ?_, List.Sublist.refl _⟩
      · intro call hcall
        cases hcall
      · intro p hp
        cases hp
      · intro i call hi
        cases hi
    · refine ⟨fun _ => rfl, fun _ _ => rfl, by rintro _ _ _ ⟨⟩, ?_⟩
      intro earlier c angle _ hlast
      cases earlier <;> cases hlast

theorem Previews.runs (h : Previews ls s x) : Runs previewStep initial ls s := by
  have hforget : ∃ t, Runs previewStep initial ls t ∧ s = t := by
    refine h.simulate (R := fun (z : FramePreview × Screen) t => z.1 = t) ?_ rfl
    rintro z l w _ rfl hstep
    exact ⟨w.1, hstep.1, rfl⟩
  obtain ⟨_, hruns, rfl⟩ := hforget
  exact hruns

/-- Once the UI thread has caught up, the screen shows the frame that was handed on last, with
its own angle and whole, unless its bitmap was recycled. As long as the frames come in one size,
none is. -/
theorem shows_last_published (h : Previews ls s x) (hquit : s.hasQuit = false)
    (hcaughtUp : s.uiTasks = []) {c : Bitmap} {angle : Int32} (hshown : s.shown = some (c, angle)) :
    ∃ frame, x.published.getLast? = some frame ∧ frame.angle = angle ∧
      x.contents c.number = (if c.number ∈ s.recycled then none else some frame) ∧
      ∀ width height, (∀ call ∈ s.received, HasSize width height call.frame) →
        c.number ∉ s.recycled := by
  obtain ⟨-, -, -, hshows⟩ := h.kept
  have hlast : s.shown.toList ++ s.uiTasks = [] ++ [(c, angle)] := by
    rw [hcaughtUp, hshown]
    rfl
  obtain ⟨frame, hpublished, hangle, hwhole⟩ := hshows.last [] c angle hquit hlast
  refine ⟨frame, hpublished, hangle, ?_, fun width height hsized => ?_⟩
  · split_ifs with hrecycled
    · exact hshows.recycled _ hrecycled
    · exact hwhole hrecycled
  · have hframes : ∀ frame ∈ s.received.map OnFrame.frame,
        HasSize width height frame := by
      intro frame hframe
      obtain ⟨call, hcall, rfl⟩ := List.mem_map.mp hframe
      exact hsized call hcall
    rw [recycled_of_sized h.runs hframes hquit]
    exact List.not_mem_nil

/-- A frame of three by two pixels. -/
def smallFrame : VisionFrame := ⟨[1, 2, 3, 4, 5, 6, 7, 8, 0], 3, 2, 90⟩

/-- A frame comes in and gets to the screen. -/
def shownFrame : List PreviewLabel :=
  .onFrame smallFrame :: List.replicate 4 (.binder 0 true) ++
    List.replicate 7 (.background true) ++ [.ui]

/-- Then one of another size comes, and the looper makes new bitmaps for it. -/
def resizedFrame : List PreviewLabel :=
  .onFrame ⟨[1, 2, 3, 4, 5, 6], 2, 2, 90⟩ :: List.replicate 4 (.binder 1 true) ++
    List.replicate 3 (.background true)

theorem shows_last_published_resized : (∃ s x, Previews shownFrame s x ∧
    ∃ c, s.shown = some (c, 90) ∧ x.contents c.number = some smallFrame) ∧
    ∃ s x, Previews (shownFrame ++ resizedFrame) s x ∧
      ∃ c, s.shown = some (c, 90) ∧ x.contents c.number = none := by
  have hshown : Previews shownFrame _ _ := .remember rfl (.remember rfl (.remember rfl
    (.remember rfl (.remember rfl (.remember rfl (.remember rfl (.remember rfl (.remember rfl
    (.remember rfl (.remember rfl (.remember rfl (.remember rfl (.nil _)))))))))))))
  have hresized : Previews (shownFrame ++ resizedFrame) _ _ := hshown.append (.remember rfl
    (.remember rfl (.remember rfl (.remember rfl (.remember rfl (.remember rfl (.remember rfl
    (.remember rfl (.nil _)))))))))
  obtain ⟨frame, hlast, -, hwhole, -⟩ := shows_last_published hshown rfl rfl rfl
  obtain ⟨_, -, -, herased, -⟩ := shows_last_published hresized rfl rfl rfl
  obtain rfl : smallFrame = frame := Option.some.inj hlast
  exact ⟨⟨_, _, hshown, _, rfl, hwhole⟩, _, _, hresized, _, rfl, herased⟩

theorem readFrame_length {frame : VisionFrame} {data : List UInt8}
    (h : readFrame frame = some data) : data.length < 2 ^ 31 := by
  unfold readFrame at h
  dsimp only at h
  have hsize : frameSize frame.width frame.height ≤ 2 ^ 31 - 1 :=
    Int.max_le.mpr ⟨Int.min_le_right _ _, by decide⟩
  split_ifs at h with hneg
  obtain rfl := Option.some.inj h
  rw [List.length_append, List.length_take, List.length_replicate]
  omega

theorem frameSize_eq {width height : Int32} {w h : ℕ} (hw : width.toInt = w)
    (hh : height.toInt = h) (hsmall : w * h + w * h / 2 < 2 ^ 31) :
    frameSize width height = (w * h + w * h / 2 : ℕ) := by
  have hproduct : (width * height).toInt = (w * h : ℕ) := by
    rw [Int32.toInt_mul, hw, hh, ← Int.natCast_mul]
    exact Int.bmod_eq_of_le (by omega) (by omega)
  unfold frameSize
  rw [hproduct, Int.tdiv_eq_ediv_of_nonneg (by omega)]
  omega

/-- A frame as the camera packs it. -/
def Packed (frame : VisionFrame) : Prop :=
  ∃ (img : Camera2NdkBackend.AImage) (w h : ℕ) (old : List UInt8) (out : Buffer UInt8),
    img.WellFormed w h ∧
      Camera2NdkBackend.packAImageToNv21 img old = some (some ((w : ℤ), (h : ℤ)), out) ∧
      frame.data = out.cells ∧ frame.width = img.width ∧ frame.height = img.height

/-- The app reads exactly the bytes that were packed, if their number is an `Int`. -/
theorem Packed.readFrame_eq_iff {frame : VisionFrame} (h : Packed frame) :
    readFrame frame = some frame.data ↔ frame.data.length < 2 ^ 31 := by
  refine ⟨readFrame_length, fun hsmall => ?_⟩
  obtain ⟨img, w, h, old, out, himg, hpack, hdata, hwidth, hheight⟩ := h
  have hlength : frame.data.length = w * h + w * h / 2 := by
    have heq := hpack.symm.trans (Camera2NdkBackend.packAImageToNv21_eq himg old)
    rw [hdata, (Prod.mk.inj (Option.some.inj heq)).2, Buffer.length_putAll,
      Buffer.length_resize]
    rfl
  have hsize : frameSize frame.width frame.height = (w * h + w * h / 2 : ℕ) :=
    frameSize_eq (hwidth ▸ himg.width) (hheight ▸ himg.height) (hlength ▸ hsmall)
  unfold readFrame
  dsimp only
  rw [hsize, if_neg (by omega), Int.toNat_natCast, ← hlength, List.take_length, Nat.sub_self,
    List.replicate_zero, List.append_nil]

/-- The frames that are handed on are frames that were received, in the order in which their
invocations claimed the flag, each once at most. A frame of the camera is handed on as it
was packed exactly if it has fewer than 2 ^ 31 bytes. -/
theorem published_in_order (h : Previews ls s x) (hcamera : ∀ call ∈ s.received, Packed call.frame) :
    x.published.Sublist (x.accepted.map Prod.snd) ∧ (x.accepted.map Prod.fst).Nodup ∧
      (x.accepted.map Prod.fst).Sublist x.claimed ∧
      ∀ p ∈ x.accepted, ∃ call, s.received[p.1]? = some call ∧
        p.2 = { call.frame with data := p.2.data } ∧
        (p.2 = call.frame ↔ call.frame.data.length < 2 ^ 31) := by
  obtain ⟨-, -, hordered, -⟩ := h.kept
  refine ⟨?_, hordered.nodup, hordered.claimed, ?_⟩
  · have hpublished : x.published.Sublist (x.published ++ s.underway ++ s.posted) := by
      rw [List.append_assoc]
      exact List.sublist_append_left _ _
    exact hpublished.trans hordered.inOrder
  · rintro ⟨i, frame⟩ hp
    obtain ⟨call, hi, -, hread, hframe⟩ := hordered.accepted _ hp
    refine ⟨call, hi, hframe, ?_⟩
    rw [← (hcamera call (List.mem_of_getElem? hi)).readFrame_eq_iff, hread]
    constructor
    · rintro rfl
      rfl
    · intro hdata
      have hsame : frame.data = call.frame.data := Option.some.inj hdata
      rw [hframe, hsame]

theorem packed_smallFrame : Packed smallFrame :=
  ⟨Camera2NdkBackend.sampleImage, 3, 2, [], _, Camera2NdkBackend.sampleImage_wellFormed, rfl, rfl,
    rfl, rfl⟩

/-- The packed frame gets to the screen as it was. -/
theorem published_in_order_small : ∃ s x, Previews shownFrame s x ∧
    ∀ p ∈ x.accepted, p.2 = smallFrame := by
  have hrun : Previews shownFrame _ _ := .remember rfl (.remember rfl (.remember rfl
    (.remember rfl (.remember rfl (.remember rfl (.remember rfl (.remember rfl (.remember rfl
    (.remember rfl (.remember rfl (.remember rfl (.remember rfl (.nil _)))))))))))))
  have hcamera : ∀ call ∈ [(⟨smallFrame, .returned, true⟩ : OnFrame)], Packed call.frame := by
    intro call hcall
    obtain rfl := List.mem_singleton.mp hcall
    exact packed_smallFrame
  obtain ⟨-, -, -, haccepted⟩ := published_in_order hrun hcamera
  refine ⟨_, _, hrun, fun p hp => ?_⟩
  obtain ⟨call, hcall, -, hwhole⟩ := haccepted p hp
  obtain rfl : call = ⟨smallFrame, .returned, true⟩ :=
    List.mem_singleton.mp (List.mem_of_getElem? hcall)
  exact hwhole.mpr (show 9 < 2 ^ 31 by decide)

end runs
end FramePreview
end FaceHal
