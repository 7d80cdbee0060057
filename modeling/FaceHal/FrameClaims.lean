import FaceHal.SessionThreads
import FaceHal.ThreadPool

/-!
# The claim of `mProcessingFrame`

A camera thread claims the flag and hands the claim to the worker that it starts; the
worker gives it back on each of its paths. Camera threads, workers, cancellations and new
operations of one session interleave within each other, in any number. One frame is
processed at a time then, and the session is not stuck.
-/
namespace FaceHal

/-- The claim is taken by the exchange, and it is for the worker that gives it back. -/
def frameClaim : ClaimProtocol SessionI WorkerFrame where
  takes
    | .claimProcessingFrame, claimed => claimed
    | _, _ => false
  releases
    | .resetProcessingFrame => true
    | _ => false
  guards
    | .beginRecognition _ | .endRecognition _ => true
    | _ => false
  starts
    | .createWorker frame => some frame
    | _ => none
  starts_only c h := by
    cases c with
    | createWorker frame => exact ⟨rfl, fun _ => rfl⟩
    | _ => cases h

/-- The threads of one session. `mProcessingFrame` is named by `onCameraFrame` only, so what
else acts on the session or on the engine leaves it. -/
def sessionThreads (userId : Int32) : Threads SessionI WorkerFrame SessionEntry SessionView where
  protocol := frameClaim
  environment := sessionAccesses
  outside v w := w.session.processingFrame = v.session.processingFrame
  entry := SessionEntry.program
  body := SessionProgram.worker userId

theorem frameClaim_respects :
    frameClaim.Respects sessionAccesses fun v => v.session.processingFrame where
  takes c v r v' h htakes := by
    obtain ⟨hgives, rfl⟩ := h
    cases c with
    | claimProcessingFrame =>
        obtain rfl : r = true := htakes
        have hfree : v.session.processingFrame = false := by
          simpa [SessionAccess.Gives] using hgives
        exact ⟨hfree, rfl⟩
    | _ => cases htakes
  releases c v r v' h hreleases := by
    obtain ⟨-, rfl⟩ := h
    cases c with
    | resetProcessingFrame => rfl
    | _ => cases hreleases
  keeps c v r v' h htakes hreleases := by
    obtain ⟨-, rfl⟩ := h
    cases c with
    | claimProcessingFrame =>
        obtain rfl : r = false := htakes
        rfl
    | resetProcessingFrame => cases hreleases
    | storeFlag kind value => cases kind <;> rfl
    | startCamera => cases r <;> rfl
    | _ => rfl

/-- An access that does not move the claim. The recognition is for its holder. -/
def SessionAccess.Allowed (held : Bool) : SessionAccess → Prop
  | .claimProcessingFrame | .resetProcessingFrame | .createWorker _ => False
  | .beginRecognition _ | .endRecognition _ => held = true
  | _ => True

theorem SessionAccess.Allowed.stays {held : Bool} {c : SessionAccess} (hc : c.Allowed held) :
    frameClaim.Stays held c := by
  cases c with
  | claimProcessingFrame | resetProcessingFrame | createWorker _ => exact hc.elim
  | beginRecognition _ | endRecognition _ => exact ⟨fun _ => rfl, rfl, rfl, fun _ => hc⟩
  | _ => exact ⟨fun _ => rfl, rfl, rfl, nofun⟩

namespace SessionProgram
open Program SessionAccess
variable {α : Type} {P : SessionAccess → Prop}

@[simp] theorem uses_ite {b : Prop} [Decidable b] {p q : Program SessionI α} :
    (if b then p else q).Uses P ↔ (b → p.Uses P) ∧ (¬ b → q.Uses P) := by
  split_ifs with hb <;> simp [hb]

theorem uses_access_bind {c : SessionAccess} {f : c.Reply → Program SessionI α} :
    (access c >>= f).Uses P ↔ P c ∧ ∀ r, (f r).Uses P := Iff.rfl

theorem keeps_access_bind {c : SessionAccess} {f : c.Reply → Program SessionI α} {held : Bool}
    {Q : α → Bool → Prop} : frameClaim.Keeps (access c >>= f) held Q ↔
      (frameClaim.needs c = true → held = true) ∧
        ∀ r, frameClaim.Keeps (f r) (frameClaim.after c r held) Q := Iff.rfl

theorem uses_orM {p q : Program SessionI Bool} (hp : p.Uses P) (hq : q.Uses P) :
    (p <||> q).Uses P := by
  refine uses_bind hp fun b => ?_
  cases b with
  | true => trivial
  | false => exact hq

/-! The client's calls do not move the claim. -/

section calls
variable (context : OperationContext)

theorem uses_cancel : cancel.Uses (Allowed false) := by
  refine uses_bind (uses_orM ?_ (uses_orM ?_ ?_)) fun busy => ?_
  all_goals simp [access, perform, Uses, Allowed]

theorem uses_close : close.Uses (Allowed false) :=
  uses_bind uses_cancel fun _ => by simp [access, perform, Uses, Allowed]

theorem uses_startCamera (kind : OperationKind) : (startCamera kind).Uses (Allowed false) := by
  refine ⟨trivial, fun start => ?_⟩
  cases start with
  | started => trivial
  | failed code => exact ⟨trivial, fun _ => ⟨trivial, fun _ => trivial⟩⟩

theorem uses_enroll : enroll.Uses (Allowed false) :=
  ⟨trivial, fun _ => ⟨trivial, fun _ => uses_startCamera .enroll⟩⟩

theorem uses_detectInteraction : detectInteraction.Uses (Allowed false) :=
  ⟨trivial, fun _ => ⟨trivial, fun _ => uses_startCamera .detectInteraction⟩⟩

theorem uses_inferReason : inferReason.Uses (Allowed false) := by
  simp [inferReason, access, perform, Uses, Allowed]

theorem uses_authenticate (operationId : Int64) :
    (authenticate operationId).Uses (Allowed false) := by
  refine ⟨trivial, fun _ => ⟨trivial, fun _ => ⟨trivial, fun _ => ?_⟩⟩⟩
  refine ⟨trivial, fun now => uses_access_bind.mpr ⟨trivial, fun _ => ?_⟩⟩
  exact uses_bind uses_inferReason fun _ => uses_startCamera .authenticate

theorem uses_authenticateWithContext (operationId : Int64) :
    (authenticateWithContext operationId context).Uses (Allowed false) :=
  ⟨trivial, fun _ => uses_authenticate operationId⟩

theorem uses_promptOver : (promptOver context).Uses (Allowed false) := by
  simp [promptOver, access, perform, Uses, Allowed]

theorem uses_displayOff : (displayOff context).Uses (Allowed false) := by
  simp [displayOff, access, perform, Uses, Allowed]

theorem uses_correctReason : (correctReason context).Uses (Allowed false) := by
  simp [correctReason, access, perform, Uses, Allowed]

theorem uses_lockscreenOver : (lockscreenOver context).Uses (Allowed false) := by
  simp [lockscreenOver, access, perform, Uses, Allowed]

theorem uses_followContext : (followContext context).Uses (Allowed false) := by
  refine uses_bind (uses_promptOver context) fun isOver => ?_
  cases isOver with
  | true => exact uses_bind uses_cancel fun _ => trivial
  | false =>
      refine uses_access_bind.mpr ⟨trivial, fun _ => ?_⟩
      refine uses_bind (uses_displayOff context) fun isOff => ?_
      cases isOff with
      | true => exact uses_bind uses_cancel fun _ => trivial
      | false =>
          refine uses_bind (uses_correctReason context) fun _ => ?_
          refine uses_bind (uses_lockscreenOver context) fun isOver => ?_
          cases isOver with
          | true => exact uses_cancel
          | false => trivial

theorem uses_onContextChanged : (onContextChanged context).Uses (Allowed false) := by
  unfold onContextChanged
  split_ifs
  · exact uses_access_bind.mpr ⟨trivial, fun _ => uses_followContext context⟩
  · exact uses_followContext context

end calls

/-! The worker keeps the claim while it recognizes, and gives it back on each path. -/

section frames
variable (userId : Int32) (frame : WorkerFrame)

theorem uses_recognize (call : RecognitionCall) : (recognize call).Uses (Allowed true) :=
  ⟨rfl, fun _ => ⟨rfl, fun _ => trivial⟩⟩

theorem uses_afterAuthenticate (reply : EngineReply) :
    (afterAuthenticate userId reply).Uses (Allowed true) := by
  simp [afterAuthenticate, access, perform, Uses, Allowed]

theorem uses_afterAnalyze (reply : EngineReply) : (afterAnalyze reply).Uses (Allowed true) := by
  simp [afterAnalyze, access, perform, Uses, Allowed]

theorem uses_afterEnroll (reply : EngineReply) : (afterEnroll reply).Uses (Allowed true) := by
  simp [afterEnroll, access, perform, Uses, Allowed]

theorem uses_processFrame : (processFrame userId frame).Uses (Allowed true) := by
  refine uses_access_bind.mpr ⟨trivial, fun authenticating => ?_⟩
  cases authenticating with
  | true => exact uses_bind (uses_recognize _) fun reply => uses_afterAuthenticate userId reply
  | false =>
      refine uses_access_bind.mpr ⟨trivial, fun detecting => ?_⟩
      cases detecting with
      | true => exact uses_bind (uses_recognize _) fun reply => uses_afterAnalyze reply
      | false =>
          refine uses_access_bind.mpr ⟨trivial, fun enrolling => ?_⟩
          cases enrolling with
          | true => exact uses_bind (uses_recognize _) fun reply => uses_afterEnroll reply
          | false => trivial

theorem keeps_worker :
    frameClaim.Keeps (worker userId frame) true fun _ held => held = false := by
  refine keeps_access_bind.mpr ⟨nofun, fun cancelled => ?_⟩
  cases cancelled with
  | true => exact ⟨fun _ => rfl, fun _ => rfl⟩
  | false =>
      have hprocess := frameClaim.keeps_of_stays
        ((uses_processFrame userId frame).mono fun _ hc => hc.stays)
      refine (ClaimProtocol.keeps_bind _ _ _ _).mpr (ClaimProtocol.keeps_mono hprocess ?_)
      rintro a held rfl
      exact ⟨fun _ => rfl, fun _ => rfl⟩

theorem keeps_onCameraFrame (data : List UInt8) (width height angle : Int32) :
    frameClaim.Keeps (onCameraFrame data width height angle) false fun _ held => held = false := by
  refine ⟨nofun, fun cancelled => ?_⟩
  cases cancelled with
  | true => rfl
  | false =>
      refine ⟨nofun, fun claimed => ?_⟩
      cases claimed with
      | false => rfl
      | true =>
          refine ⟨nofun, fun reported => ⟨nofun, fun scaled => ?_⟩⟩
          exact ⟨fun _ => rfl, fun _ => rfl⟩

theorem uses_worker :
    (worker userId frame).Uses fun c => frameClaim.starts c = none := by
  refine uses_access_bind.mpr ⟨rfl, fun cancelled => ?_⟩
  cases cancelled with
  | true => exact ⟨rfl, fun _ => trivial⟩
  | false =>
      have hprocess := (uses_processFrame userId frame).mono fun _ hc => hc.stays.starts
      exact uses_bind hprocess fun _ => ⟨rfl, fun _ => trivial⟩

end frames

end SessionProgram

theorem SessionEntry.keeps_program (entry : SessionEntry) :
    frameClaim.Keeps entry.program false fun _ held => held = false := by
  have hcalls : ∀ {p : Program SessionI Unit}, p.Uses (SessionAccess.Allowed false) →
      frameClaim.Keeps p false fun _ held => held = false :=
    fun hp => ClaimProtocol.keeps_of_stays (hp.mono fun _ hc => hc.stays)
  cases entry with
  | onCameraFrame frame width height angle =>
      exact (ClaimProtocol.keeps_bind _ _ _ _).mpr
        (SessionProgram.keeps_onCameraFrame frame width height angle)
  | cancel => exact hcalls SessionProgram.uses_cancel
  | close => exact hcalls SessionProgram.uses_close
  | enroll => exact hcalls SessionProgram.uses_enroll
  | authenticate operationId => exact hcalls (SessionProgram.uses_authenticate operationId)
  | authenticateWithContext operationId context =>
      exact hcalls (SessionProgram.uses_authenticateWithContext context operationId)
  | detectInteraction => exact hcalls SessionProgram.uses_detectInteraction
  | onContextChanged context => exact hcalls (SessionProgram.uses_onContextChanged context)

theorem sessionThreads_disciplined (userId : Int32) :
    (sessionThreads userId).Disciplined fun v => v.session.processingFrame where
  respects := frameClaim_respects
  outside _ _ h := h
  entry := SessionEntry.keeps_program
  body := SessionProgram.keeps_worker userId

open Threads

/-- The threads of a session that was just created, whatever the engine was used for. -/
def createdThreads (engine : FaceEngine) (userId : Int32) : Pool SessionI SessionView :=
  ⟨⟨engine, .create userId⟩, []⟩

/-- The thread is inside a call of the engine for a frame. -/
def Recognizing (s : Pool SessionI SessionView) (i : ℕ) (call : RecognitionCall) : Prop :=
  AboutTo s i (.endRecognition call)

/-- The claim has at most one holder, and so has the engine. The claim is set exactly while
it is outstanding, and then steps of its holder give it back, whatever the others do. -/
structure OneFrameAtATime (userId : Int32) (s : Pool SessionI SessionView) : Prop where
  one_claim : ∀ i j p q, HolderAt s i p → HolderAt s j q → i = j
  one_recognition : ∀ i j call call', Recognizing s i call → Recognizing s j call' → i = j
  outstanding : s.shared.session.processingFrame = true ↔ ∃ i c next, HolderAt s i (.call c next)
  released : Inevitably (sessionThreads userId).Turn
    (fun t => t.shared.session.processingFrame = false) s

theorem oneFrameAtATime_runs {engine : FaceEngine} {userId : Int32}
    {ls : List (PoolLabel SessionEntry)} {s : Pool SessionI SessionView}
    (h : Runs (sessionThreads userId).step (createdThreads engine userId) ls s) :
    OneFrameAtATime userId s := by
  have hT := sessionThreads_disciplined userId
  have hs := sound_runs hT (sound_empty rfl) h
  refine ⟨?_, ?_, ⟨?_, ?_⟩, ?_⟩
  · exact fun i j p q hi hj => hs.holder_unique hi hj
  · exact fun i j call call' hi hj => hs.aboutTo_unique hi hj rfl rfl
  · exact hs.exists_holder
  · rintro ⟨i, c, next, hi⟩
    exact hs.flag_of_holds (List.mem_of_getElem? hi) rfl
  · exact hs.inevitably hT sessionAccesses_answer (SessionProgram.uses_worker userId)

/-- Two frames arrive at once: the first is claimed and handed to a worker. -/
def twoFrames : List (PoolLabel SessionEntry) :=
  [.start (.onCameraFrame [] 0 0 0), .start (.onCameraFrame [] 0 0 0), .run 0, .run 1, .run 0,
    .run 1, .run 0, .run 0, .run 0, .run 2]

theorem step_access {userId : Int32} {s : Pool SessionI SessionView} {i : ℕ} {held : Bool}
    (c : SessionAccess) (r : c.Reply) {next : c.Reply → Program SessionI Unit}
    (hi : s.threads[i]? = some ⟨.call c next, held⟩) (hgives : c.Gives s.shared r) :
    (sessionThreads userId).step s (.run i) ⟨c.effect s.shared r,
      s.threads.set i ⟨next r, frameClaim.after c r held⟩ ++ (sessionThreads userId).started c⟩ :=
  step_run hi ⟨hgives, rfl⟩

theorem runs_twoFrames : ∃ s, Runs (sessionThreads 0).step (createdThreads .initial 0) twoFrames s ∧
    s.shared.session.processingFrame = true := by
  obtain ⟨⟨data, width, height⟩, v, hgives, -⟩ := sessionAccesses_answer (.scale [] 0 0 none)
    ⟨.initial, { Session.create 0 with processingFrame := true }⟩
  have hrun : Runs (sessionThreads 0).step (createdThreads .initial 0) twoFrames _ :=
    .cons rfl <| .cons rfl <|
    .cons (step_access .isCancelled false rfl rfl) <|
    .cons (step_access .isCancelled false rfl rfl) <|
    .cons (step_access .claimProcessingFrame true rfl rfl) <|
    .cons (step_access .claimProcessingFrame false rfl rfl) <|
    .cons (step_access .getOptimalResolution none rfl trivial) <|
    .cons (step_access (.scale [] 0 0 none) (data, width, height) rfl hgives) <|
    .cons (step_access (.createWorker ⟨data, width, height, 0⟩) () rfl trivial) <|
    .cons (step_access .isCancelled false rfl rfl) <| .nil _
  exact ⟨_, hrun, rfl⟩

theorem oneFrameAtATime_twoFrames : ∃ s,
    Runs (sessionThreads 0).step (createdThreads .initial 0) twoFrames s ∧
      s.shared.session.processingFrame = true ∧ OneFrameAtATime 0 s := by
  obtain ⟨s, hrun, hflag⟩ := runs_twoFrames
  exact ⟨s, hrun, hflag, oneFrameAtATime_runs hrun⟩

end FaceHal
