import FaceHal.ChallengeBinding
import FaceHal.EnrollmentThreads

/-!
# Where counted frames come from

A frame that a camera delivers waits for its claim in the session in the slot, is
processed by a worker and may then be counted by the engine. The history says for
each of these frames which camera delivered it and how many operations the session
had been asked for by then, in the order of the session's own lists.
-/
namespace FaceHal

/-- The session whose camera delivered a frame, and the number of operations that
the session that received it had been asked for. -/
structure FrameOrigin where
  camera : ℕ
  calls : ℕ
deriving DecidableEq, Repr

structure CountedFrame where
  session : ℕ
  userId : Int32
  /-- The operation whose flag the worker found set. -/
  operation : Option ℕ
  origin : FrameOrigin
deriving DecidableEq, Repr

/-- The frame was delivered by the camera of its session after the operation began. -/
def CountedFrame.IsOwn (f : CountedFrame) : Prop :=
  f.origin.camera = f.session ∧ ∃ operation ∈ f.operation, operation < f.origin.calls

/-- Where the frames come from that sessions have received, in the order of their
`frames` and of their `workers`, and the frames counted so far, the newest first. -/
structure FrameHistory where
  arrived : ℕ → List FrameOrigin
  taken : ℕ → List FrameOrigin
  counted : List CountedFrame

namespace FrameHistory

def initial : FrameHistory := ⟨fun _ => [], fun _ => [], []⟩

def arrive (x : FrameHistory) (i : ℕ) (origin : FrameOrigin) : FrameHistory :=
  ⟨Function.update x.arrived i (x.arrived i ++ [origin]), x.taken, x.counted⟩

/-- A frame of the camera is passed to the session in the slot. -/
def deliver (x : FrameHistory) (h : Hal) (camera : ℕ) : FrameHistory :=
  match h.engine.sessionFrameCallback with
  | none => x
  | some j =>
      match h.live j with
      | none => x
      | some s =>
          if h.engine.isCancelled then x else x.arrive j ⟨camera, s.operations.length⟩

/-- The frame `k` is dropped if another one is processed, else a worker takes it. -/
def claim (x : FrameHistory) (i k : ℕ) (processingFrame : Bool) : FrameHistory :=
  ⟨Function.update x.arrived i ((x.arrived i).eraseIdx k),
    if processingFrame then x.taken
    else Function.update x.taken i (x.taken i ++ (x.arrived i)[k]?.toList), x.counted⟩

def release (x : FrameHistory) (i k : ℕ) : FrameHistory :=
  ⟨x.arrived, Function.update x.taken i ((x.taken i).eraseIdx k), x.counted⟩

/-- The frame of the worker `k` of the session `i`. -/
def frameOf (x : FrameHistory) (h : Hal) (i k : ℕ) : Option CountedFrame :=
  (h.live i).bind fun s => (s.workers[k]?).bind fun w =>
    ((x.taken i)[k]?).map fun origin => ⟨i, s.userId, w.operation, origin⟩

def record (h : Hal) (l : EnrollLabel) (x : FrameHistory) : FrameHistory :=
  match l with
  | .hal (.cameraFrame i) => x.deliver h i
  | .hal (.session i (.frameClaims k)) =>
      (h.live i).elim x fun s => x.claim i k s.processingFrame
  | .hal (.session i (.worker k _)) =>
      if (h.live i).any fun s => (s.workers[k]?).any fun w => w.stage = .release then x.release i k
      else x
  | .counts i k => ⟨x.arrived, x.taken, (x.frameOf h i k).toList ++ x.counted⟩
  | _ => x

end FrameHistory

namespace Session

/-- There is one worker at most, and if it calls `enroll`, then for an enrolment that
the session was asked for. -/
structure Sound (s : Session) : Prop where
  claimed : s.Claimed
  reports : ∀ w ∈ s.workers, w.stage = .enroll → s.Reports w .enroll

theorem sound_create (userId : Int32) : (create userId).Sound := by
  refine ⟨.inl ⟨rfl, rfl⟩, ?_⟩
  intro w hw
  cases hw

end Session

section worker
variable {v : SessionView} {w w' : Worker}

theorem stage_goto {stage : WorkerStage} (hw : v.session.workers = [w])
    (hmem : w' ∈ (v.goto 0 w stage).session.workers) : w'.stage = stage := by
  have hset : (v.goto 0 w stage).session.workers = [{ w with stage := stage }] := by
    simp [SessionView.goto, SessionView.onSession, hw]
  rw [hset, List.mem_singleton] at hmem
  rw [hmem]

theorem enter_eq {stage : WorkerStage} {kind : OperationKind} (hw : v.session.workers = [w])
    (hmem : w' ∈ (v.enter 0 w stage kind).session.workers) :
    w' = { w with stage := stage, operation := v.session.operationFor kind } := by
  have hset : (v.enter 0 w stage kind).session.workers =
      [{ w with stage := stage, operation := v.session.operationFor kind }] := by
    simp [SessionView.enter, SessionView.onSession, hw]
  rwa [hset, List.mem_singleton] at hmem

theorem operation_of_enroll {reply : EngineReply} (hw : v.session.workers = [w])
    (hmem : w' ∈ (v.workerStep 0 w reply).session.workers) (hstage : w'.stage = .enroll) :
    w'.operation = v.session.operationFor .enroll := by
  have hgoto : ∀ (u : SessionView) (stage : WorkerStage), u.session.workers = [w] →
      stage ≠ .enroll → w' ∈ (u.goto 0 w stage).session.workers →
      w'.operation = v.session.operationFor .enroll := by
    intro u stage hu hne hmem'
    exact absurd ((stage_goto hu hmem').symm.trans hstage) hne
  unfold SessionView.workerStep at hmem
  cases hcase : w.stage with
  | testCancelled =>
      rw [hcase] at hmem
      dsimp only at hmem
      split_ifs at hmem
      · exact hgoto v _ hw (by simp) hmem
      · exact hgoto v _ hw (by simp) hmem
  | testAuthenticating | testDetecting =>
      rw [hcase] at hmem
      dsimp only at hmem
      split_ifs at hmem
      · rw [enter_eq hw hmem] at hstage
        cases hstage
      · exact hgoto v _ hw (by simp) hmem
  | testEnrolling =>
      rw [hcase] at hmem
      dsimp only at hmem
      split_ifs at hmem
      · rw [enter_eq hw hmem]
      · exact hgoto v _ hw (by simp) hmem
  | authenticate | analyze | enroll =>
      rw [hcase] at hmem
      dsimp only at hmem
      split_ifs at hmem
      all_goals exact hgoto _ _ hw (by simp) hmem
  | release =>
      rw [hcase] at hmem
      have hnone : (v.onSession fun s => { s with
          processingFrame := false
          workers := s.workers.eraseIdx 0 }).session.workers = [] := by
        simp [SessionView.onSession, hw]
      rw [hnone] at hmem
      cases hmem
  | _ =>
      rw [hcase] at hmem
      exact hgoto _ _ hw (by simp) hmem

end worker

theorem workerStep_kept (v : SessionView) (i : ℕ) (w : Worker) (reply : EngineReply) :
    (v.workerStep i w reply).session.frames = v.session.frames ∧
      (v.workerStep i w reply).session.operations = v.session.operations := by
  unfold SessionView.workerStep
  cases w.stage with
  | testCancelled | testAuthenticating | testDetecting | testEnrolling =>
      dsimp only
      split_ifs <;> exact ⟨rfl, rfl⟩
  | authenticate | analyze | enroll =>
      dsimp only
      split_ifs <;> exact ⟨rfl, rfl⟩
  | _ => exact ⟨rfl, rfl⟩

/-- The frames and the workers stay as they are. -/
structure Session.Quiet (s t : Session) : Prop where
  frames : t.frames = s.frames
  workers : t.workers = s.workers
  processingFrame : t.processingFrame = s.processingFrame

section step
variable {v v' : SessionView} {l : SessionLabel}

theorem quiet_of_step (h : sessionStep v l v') (harrives : l ≠ .frameArrives)
    (hclaims : ∀ k, l ≠ .frameClaims k) (hworker : ∀ k reply, l ≠ .worker k reply) :
    v.session.Quiet v'.session := by
  cases effect_of_step h with
  | started _ hb _ _ => exact ⟨hb.frames, hb.workers, hb.processingFrame⟩
  | failed _ _ hb _ _ => exact ⟨hb.frames, hb.workers, hb.processingFrame⟩
  | canceled _ hc => exact ⟨hc.frames, hc.workers, hc.processingFrame⟩
  | closed u hc ht =>
      rw [ht]
      exact ⟨hc.frames, hc.workers, hc.processingFrame⟩
  | answered _ _ _ _ ht =>
      rw [ht]
      exact ⟨rfl, rfl, rfl⟩
  | arrived _ => exact absurd rfl harrives
  | dropped k _ _ => exact absurd rfl (hclaims k)
  | claimed k _ _ _ _ => exact absurd rfl (hclaims k)
  | worker k w reply _ _ => exact absurd rfl (hworker k reply)
  | alike ha => exact ⟨ha.frames, ha.workers, ha.processingFrame⟩

theorem operations_of_step (h : sessionStep v l v') :
    ∃ rest, v'.session.operations = v.session.operations ++ rest := by
  cases effect_of_step h with
  | started _ hb _ _ => exact ⟨_, hb.operations⟩
  | failed _ _ hb _ _ => exact ⟨_, hb.operations⟩
  | canceled _ hc => exact ⟨[], by rw [hc.operations, List.append_nil]⟩
  | closed u hc ht => exact ⟨[], by rw [ht, List.append_nil, ← hc.operations]⟩
  | answered _ _ _ _ ht => exact ⟨[], by rw [ht, List.append_nil]⟩
  | arrived ht => exact ⟨[], by rw [ht, List.append_nil]⟩
  | dropped _ _ ht => exact ⟨[], by rw [ht, List.append_nil]⟩
  | claimed _ _ _ _ ht => exact ⟨[], by rw [ht, List.append_nil]⟩
  | worker k w reply _ ht =>
      exact ⟨[], by rw [ht, (workerStep_kept v k w reply).2, List.append_nil]⟩
  | alike ha => exact ⟨[], by rw [ha.operations, List.append_nil]⟩

theorem workers_of_step (hv : v.session.Claimed) (h : sessionStep v l v')
    (hl : ∀ k reply, l ≠ .worker k reply) :
    v'.session.workers = v.session.workers ∨ v.session.workers = [] ∧
      ∃ frameOperation, v'.session.workers = [⟨.testCancelled, frameOperation, none⟩] := by
  by_cases harrives : l = .frameArrives
  · obtain rfl := harrives
    obtain rfl := Option.some.inj h
    unfold SessionView.frameArrives
    split_ifs <;> exact .inl rfl
  · by_cases hclaims : ∃ k, l = .frameClaims k
    · obtain ⟨k, rfl⟩ := hclaims
      obtain ⟨frameOperation, -, rfl⟩ := Option.map_eq_some_iff.mp h
      unfold SessionView.frameClaims
      dsimp only
      split_ifs with hp
      · exact .inl rfl
      · rcases hv with ⟨-, hnil⟩ | ⟨hp', -⟩
        · exact .inr ⟨hnil, frameOperation, by simp [SessionView.onSession, hnil]⟩
        · exact absurd hp' hp
    · exact .inl (quiet_of_step h harrives (fun k hk => hclaims ⟨k, hk⟩) hl).workers

theorem sound_step (hv : v.session.Sound) (h : sessionStep v l v') : v'.session.Sound := by
  obtain ⟨rest, hops⟩ := operations_of_step h
  refine ⟨claimed_step hv.claimed h, ?_⟩
  intro w' hmem hstage
  by_cases hl : ∃ k reply, l = .worker k reply
  · obtain ⟨k, reply, rfl⟩ := hl
    obtain ⟨w, hk, rfl⟩ := Option.map_eq_some_iff.mp h
    obtain ⟨rfl, hw⟩ := hv.claimed.only hk
    exact (reports_operationFor (operation_of_enroll hw hmem hstage)).extend hops
  · push Not at hl
    rcases workers_of_step hv.claimed h hl with hsame | ⟨-, frameOperation, hnew⟩
    · rw [hsame] at hmem
      exact (hv.reports w' hmem hstage).extend hops
    · rw [hnew, List.mem_singleton] at hmem
      rw [hmem] at hstage
      cases hstage

end step

namespace FrameHistory

/-- Every frame and every worker of a session has its origin in its place. -/
structure Aligned (h : Hal) (x : FrameHistory) : Prop where
  live : ∀ i s, h.live i = some s →
    (x.arrived i).length = s.frames.length ∧ (x.taken i).length = s.workers.length
  unborn : ∀ i, h.sessions.length ≤ i → x.arrived i = [] ∧ x.taken i = []

variable {h h' : Hal} {x : FrameHistory}

theorem aligned_initial : Aligned .initial initial := by
  refine ⟨?_, fun _ _ => ⟨rfl, rfl⟩⟩
  exact fun i s hs => absurd hs Hal.not_live_initial

theorem Aligned.kept (hx : Aligned h x) (hlen : h.sessions.length ≤ h'.sessions.length)
    (hlive : ∀ i s, h'.live i = some s → h.live i = some s ∨
      h.sessions.length ≤ i ∧ s.frames = [] ∧ s.workers = []) : Aligned h' x := by
  refine ⟨?_, fun i hi => hx.unborn i (hlen.trans hi)⟩
  intro i s hs
  rcases hlive i s hs with hold | ⟨hi, hframes, hworkers⟩
  · exact hx.live i s hold
  · obtain ⟨harrived, htaken⟩ := hx.unborn i hi
    rw [harrived, htaken, hframes, hworkers]
    exact ⟨rfl, rfl⟩

theorem Aligned.put {i : ℕ} {s : Session} {arrived taken : List FrameOrigin} (hx : Aligned h x)
    (hs : h.live i = some s) (v : SessionView) (counted : List CountedFrame)
    (harrived : arrived.length = v.session.frames.length)
    (htaken : taken.length = v.session.workers.length) :
    Aligned (h.put i v)
      ⟨Function.update x.arrived i arrived, Function.update x.taken i taken, counted⟩ := by
  have hlt := Hal.live_lt hs
  constructor
  · intro j t ht
    dsimp only
    rw [Hal.live_put hlt] at ht
    by_cases hij : i = j
    · obtain rfl := hij
      rw [if_pos rfl] at ht
      obtain rfl := Option.some.inj ht
      rw [Function.update_self, Function.update_self]
      exact ⟨harrived, htaken⟩
    · rw [if_neg hij] at ht
      rw [Function.update_of_ne (Ne.symm hij), Function.update_of_ne (Ne.symm hij)]
      exact hx.live j t ht
  · intro j hj
    dsimp only
    have hlen : h.sessions.length ≤ j := by simpa [Hal.put] using hj
    have hne : j ≠ i := by omega
    rw [Function.update_of_ne hne, Function.update_of_ne hne]
    exact hx.unborn j hlen

/-- A step of one session of which the history says nothing. -/
theorem Aligned.quiet {i : ℕ} {s : Session} {v : SessionView} (hx : Aligned h x)
    (hs : h.live i = some s) (hq : s.Quiet v.session) : Aligned (h.put i v) x := by
  obtain ⟨harrived, htaken⟩ := hx.live i s hs
  have hput := hx.put hs v x.counted (harrived.trans (by rw [hq.frames]))
    (htaken.trans (by rw [hq.workers]))
  rwa [Function.update_eq_self, Function.update_eq_self] at hput

theorem Aligned.deliver (hx : Aligned h x) (camera : ℕ) :
    Aligned h.onCameraFrame (x.deliver h camera) := by
  unfold Hal.onCameraFrame FrameHistory.deliver
  cases h.engine.sessionFrameCallback with
  | none => exact hx
  | some j =>
      dsimp only
      cases hs : h.live j with
      | none => exact hx
      | some s =>
          dsimp only
          unfold SessionView.frameArrives
          dsimp only
          split_ifs
          · exact hx.quiet hs ⟨rfl, rfl, rfl⟩
          · obtain ⟨harrived, htaken⟩ := hx.live j s hs
            have hlen : (x.arrived j ++ [FrameOrigin.mk camera s.operations.length]).length =
                (s.frames ++ [s.operationInProgress]).length := by
              simp [harrived]
            have hput := hx.put hs (SessionView.onSession ⟨h.engine, s⟩ fun s =>
              { s with frames := s.frames ++ [s.operationInProgress] }) x.counted hlen htaken
            rwa [Function.update_eq_self] at hput

theorem Aligned.claim {i k : ℕ} {s : Session} {frameOperation : Option ℕ} (hx : Aligned h x)
    (hs : h.live i = some s) (hk : s.frames[k]? = some frameOperation) :
    Aligned (h.put i (SessionView.frameClaims ⟨h.engine, s⟩ k frameOperation))
      (x.claim i k s.processingFrame) := by
  obtain ⟨harrived, htaken⟩ := hx.live i s hs
  have hlt : k < s.frames.length := (List.getElem?_eq_some_iff.mp hk).choose
  have herase : ((x.arrived i).eraseIdx k).length = (s.frames.eraseIdx k).length := by
    rw [List.length_eraseIdx, List.length_eraseIdx, harrived]
  unfold SessionView.frameClaims FrameHistory.claim
  dsimp only [SessionView.onSession]
  by_cases hp : s.processingFrame = true
  · rw [if_pos hp, if_pos hp]
    have hput := hx.put hs ⟨h.engine, { s with frames := s.frames.eraseIdx k }⟩ x.counted herase
      htaken
    rwa [Function.update_eq_self] at hput
  · rw [if_neg hp, if_neg hp]
    have htaker : (x.taken i ++ (x.arrived i)[k]?.toList).length = s.workers.length + 1 := by
      rw [List.getElem?_eq_getElem (by omega)]
      simp [htaken]
    exact hx.put hs _ x.counted herase (htaker.trans (by simp))

theorem Aligned.worker {i k : ℕ} {s : Session} {w : Worker} (hx : Aligned h x)
    (hs : h.live i = some s) (hk : s.workers[k]? = some w) (reply : EngineReply) :
    Aligned (h.put i (SessionView.workerStep ⟨h.engine, s⟩ k w reply))
      (x.record h (.hal (.session i (.worker k reply)))) := by
  obtain ⟨harrived, htaken⟩ := hx.live i s hs
  obtain ⟨hframes, -⟩ := workerStep_kept ⟨h.engine, s⟩ k w reply
  have hrecord : x.record h (.hal (.session i (.worker k reply))) =
      if w.stage = .release then x.release i k else x := by
    unfold FrameHistory.record
    simp [hs, hk]
  rw [hrecord]
  by_cases hstage : w.stage = .release
  · have hworkers : (SessionView.workerStep ⟨h.engine, s⟩ k w reply).session.workers =
        s.workers.eraseIdx k := by
      unfold SessionView.workerStep
      rw [hstage]
      rfl
    rw [if_pos hstage]
    have herase : ((x.taken i).eraseIdx k).length =
        (SessionView.workerStep ⟨h.engine, s⟩ k w reply).session.workers.length := by
      rw [hworkers, List.length_eraseIdx, List.length_eraseIdx, htaken]
    have hput := hx.put hs (SessionView.workerStep ⟨h.engine, s⟩ k w reply) x.counted
      (harrived.trans (by rw [hframes])) herase
    rwa [Function.update_eq_self] at hput
  · rw [if_neg hstage]
    rcases workerStep_workers ⟨h.engine, s⟩ k w reply with ⟨hrelease, -⟩ | ⟨w', hworkers, -⟩
    · exact absurd hrelease hstage
    · have hput := hx.put hs (SessionView.workerStep ⟨h.engine, s⟩ k w reply) x.counted
        (harrived.trans (by rw [hframes])) (htaken.trans (by rw [hworkers, List.length_set]))
      rwa [Function.update_eq_self, Function.update_eq_self] at hput

theorem Aligned.step {l : HalLabel} (hx : Aligned h x) (hstep : halStep h l h') :
    Aligned h' (x.record h (.hal l)) := by
  cases l with
  | createSession sensorId userId =>
      obtain rfl := Option.some.inj hstep
      refine hx.kept ?_ ?_
      · unfold Hal.createSession
        split_ifs
        · exact Nat.le_refl _
        · simp
      · intro i s hs
        rcases Hal.live_createSession hs with hold | ⟨-, rfl, rfl⟩
        · exact .inl hold
        · exact .inr ⟨Nat.le_refl _, rfl, rfl⟩
  | cameraFrame i =>
      obtain ⟨-, -, rfl⟩ := Option.map_eq_some_iff.mp hstep
      exact hx.deliver i
  | destroy i =>
      obtain ⟨s, hs, -, rfl⟩ := Hal.destroy_step hstep
      refine hx.kept (by simp [Hal.destroy]) ?_
      intro j t ht
      rw [Hal.live_destroy (Hal.live_lt hs)] at ht
      split_ifs at ht
      exact .inl ht
  | session i l' =>
      obtain ⟨s, v, hs, hown, hv, rfl⟩ := Hal.session_step hstep
      cases l' with
      | frameClaims k =>
          obtain ⟨frameOperation, hk, rfl⟩ := Option.map_eq_some_iff.mp hv
          have hrecord : x.record h (.hal (.session i (.frameClaims k))) =
              x.claim i k s.processingFrame := by
            unfold FrameHistory.record
            simp [hs]
          rw [hrecord]
          exact hx.claim hs hk
      | worker k reply =>
          obtain ⟨w, hk, rfl⟩ := Option.map_eq_some_iff.mp hv
          exact hx.worker hs hk reply
      | frameArrives | engineChanged engine => cases hown
      | _ => exact hx.quiet hs (quiet_of_step hv (by simp) (by simp) (by simp))

end FrameHistory

end FaceHal
