import FaceHal.ContextPolicy

/-!
# The reason inferred for an authentication

An authentication without a reason takes the one that belongs to the display state
stored last. The stored display state and reason are those of the latest context
as long as no context change ends an authentication before it stores the display,
and no operation ends with a reason still stored.
-/
namespace FaceHal
open Session SessionView

/-- What the client has reported so far. -/
structure ContextHistory where
  /-- The display state of the latest context change. -/
  latest : DisplayState
  /-- A reason was reported since an operation ended. -/
  reported : Bool
deriving DecidableEq, Repr

/-- The call reports a reason. -/
def SessionLabel.reports : SessionLabel → Bool
  | .authenticateWithContext _ context _ _ | .onContextChanged context _ =>
      context.reason != .unknown
  | _ => false

/-- The label asks for an operation of the kind. -/
def SessionLabel.asksFor (l : SessionLabel) (kind : OperationKind) : Bool :=
  l.starts.any fun operation => operation.kind = kind

/-- An operation of the kind has ended or could not start. -/
def endedKind (v : SessionView) (l : SessionLabel) (v' : SessionView) (kind : OperationKind) :
    Bool :=
  (v.session.flag kind || l.asksFor kind) && !v'.session.flag kind

/-- An operation has ended or could not start. -/
def ended (v : SessionView) (l : SessionLabel) (v' : SessionView) : Bool :=
  [OperationKind.enroll, .authenticate, .detectInteraction].any (endedKind v l v')

namespace ContextHistory

def start : ContextHistory := ⟨.unknown, false⟩

def record (v : SessionView) (l : SessionLabel) (v' : SessionView) (x : ContextHistory) :
    ContextHistory where
  latest :=
    match l with
    | .onContextChanged context _ => context.displayState
    | _ => x.latest
  reported := (x.reported || l.reports) && !ended v l v'

end ContextHistory

/-- An authentication without a context has the reason of the latest display state,
unless a reason was reported. -/
def InfersReason (x : ContextHistory) (l : SessionLabel) (v' : SessionView) : Prop :=
  ∀ operationId now start, l = .authenticate operationId now start → x.reported = false →
    v'.session.currentOperationReason = inferredReason x.latest

/-- A context change that ends a prompt reports the display state stored before,
as far as the lock screen goes. -/
def KeepsDisplay (v : SessionView) (l : SessionLabel) : Prop :=
  ∀ context now, l = .onContextChanged context now → PromptOver v.session context now →
    inferredReason context.displayState = inferredReason v.session.currentDisplayState

/-- An operation that ends other than by a match or by `cancel()` leaves no reason, or
the one inferred for an authentication that goes on. -/
def LeavesNoReason (v : SessionView) (l : SessionLabel) : Prop :=
  ∀ kind, l.ends v = some kind → v.session.flag kind = true ∨ l.starts ≠ none →
    kind ≠ .authenticate ∧ (v.session.currentOperationReason = .unknown ∨
      v.session.isAuthenticating = true ∧ v.session.currentOperationReason =
        inferredReason v.session.currentDisplayState)

def TracksContext (v : SessionView) (l : SessionLabel) : Prop :=
  OneAtATime v l ∧ KeepsDisplay v l ∧ LeavesNoReason v l

section
variable {v v' : SessionView} {l : SessionLabel} {ls : List SessionLabel} {x : ContextHistory}

theorem ended_iff : ended v l v' = true ↔ ∃ kind, endedKind v l v' kind = true := by
  simp only [ended, List.any_cons, List.any_nil, Bool.or_false, Bool.or_eq_true]
  constructor
  · rintro (h | h | h)
    all_goals exact ⟨_, h⟩
  · rintro ⟨kind, h⟩
    cases kind with
    | enroll => exact .inl h
    | authenticate => exact .inr (.inl h)
    | detectInteraction => exact .inr (.inr h)

theorem not_ended (hflag : ∀ kind, v.session.flag kind = true → v'.session.flag kind = true)
    (hstarts : ∀ operation, l.starts = some operation → v'.session.flag operation.kind = true) :
    ended v l v' = false := by
  rw [Bool.eq_false_iff, Ne, ended_iff]
  rintro ⟨kind, h⟩
  rw [endedKind, Bool.and_eq_true, Bool.or_eq_true] at h
  obtain ⟨hset | hasks, hclear⟩ := h
  · rw [hflag kind hset] at hclear
    cases hclear
  · unfold SessionLabel.asksFor at hasks
    cases hop : l.starts with
    | none =>
        rw [hop] at hasks
        cases hasks
    | some operation =>
        rw [hop, Option.any_some, decide_eq_true_eq] at hasks
        rw [← hasks, hstarts operation hop] at hclear
        cases hclear

/-- The display state that a step stores. -/
def storedDisplay (s : Session) : SessionLabel → DisplayState
  | .onContextChanged context now =>
      if PromptOver s context now then s.currentDisplayState else context.displayState
  | _ => s.currentDisplayState

theorem context_startCamera (v : SessionView) (start : CameraStart) (kind : OperationKind) :
    (v.startCamera start (Session.clear kind)).session.currentDisplayState =
        v.session.currentDisplayState ∧
      (v.startCamera start (Session.clear kind)).session.currentOperationReason =
        v.session.currentOperationReason := by
  rcases startCamera_cases v start (Session.clear kind) with ⟨-, code, -, heq⟩ | ⟨-, heq⟩
  · rw [heq]
    cases kind <;> exact ⟨rfl, rfl⟩
  · rw [heq]
    exact ⟨rfl, rfl⟩

theorem authenticate_context (v : SessionView) (operationId : Int64) (now : ℕ)
    (start : CameraStart) :
    (v.authenticate operationId now start).session.currentDisplayState =
        v.session.currentDisplayState ∧
      (v.authenticate operationId now start).session.currentOperationReason =
        v.session.currentOperationReason.orInferred v.session.currentDisplayState := by
  unfold authenticate
  obtain ⟨hdisplay, hreason⟩ := context_startCamera
    ((((((v.begin (.authenticate operationId)).onSession fun s =>
      { s with currentChallenge := operationId.toUInt64 }).onEngine
        FaceEngine.startOperation).onSession fun s =>
          { s with isAuthenticating := true, authStartTime := now }).onSession inferReason))
    start .authenticate
  rw [session_onSession, inferReason_orInferred] at hdisplay hreason
  exact ⟨hdisplay, hreason⟩

theorem display_cancel (v : SessionView) :
    v.cancel.session.currentDisplayState = v.session.currentDisplayState := by
  unfold cancel
  dsimp only
  split_ifs <;> rfl

theorem display_contextStep (s : Session) (context : OperationContext) (now : ℕ) :
    (contextStep s context now).1.currentDisplayState =
      if PromptOver s context now then s.currentDisplayState else context.displayState := by
  rw [contextStep_eq]
  split_ifs <;> rfl

theorem display_of_step (h : sessionStep v l v') :
    v'.session.currentDisplayState = storedDisplay v.session l := by
  unfold sessionStep at h
  cases l with
  | enroll start =>
      obtain rfl := Option.some.inj h
      exact (context_startCamera _ start .enroll).1
  | authenticate operationId now start =>
      obtain rfl := Option.some.inj h
      exact (authenticate_context _ operationId now start).1
  | authenticateWithContext operationId context now start =>
      obtain rfl := Option.some.inj h
      exact (authenticate_context _ operationId now start).1
  | detectInteraction start =>
      obtain rfl := Option.some.inj h
      exact (context_startCamera _ start .detectInteraction).1
  | onContextChanged context now =>
      obtain rfl := Option.some.inj h
      refine Eq.trans ?_ (display_contextStep v.session context now)
      unfold onContextChanged
      dsimp only
      split_ifs
      · exact display_cancel _
      · rfl
  | cancel =>
      obtain rfl := Option.some.inj h
      exact display_cancel v
  | close =>
      obtain rfl := Option.some.inj h
      exact display_cancel v
  | frameArrives =>
      obtain rfl := Option.some.inj h
      unfold frameArrives
      split_ifs <;> rfl
  | frameClaims i =>
      obtain ⟨frameOperation, -, rfl⟩ := Option.map_eq_some_iff.mp h
      unfold frameClaims
      dsimp only
      split_ifs <;> rfl
  | worker i reply =>
      obtain ⟨w, -, rfl⟩ := Option.map_eq_some_iff.mp h
      unfold workerStep
      cases w.stage with
      | testCancelled | testAuthenticating | testDetecting | testEnrolling =>
          dsimp only
          split_ifs <;> rfl
      | authenticate | analyze | enroll =>
          dsimp only
          split_ifs <;> rfl
      | _ => rfl
  | setFeature feature enabled =>
      obtain rfl := Option.some.inj h
      cases feature <;> rfl
  | _ =>
      obtain rfl := Option.some.inj h
      rfl

/-- What is stored goes with what the client has reported. -/
structure Tracked (v : SessionView) (x : ContextHistory) : Prop where
  informed : v.session.Informed
  display : inferredReason v.session.currentDisplayState = inferredReason x.latest
  idle : x.reported = false → v.session.isAuthenticating = false →
    v.session.currentOperationReason = .unknown ∨
      ∃ w ∈ v.session.workers, w.stage.clearsReason = true
  active : x.reported = false → v.session.isAuthenticating = true →
    v.session.currentOperationReason = inferredReason v.session.currentDisplayState

/-- With no reason reported, the display state decides. -/
theorem Tracked.orInferred (hx : Tracked v x) (hone : OneAtATime v l) (hcall : l.isCall = true)
    (hreported : x.reported = false) :
    v.session.currentOperationReason.orInferred v.session.currentDisplayState =
      inferredReason v.session.currentDisplayState := by
  unfold OperationReason.orInferred
  cases hauth : v.session.isAuthenticating with
  | true =>
      rw [hx.active hreported hauth, ite_self]
  | false =>
      rcases hx.idle hreported hauth with hreason | ⟨w, hw, hstage⟩
      · rw [if_pos hreason]
      · have hnone := hone hcall w hw
        rw [hstage] at hnone
        cases hnone

theorem tracked_display (hx : Tracked v x) (hkeeps : KeepsDisplay v l) (h : sessionStep v l v') :
    inferredReason v'.session.currentDisplayState =
      inferredReason (ContextHistory.record v l v' x).latest := by
  rw [display_of_step h]
  cases l with
  | onContextChanged context now =>
      unfold storedDisplay
      dsimp only
      split_ifs with hover
      · exact (hkeeps context now rfl hover).symm
      · rfl
  | _ => exact hx.display

theorem storedDisplay_of_not_context (h : l.setsContext = false) :
    storedDisplay v.session l = v.session.currentDisplayState := by
  cases l with
  | onContextChanged => cases h
  | _ => rfl

theorem flag_of_ended {kind : OperationKind}
    (hflag : ∀ kind', kind' ≠ kind → v'.session.flag kind' = v.session.flag kind')
    (h : ended v l v' = true) : v.session.flag kind = true ∨ l.starts ≠ none := by
  obtain ⟨kind', hended⟩ := ended_iff.mp h
  rw [endedKind, Bool.and_eq_true, Bool.or_eq_true] at hended
  obtain ⟨hset | hasks, hclear⟩ := hended
  · by_cases hkind : kind' = kind
    · rw [← hkind]
      exact .inl hset
    · rw [hflag kind' hkind, hset] at hclear
      cases hclear
  · refine .inr ?_
    intro hnone
    rw [SessionLabel.asksFor, hnone] at hasks
    cases hasks

theorem reason_contextStep_idle {s : Session} {context : OperationContext} {now : ℕ}
    (hauth : s.isAuthenticating = false) (hreason : context.reason = .unknown) :
    (contextStep s context now).1.currentOperationReason = s.currentOperationReason := by
  have hafter : s.currentOperationReason.after context = s.currentOperationReason := if_pos hreason
  rw [contextStep_eq, hafter, hauth]
  simp only [Bool.false_eq_true, and_false, if_false]
  split_ifs <;> rfl

/-- With no reason reported before or in the call, an authentication takes the one of
the display state. -/
theorem Tracked.given {reason : OperationReason} (hx : Tracked v x) (hone : OneAtATime v l)
    (hgiven : l.givenReason v.session = some reason) (hreported : x.reported = false)
    (hreports : l.reports = false) :
    reason.orInferred v.session.currentDisplayState =
      inferredReason v.session.currentDisplayState := by
  cases l with
  | authenticate operationId now start =>
      obtain rfl := Option.some.inj hgiven
      exact hx.orInferred hone rfl hreported
  | authenticateWithContext operationId context now start =>
      obtain rfl := Option.some.inj hgiven
      exact if_pos (by simpa [SessionLabel.reports] using hreports)
  | _ => cases hgiven

theorem unreported_of_record (hended : ended v l v' = false)
    (hrecord : (ContextHistory.record v l v' x).reported = false) :
    x.reported = false ∧ l.reports = false := by
  change ((x.reported || l.reports) && !ended v l v') = false at hrecord
  rw [hended, Bool.not_false, Bool.and_true, Bool.or_eq_false_iff] at hrecord
  exact hrecord

theorem SameForgetting.forgetting {s t : Session} (h : SameForgetting s t)
    (hs : ∃ w ∈ s.workers, w.stage.clearsReason = true) :
    ∃ w ∈ t.workers, w.stage.clearsReason = true := by
  obtain ⟨w, hw, hstage⟩ := hs
  exact ⟨w, (h w hstage).mpr hw, hstage⟩

theorem Tracked.begins {reason : OperationReason} (hx : Tracked v x) (hl : TracksContext v l)
    (h : sessionStep v l v') (hgiven : l.givenReason v.session = some reason)
    (hreason : v'.session.currentOperationReason =
      reason.orInferred v.session.currentDisplayState)
    (hauth : l.ends v = some .authenticate ∨ v'.session.isAuthenticating = true ∧
      ∀ kind, v.session.flag kind = true → v'.session.flag kind = true) :
    Tracked v' (ContextHistory.record v l v' x) := by
  obtain ⟨hone, hkeeps, hleaves⟩ := hl
  have hlabel : l.starts ≠ none ∧ storedDisplay v.session l = v.session.currentDisplayState ∧
      ∀ operation, l.starts = some operation → operation.kind = .authenticate := by
    cases l with
    | authenticate | authenticateWithContext =>
        refine ⟨nofun, rfl, ?_⟩
        rintro _ ⟨⟩
        rfl
    | _ => cases hgiven
  obtain ⟨hstarts, hsame, hkind⟩ := hlabel
  rcases hauth with hfails | ⟨hset, hflag⟩
  · exact absurd rfl (hleaves .authenticate hfails (.inr hstarts)).1
  have hended : ended v l v' = false := by
    refine not_ended hflag ?_
    intro operation hop
    rw [hkind operation hop]
    exact hset
  refine ⟨informed_step hx.informed ⟨hone, h⟩, tracked_display hx hkeeps h, ?_, ?_⟩
  · intro _ hclear
    rw [hset] at hclear
    cases hclear
  · intro hrecord _
    obtain ⟨hreported, hreports⟩ := unreported_of_record hended hrecord
    rw [hreason, display_of_step h, hsame]
    exact hx.given hone hgiven hreported hreports

theorem Tracked.context {context : OperationContext} {now : ℕ} (hx : Tracked v x)
    (hl : TracksContext v (.onContextChanged context now))
    (h : sessionStep v (.onContextChanged context now) v')
    (hkept : (contextStep v.session context now).2 = false)
    (ht : v'.session = (contextStep v.session context now).1) :
    Tracked v' (ContextHistory.record v (.onContextChanged context now) v' x) := by
  obtain ⟨hone, hkeeps, -⟩ := hl
  have halike := alike_contextStep v.session context now
  rw [← ht] at halike
  have hended : ended v (.onContextChanged context now) v' = false := by
    refine not_ended ?_ nofun
    intro kind hset
    rw [halike.flag, hset]
  refine ⟨informed_step hx.informed ⟨hone, h⟩, tracked_display hx hkeeps h, ?_, ?_⟩
  · intro hrecord hclear
    obtain ⟨hreported, hnone⟩ := unreported_of_record hended hrecord
    have hidle : v.session.isAuthenticating = false :=
      (halike.flag .authenticate).symm.trans hclear
    have hreason : context.reason = .unknown := by simpa [SessionLabel.reports] using hnone
    rw [ht, reason_contextStep_idle hidle hreason, ← ht, halike.workers]
    exact hx.idle hreported hidle
  · intro _ hset
    have hauth : v.session.isAuthenticating = true :=
      (halike.flag .authenticate).symm.trans hset
    obtain ⟨hd, hr⟩ := contextStep_goes_on (hx.informed.known hauth) hauth hkept
    rw [ht, hr, hd]

theorem Tracked.ends {kind : OperationKind} (hx : Tracked v x) (hl : TracksContext v l)
    (h : sessionStep v l v') (hends : l.ends v = some kind) (hkind : kind ≠ .authenticate)
    (hflag : ∀ kind', kind' ≠ kind → v'.session.flag kind' = v.session.flag kind')
    (hreason : v'.session.currentOperationReason = v.session.currentOperationReason)
    (hworkers : SameForgetting v.session v'.session) :
    Tracked v' (ContextHistory.record v l v' x) := by
  obtain ⟨hone, hkeeps, hleaves⟩ := hl
  have hauth : v'.session.isAuthenticating = v.session.isAuthenticating :=
    hflag .authenticate (Ne.symm hkind)
  have hsame : storedDisplay v.session l = v.session.currentDisplayState := by
    cases l with
    | onContextChanged => cases hends
    | _ => rfl
  have hleft : (ContextHistory.record v l v' x).reported = false →
      x.reported = false ∨ v.session.currentOperationReason = .unknown ∨
        v.session.isAuthenticating = true ∧ v.session.currentOperationReason =
          inferredReason v.session.currentDisplayState := by
    intro hrecord
    cases hended : ended v l v' with
    | false => exact .inl (unreported_of_record hended hrecord).1
    | true => exact .inr (hleaves kind hends (flag_of_ended hflag hended)).2
  refine ⟨informed_step hx.informed ⟨hone, h⟩, tracked_display hx hkeeps h, ?_, ?_⟩
  · intro hrecord hclear
    rw [hauth] at hclear
    rw [hreason]
    rcases hleft hrecord with hreported | hnone | ⟨hset, -⟩
    · exact (hx.idle hreported hclear).imp_right hworkers.forgetting
    · exact .inl hnone
    · rw [hclear] at hset
      cases hset
  · intro hrecord hset
    rw [hauth] at hset
    rw [hreason, display_of_step h, hsame]
    rcases hleft hrecord with hreported | hnone | ⟨-, hinferred⟩
    · exact hx.active hreported hset
    · exact absurd hnone (hx.informed.known hset)
    · exact hinferred

theorem tracked_step (hx : Tracked v x) (hl : TracksContext v l) (h : sessionStep v l v') :
    Tracked v' (ContextHistory.record v l v' x) := by
  have hinformed := informed_step hx.informed ⟨hl.1, h⟩
  have hdisplay := tracked_display hx hl.2.1 h
  cases context_of_step hx.informed.claimed h with
  | begins reason hgiven hreason _ hauth => exact hx.begins hl h hgiven hreason hauth
  | cancels hflag hreason _ =>
      refine ⟨hinformed, hdisplay, fun _ _ => .inl hreason, ?_⟩
      intro _ hset
      have hclear : v'.session.isAuthenticating = false := hflag .authenticate
      rw [hset] at hclear
      cases hclear
  | context context now hlabel hkept ht =>
      subst hlabel
      exact hx.context hl h hkept ht
  | matched w hclear hreason hw hworkers =>
      refine ⟨hinformed, hdisplay, fun _ _ => .inr ⟨w, hworkers, hw⟩, ?_⟩
      intro _ hset
      rw [hclear] at hset
      cases hset
  | forgets w hw hworker hflag hreason _ =>
      refine ⟨hinformed, hdisplay, fun _ _ => .inl hreason, ?_⟩
      intro _ hset
      exact absurd hreason (hinformed.known hset)
  | ends kind hends hkind hflag hreason hworkers =>
      exact hx.ends hl h hends hkind hflag hreason hworkers
  | kept hlabel hflag hauth hstarts hreason hworkers =>
      have hended := not_ended hflag hstarts
      refine ⟨hinformed, hdisplay, ?_, ?_⟩
      · intro hrecord hclear
        rw [hauth] at hclear
        rw [hreason]
        exact (hx.idle (unreported_of_record hended hrecord).1 hclear).imp_right
          hworkers.forgetting
      · intro hrecord hset
        rw [hauth] at hset
        rw [hreason, display_of_step h, storedDisplay_of_not_context hlabel]
        exact hx.active (unreported_of_record hended hrecord).1 hset

theorem Tracked.infersReason (hx : Tracked v x) (hone : OneAtATime v l) (h : sessionStep v l v') :
    InfersReason x l v' := by
  rintro operationId now start rfl hreported
  obtain rfl := Option.some.inj h
  rw [(authenticate_context v operationId now start).2, hx.orInferred hone rfl hreported]
  exact hx.display

theorem SessionView.Fresh.tracked (h : v.Fresh) : Tracked v .start := by
  refine ⟨h.informed, ?_, ?_, ?_⟩
  · rw [h]
    rfl
  · rw [h]
    exact fun _ _ => .inl rfl
  · rw [h]
    exact nofun

/-- In a run in which no prompt ends on a change of the lock screen and no operation
leaves a reason behind, every authentication infers its reason from the latest
context. -/
theorem infersReason_of_tracked (hfresh : v.Fresh)
    (h : Runs (guarded TracksContext sessionStep) v ls v') :
    ∃ x, Runs (fun s l t => withHistory sessionStep ContextHistory.record s l t ∧
      InfersReason s.2 l t.1) (v, ContextHistory.start) ls (v', x) := by
  obtain ⟨x, hx⟩ := h.recorded ContextHistory.record .start
  refine ⟨x, (hx.strengthen (P := fun s => Tracked s.1 s.2) ?_ hfresh.tracked).1⟩
  rintro s l t hs ⟨⟨hl, hstep⟩, hrecord⟩
  refine ⟨⟨⟨hstep, hrecord⟩, hs.infersReason hl.1 hstep⟩, ?_⟩
  rw [hrecord]
  exact tracked_step hs hl hstep

/-- An authentication at the lock screen. -/
def lockscreenRun : List SessionLabel :=
  [.onContextChanged ⟨.unknown, .lockscreen⟩ 0, .authenticate 7 0 .started]

theorem lockscreenRun_infersReason : ∃ v' x, v'.session.currentOperationReason = .keyguard ∧
    Runs (fun s l t => withHistory sessionStep ContextHistory.record s l t ∧
      InfersReason s.2 l t.1) (newSession, ContextHistory.start) lockscreenRun (v', x) := by
  have htracks : ∀ {u : SessionView} {l : SessionLabel}, u.session.workers = [] →
      u.session.isAuthenticating = false → l.ends u = none → TracksContext u l := by
    intro u l hworkers hauth hends
    refine ⟨?_, ?_, ?_⟩
    · rw [OneAtATime, hworkers]
      exact fun _ => nofun
    · rintro context now - ⟨hset, -⟩
      rw [hauth] at hset
      cases hset
    · rw [LeavesNoReason, hends]
      exact nofun
  obtain ⟨v', hrun, hreason⟩ : ∃ v', Runs (guarded TracksContext sessionStep) newSession
      lockscreenRun v' ∧ v'.session.currentOperationReason = .keyguard :=
    ⟨_, .cons ⟨htracks rfl rfl rfl, rfl⟩ (.cons ⟨htracks rfl rfl rfl, rfl⟩ (.nil _)), rfl⟩
  obtain ⟨x, hx⟩ := infersReason_of_tracked (v := newSession) rfl hrun
  exact ⟨v', x, hreason, hx⟩

/-- A second authentication after the first one lost its prompt to the lock screen. -/
def promptLostRun : List SessionLabel :=
  [.authenticate 1 0 .started, .onContextChanged ⟨.unknown, .lockscreen⟩ 1500,
    .authenticate 2 2000 .started]

theorem promptLost_infers_prompt : ¬ ∀ (v v' : SessionView) (ls : List SessionLabel), v.Fresh →
    Runs sessionStep v ls v' → ∃ x, Runs (fun s l t =>
      withHistory sessionStep ContextHistory.record s l t ∧ InfersReason s.2 l t.1)
        (v, ContextHistory.start) ls (v', x) := by
  intro h
  obtain ⟨x, hx⟩ := h newSession _ promptLostRun rfl
    (.cons rfl (.cons rfl (.cons rfl (.nil _))))
  obtain _ | ⟨⟨⟨hauthenticate, hrecord⟩, -⟩, hx⟩ := hx
  obtain _ | ⟨⟨⟨hcontext, hrecord'⟩, -⟩, hx⟩ := hx
  obtain _ | ⟨⟨⟨hagain, -⟩, hinfers⟩, -⟩ := hx
  have hreason := hinfers 2 2000 .started rfl
  rw [hrecord', hrecord, ← Option.some.inj hagain, ← Option.some.inj hcontext,
    ← Option.some.inj hauthenticate] at hreason
  revert hreason
  decide

end
end FaceHal
