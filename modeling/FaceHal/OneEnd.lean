import FaceHal.SessionRuns

/-!
# At most one end for each operation

A worker tests the flag of an operation once and then runs an engine call, while
the client may end the operation. `OneEnd` says of the callbacks of a session that
no operation ends twice and that nothing of an operation follows its end. It holds
of every run in which the client does not cancel while a callback of a worker is
on its way and an engine call that outlives its operation reports nothing. The
enrolment branch reports on every answer of the engine, so a cancelled enrolment is
followed by a frame callback.
-/
namespace FaceHal

structure OneEnd (posted : List Post) : Prop where
  once : ∀ k,
    (posted.filter fun p => p.callback.isTerminal && decide (p.operation = some k)).length ≤ 1
  silent : posted.Pairwise fun p q =>
    (p.callback.isTerminal = true ∧ p.operation ≠ none ∧ q.operation = p.operation ∨
      p.callback = .onSessionClosed) → q.callback.isReport = false

theorem OneEnd.nil : OneEnd [] := ⟨by simp, .nil⟩

theorem OneEnd.append {posted : List Post} {p : Post} (h : OneEnd posted)
    (hend : p.callback.isTerminal = true → ∀ k, p.operation = some k →
      ∀ q ∈ posted, q.callback.isTerminal = true → q.operation ≠ some k)
    (hreport : p.callback.isReport = true → ∀ q ∈ posted, q.callback ≠ .onSessionClosed ∧
      (q.callback.isTerminal = true → q.operation ≠ none → p.operation ≠ q.operation)) :
    OneEnd (posted ++ [p]) := by
  refine ⟨?_, ?_⟩
  · intro k
    rw [List.filter_append, List.length_append]
    by_cases hp : (p.callback.isTerminal && decide (p.operation = some k)) = true
    · have hp' : p.callback.isTerminal = true ∧ p.operation = some k := by simpa using hp
      have hnone : (posted.filter fun q =>
          q.callback.isTerminal && decide (q.operation = some k)) = [] := by
        rw [List.filter_eq_nil_iff]
        intro q hq hq'
        have hq'' : q.callback.isTerminal = true ∧ q.operation = some k := by simpa using hq'
        exact hend hp'.1 k hp'.2 q hq hq''.1 hq''.2
      rw [hnone, List.length_nil, Nat.zero_add]
      exact List.length_filter_le _ [p]
    · have hnone : ([p].filter fun q =>
          q.callback.isTerminal && decide (q.operation = some k)) = [] := by
        rw [List.filter_eq_nil_iff]
        intro q hq
        rw [List.mem_singleton.mp hq]
        exact hp
      rw [hnone, List.length_nil, Nat.add_zero]
      exact h.once k
  · rw [List.pairwise_append]
    refine ⟨h.silent, List.pairwise_singleton _ _, ?_⟩
    intro q hq p' hp' hsilenced
    obtain rfl := List.mem_singleton.mp hp'
    by_contra hrep
    obtain ⟨hclosed, hended⟩ := hreport (by simpa using hrep) q hq
    rcases hsilenced with ⟨ht, hsome, heq⟩ | hc
    · exact hended ht hsome heq
    · exact hclosed hc

/-- From these stages a worker always goes on to post a callback. -/
def WorkerStage.isPending : WorkerStage → Bool
  | .testCancelled | .testAuthenticating | .testDetecting | .testEnrolling => false
  | .authenticate | .analyze | .release => false
  | _ => true

/-- No worker is on its way to a callback. -/
def Session.NonePending (s : Session) : Prop := ∀ w ∈ s.workers, w.stage.isPending = false

/-- The worker's operation has ended meanwhile. -/
def Worker.IsLate (s : Session) (w : Worker) : Prop := ∃ k ∈ w.operation, s.hasEnded k = true

/-- What the engine answers a late worker is not reported, and `KEEP` never comes
with a full frame count. -/
def QuietStep (v : SessionView) (w : Worker) (reply : EngineReply) : Prop :=
  match w.stage with
  | .authenticate => w.IsLate v.session → reply.res < 0
  | .analyze => w.IsLate v.session → reply.res ≠ VendorCode.faceOk
  | .readFrameCount _ => v.engine.enrollFrameCount ≠ FaceEngine.enrollRequiredGoodFrames
  | _ => True

/-- Nothing is cancelled or closed while a worker is on its way to a callback, late
workers stay quiet, and no operation starts after the session was closed. -/
def Orderly (v : SessionView) (l : SessionLabel) : Prop :=
  (l.cancels v.session = true → v.isBusy = true → v.session.NonePending) ∧
  (l = .close → v.session.NonePending) ∧
  (l.starts ≠ none → ¬ v.session.Closed) ∧
  match l with
  | .worker i reply => ∀ w ∈ v.session.workers[i]?, QuietStep v w reply
  | _ => True

instance (v : SessionView) (w : Worker) (reply : EngineReply) :
    Decidable (QuietStep v w reply) := by
  unfold QuietStep Worker.IsLate
  split <;> infer_instance

instance (v : SessionView) (l : SessionLabel) : Decidable (Orderly v l) := by
  unfold Orderly Session.NonePending Session.Closed
  split <;> infer_instance

namespace Session

/-- The operation `k` is the last one, of this kind, and has not ended. -/
def Serves (s : Session) (kind : OperationKind) (k : ℕ) : Prop :=
  s.operations.length = k + 1 ∧ s.hasEnded k = false ∧
    ∃ operation, s.operations[k]? = some operation ∧ operation.kind = kind

/-- Its flag is set. -/
def Running (s : Session) (kind : OperationKind) (k : ℕ) : Prop :=
  s.flag kind = true ∧ s.Serves kind k

/-- The flags are clear but the end is not reported yet. -/
def Finishing (s : Session) (k : ℕ) : Prop :=
  (∀ kind, s.flag kind = false) ∧ ¬ s.Closed ∧ s.operations.length = k + 1 ∧ s.hasEnded k = false

/-- What a worker may rely on at its stage. -/
def Fits (s : Session) (w : Worker) : Prop :=
  match w.stage with
  | .authenticate => ∃ k, w.operation = some k ∧ k < s.operations.length ∧
      (s.hasEnded k = false → s.Running .authenticate k)
  | .analyze => ∃ k, w.operation = some k ∧ k < s.operations.length ∧
      (s.hasEnded k = false → s.Running .detectInteraction k)
  | .clearAuthenticating _ => ∃ k, w.operation = some k ∧ s.Running .authenticate k
  | .clearDetecting => ∃ k, w.operation = some k ∧ s.Running .detectInteraction k
  | .enroll | .readFrameCount _ | .clearEnrolling _ => ∃ k, w.operation = some k ∧
    s.Running .enroll k
  | .clearReason _ | .stopAfterMatch _ | .readChallenge _ => ∃ k, w.operation = some k ∧
    s.Finishing k
  | .stopAfterDetection | .stopAfterEnrollment _ => ∃ k, w.operation = some k ∧ s.Finishing k
  | .post callback => callback ≠ .onSessionClosed ∧ ∃ k, w.operation = some k ∧
      if callback.isTerminal then s.Finishing k else ∃ kind, s.Running kind k
  | _ => True

/-- What holds between any two steps of an orderly run, workers apart. -/
structure Consistent (s : Session) : Prop where
  claimed : s.Claimed
  numbered : ∀ p ∈ s.posted, ∀ k, p.operation = some k → k < s.operations.length
  serving : ∀ kind, s.flag kind = true → ∃ k, s.Serves kind k
  closed : s.Closed → ∀ kind, s.flag kind = false
  oneEnd : OneEnd s.posted

section lemmas
variable {s t : Session} {w : Worker} {k : ℕ} {p : Post}

theorem Serves.kind_eq {kind kind' : OperationKind} {k' : ℕ} (h : s.Serves kind k)
    (h' : s.Serves kind' k') : kind = kind' ∧ k = k' := by
  obtain ⟨hl, -, operation, hop, rfl⟩ := h
  obtain ⟨hl', -, operation', hop', rfl⟩ := h'
  obtain rfl : k = k' := by omega
  rw [hop] at hop'
  obtain rfl := Option.some.inj hop'
  exact ⟨rfl, rfl⟩

section congruence
variable (hflag : ∀ kind, t.flag kind = s.flag kind) (hops : t.operations = s.operations)
variable (hended : ∀ k, t.hasEnded k = s.hasEnded k) (hclosed : t.Closed → s.Closed)
include hflag hops hended

theorem running_congr {kind : OperationKind} (h : s.Running kind k) : t.Running kind k := by
  unfold Running Serves at h ⊢
  rwa [hflag, hops, hended]

include hclosed

theorem finishing_congr (h : s.Finishing k) : t.Finishing k := by
  obtain ⟨h₁, h₂, h₃, h₄⟩ := h
  refine ⟨?_, fun hc => h₂ (hclosed hc), ?_, ?_⟩
  · intro kind
    rw [hflag, h₁]
  · rw [hops, h₃]
  · rw [hended, h₄]

theorem fits_congr (h : s.Fits w) : t.Fits w := by
  have hrun : ∀ kind k, s.Running kind k → t.Running kind k :=
    fun kind k => running_congr hflag hops hended
  have hfin : ∀ k, s.Finishing k → t.Finishing k :=
    fun k => finishing_congr hflag hops hended hclosed
  unfold Fits at h ⊢
  cases hw : w.stage with
  | authenticate | analyze =>
      rw [hw] at h
      obtain ⟨k, hk, hlt, hrest⟩ := h
      refine ⟨k, hk, by rwa [hops], ?_⟩
      intro hne
      rw [hended] at hne
      exact hrun _ _ (hrest hne)
  | clearAuthenticating _ | clearDetecting | enroll | readFrameCount _ | clearEnrolling _ =>
      rw [hw] at h
      obtain ⟨k, hk, hrest⟩ := h
      exact ⟨k, hk, hrun _ _ hrest⟩
  | clearReason _ | stopAfterMatch _ | readChallenge _ | stopAfterDetection
  | stopAfterEnrollment _ =>
      rw [hw] at h
      obtain ⟨k, hk, hrest⟩ := h
      exact ⟨k, hk, hfin _ hrest⟩
  | post callback =>
      rw [hw] at h
      obtain ⟨hne, k, hk, hrest⟩ := h
      refine ⟨hne, k, hk, ?_⟩
      split_ifs with ht
      · rw [if_pos ht] at hrest
        exact hfin _ hrest
      · rw [if_neg ht] at hrest
        obtain ⟨kind, hr⟩ := hrest
        exact ⟨kind, hrun _ _ hr⟩
  | _ => trivial

end congruence

/-- A worker that is not pending, in a session without a running operation, stays
fitting when operations are added or end. -/
theorem fits_of_ended (h : s.Fits w) (hw : w.stage.isPending = false)
    (hops : s.operations.length ≤ t.operations.length)
    (hended : ∀ k, s.hasEnded k = true ∨ (∃ kind, s.Running kind k) → t.hasEnded k = true) :
    t.Fits w := by
  unfold Fits at h ⊢
  cases hs : w.stage with
  | authenticate | analyze =>
      rw [hs] at h
      obtain ⟨k, hk, hlt, hrest⟩ := h
      refine ⟨k, hk, Nat.lt_of_lt_of_le hlt hops, ?_⟩
      intro hne
      have hend : t.hasEnded k = true := by
        cases he : s.hasEnded k with
        | true => exact hended k (.inl he)
        | false => exact hended k (.inr ⟨_, hrest he⟩)
      rw [hend] at hne
      cases hne
  | testCancelled | testAuthenticating | testDetecting | testEnrolling | release => trivial
  | _ =>
      rw [hs] at hw
      cases hw

/-- A callback more, of an operation that has been requested or of none. -/
theorem Consistent.numbered_append (h : s.Consistent)
    (hops : s.operations.length ≤ t.operations.length)
    (hposted : t.posted = s.posted ++ [p])
    (hp : ∀ j, p.operation = some j → j < t.operations.length) :
    ∀ q ∈ t.posted, ∀ j, q.operation = some j → j < t.operations.length := by
  rw [hposted]
  intro q hq j hj
  rcases List.mem_append.mp hq with hq | hq
  · exact Nat.lt_of_lt_of_le (h.numbered q hq j hj) hops
  · rw [List.mem_singleton.mp hq] at hj
    exact hp j hj

/-- The flags stand for the operations that they stood for. -/
theorem Consistent.serving_congr (h : s.Consistent) (hflag : ∀ kind, t.flag kind = s.flag kind)
    (hops : t.operations = s.operations) (hended : ∀ j, t.hasEnded j = s.hasEnded j) :
    ∀ kind, t.flag kind = true → ∃ k, t.Serves kind k := by
  intro kind hk
  rw [hflag] at hk
  obtain ⟨k, hs⟩ := h.serving kind hk
  refine ⟨k, ?_⟩
  unfold Serves at hs ⊢
  rwa [hops, hended]

theorem Consistent.congr (h : s.Consistent) (hflag : ∀ kind, t.flag kind = s.flag kind)
    (hops : t.operations = s.operations) (hposted : t.posted = s.posted) (hclaimed : t.Claimed) :
    t.Consistent := by
  have hclosed : t.Closed → s.Closed := by
    unfold Closed
    rw [hposted]
    exact id
  refine ⟨hclaimed, ?_, h.serving_congr hflag hops fun _ => hasEnded_congr hposted, ?_, ?_⟩
  · rw [hposted, hops]
    exact h.numbered
  · intro hc kind
    rw [hflag]
    exact h.closed (hclosed hc) kind
  · rw [hposted]
    exact h.oneEnd

theorem Consistent.end (h : s.Consistent) (hlast : s.operations.length = k + 1)
    (hopen : s.hasEnded k = false) (hp : p.operation = some k)
    (hreport : p.callback.isReport = true → ¬ s.Closed)
    (hops : t.operations = s.operations) (hposted : t.posted = s.posted ++ [p])
    (hflag : ∀ kind, t.flag kind = false) (hclaimed : t.Claimed) : t.Consistent := by
  refine ⟨hclaimed, h.numbered_append (Nat.le_of_eq (congrArg List.length hops.symm)) hposted ?_,
    ?_, ?_, ?_⟩
  · intro j hj
    rw [hp] at hj
    obtain rfl := Option.some.inj hj
    rw [hops]
    omega
  · intro kind hk
    rw [hflag] at hk
    cases hk
  · intro _ kind
    exact hflag kind
  · rw [hposted]
    refine h.oneEnd.append ?_ ?_
    · intro _ j hj
      rw [hp] at hj
      obtain rfl := Option.some.inj hj
      exact not_hasEnded hopen
    · intro hr q hq
      refine ⟨fun hc => hreport hr ⟨q, hq, hc⟩, ?_⟩
      intro hqt _ heq
      rw [hp] at heq
      exact not_hasEnded hopen q hq hqt heq.symm

theorem hasEnded_append_of_not_terminal (hposted : t.posted = s.posted ++ [p])
    (ht : p.callback.isTerminal = false) (j : ℕ) : t.hasEnded j = s.hasEnded j := by
  rw [hasEnded_append hposted, ht, Bool.false_and, Bool.or_false]

theorem Consistent.report {kind : OperationKind} (h : s.Consistent) (hrun : s.Running kind k)
    (hp : p.operation = some k) (ht : p.callback.isTerminal = false)
    (hne : p.callback ≠ .onSessionClosed) (hops : t.operations = s.operations)
    (hposted : t.posted = s.posted ++ [p]) (hflag : ∀ kind, t.flag kind = s.flag kind)
    (hclaimed : t.Claimed) : t.Consistent := by
  obtain ⟨hset, hlast, hopen, -⟩ := hrun
  have hnotclosed : ¬ s.Closed := by
    intro hc
    rw [h.closed hc kind] at hset
    cases hset
  have hended := hasEnded_append_of_not_terminal hposted ht
  refine ⟨hclaimed, h.numbered_append (Nat.le_of_eq (congrArg List.length hops.symm)) hposted ?_,
    h.serving_congr hflag hops hended, ?_, ?_⟩
  · intro j hj
    rw [hp] at hj
    obtain rfl := Option.some.inj hj
    rw [hops]
    omega
  · intro hc
    exact absurd ((closed_append hposted hne).mp hc) hnotclosed
  · rw [hposted]
    refine h.oneEnd.append ?_ ?_
    · intro hterm
      rw [ht] at hterm
      cases hterm
    · intro _ q hq
      refine ⟨fun hc => hnotclosed ⟨q, hq, hc⟩, ?_⟩
      intro hqt _ heq
      rw [hp] at heq
      exact not_hasEnded hopen q hq hqt heq.symm

theorem Consistent.answer (h : s.Consistent) (hp : p.operation = none)
    (ht : p.callback.isTerminal = false) (hr : p.callback.isReport = false)
    (hclosed : p.callback = .onSessionClosed → ∀ kind, s.flag kind = false)
    (hops : t.operations = s.operations) (hposted : t.posted = s.posted ++ [p])
    (hflag : ∀ kind, t.flag kind = s.flag kind) (hclaimed : t.Claimed) : t.Consistent := by
  have hended := hasEnded_append_of_not_terminal hposted ht
  refine ⟨hclaimed, h.numbered_append (Nat.le_of_eq (congrArg List.length hops.symm)) hposted ?_,
    h.serving_congr hflag hops hended, ?_, ?_⟩
  · intro j hj
    rw [hp] at hj
    cases hj
  · intro hc kind
    rw [hflag]
    by_cases hpc : p.callback = .onSessionClosed
    · exact hclosed hpc kind
    · exact h.closed ((closed_append hposted hpc).mp hc) kind
  · rw [hposted]
    refine h.oneEnd.append ?_ ?_
    · intro hterm
      rw [ht] at hterm
      cases hterm
    · intro hrep
      rw [hr] at hrep
      cases hrep

end lemmas
end Session

structure Session.Good (s : Session) : Prop where
  consistent : s.Consistent
  fits : ∀ w ∈ s.workers, s.Fits w

section step
open Session SessionView
variable {v v' : SessionView} {l : SessionLabel} {t : Session}

/-- With a polite client no operation is in progress when one starts. -/
theorem idle_of_starts (hgood : v.session.Good) (hpolite : Polite v l) (hl : l.starts ≠ none) :
    (∀ kind, v.session.flag kind = false) ∧
      ∀ k, v.session.operations.length = k + 1 → v.session.hasEnded k = true := by
  have hended : ∀ k, v.session.operations.length = k + 1 → v.session.hasEnded k = true := by
    intro k hk
    rcases hpolite hl with hnil | hend
    · rw [hnil] at hk
      cases hk
    · rwa [lastOperation, hk, Nat.add_sub_cancel] at hend
  refine ⟨?_, hended⟩
  intro kind
  by_contra hset
  obtain ⟨k, hlast, hopen, -⟩ := hgood.consistent.serving kind (by simpa using hset)
  rw [hended k hlast] at hopen
  cases hopen

/-- When no operation is in progress, workers are not pending and nothing runs. -/
theorem not_pending_of_idle {s : Session} {w : Worker} (hfits : s.Fits w)
    (hflag : ∀ kind, s.flag kind = false)
    (hended : ∀ k, s.operations.length = k + 1 → s.hasEnded k = true) :
    w.stage.isPending = false := by
  have hrun : ∀ kind k, ¬ s.Running kind k := by
    rintro kind k ⟨hset, -⟩
    rw [hflag] at hset
    cases hset
  have hfin : ∀ k, ¬ s.Finishing k := by
    rintro k ⟨-, -, hlast, hopen⟩
    rw [hended k hlast] at hopen
    cases hopen
  unfold Fits at hfits
  cases hs : w.stage with
  | clearAuthenticating _ | clearDetecting | enroll | readFrameCount _ | clearEnrolling _ =>
      rw [hs] at hfits
      obtain ⟨k, -, h⟩ := hfits
      exact absurd h (hrun _ k)
  | clearReason _ | stopAfterMatch _ | readChallenge _ | stopAfterDetection
  | stopAfterEnrollment _ =>
      rw [hs] at hfits
      obtain ⟨k, -, h⟩ := hfits
      exact absurd h (hfin k)
  | post callback =>
      rw [hs] at hfits
      obtain ⟨-, k, -, h⟩ := hfits
      split_ifs at h
      · exact absurd h (hfin k)
      · obtain ⟨kind, hr⟩ := h
        exact absurd hr (hrun kind k)
  | _ => rfl

/-- What has ended stays so, and nothing runs when an operation is asked for. -/
theorem fits_of_idle {operation : RequestedOperation} (hgood : v.session.Good)
    (hb : v.session.Began operation t)
    (hidle : ∀ kind, v.session.flag kind = false)
    (hended : ∀ k, v.session.operations.length = k + 1 → v.session.hasEnded k = true)
    (hstill : ∀ k, v.session.hasEnded k = true → t.hasEnded k = true) :
    ∀ w ∈ t.workers, t.Fits w := by
  intro w hw
  rw [hb.workers] at hw
  have hfits := hgood.fits w hw
  refine fits_of_ended hfits (not_pending_of_idle hfits hidle hended) (by simp [hb.operations]) ?_
  rintro k (hend | ⟨kind, hset, -⟩)
  · exact hstill k hend
  · rw [hidle] at hset
    cases hset

theorem good_started {operation : RequestedOperation} (hgood : v.session.Good)
    (hpolite : Polite v l) (hl : l.starts = some operation) (hb : v.session.Began operation t)
    (hclosed : ¬ v.session.Closed) (hclaimed : t.Claimed)
    (hflag : ∀ kind, t.flag kind = (v.session.flag kind || decide (operation.kind = kind)))
    (hposted : t.posted = v.session.posted) : t.Good := by
  obtain ⟨hidle, hended⟩ := idle_of_starts hgood hpolite (by simp [hl])
  have hops : t.operations.length = v.session.operations.length + 1 := by simp [hb.operations]
  refine ⟨⟨hclaimed, ?_, ?_, ?_, ?_⟩, ?_⟩
  · rw [hposted, hops]
    intro p hp k hk
    exact Nat.lt_succ_of_lt (hgood.consistent.numbered p hp k hk)
  · intro kind hset
    rw [hflag, hidle, Bool.false_or, decide_eq_true_eq] at hset
    refine ⟨v.session.operations.length, hops, ?_, operation, ?_, hset⟩
    · rw [hasEnded_congr hposted]
      by_contra hend
      obtain ⟨p, hp, -, hk⟩ := hasEnded_iff.mp (by simpa using hend)
      exact absurd (hgood.consistent.numbered p hp _ hk) (Nat.lt_irrefl _)
    · simp [hb.operations]
  · intro hc
    unfold Closed at hc
    rw [hposted] at hc
    exact absurd hc hclosed
  · rw [hposted]
    exact hgood.consistent.oneEnd
  · refine fits_of_idle hgood hb hidle hended fun k hend => ?_
    rwa [hasEnded_congr hposted]

theorem good_failed {operation : RequestedOperation} {code : Int32} (hgood : v.session.Good)
    (hpolite : Polite v l) (hl : l.starts = some operation) (hb : v.session.Began operation t)
    (hclaimed : t.Claimed)
    (hflag : ∀ kind, t.flag kind = (v.session.flag kind && decide (operation.kind ≠ kind)))
    (hposted : t.posted = v.session.posted ++
      [⟨.onError .vendor code, some v.session.operations.length, none⟩]) : t.Good := by
  obtain ⟨hidle, hended⟩ := idle_of_starts hgood hpolite (by simp [hl])
  have hops : t.operations.length = v.session.operations.length + 1 := by simp [hb.operations]
  have hclear : ∀ kind, t.flag kind = false := by
    intro kind
    rw [hflag, hidle, Bool.false_and]
  have hnew : ∀ p ∈ v.session.posted, p.operation ≠ some v.session.operations.length := by
    intro p hp hk
    exact absurd (hgood.consistent.numbered p hp _ hk) (Nat.lt_irrefl _)
  refine ⟨⟨hclaimed, ?_, ?_, fun _ => hclear, ?_⟩, ?_⟩
  · refine hgood.consistent.numbered_append (by omega) hposted ?_
    intro k hk
    obtain rfl := Option.some.inj hk
    omega
  · intro kind hset
    rw [hclear] at hset
    cases hset
  · rw [hposted]
    refine hgood.consistent.oneEnd.append ?_ ?_
    · intro _ k hk q hq _
      rw [← hk]
      exact hnew q hq
    · intro hrep
      cases hrep
  · refine fits_of_idle hgood hb hidle hended fun k hend => ?_
    rw [hasEnded_append hposted, hend, Bool.true_or]

theorem good_canceled (hgood : v.session.Good) (hc : v.session.Canceled t)
    (hnone : v.isBusy = true → v.session.NonePending) (hclaimed : t.Claimed) : t.Good := by
  rcases hc.posted with ⟨hidle, hposted⟩ | ⟨⟨kind, hset⟩, hposted⟩
  · have hflag : ∀ kind, t.flag kind = v.session.flag kind := by
      intro kind
      rw [hc.flag, hidle]
    refine ⟨hgood.consistent.congr hflag hc.operations hposted hclaimed, ?_⟩
    intro w hw
    rw [hc.workers] at hw
    refine fits_congr hflag hc.operations (fun _ => hasEnded_congr hposted) ?_ (hgood.fits w hw)
    unfold Closed
    rw [hposted]
    exact id
  · obtain ⟨k, hlast, hopen, hkind⟩ := hgood.consistent.serving kind hset
    have hk : v.session.lastOperation = k := by rw [lastOperation, hlast, Nat.add_sub_cancel]
    rw [hk] at hposted
    refine ⟨hgood.consistent.end hlast hopen rfl ?_ hc.operations hposted hc.flag hclaimed, ?_⟩
    · intro hrep
      cases hrep
    · intro w hw
      rw [hc.workers] at hw
      refine fits_of_ended (hgood.fits w hw) (hnone (isBusy_iff.mpr ⟨kind, hset⟩) w hw)
        (Nat.le_of_eq (by rw [hc.operations])) ?_
      rintro j (hend | ⟨kind', hrun⟩)
      · rw [hasEnded_append hposted, hend, Bool.true_or]
      · obtain ⟨-, rfl⟩ := Serves.kind_eq ⟨hlast, hopen, hkind⟩ hrun.2
        rw [hasEnded_append hposted]
        simp [Callback.isTerminal]

theorem good_goto {w : Worker} {stage : WorkerStage} (h : v.session.Consistent)
    (hw : v.session.workers = [w]) (hfits : v.session.Fits { w with stage := stage }) :
    (v.goto 0 w stage).session.Good := by
  have hworkers : (v.goto 0 w stage).session.workers = [{ w with stage := stage }] := by
    simp [goto, hw]
  have hclaimed : (v.goto 0 w stage).session.Claimed := h.claimed.replace hw rfl hworkers
  have hflag : ∀ kind, (v.goto 0 w stage).session.flag kind = v.session.flag kind :=
    flag_congr rfl rfl rfl
  refine ⟨h.congr hflag rfl rfl hclaimed, ?_⟩
  intro w' hw'
  rw [hworkers] at hw'
  rw [List.mem_singleton.mp hw']
  exact fits_congr hflag rfl (fun _ => rfl) id hfits

/-- A worker that enters the branch of a flag it found set. -/
theorem good_enter {w : Worker} {stage : WorkerStage} {kind : OperationKind}
    (h : v.session.Consistent) (hw : v.session.workers = [w]) (hset : v.session.flag kind = true)
    (hfits : ∀ k, v.session.Running kind k → v.session.Fits { w with
      stage := stage, operation := some k }) :
    (v.enter 0 w stage kind).session.Good := by
  obtain ⟨k, hserves⟩ := h.serving kind hset
  obtain ⟨hlast, -, operation, hop, hkind⟩ := id hserves
  have hworkers : (v.enter 0 w stage kind).session.workers =
      [{ w with stage := stage, operation := some k }] := by
    simp [enter, onSession, hw, operationFor_last hlast hop hkind]
  have hclaimed : (v.enter 0 w stage kind).session.Claimed := h.claimed.replace hw rfl hworkers
  have hflag : ∀ kind', (v.enter 0 w stage kind).session.flag kind' = v.session.flag kind' :=
    flag_congr rfl rfl rfl
  refine ⟨h.congr hflag rfl rfl hclaimed, ?_⟩
  intro w' hw'
  rw [hworkers] at hw'
  rw [List.mem_singleton.mp hw']
  exact fits_congr hflag rfl (fun _ => rfl) id (hfits k ⟨hset, hserves⟩)

/-- A worker that clears the flag of its operation leaves it finishing. -/
theorem good_clear {w : Worker} {stage : WorkerStage} {kind : OperationKind} {k : ℕ}
    (h : v.session.Consistent) (hw : v.session.workers = [w]) (hrun : v.session.Running kind k)
    (hfits : ∀ s : Session, s.Finishing k → s.Fits { w with stage := stage }) :
    ((v.onSession (clear kind)).goto 0 w stage).session.Good := by
  have hflag : ∀ kind', (v.session.clear kind).flag kind' = false := by
    intro kind'
    rw [flag_clear]
    by_cases hk : kind = kind'
    · simp [hk]
    · rw [Bool.and_eq_false_iff]
      refine .inl ?_
      by_contra hset
      obtain ⟨j, hserves⟩ := h.serving kind' (by simpa using hset)
      exact hk (Serves.kind_eq hrun.2 hserves).1
  have hnotclosed : ¬ v.session.Closed := by
    intro hc
    have hset := hrun.1
    rw [h.closed hc kind] at hset
    cases hset
  have hconsistent : (v.session.clear kind).Consistent := by
    refine ⟨?_, ?_, ?_, fun _ => hflag, ?_⟩
    · rw [Claimed, workers_clear, processingFrame_clear]
      exact h.claimed
    · rw [posted_clear, operations_clear]
      exact h.numbered
    · intro kind' hset
      rw [hflag] at hset
      cases hset
    · rw [posted_clear]
      exact h.oneEnd
  refine good_goto (v := v.onSession (clear kind)) hconsistent ((workers_clear kind).trans hw)
    (hfits _ ?_)
  refine ⟨hflag, ?_, ?_, ?_⟩
  · intro hc
    unfold Closed at hc
    rw [session_onSession, posted_clear] at hc
    exact hnotclosed hc
  · rw [session_onSession, operations_clear]
    exact hrun.2.1
  · rw [session_onSession, hasEnded_congr (posted_clear kind)]
    exact hrun.2.2.1

theorem good_post {w : Worker} {callback : Callback} (h : v.session.Consistent)
    (hw : v.session.workers = [w]) (hstage : w.stage = .post callback) (hfits : v.session.Fits w) :
    ((v.postCallback callback w.operation w.frameOperation).goto 0 w .release).session.Good := by
  unfold Fits at hfits
  rw [hstage] at hfits
  obtain ⟨hne, k, hk, hrest⟩ := hfits
  have hclaimed : (v.postCallback callback w.operation w.frameOperation).session.Claimed :=
    h.claimed
  refine good_goto ?_ hw trivial
  by_cases ht : callback.isTerminal = true
  · rw [if_pos ht] at hrest
    obtain ⟨hidle, hnotclosed, hlast, hopen⟩ := hrest
    refine h.end hlast hopen ?_ (fun _ => hnotclosed) rfl rfl ?_ hclaimed
    · exact hk
    · intro kind
      rw [← hidle kind]
      exact flag_congr rfl rfl rfl kind
  · rw [if_neg ht] at hrest
    obtain ⟨kind, hrun⟩ := hrest
    refine h.report hrun ?_ ?_ hne rfl rfl ?_ hclaimed
    · exact hk
    · simpa using ht
    · exact flag_congr rfl rfl rfl

theorem good_worker {w : Worker} {reply : EngineReply} (hgood : v.session.Good)
    (hw : v.session.workers = [w]) (hord : Orderly v (.worker 0 reply)) :
    (v.workerStep 0 w reply).session.Good := by
  have h := hgood.consistent
  have hfits : v.session.Fits w := hgood.fits w (by rw [hw]; exact List.mem_singleton_self w)
  have hi : v.session.workers[0]? = some w := by rw [hw]; rfl
  have hquiet : QuietStep v w reply := hord.2.2.2 w hi
  unfold QuietStep at hquiet
  have hmove : ∀ f stage, v.session.Fits { w with stage := stage } →
      ((v.onEngine f).goto 0 w stage).session.Good := fun f stage hs => good_goto h hw hs
  unfold workerStep
  cases hs : w.stage with
  | testCancelled =>
      dsimp only
      split_ifs
      · exact good_goto h hw trivial
      · exact good_goto h hw trivial
  | testAuthenticating =>
      dsimp only
      split_ifs with hset
      · exact good_enter h hw hset fun k hrun => ⟨k, rfl, by rw [hrun.2.1]; omega, fun _ => hrun⟩
      · exact good_goto h hw trivial
  | authenticate =>
      unfold Fits at hfits
      rw [hs] at hfits
      obtain ⟨k, hk, hlt, hrest⟩ := hfits
      have hopen : ¬ reply.res < 0 → v.session.Running .authenticate k := by
        intro hres
        cases he : v.session.hasEnded k with
        | true =>
            rw [hs] at hquiet
            exact absurd (hquiet ⟨k, hk, he⟩) hres
        | false => exact hrest he
      dsimp only
      split_ifs with h₀ h₁ h₂
      · exact hmove _ _ ⟨k, hk, hopen (by rw [h₀]; decide)⟩
      · exact hmove _ _ ⟨by simp, k, hk, _, hopen (Int32.not_lt.mpr (Int32.le_of_lt h₁))⟩
      · exact hmove _ _ ⟨by simp, k, hk, _, hopen (Int32.not_lt.mpr (Int32.le_of_lt h₁))⟩
      · exact hmove _ _ trivial
  | clearAuthenticating faceId =>
      unfold Fits at hfits
      rw [hs] at hfits
      obtain ⟨k, hk, hrun⟩ := hfits
      exact good_clear h hw hrun fun s hfin => ⟨k, hk, hfin⟩
  | clearReason faceId | stopAfterMatch faceId =>
      unfold Fits at hfits
      rw [hs] at hfits
      exact good_goto (v := v.onSession _) (h.congr (flag_congr rfl rfl rfl) rfl rfl h.claimed)
        hw hfits
  | readChallenge faceId =>
      unfold Fits at hfits
      rw [hs] at hfits
      exact good_goto h hw ⟨by simp, hfits⟩
  | testDetecting =>
      dsimp only
      split_ifs with hset
      · exact good_enter h hw hset fun k hrun => ⟨k, rfl, by rw [hrun.2.1]; omega, fun _ => hrun⟩
      · exact good_goto h hw trivial
  | analyze =>
      unfold Fits at hfits
      rw [hs] at hfits
      obtain ⟨k, hk, hlt, hrest⟩ := hfits
      dsimp only
      split_ifs with hres
      · refine hmove _ _ ⟨k, hk, ?_⟩
        cases he : v.session.hasEnded k with
        | true =>
            rw [hs] at hquiet
            exact absurd hres (hquiet ⟨k, hk, he⟩)
        | false => exact hrest he
      · exact hmove _ _ trivial
  | clearDetecting =>
      unfold Fits at hfits
      rw [hs] at hfits
      obtain ⟨k, hk, hrun⟩ := hfits
      exact good_clear h hw hrun fun s hfin => ⟨k, hk, hfin⟩
  | stopAfterDetection | stopAfterEnrollment faceId =>
      unfold Fits at hfits
      rw [hs] at hfits
      refine good_goto (v := v.onSession _) (h.congr (flag_congr rfl rfl rfl) rfl rfl h.claimed)
        hw ⟨by simp, hfits⟩
  | testEnrolling =>
      dsimp only
      split_ifs with hset
      · exact good_enter h hw hset fun k hrun => ⟨k, rfl, hrun⟩
      · exact good_goto h hw trivial
  | enroll =>
      unfold Fits at hfits
      rw [hs] at hfits
      obtain ⟨k, hk, hrun⟩ := hfits
      dsimp only
      split_ifs
      · exact hmove _ _ ⟨k, hk, hrun⟩
      · exact hmove _ _ ⟨k, hk, hrun⟩
      · exact hmove _ _ ⟨by simp, k, hk, _, hrun⟩
  | readFrameCount faceId =>
      unfold Fits at hfits
      rw [hs] at hfits
      obtain ⟨k, hk, hrun⟩ := hfits
      refine good_goto h hw ⟨by simp, k, hk, ?_⟩
      have hremaining : FaceEngine.enrollRequiredGoodFrames - v.engine.enrollFrameCount ≠ 0 := by
        intro hzero
        rw [Int32.sub_eq_iff_eq_add, Int32.zero_add] at hzero
        rw [hs] at hquiet
        exact hquiet hzero.symm
      rw [if_neg (by simpa [Callback.isTerminal] using hremaining)]
      exact ⟨_, hrun⟩
  | clearEnrolling faceId =>
      unfold Fits at hfits
      rw [hs] at hfits
      obtain ⟨k, hk, hrun⟩ := hfits
      exact good_clear h hw hrun fun s hfin => ⟨k, hk, hfin⟩
  | post callback => exact good_post h hw hs hfits
  | release =>
      have hworkers : (v.workerStep 0 w reply).session.workers = [] := by
        simp [workerStep, hs, hw]
      refine ⟨h.congr (flag_congr rfl rfl rfl) rfl rfl (.inl ⟨rfl, ?_⟩), ?_⟩
      · simp [hw]
      · intro w' hw'
        simp [hw] at hw'

theorem good_step (hgood : v.session.Good) (hpolite : Polite v l) (hord : Orderly v l)
    (h : sessionStep v l v') : v'.session.Good := by
  have hclaimed := claimed_step hgood.consistent.claimed h
  obtain ⟨hcancel, hclose, hstart, -⟩ := id hord
  cases effect_of_step h with
  | started hl hb hflag hposted =>
      exact good_started hgood hpolite hl hb (hstart (by simp [hl])) hclaimed hflag hposted
  | failed code hl hb hflag hposted =>
      exact good_failed hgood hpolite hl hb hclaimed hflag hposted
  | canceled hl hc => exact good_canceled hgood hc (hcancel hl) hclaimed
  | closed u hc ht =>
      have hnone := hclose rfl
      have hu : u.Claimed := by
        rw [Claimed, hc.processingFrame, hc.workers]
        exact hgood.consistent.claimed
      have hgoodu := good_canceled hgood hc (fun _ => hnone) hu
      rw [ht] at hclaimed ⊢
      refine ⟨hgoodu.consistent.answer rfl rfl rfl (fun _ => hc.flag) rfl rfl
        (flag_congr rfl rfl rfl) hclaimed, ?_⟩
      intro w hw
      have hw' : w ∈ v.session.workers := by rwa [← hc.workers]
      refine fits_of_ended (hgoodu.fits w hw) (hnone w hw') (Nat.le_refl _) ?_
      rintro k (hend | ⟨kind, hset, -⟩)
      · simpa [hasEnded, Callback.isTerminal] using hend
      · rw [hc.flag] at hset
        cases hset
  | answered callback challenge hanswer _ ht =>
      simp only [Callback.isAnswer, Bool.and_eq_true, Bool.not_eq_true',
        decide_eq_true_eq] at hanswer
      obtain ⟨⟨hterm, hrep⟩, hne⟩ := hanswer
      rw [ht] at hclaimed ⊢
      refine ⟨hgood.consistent.answer rfl hterm hrep (fun hc => absurd hc hne) rfl rfl
        (flag_congr rfl rfl rfl) hclaimed, ?_⟩
      intro w hw
      refine fits_congr (s := v.session) (flag_congr rfl rfl rfl) rfl ?_ ?_ (hgood.fits w hw)
      · intro k
        simp [hasEnded, hterm]
      · intro hc
        simpa [Closed, hne] using hc
  | arrived ht | dropped _ _ ht =>
      rw [ht] at hclaimed ⊢
      refine ⟨hgood.consistent.congr (flag_congr rfl rfl rfl) rfl rfl hclaimed, ?_⟩
      intro w hw
      exact fits_congr (flag_congr rfl rfl rfl) rfl (fun _ => rfl) id (hgood.fits w hw)
  | claimed i frameOperation hp _ ht =>
      rw [ht] at hclaimed ⊢
      refine ⟨hgood.consistent.congr (flag_congr rfl rfl rfl) rfl rfl hclaimed, ?_⟩
      intro w hw
      rcases List.mem_append.mp hw with hw | hw
      · exact fits_congr (flag_congr rfl rfl rfl) rfl (fun _ => rfl) id (hgood.fits w hw)
      · rw [List.mem_singleton.mp hw]
        trivial
  | worker i w reply hi ht =>
      obtain ⟨rfl, hw⟩ := hgood.consistent.claimed.only hi
      rw [ht]
      exact good_worker hgood hw hord
  | alike ha =>
      refine ⟨hgood.consistent.congr ha.flag ha.operations ha.posted hclaimed, ?_⟩
      intro w hw
      rw [ha.workers] at hw
      refine fits_congr ha.flag ha.operations (fun k => hasEnded_congr ha.posted) ?_
        (hgood.fits w hw)
      unfold Closed
      rw [ha.posted]
      exact id

theorem good_create (userId : Int32) : (Session.create userId).Good := by
  refine ⟨⟨.inl ⟨rfl, rfl⟩, ?_, ?_, ?_, .nil⟩, ?_⟩
  · intro p hp
    cases hp
  · intro kind hset
    cases kind <;> cases hset
  · rintro ⟨p, hp, -⟩
    cases hp
  · intro w hw
    cases hw

end step

/-- In an orderly run with a polite client no operation ends twice and nothing of
an operation follows its end or the end of the session. -/
theorem oneEnd_of_orderly {v v' : SessionView} {ls : List SessionLabel} (hfresh : v.Fresh)
    (h : Runs (guarded (fun v l => Polite v l ∧ Orderly v l) sessionStep) v ls v') :
    OneEnd v'.session.posted := by
  have hgood : v'.session.Good := by
    refine h.invariant (P := fun v => v.session.Good) ?_ ?_
    · rintro s l t hs ⟨⟨hpolite, hord⟩, hstep⟩
      exact good_step hs hpolite hord hstep
    · rw [hfresh]
      exact good_create _
  exact hgood.consistent.oneEnd

/-- The engine's answer to any frame once it was cancelled. -/
def cancelledReply : EngineReply := ⟨-1, 0, 0⟩

/-- `cancel()` while the engine works on a frame of an enrolment. -/
def cancelledEnrollment : List SessionLabel :=
  [.enroll .started] ++ frameReaches 4 ++ [.cancel, .worker 0 cancelledReply, .worker 0 noReply]

theorem cancelledEnrollment_reports : ¬ ∀ (v v' : SessionView) (ls : List SessionLabel), v.Fresh →
    Runs (guarded Polite sessionStep) v ls v' → OneEnd v'.session.posted := by
  intro h
  obtain ⟨v', hv'⟩ : ∃ v', replay Polite (fun v l => l.apply v) cancelledEnrollment newSession =
      some v' := ⟨_, rfl⟩
  have hend := h newSession v' cancelledEnrollment rfl (runs_of_replay hv')
  have hposted : v'.session.posted = [⟨.onError .canceled 0, some 0, none⟩,
      ⟨.onEnrollmentFrame .vendor (-1), some 0, some 0⟩] := by
    obtain rfl := Option.some.inj hv'
    rfl
  rw [hposted] at hend
  have hsilent := hend.silent
  simp [Callback.isTerminal, Callback.isReport] at hsilent

/-- A run in which an authentication succeeds. -/
theorem matchedFrame_oneEnd : ∃ v', replay (fun v l => Polite v l ∧ Orderly v l)
    (fun v l => l.apply v) matchedFrame newSession = some v' ∧ OneEnd v'.session.posted := by
  obtain ⟨v', hv'⟩ : ∃ v', replay (fun v l => Polite v l ∧ Orderly v l) (fun v l => l.apply v)
      matchedFrame newSession = some v' := ⟨_, rfl⟩
  exact ⟨v', hv', oneEnd_of_orderly (v := newSession) rfl (runs_of_replay hv')⟩

end FaceHal
