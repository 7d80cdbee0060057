import FaceHal.SessionRuns

/-!
# The challenge of an authentication

A success is reported with the challenge that `mCurrentChallenge` holds when the
worker gets to it. `generateChallenge` writes the same field, and the cancelled
flag that `authenticate` resets does not tell a worker that its frame belongs to an
earlier operation. Every success carries the operation id of the authentication
during which its frame was delivered in the runs in which `generateChallenge` is
not called during an authentication and `authenticate` not while an older frame
may still be matched.
-/
namespace FaceHal
namespace Session

/-- Every success completes the authentication that its frame was delivered for, and
carries its id. -/
def BindsChallenges (s : Session) : Prop :=
  ∀ p ∈ s.posted, ∀ faceId hat, p.callback = .onAuthenticationSucceeded faceId hat →
    ∃ k operationId, p.frameOperation = some k ∧ p.operation = some k ∧
      s.operations[k]? = some (.authenticate operationId) ∧ hat.challenge = operationId

/-- The challenge of an authentication in progress is its operation id. -/
def ChallengeStands (s : Session) : Prop :=
  ∀ k operationId, s.operationInProgress = some k →
    s.operations[k]? = some (.authenticate operationId) →
      s.currentChallenge = operationId.toUInt64

end Session

/-- The worker is between the flag of an authentication and the challenge. -/
def WorkerStage.isMatching : WorkerStage → Bool
  | .authenticate | .clearAuthenticating _ | .clearReason _ => true
  | .stopAfterMatch _ | .readChallenge _ => true
  | _ => false

/-- The worker's frame may still be reported as a match. -/
def WorkerStage.mayMatch : WorkerStage → Bool
  | .testCancelled | .testAuthenticating => true
  | stage => stage.isMatching

/-- No challenge is generated during an authentication or while a worker may still
read the challenge, and no authentication begins while an earlier frame may still
be matched. -/
def ChallengeKept (v : SessionView) (l : SessionLabel) : Prop :=
  (match l with
  | .generateChallenge value => value = v.session.currentChallenge ∨
      (∀ k ∈ v.session.operationInProgress, ∀ operation ∈ v.session.operations[k]?,
        operation.kind ≠ .authenticate) ∧ ∀ w ∈ v.session.workers, w.stage.isMatching = false
  | _ => True) ∧
  ∀ operation ∈ l.starts, operation.kind = .authenticate →
    v.session.frames = [] ∧ ∀ w ∈ v.session.workers, w.stage.mayMatch = false

instance (v : SessionView) (l : SessionLabel) : Decidable (ChallengeKept v l) := by
  unfold ChallengeKept
  split <;> infer_instance

namespace Session

/-- The worker's frame was delivered for the authentication whose challenge stands. -/
def FromAuthentication (s : Session) (w : Worker) : Prop :=
  ∃ k operationId, w.frameOperation = some k ∧ w.operation = some k ∧
    s.operations[k]? = some (.authenticate operationId) ∧
      s.currentChallenge = operationId.toUInt64

/-- The worker reports on an operation of this kind. -/
def Reports (s : Session) (w : Worker) (kind : OperationKind) : Prop :=
  ∀ k, w.operation = some k → ∃ operation, s.operations[k]? = some operation ∧ operation.kind = kind

/-- The worker has cleared the flag of its operation. -/
def HasCleared (s : Session) (w : Worker) : Prop :=
  ∀ k, w.operation = some k → s.operations.length = k + 1 → s.isAuthenticating = false

/-- What holds of a worker about to post. -/
def PostBound (s : Session) (w : Worker) : Callback → Prop
  | .onAuthenticationSucceeded _ hat => s.Reports w .authenticate ∧ s.HasCleared w ∧
      ∃ k operationId, w.frameOperation = some k ∧ w.operation = some k ∧
        s.operations[k]? = some (.authenticate operationId) ∧ hat.challenge = operationId
  | .onAuthenticationFailed | .onAuthenticationFrame _ _ => s.Reports w .authenticate
  | .onInteractionDetected => s.Reports w .detectInteraction
  | .onEnrollmentProgress _ _ | .onEnrollmentFrame _ _ => s.Reports w .enroll
  | _ => False

def Bound (s : Session) (w : Worker) : Prop :=
  match w.stage with
  | .testCancelled | .testAuthenticating =>
      s.isAuthenticating = true → w.frameOperation = some s.lastOperation
  | .authenticate | .clearAuthenticating _ => s.FromAuthentication w ∧ s.Reports w .authenticate
  | .clearReason _ | .stopAfterMatch _ | .readChallenge _ =>
      s.FromAuthentication w ∧ s.Reports w .authenticate ∧ s.HasCleared w
  | .analyze | .clearDetecting | .stopAfterDetection => s.Reports w .detectInteraction
  | .enroll | .readFrameCount _ | .clearEnrolling _ | .stopAfterEnrollment _ => s.Reports w .enroll
  | .post callback => s.PostBound w callback
  | .testDetecting | .testEnrolling | .release => True

structure Binding (s : Session) : Prop where
  claimed : s.Claimed
  numbered : ∀ p ∈ s.posted, ∀ k, p.operation = some k → k < s.operations.length
  begun : ∀ kind, s.flag kind = true → s.operations ≠ []
  authenticating : s.isAuthenticating = true → ∃ k operationId, s.operations.length = k + 1 ∧
    s.operations[k]? = some (.authenticate operationId) ∧ s.hasEnded k = false
  stands : s.ChallengeStands
  frames : s.isAuthenticating = true → ∀ frameOperation ∈ s.frames,
    frameOperation = some s.lastOperation
  workers : ∀ w ∈ s.workers, s.Bound w
  binds : s.BindsChallenges

section lemmas
variable {s t : Session} {w : Worker}

theorem operationInProgress_eq_some {k : ℕ} : s.operationInProgress = some k ↔
    s.operations.length = k + 1 ∧ s.hasEnded k = false := by
  unfold operationInProgress lastOperation
  cases hops : s.operations with
  | nil => simp
  | cons operation rest =>
      have hlen : (operation :: rest).length - 1 = rest.length := by simp
      rw [hlen]
      cases he : s.hasEnded rest.length with
      | true =>
          simp only [reduceCtorEq, false_or, if_true, List.length_cons, Nat.add_right_cancel_iff,
            false_iff, not_and]
          rintro rfl
          rw [he]
          exact nofun
      | false =>
          simp only [reduceCtorEq, Bool.false_eq_true, or_self, if_false, Option.some_inj,
            List.length_cons, Nat.add_right_cancel_iff]
          constructor
          · rintro rfl
            exact ⟨rfl, he⟩
          · rintro ⟨h, -⟩
            exact h

theorem getElem?_extend {rest : List RequestedOperation}
    (hops : t.operations = s.operations ++ rest)
    {k : ℕ} {operation : RequestedOperation} (h : s.operations[k]? = some operation) :
    t.operations[k]? = some operation := by
  have hlt : k < s.operations.length := (List.getElem?_eq_some_iff.mp h).choose
  rw [hops, List.getElem?_append_left hlt]
  exact h

theorem Reports.extend {kind : OperationKind} {rest : List RequestedOperation}
    (hops : t.operations = s.operations ++ rest) (h : s.Reports w kind) : t.Reports w kind := by
  intro k hk
  obtain ⟨operation, hop, hkind⟩ := h k hk
  exact ⟨operation, getElem?_extend hops hop, hkind⟩

/-- A worker stays bound while the challenge stays and the authenticating flag is
not set anew. -/
theorem Bound.mono {rest : List RequestedOperation} (hops : t.operations = s.operations ++ rest)
    (hflag : t.isAuthenticating = true → s.isAuthenticating = true ∧ rest = [])
    (hchallenge : w.stage.isMatching = true → t.currentChallenge = s.currentChallenge)
    (h : s.Bound w) : t.Bound w := by
  have hcleared : s.HasCleared w → t.HasCleared w := by
    intro hc k hk hlen
    by_contra hset
    obtain ⟨hset', rfl⟩ := hflag (by simpa using hset)
    rw [List.append_nil] at hops
    rw [hc k hk (by rw [← hops]; exact hlen)] at hset'
    cases hset'
  have hfrom : w.stage.isMatching = true → s.FromAuthentication w → t.FromAuthentication w := by
    rintro hm ⟨k, operationId, hframe, hk, hop, hc⟩
    exact ⟨k, operationId, hframe, hk, getElem?_extend hops hop, by rw [hchallenge hm, hc]⟩
  unfold Bound at h ⊢
  cases hw : w.stage with
  | testCancelled | testAuthenticating =>
      rw [hw] at h
      intro hset
      obtain ⟨hset', rfl⟩ := hflag hset
      rw [List.append_nil] at hops
      rw [h hset', lastOperation, lastOperation, hops]
  | authenticate | clearAuthenticating _ =>
      rw [hw] at h
      exact ⟨hfrom (by rw [hw]; rfl) h.1, h.2.extend hops⟩
  | clearReason _ | stopAfterMatch _ | readChallenge _ =>
      rw [hw] at h
      exact ⟨hfrom (by rw [hw]; rfl) h.1, h.2.1.extend hops, hcleared h.2.2⟩
  | analyze | clearDetecting | stopAfterDetection =>
      rw [hw] at h
      exact h.extend hops
  | enroll | readFrameCount _ | clearEnrolling _ | stopAfterEnrollment _ =>
      rw [hw] at h
      exact h.extend hops
  | post callback =>
      rw [hw] at h
      cases callback with
      | onAuthenticationSucceeded faceId hat =>
          obtain ⟨hr, hc, k, operationId, hframe, hk, hop, hhat⟩ := h
          exact ⟨hr.extend hops, hcleared hc, k, operationId, hframe, hk,
            getElem?_extend hops hop, hhat⟩
      | onAuthenticationFailed | onAuthenticationFrame _ _ => exact Reports.extend hops h
      | onInteractionDetected => exact Reports.extend hops h
      | onEnrollmentProgress _ _ | onEnrollmentFrame _ _ => exact Reports.extend hops h
      | _ => exact h
  | testDetecting | testEnrolling | release => trivial

theorem Bound.congr (hops : t.operations = s.operations)
    (hflag : t.isAuthenticating = true → s.isAuthenticating = true)
    (hchallenge : w.stage.isMatching = true → t.currentChallenge = s.currentChallenge)
    (h : s.Bound w) : t.Bound w := by
  rw [← List.append_nil s.operations] at hops
  exact h.mono hops (fun hset => ⟨hflag hset, rfl⟩) hchallenge

theorem BindsChallenges.extend {rest : List RequestedOperation} {ps : List Post}
    (hops : t.operations = s.operations ++ rest) (h : s.BindsChallenges)
    (hposted : t.posted = s.posted ++ ps) (hps : ∀ p ∈ ps, ∀ faceId hat,
      p.callback ≠ .onAuthenticationSucceeded faceId hat) : t.BindsChallenges := by
  intro p hp faceId hat hc
  rw [hposted] at hp
  rcases List.mem_append.mp hp with hold | hnew
  · obtain ⟨k, operationId, hframe, hk, hop, hhat⟩ := h p hold faceId hat hc
    exact ⟨k, operationId, hframe, hk, getElem?_extend hops hop, hhat⟩
  · exact absurd hc (hps p hnew faceId hat)

/-- What is left to show when no operation begins and the challenge of an
authentication stays. -/
theorem Binding.keep {ps : List Post} (h : s.Binding) (hops : t.operations = s.operations)
    (hchallenge : ∀ k operationId, s.operationInProgress = some k →
      s.operations[k]? = some (.authenticate operationId) → t.currentChallenge = s.currentChallenge)
    (hflag : ∀ kind, t.flag kind = true → s.flag kind = true) (hposted : t.posted = s.posted ++ ps)
    (hnumbered : ∀ p ∈ ps, ∀ k, p.operation = some k → k < s.operations.length)
    (hopen : t.isAuthenticating = true → ∀ k, s.operations.length = k + 1 →
      ∀ p ∈ ps, p.callback.isTerminal = true → p.operation ≠ some k)
    (hclaimed : t.Claimed)
    (hframes : t.isAuthenticating = true → ∀ frameOperation ∈ t.frames,
      frameOperation = some t.lastOperation)
    (hworkers : ∀ w ∈ t.workers, t.Bound w) (hbinds : t.BindsChallenges) : t.Binding := by
  refine ⟨hclaimed, ?_, ?_, ?_, ?_, hframes, hworkers, hbinds⟩
  · rw [hposted, hops]
    intro p hp k hk
    rcases List.mem_append.mp hp with hp | hp
    · exact h.numbered p hp k hk
    · exact hnumbered p hp k hk
  · intro kind hset
    rw [hops]
    exact h.begun kind (hflag kind hset)
  · intro hset
    obtain ⟨k, operationId, hlen, hop, hend⟩ := h.authenticating (hflag .authenticate hset)
    refine ⟨k, operationId, by rw [hops, hlen], by rw [hops, hop], ?_⟩
    by_contra hended
    obtain ⟨p, hp, hterm, hk⟩ := hasEnded_iff.mp (by simpa using hended)
    rw [hposted] at hp
    rcases List.mem_append.mp hp with hp | hp
    · exact not_hasEnded hend p hp hterm hk
    · exact hopen hset k hlen p hp hterm hk
  · intro k operationId hk hop
    obtain ⟨hlen, hend⟩ := operationInProgress_eq_some.mp hk
    rw [hops] at hlen hop
    have hopen : s.operationInProgress = some k := by
      refine operationInProgress_eq_some.mpr ⟨hlen, ?_⟩
      by_contra hended
      obtain ⟨p, hp, hterm, hk⟩ := hasEnded_iff.mp (by simpa using hended)
      exact not_hasEnded hend p (by rw [hposted]; exact List.mem_append_left _ hp) hterm hk
    rw [hchallenge k operationId hopen hop]
    exact h.stands k operationId hopen hop

theorem Binding.moves (h : s.Binding) (hops : t.operations = s.operations)
    (hchallenge : t.currentChallenge = s.currentChallenge) (hposted : t.posted = s.posted)
    (hflag : ∀ kind, t.flag kind = true → s.flag kind = true) (hclaimed : t.Claimed)
    (hframes : s.isAuthenticating = true → ∀ frameOperation ∈ t.frames,
      frameOperation = some s.lastOperation)
    (hworkers : ∀ w ∈ t.workers, t.Bound w) : t.Binding := by
  rw [← List.append_nil s.posted] at hposted
  refine h.keep hops (fun _ _ _ _ => hchallenge) hflag hposted (by simp)
    (by simp) hclaimed ?_ hworkers ?_
  · intro hset
    rw [lastOperation, hops]
    exact hframes (hflag .authenticate hset)
  · rw [← List.append_nil s.operations] at hops
    exact h.binds.extend hops hposted (by simp)

end lemmas
end Session

section step
open Session SessionView
variable {v v' : SessionView} {l : SessionLabel} {t : Session}

/-- With a polite client no authentication is in progress when an operation starts. -/
theorem not_authenticating_of_starts (hs : v.session.Binding) (hpolite : Polite v l)
    (hl : l.starts ≠ none) : v.session.isAuthenticating = false := by
  by_contra hset
  obtain ⟨k, operationId, hlen, -, hend⟩ := hs.authenticating (by simpa using hset)
  rcases hpolite hl with hnil | hended
  · rw [hnil] at hlen
    cases hlen
  · rw [lastOperation, hlen, Nat.add_sub_cancel, hend] at hended
    cases hended

/-- A worker whose frame cannot be matched any more is bound in any case. -/
theorem bound_of_began {operation : RequestedOperation} {w : Worker}
    (hb : v.session.Began operation t)
    (hw : w.stage.mayMatch = false) (h : v.session.Bound w) : t.Bound w := by
  have hclear : ({ t with isAuthenticating := false } : Session).Bound w := by
    refine h.mono hb.operations nofun ?_
    intro hm
    cases hs : w.stage <;> rw [hs] at hw hm <;> cases hw <;> cases hm
  unfold Bound at hclear ⊢
  cases hs : w.stage with
  | testCancelled | testAuthenticating | authenticate | clearAuthenticating _ | clearReason _ =>
      rw [hs] at hw
      cases hw
  | stopAfterMatch _ | readChallenge _ =>
      rw [hs] at hw
      cases hw
  | post callback =>
      rw [hs] at hclear
      cases callback with
      | onAuthenticationSucceeded faceId hat =>
          obtain ⟨hr, -, hhat⟩ := hclear
          refine ⟨hr, ?_, hhat⟩
          -- the operation it reports on is not the new one
          intro k hk hlen
          unfold Bound at h
          rw [hs] at h
          obtain ⟨operation', hop, -⟩ := h.1 k hk
          have hlt : k < v.session.operations.length := (List.getElem?_eq_some_iff.mp hop).choose
          rw [hb.operations, List.length_append, List.length_singleton] at hlen
          omega
      | _ => exact hclear
  | _ =>
      rw [hs] at hclear
      exact hclear

theorem binding_began {operation : RequestedOperation} {ps : List Post} (hs : v.session.Binding)
    (hkept : ChallengeKept v l) (hl : l.starts = some operation)
    (hb : v.session.Began operation t) (hclaimed : t.Claimed)
    (hflag : t.isAuthenticating = true → operation.kind = .authenticate)
    (hposted : t.posted = v.session.posted ++ ps)
    (hps : ∀ p ∈ ps, p.operation = some v.session.operations.length ∧
      (∀ faceId hat, p.callback ≠ .onAuthenticationSucceeded faceId hat) ∧
      t.isAuthenticating = false) : t.Binding := by
  have hlen : t.operations.length = v.session.operations.length + 1 := by simp [hb.operations]
  have hnew : t.operations[v.session.operations.length]? = some operation := by simp [hb.operations]
  have hlast : t.lastOperation = v.session.operations.length := by
    rw [lastOperation, hlen, Nat.add_sub_cancel]
  refine ⟨hclaimed, ?_, ?_, ?_, ?_, ?_, ?_, ?_⟩
  · rw [hposted, hlen]
    intro p hp k hk
    rcases List.mem_append.mp hp with hp | hp
    · exact Nat.lt_succ_of_lt (hs.numbered p hp k hk)
    · rw [(hps p hp).1] at hk
      obtain rfl := Option.some.inj hk
      omega
  · intro _ _ hnil
    rw [hnil] at hlen
    cases hlen
  · intro hset
    have hkind := hflag hset
    cases operation with
    | enroll | detectInteraction => cases hkind
    | authenticate operationId =>
        refine ⟨v.session.operations.length, operationId, hlen, hnew, ?_⟩
        by_contra hended
        obtain ⟨p, hp, -, hk⟩ := hasEnded_iff.mp (by simpa using hended)
        rw [hposted] at hp
        rcases List.mem_append.mp hp with hp | hp
        · exact absurd (hs.numbered p hp _ hk) (Nat.lt_irrefl _)
        · rw [(hps p hp).2.2] at hset
          cases hset
  · intro k operationId hk hop
    obtain ⟨hk, -⟩ := operationInProgress_eq_some.mp hk
    obtain rfl : v.session.operations.length = k := by omega
    rw [hnew] at hop
    exact hb.challenge operationId (Option.some.inj hop)
  · intro hset frameOperation hf
    have hframes := (hkept.2 operation hl (hflag hset)).1
    rw [hb.frames, hframes] at hf
    cases hf
  · intro w hw
    rw [hb.workers] at hw
    by_cases hkind : operation.kind = .authenticate
    · exact bound_of_began hb ((hkept.2 operation hl hkind).2 w hw) (hs.workers w hw)
    · refine (hs.workers w hw).mono hb.operations ?_ fun _ => hb.kept hkind
      intro hset
      exact absurd (hflag hset) hkind
  · exact hs.binds.extend hb.operations hposted fun p hp => (hps p hp).2.1

theorem binding_canceled (hs : v.session.Binding) (hc : v.session.Canceled t)
    (hclaimed : t.Claimed) : t.Binding := by
  have hclear : ∀ kind, t.flag kind ≠ true := by
    intro kind
    rw [hc.flag]
    exact nofun
  have hflag : ∀ kind, t.flag kind = true → v.session.flag kind = true :=
    fun kind hset => absurd hset (hclear kind)
  have hworkers : ∀ w ∈ t.workers, t.Bound w := by
    intro w hw
    rw [hc.workers] at hw
    exact (hs.workers w hw).congr hc.operations (fun hset => absurd hset (hclear .authenticate))
      fun _ => hc.currentChallenge
  rcases hc.posted with ⟨-, hposted⟩ | ⟨⟨kind, hkind⟩, hposted⟩
  · refine hs.moves hc.operations hc.currentChallenge hposted hflag hclaimed ?_ hworkers
    rw [hc.frames]
    exact hs.frames
  · refine hs.keep hc.operations (fun _ _ _ _ => hc.currentChallenge) hflag hposted ?_ ?_ hclaimed
      ?_ hworkers ?_
    · intro p hp k hk
      rw [List.mem_singleton.mp hp] at hk
      obtain rfl := Option.some.inj hk
      have hpos := List.length_pos_iff.mpr (hs.begun kind hkind)
      unfold lastOperation
      omega
    · exact fun hset => absurd hset (hclear .authenticate)
    · exact fun hset => absurd hset (hclear .authenticate)
    · have hops : t.operations = v.session.operations ++ [] := by
        rw [hc.operations, List.append_nil]
      refine hs.binds.extend hops hposted ?_
      intro p hp
      rw [List.mem_singleton.mp hp]
      exact nofun

theorem binding_answered {callback : Callback} {challenge : UInt64} (hs : v.session.Binding)
    (hanswer : callback.isTerminal = false) (hne : ∀ faceId hat,
      callback ≠ .onAuthenticationSucceeded faceId hat)
    (hchallenge : challenge = v.session.currentChallenge ∨
      (∀ k operationId, v.session.operationInProgress = some k →
        v.session.operations[k]? ≠ some (.authenticate operationId)) ∧
      ∀ w ∈ v.session.workers, w.stage.isMatching = false)
    (ht : t = { v.session with
      currentChallenge := challenge
      posted := v.session.posted ++ [⟨callback, none, none⟩] }) : t.Binding := by
  have hposted : t.posted = v.session.posted ++ [⟨callback, none, none⟩] := by rw [ht]
  have hflag : ∀ kind, t.flag kind = v.session.flag kind := by
    rw [ht]
    exact flag_congr rfl rfl rfl
  have hops : t.operations = v.session.operations := by rw [ht]
  have hcallback : ∀ p ∈ [(⟨callback, none, none⟩ : Post)], p.operation = none ∧
      p.callback = callback := by
    intro p hp
    rw [List.mem_singleton.mp hp]
    exact ⟨rfl, rfl⟩
  refine hs.keep hops ?_ (fun kind => by rw [hflag]; exact id) hposted ?_ ?_ ?_ ?_ ?_ ?_
  · intro k operationId hk hop
    rcases hchallenge with hc | ⟨hnone, -⟩
    · rw [ht]
      exact hc
    · exact absurd hop (hnone k operationId hk)
  · intro p hp k hk
    rw [(hcallback p hp).1] at hk
    cases hk
  · intro _ k _ p hp hterm
    rw [(hcallback p hp).2, hanswer] at hterm
    cases hterm
  · rw [ht]
    exact hs.claimed
  · rw [ht]
    exact hs.frames
  · intro w hw
    have hw' : w ∈ v.session.workers := by rwa [ht] at hw
    refine (hs.workers w hw').congr hops ?_ ?_
    · intro hset
      rwa [ht] at hset
    · intro hm
      rcases hchallenge with hc | ⟨-, hnone⟩
      · rw [ht]
        exact hc
      · rw [hnone w hw'] at hm
        cases hm
  · rw [← List.append_nil v.session.operations] at hops
    refine hs.binds.extend hops hposted ?_
    intro p hp
    rw [(hcallback p hp).2]
    exact hne

/-- A worker moves on after a change that posts nothing and sets no flag. -/
theorem binding_goto {w w' : Worker} {f : Session → Session} (hs : v.session.Binding)
    (hw : v.session.workers = [w]) (hf : (f v.session).operations = v.session.operations ∧
      (f v.session).currentChallenge = v.session.currentChallenge ∧
      (f v.session).posted = v.session.posted ∧ (f v.session).frames = v.session.frames ∧
      (f v.session).processingFrame = v.session.processingFrame)
    (hflag : ∀ kind, (f v.session).flag kind = true → v.session.flag kind = true)
    (hbound : (f v.session).Bound w') :
    ({ f v.session with workers := [w'] } : Session).Binding := by
  obtain ⟨hops, hchallenge, hposted, hframes, hpf⟩ := hf
  refine hs.moves hops hchallenge hposted ?_ ?_ ?_ ?_
  · intro kind hset
    refine hflag kind ?_
    rw [← hset]
    exact (flag_congr rfl rfl rfl kind).symm
  · exact hs.claimed.replace hw hpf rfl
  · intro hset
    rw [show ({ f v.session with workers := [w'] } : Session).frames =
      v.session.frames from hframes]
    exact hs.frames hset
  · intro w'' hw''
    rw [List.mem_singleton.mp hw'']
    exact hbound.congr rfl id fun _ => rfl

/-- A worker that found the flag set reports on an operation of that kind. -/
theorem reports_operationFor {s : Session} {w : Worker} {kind : OperationKind}
    (h : w.operation = s.operationFor kind) : s.Reports w kind := by
  intro k hk
  rw [h] at hk
  exact operationFor_spec hk

/-- The frame of a worker that finds the flag set belongs to the authentication. -/
theorem fromAuthentication_of_flag {w : Worker} (hs : v.session.Binding)
    (hset : v.session.isAuthenticating = true)
    (hframe : w.frameOperation = some v.session.lastOperation)
    (hw : w.operation = v.session.operationFor .authenticate) : v.session.FromAuthentication w := by
  obtain ⟨k, operationId, hlen, hop, hend⟩ := hs.authenticating hset
  refine ⟨k, operationId, ?_, ?_, hop, ?_⟩
  · rw [hframe, lastOperation, hlen, Nat.add_sub_cancel]
  · rw [hw]
    exact operationFor_last hlen hop rfl
  · exact hs.stands k operationId (operationInProgress_eq_some.mpr ⟨hlen, hend⟩) hop

theorem binding_post {w : Worker} {callback : Callback} (hs : v.session.Binding)
    (hw : v.session.workers = [w]) (hpost : v.session.PostBound w callback) :
    ((v.postCallback callback w.operation w.frameOperation).goto 0 w .release).session.Binding := by
  have hreports : ∃ kind, v.session.Reports w kind ∧ (callback.isTerminal = true →
      kind = .authenticate → v.session.HasCleared w) := by
    cases callback with
    | onAuthenticationSucceeded faceId hat => exact ⟨_, hpost.1, fun _ _ => hpost.2.1⟩
    | onAuthenticationFailed | onAuthenticationFrame _ _ => exact ⟨_, hpost, nofun⟩
    | onInteractionDetected => exact ⟨_, hpost, fun _ => nofun⟩
    | onEnrollmentProgress _ _ | onEnrollmentFrame _ _ => exact ⟨_, hpost, fun _ => nofun⟩
    | _ => exact absurd hpost id
  obtain ⟨kind, hreports, hcleared⟩ := hreports
  have hposted :
      ((v.postCallback callback w.operation w.frameOperation).goto 0 w .release).session.posted =
        v.session.posted ++ [⟨callback, w.operation, w.frameOperation⟩] := rfl
  have hops : ((v.postCallback callback w.operation w.frameOperation).goto 0 w
      .release).session.operations = v.session.operations := rfl
  refine hs.keep hops (fun _ _ _ _ => rfl) ?_ hposted ?_ ?_ ?_ hs.frames ?_ ?_
  · intro kind' hset
    rw [← hset]
    exact (flag_congr rfl rfl rfl kind').symm
  · intro p hp k hk
    rw [List.mem_singleton.mp hp] at hk
    obtain ⟨operation, hop, -⟩ := hreports k hk
    exact (List.getElem?_eq_some_iff.mp hop).choose
  · intro hset k hlen p hp hterm hk
    rw [List.mem_singleton.mp hp] at hterm hk
    obtain ⟨operation, hop, hkind⟩ := hreports k hk
    obtain ⟨k', operationId, hlen', hop', -⟩ := hs.authenticating hset
    obtain rfl : k = k' := by omega
    rw [hop] at hop'
    obtain rfl := Option.some.inj hop'
    have hclear := hcleared hterm hkind.symm k hk hlen
    rw [show v.session.isAuthenticating = true from hset] at hclear
    cases hclear
  · have hworkers :
        ((v.postCallback callback w.operation w.frameOperation).goto 0 w .release).session.workers =
          [{ w with stage := .release }] := by
      simp [goto, onSession, postCallback, hw]
    exact hs.claimed.replace hw rfl hworkers
  · intro w' hw'
    have hrelease : w'.stage = .release := by
      simp only [goto, onSession, postCallback, hw, List.set_cons_zero, List.mem_singleton] at hw'
      rw [hw']
    unfold Bound
    rw [hrelease]
    trivial
  · intro p hp faceId hat hc
    rw [hposted] at hp
    rcases List.mem_append.mp hp with hp | hp
    · exact hs.binds p hp faceId hat hc
    · rw [List.mem_singleton.mp hp] at hc ⊢
      obtain rfl : callback = .onAuthenticationSucceeded faceId hat := hc
      exact hpost.2.2

theorem binding_worker {w : Worker} {reply : EngineReply} (hs : v.session.Binding)
    (hw : v.session.workers = [w]) : (v.workerStep 0 w reply).session.Binding := by
  have hbound : v.session.Bound w := hs.workers w (by rw [hw]; exact List.mem_singleton_self w)
  have hmove : ∀ w', v.session.Bound w' →
      ({ v.session with workers := v.session.workers.set 0 w' } : Session).Binding := by
    intro w' hw'
    rw [hw]
    exact binding_goto (f := id) hs hw ⟨rfl, rfl, rfl, rfl, rfl⟩ (fun _ => id) hw'
  have hchange : ∀ (f : Session → Session) (w' : Worker),
      (f v.session).operations = v.session.operations ∧
        (f v.session).currentChallenge = v.session.currentChallenge ∧
        (f v.session).posted = v.session.posted ∧ (f v.session).frames = v.session.frames ∧
        (f v.session).processingFrame = v.session.processingFrame →
      (f v.session).workers = v.session.workers →
      (∀ kind, (f v.session).flag kind = true → v.session.flag kind = true) →
      (f v.session).Bound w' →
      ({ f v.session with workers := (f v.session).workers.set 0 w' } : Session).Binding := by
    intro f w' hf hworkers hflag hw'
    rw [hworkers, hw]
    exact binding_goto hs hw hf hflag hw'
  have hclear : ∀ (kind : OperationKind) (w' : Worker), (v.session.clear kind).Bound w' →
      ({ v.session.clear kind with workers := (v.session.clear kind).workers.set 0 w' } :
        Session).Binding :=
    fun kind w' => hchange (clear kind) w' ⟨operations_clear kind, currentChallenge_clear kind,
      posted_clear kind, frames_clear kind, processingFrame_clear kind⟩ (workers_clear kind)
      fun _ => flag_of_clear
  unfold Bound at hbound
  unfold workerStep
  cases hstage : w.stage with
  | testCancelled =>
      rw [hstage] at hbound
      dsimp only
      split_ifs
      · exact hmove _ trivial
      · exact hmove _ hbound
  | testAuthenticating =>
      rw [hstage] at hbound
      dsimp only
      split_ifs with hset
      · exact hmove { w with
          stage := .authenticate, operation := v.session.operationFor .authenticate }
          ⟨fromAuthentication_of_flag hs hset (hbound hset) rfl, reports_operationFor rfl⟩
      · exact hmove _ trivial
  | authenticate =>
      rw [hstage] at hbound
      dsimp only
      split_ifs
      · exact hmove _ hbound
      · exact hmove _ hbound.2
      · exact hmove _ hbound.2
      · exact hmove _ trivial
  | clearAuthenticating faceId =>
      rw [hstage] at hbound
      exact hclear .authenticate { w with stage := .clearReason faceId }
        ⟨hbound.1, hbound.2, fun _ _ _ => rfl⟩
  | clearReason faceId =>
      rw [hstage] at hbound
      refine hchange (fun s => { s with currentOperationReason := .unknown }) { w with
        stage := .stopAfterMatch faceId } ⟨rfl, rfl, rfl, rfl, rfl⟩ rfl ?_ hbound
      intro kind hset
      exact (flag_congr rfl rfl rfl kind).symm.trans hset
  | stopAfterMatch faceId =>
      rw [hstage] at hbound
      refine hchange (fun s => { s with cameraRunning := false }) { w with
        stage := .readChallenge faceId } ⟨rfl, rfl, rfl, rfl, rfl⟩ rfl ?_ hbound
      intro kind hset
      exact (flag_congr rfl rfl rfl kind).symm.trans hset
  | readChallenge faceId =>
      rw [hstage] at hbound
      obtain ⟨⟨k, operationId, hframe, hk, hop, hchallenge⟩, hreports, hcleared⟩ := hbound
      refine hmove _ ⟨hreports, hcleared, k, operationId, hframe, hk, hop, ?_⟩
      rw [authToken, hchallenge, Int64.toInt64_toUInt64]
  | testDetecting =>
      dsimp only
      split_ifs
      · exact hmove { w with
          stage := .analyze, operation := v.session.operationFor .detectInteraction }
          (reports_operationFor rfl)
      · exact hmove _ trivial
  | analyze =>
      rw [hstage] at hbound
      dsimp only
      split_ifs
      · exact hmove _ hbound
      · exact hmove _ trivial
  | clearDetecting =>
      rw [hstage] at hbound
      exact hclear .detectInteraction { w with stage := .stopAfterDetection } hbound
  | stopAfterDetection =>
      rw [hstage] at hbound
      refine hchange (fun s => { s with cameraRunning := false }) { w with
        stage := .post .onInteractionDetected } ⟨rfl, rfl, rfl, rfl, rfl⟩ rfl ?_ hbound
      intro kind hset
      exact (flag_congr rfl rfl rfl kind).symm.trans hset
  | testEnrolling =>
      dsimp only
      split_ifs
      · exact hmove { w with stage := .enroll, operation := v.session.operationFor .enroll }
          (reports_operationFor rfl)
      · exact hmove _ trivial
  | enroll =>
      rw [hstage] at hbound
      dsimp only
      split_ifs
      · exact hmove _ hbound
      · exact hmove _ hbound
      · exact hmove _ hbound
  | readFrameCount faceId =>
      rw [hstage] at hbound
      exact hmove _ hbound
  | clearEnrolling faceId =>
      rw [hstage] at hbound
      exact hclear .enroll { w with stage := .stopAfterEnrollment faceId } hbound
  | stopAfterEnrollment faceId =>
      rw [hstage] at hbound
      refine hchange (fun s => { s with cameraRunning := false }) { w with
        stage := .post (.onEnrollmentProgress faceId 0) } ⟨rfl, rfl, rfl, rfl, rfl⟩ rfl ?_ hbound
      intro kind hset
      exact (flag_congr rfl rfl rfl kind).symm.trans hset
  | post callback =>
      rw [hstage] at hbound
      exact binding_post hs hw hbound
  | release =>
      refine hs.moves rfl rfl rfl ?_ (.inl ⟨rfl, ?_⟩) hs.frames ?_
      · intro kind hset
        exact (flag_congr rfl rfl rfl kind).symm.trans hset
      · simp [hw]
      · intro w' hw'
        simp [hw] at hw'

theorem binding_step (hs : v.session.Binding) (hpolite : Polite v l) (hkept : ChallengeKept v l)
    (h : sessionStep v l v') : v'.session.Binding := by
  have hclaimed := claimed_step hs.claimed h
  cases effect_of_step h with
  | started hl hb hflag hposted =>
      rw [← List.append_nil v.session.posted] at hposted
      refine binding_began hs hkept hl hb hclaimed ?_ hposted (by simp)
      intro hset
      have hset' := (hflag .authenticate).symm.trans hset
      rw [show v.session.flag .authenticate = false from
        not_authenticating_of_starts hs hpolite (by simp [hl])] at hset'
      simpa using hset'
  | failed code hl hb hflag hposted =>
      have hclear : v'.session.isAuthenticating = false := by
        have hset := hflag .authenticate
        rw [show v.session.flag .authenticate = false from
          not_authenticating_of_starts hs hpolite (by simp [hl]), Bool.false_and] at hset
        exact hset
      refine binding_began hs hkept hl hb hclaimed ?_ hposted ?_
      · intro hset
        rw [hclear] at hset
        cases hset
      · intro p hp
        rw [List.mem_singleton.mp hp]
        exact ⟨rfl, nofun, hclear⟩
  | canceled hl hc => exact binding_canceled hs hc hclaimed
  | closed u hc ht =>
      have hu : u.Claimed := by
        rw [Claimed, hc.processingFrame, hc.workers]
        exact hs.claimed
      refine binding_answered (v := ⟨v.engine, u⟩) (binding_canceled hs hc hu) rfl ?_ (.inl rfl) ht
      intro faceId hat heq
      cases heq
  | answered callback challenge hanswer hchallenge ht =>
      simp only [Callback.isAnswer, Bool.and_eq_true, Bool.not_eq_true'] at hanswer
      refine binding_answered hs hanswer.1.1 ?_ ?_ ht
      · rintro faceId hat rfl
        cases hanswer.1.1
      · rcases hchallenge with hc | rfl
        · exact .inl hc
        · rcases hkept.1 with hc | ⟨hnone, hmatching⟩
          · exact .inl hc
          · refine .inr ⟨?_, hmatching⟩
            intro k operationId hk hop
            exact hnone k hk _ hop rfl
  | arrived ht =>
      rw [ht] at hclaimed ⊢
      refine hs.moves rfl rfl rfl (fun kind hset => (flag_congr rfl rfl rfl kind).symm.trans hset)
        hclaimed ?_ ?_
      · intro hset frameOperation hf
        rcases List.mem_append.mp hf with hf | hf
        · exact hs.frames hset frameOperation hf
        · obtain ⟨k, -, hlen, -, hend⟩ := hs.authenticating hset
          rw [List.mem_singleton.mp hf, operationInProgress_eq_some.mpr ⟨hlen, hend⟩, lastOperation,
            hlen, Nat.add_sub_cancel]
      · exact hs.workers
  | dropped i _ ht =>
      rw [ht] at hclaimed ⊢
      refine hs.moves rfl rfl rfl (fun kind hset => (flag_congr rfl rfl rfl kind).symm.trans hset)
        hclaimed ?_ hs.workers
      intro hset frameOperation hf
      exact hs.frames hset frameOperation (List.mem_of_mem_eraseIdx hf)
  | claimed i frameOperation _ hi ht =>
      rw [ht] at hclaimed ⊢
      refine hs.moves rfl rfl rfl (fun kind hset => (flag_congr rfl rfl rfl kind).symm.trans hset)
        hclaimed ?_ ?_
      · intro hset frameOperation' hf
        exact hs.frames hset frameOperation' (List.mem_of_mem_eraseIdx hf)
      · intro w hw
        rcases List.mem_append.mp hw with hw | hw
        · exact hs.workers w hw
        · rw [List.mem_singleton.mp hw]
          exact fun hset => hs.frames hset _ (List.mem_of_getElem? hi)
  | worker i w reply hi ht =>
      obtain ⟨rfl, hw⟩ := hs.claimed.only hi
      rw [ht]
      exact binding_worker hs hw
  | alike ha =>
      refine hs.moves ha.operations ha.currentChallenge ha.posted
        (fun kind => by rw [ha.flag]; exact id)
        hclaimed ?_ ?_
      · rw [ha.frames]
        exact hs.frames
      · intro w hw
        rw [ha.workers] at hw
        exact (hs.workers w hw).congr ha.operations
          (fun hset => (ha.flag .authenticate).symm.trans hset)
          fun _ => ha.currentChallenge

theorem binding_create (userId : Int32) : (Session.create userId).Binding := by
  have hflag : ∀ kind, (Session.create userId).flag kind ≠ true := by
    intro kind
    cases kind <;> exact nofun
  refine ⟨.inl ⟨rfl, rfl⟩, ?_, fun kind hset => absurd hset (hflag kind),
    fun hset => absurd hset (hflag .authenticate), ?_,
    fun hset => absurd hset (hflag .authenticate), ?_, ?_⟩
  · intro p hp
    cases hp
  · intro k operationId hk
    cases hk
  · intro w hw
    cases hw
  · intro p hp
    cases hp

end step

/-- In a run with a polite client that keeps the challenge, every success carries the
id of the authentication that its frame was delivered for, and the challenge of an
authentication in progress is its id. -/
theorem bindsChallenges_of_kept {v v' : SessionView} {ls : List SessionLabel} (hfresh : v.Fresh)
    (h : Runs (guarded (fun v l => Polite v l ∧ ChallengeKept v l) sessionStep) v ls v') :
    v'.session.BindsChallenges ∧ v'.session.ChallengeStands := by
  have hbinding : v'.session.Binding := by
    refine h.invariant (P := fun v => v.session.Binding) ?_ ?_
    · rintro s l t hs ⟨⟨hpolite, hkept⟩, hstep⟩
      exact binding_step hs hpolite hkept hstep
    · rw [hfresh]
      exact binding_create _
  exact ⟨hbinding.binds, hbinding.stands⟩

/-- `generateChallenge()` while the engine works on a frame of an authentication. -/
def challengeReplaced : List SessionLabel :=
  [.authenticate 7 0 .started] ++ frameReaches 2 ++ [.generateChallenge 9, .worker 0 ⟨0, 1, 0⟩] ++
    List.replicate 6 (.worker 0 noReply)

theorem challengeReplaced_reported : ¬ ∀ (v v' : SessionView) (ls : List SessionLabel), v.Fresh →
    Runs (guarded Polite sessionStep) v ls v' →
      v'.session.BindsChallenges ∧ v'.session.ChallengeStands := by
  intro h
  obtain ⟨v', hv'⟩ : ∃ v', replay Polite (fun v l => l.apply v) challengeReplaced newSession =
      some v' := ⟨_, rfl⟩
  obtain ⟨hbinds, -⟩ := h newSession v' challengeReplaced rfl (runs_of_replay hv')
  have hsession : v'.session.posted = [⟨.onChallengeGenerated 9, none, none⟩,
      ⟨.onAuthenticationSucceeded 1 ⟨9, 0, 0, 0⟩, some 0, some 0⟩] ∧
      v'.session.operations = [.authenticate 7] := by
    obtain rfl := Option.some.inj hv'
    exact ⟨rfl, rfl⟩
  obtain ⟨k, operationId, hk, -, hop, hchallenge⟩ := hbinds _
    (by rw [hsession.1]; exact List.mem_cons_of_mem _ (List.mem_singleton_self _)) 1
    ⟨9, 0, 0, 0⟩ rfl
  obtain rfl := Option.some.inj hk
  rw [hsession.2] at hop
  obtain rfl : operationId = 7 := by simpa using hop.symm
  revert hchallenge
  decide

/-- A success that carries the id. -/
theorem matchedFrame_bound : ∃ v', replay (fun v l => Polite v l ∧ ChallengeKept v l)
    (fun v l => l.apply v) matchedFrame newSession = some v' ∧
    v'.session.BindsChallenges ∧ v'.session.ChallengeStands := by
  obtain ⟨v', hv'⟩ : ∃ v', replay (fun v l => Polite v l ∧ ChallengeKept v l) (fun v l => l.apply v)
      matchedFrame newSession = some v' := ⟨_, rfl⟩
  exact ⟨v', hv', bindsChallenges_of_kept (v := newSession) rfl (runs_of_replay hv')⟩

end FaceHal
