import FaceHal.ClosableQueue
import FaceHal.SessionCallback

/-!
# The callback queue of a session

`postCallback` may run on any thread and at any time. The queue exists once the
constructor has made it; its worker thread takes the tasks one by one. The
destructor cancels the session, closes the queue and detaches the thread. A
section under the queue's lock is one step, and so is the execution of a task. All
tasks are lambdas that call the client, so the worker's test for an empty function
always succeeds.
-/
namespace FaceHal

/-- Where the life of the session is: the next step of the constructor or destructor. -/
inductive SessionPhase where
  | constructing
  | alive
  | closing
  | detaching
  | destroyed
deriving DecidableEq, Repr

structure CallbackQueue where
  phase : SessionPhase
  /-- `mCallbackQueueState`, which is null before the constructor sets it. -/
  callbackQueueState : Option (ClosableQueue Callback)
  /-- History: the place of the error that the destructor's `cancel()` posted. -/
  canceledAt : Option ℕ
deriving DecidableEq, Repr

namespace CallbackQueue

def initial : CallbackQueue := ⟨.constructing, none, none⟩

def onQueue (s : CallbackQueue) (f : ClosableQueue Callback → ClosableQueue Callback) :
    CallbackQueue :=
  { s with callbackQueueState := s.callbackQueueState.map f }

def postCallback (s : CallbackQueue) (task : Callback) : CallbackQueue :=
  s.onQueue fun q => q.post task

/-- The end of the constructor: the queue is made and the worker is started. -/
def construct (s : CallbackQueue) : Option CallbackQueue :=
  match s.phase with
  | .constructing => some { s with phase := .alive, callbackQueueState := some .new }
  | _ => none

/-- The next section of the destructor. `busy` is what `cancel()` finds in the three
operation flags. -/
def destroy (s : CallbackQueue) (busy : Bool) : Option CallbackQueue :=
  match s.phase with
  | .alive =>
      let s := { s with phase := .closing }
      if busy then
        let place := s.callbackQueueState.map fun q : ClosableQueue Callback => q.accepted.length
        some ({ s with canceledAt := place }.postCallback (.onError .canceled 0))
      else some s
  | .closing => some ({ s with phase := .detaching }.onQueue ClosableQueue.close)
  | .detaching => some { s with phase := .destroyed }
  | .constructing | .destroyed => none

end CallbackQueue

inductive CallbackLabel where
  | construct
  | postCallback (task : Callback)
  /-- The worker goes on. -/
  | worker
  /-- The wait of the worker returns without a notification. -/
  | wake
  | destroy (busy : Bool)
deriving DecidableEq, Repr

def CallbackLabel.apply (s : CallbackQueue) : CallbackLabel → Option CallbackQueue
  | .construct => s.construct
  | .postCallback task => some (s.postCallback task)
  | .worker =>
      (s.callbackQueueState.bind ClosableQueue.consume).map fun q =>
        { s with callbackQueueState := some q }
  | .wake => some (s.onQueue ClosableQueue.notify)
  | .destroy busy => s.destroy busy

def callbackStep : System CallbackQueue CallbackLabel := fun s l s' => l.apply s = some s'

namespace CallbackQueue
variable {s s' : CallbackQueue} {q : ClosableQueue Callback} {l : CallbackLabel}
  {ls : List CallbackLabel}

/-- The destructor has cleared `running`. -/
def closed (s : CallbackQueue) : Bool :=
  match s.phase with
  | .detaching | .destroyed => true
  | _ => false

/-- What holds of the queue in every state. -/
structure Sound (s : CallbackQueue) : Prop where
  made : s.callbackQueueState = none ↔ s.phase = .constructing
  accounted : ∀ q, s.callbackQueueState = some q → q.Accounted
  running : ∀ q, s.callbackQueueState = some q → q.running = !s.closed
  canceled : ∀ k, s.canceledAt = some k → ∃ q, s.callbackQueueState = some q ∧
    q.accepted[k]? = some (.onError .canceled 0)

theorem Sound.kept (hs : s.Sound) (hphase : s'.phase = s.phase)
    (hcanceled : s'.canceledAt = s.canceledAt)
    (hmade : s'.callbackQueueState = none ↔ s.callbackQueueState = none)
    (hstep : ∀ q', s'.callbackQueueState = some q' → ∃ q ql, s.callbackQueueState = some q ∧
      ClosableQueue.step q ql q' ∧ q'.running = q.running) : s'.Sound := by
  refine ⟨?_, ?_, ?_, ?_⟩
  · rw [hmade, hphase]
    exact hs.made
  · intro q' hq'
    obtain ⟨q, ql, hq, hql, -⟩ := hstep q' hq'
    exact ClosableQueue.accounted_step (hs.accounted q hq) hql
  · intro q' hq'
    obtain ⟨q, ql, hq, -, hrunning⟩ := hstep q' hq'
    rw [hrunning, hs.running q hq, closed, closed, hphase]
  · intro k hk
    rw [hcanceled] at hk
    obtain ⟨q, hq, hplace⟩ := hs.canceled k hk
    have hsome : s'.callbackQueueState ≠ none := by
      rw [Ne, hmade, hq]
      exact nofun
    obtain ⟨q', hq'⟩ := Option.ne_none_iff_exists'.mp hsome
    obtain ⟨q₀, ql, hq₀, hql, -⟩ := hstep q' hq'
    obtain rfl := Option.some.inj (hq.symm.trans hq₀)
    exact ⟨q', hq', ClosableQueue.place_step hql hplace⟩

theorem Sound.onQueue {f : ClosableQueue Callback → ClosableQueue Callback}
    (ql : ClosableQueue.Label Callback) (hs : s.Sound)
    (hf : ∀ q, ClosableQueue.step q ql (f q)) (hrunning : ∀ q, (f q).running = q.running) :
    (s.onQueue f).Sound := by
  refine hs.kept rfl rfl Option.map_eq_none_iff ?_
  intro q' hq'
  obtain ⟨q, hq, rfl⟩ := Option.map_eq_some_iff.mp hq'
  exact ⟨q, ql, hq, hf q, hrunning q⟩

theorem Sound.destroy {busy : Bool} (hs : s.Sound) (h : s.destroy busy = some s') : s'.Sound := by
  unfold CallbackQueue.destroy at h
  cases hphase : s.phase with
  | constructing | destroyed =>
      rw [hphase] at h
      cases h
  | alive =>
      rw [hphase] at h
      have hclosing : ({ s with phase := .closing } : CallbackQueue).Sound := by
        refine ⟨?_, hs.accounted, ?_, hs.canceled⟩
        · rw [hs.made, hphase]
          simp
        · intro q hq
          rw [hs.running q hq, closed, hphase]
          rfl
      cases busy with
      | false =>
          obtain rfl := Option.some.inj h
          exact hclosing
      | true =>
          obtain rfl := Option.some.inj h
          have hposted := hclosing.onQueue (.post (.onError .canceled 0))
            (f := fun q => q.post (.onError .canceled 0)) (fun q => rfl) (by simp)
          refine ⟨hposted.made, hposted.accounted, hposted.running, ?_⟩
          intro k hk
          obtain ⟨q, hq, rfl⟩ := Option.map_eq_some_iff.mp hk
          have hrunning : q.running = true := (hclosing.running q hq).trans rfl
          refine ⟨_, Option.map_eq_some_iff.mpr ⟨q, hq, rfl⟩, ?_⟩
          rw [ClosableQueue.post, if_pos hrunning, ClosableQueue.accepted_notify]
          simp
  | closing =>
      rw [hphase] at h
      obtain rfl := Option.some.inj h
      refine ⟨?_, ?_, ?_, ?_⟩
      · rw [CallbackQueue.onQueue, Option.map_eq_none_iff, hs.made, hphase]
        simp
      · intro q' hq'
        obtain ⟨q, hq, rfl⟩ := Option.map_eq_some_iff.mp hq'
        exact (hs.accounted q hq).close
      · intro q' hq'
        obtain ⟨q, hq, rfl⟩ := Option.map_eq_some_iff.mp hq'
        rw [ClosableQueue.close, ClosableQueue.running_notify]
        rfl
      · intro k hk
        obtain ⟨q, hq, hplace⟩ := hs.canceled k hk
        exact ⟨q.close, Option.map_eq_some_iff.mpr ⟨q, hq, rfl⟩,
          ClosableQueue.place_step (l := .close) rfl hplace⟩
  | detaching =>
      rw [hphase] at h
      obtain rfl := Option.some.inj h
      refine ⟨?_, hs.accounted, ?_, hs.canceled⟩
      · rw [hs.made, hphase]
        simp
      · intro q hq
        rw [hs.running q hq, closed, hphase]
        rfl

theorem sound_step (hs : s.Sound) (h : callbackStep s l s') : s'.Sound := by
  unfold callbackStep at h
  cases l with
  | construct =>
      unfold CallbackLabel.apply construct at h
      cases hphase : s.phase with
      | constructing =>
          rw [hphase] at h
          obtain rfl := Option.some.inj h
          refine ⟨⟨nofun, nofun⟩, ?_, ?_, ?_⟩
          · rintro _ ⟨⟩
            exact ClosableQueue.accounted_new
          · rintro _ ⟨⟩
            rfl
          · intro k hk
            obtain ⟨q, hq, -⟩ := hs.canceled k hk
            rw [hs.made.mpr hphase] at hq
            cases hq
      | _ =>
          dsimp only at h
          rw [hphase] at h
          cases h
  | postCallback task =>
      obtain rfl := Option.some.inj h
      exact hs.onQueue (.post task) (fun q => rfl) (by simp)
  | worker =>
      obtain ⟨q', hq', rfl⟩ := Option.map_eq_some_iff.mp h
      obtain ⟨q, hq, hconsume⟩ := Option.bind_eq_some_iff.mp hq'
      refine hs.kept rfl rfl (by simp [hq]) ?_
      rintro _ ⟨⟩
      exact ⟨q, .consume, hq, hconsume, (ClosableQueue.consume_kept hconsume).2⟩
  | wake =>
      obtain rfl := Option.some.inj h
      exact hs.onQueue .wake (fun q => rfl) (by simp)
  | destroy busy => exact hs.destroy h

theorem sound_initial : initial.Sound := by
  refine ⟨⟨fun _ => rfl, fun _ => rfl⟩, ?_, ?_, ?_⟩
  · intro q hq
    cases hq
  · intro q hq
    cases hq
  · intro k hk
    cases hk

theorem queue_of_step (hs : s.Sound) (hq : s.callbackQueueState = some q)
    (h : callbackStep s l s') : ∃ q', s'.callbackQueueState = some q' ∧
      (q' = q ∨ ∃ ql, ClosableQueue.step q ql q') := by
  unfold callbackStep at h
  cases l with
  | construct =>
      change s.construct = some s' at h
      unfold construct at h
      have hphase : s.phase ≠ .constructing := by
        rw [Ne, ← hs.made, hq]
        exact nofun
      split at h
      · exact absurd ‹_› hphase
      · cases h
  | postCallback task =>
      obtain rfl := Option.some.inj h
      exact ⟨q.post task, Option.map_eq_some_iff.mpr ⟨q, hq, rfl⟩, .inr ⟨.post task, rfl⟩⟩
  | worker =>
      obtain ⟨q', hq', rfl⟩ := Option.map_eq_some_iff.mp h
      obtain ⟨q₀, hq₀, hconsume⟩ := Option.bind_eq_some_iff.mp hq'
      obtain rfl := Option.some.inj (hq.symm.trans hq₀)
      exact ⟨q', rfl, .inr ⟨.consume, hconsume⟩⟩
  | wake =>
      obtain rfl := Option.some.inj h
      exact ⟨q.notify, Option.map_eq_some_iff.mpr ⟨q, hq, rfl⟩, .inr ⟨.wake, rfl⟩⟩
  | destroy busy =>
      change s.destroy busy = some s' at h
      unfold destroy at h
      split at h
      · cases busy with
        | true =>
            obtain rfl := Option.some.inj h
            exact ⟨_, Option.map_eq_some_iff.mpr ⟨q, hq, rfl⟩, .inr ⟨.post _, rfl⟩⟩
        | false =>
            obtain rfl := Option.some.inj h
            exact ⟨q, hq, .inl rfl⟩
      · obtain rfl := Option.some.inj h
        exact ⟨q.close, Option.map_eq_some_iff.mpr ⟨q, hq, rfl⟩, .inr ⟨.close, rfl⟩⟩
      · obtain rfl := Option.some.inj h
        exact ⟨q, hq, .inl rfl⟩
      · cases h
      · cases h

/-- Nothing is accepted after the destructor has cleared `running`. -/
theorem closed_run (hs : s.Sound) (hq : s.callbackQueueState = some q) (hclosed : q.running = false)
    (h : Runs callbackStep s ls s') :
    ∃ q', s'.callbackQueueState = some q' ∧ q'.accepted = q.accepted := by
  have hkept := h.invariant (P := fun s => s.Sound ∧ ∃ q', s.callbackQueueState = some q' ∧
      q'.running = false ∧ q'.accepted = q.accepted) ?_ ⟨hs, q, hq, hclosed, rfl⟩
  · obtain ⟨-, q', hq', -, haccepted⟩ := hkept
    exact ⟨q', hq', haccepted⟩
  · rintro t l t' ⟨ht, q₁, hq₁, hclosed₁, haccepted₁⟩ hstep
    refine ⟨sound_step ht hstep, ?_⟩
    obtain ⟨q₂, hq₂, rfl | ⟨ql, hql⟩⟩ := queue_of_step ht hq₁ hstep
    · exact ⟨q₂, hq₂, hclosed₁, haccepted₁⟩
    · obtain ⟨hclosed₂, haccepted₂⟩ := ClosableQueue.closed_step hclosed₁ hql
      exact ⟨q₂, hq₂, hclosed₂, haccepted₂.trans haccepted₁⟩

/-- What the queue of a session delivers in a state. -/
structure Delivers (s : CallbackQueue) : Prop where
  /-- Callbacks come in the order of posting and none twice. -/
  inOrder : ∀ q, s.callbackQueueState = some q → q.executed <+: q.accepted
  /-- Nothing is accepted once `running` is cleared. -/
  closed : ∀ q, s.callbackQueueState = some q → q.running = false →
    ∀ ls s', Runs callbackStep s ls s' →
      ∃ q', s'.callbackQueueState = some q' ∧ q'.accepted = q.accepted
  /-- When the worker has ended, everything was executed, with the destructor's error. -/
  ended : ∀ q, s.callbackQueueState = some q → q.consumer = .ended → q.executed = q.accepted ∧
    ∀ k, s.canceledAt = some k → q.executed[k]? = some (.onError .canceled 0)

theorem delivers_of_runs (h : Runs callbackStep initial ls s) : s.Delivers := by
  have hs := h.invariant (P := Sound) (fun _ _ _ => sound_step) sound_initial
  refine ⟨fun q hq => (hs.accounted q hq).executed_isPrefix, ?_, ?_⟩
  · intro q hq hclosed ms s' hruns
    exact closed_run hs hq hclosed hruns
  · intro q hq hended
    have heq := (hs.accounted q hq).executed_eq hended
    refine ⟨heq, ?_⟩
    intro k hk
    obtain ⟨q₀, hq₀, hplace⟩ := hs.canceled k hk
    obtain rfl := Option.some.inj (hq.symm.trans hq₀)
    rw [heq]
    exact hplace

theorem worker_run {n : ℕ} {q' : ClosableQueue Callback} (hq : s.callbackQueueState = some q)
    (h : Runs ClosableQueue.step q (List.replicate n .consume) q') :
    Runs callbackStep s (List.replicate n .worker) { s with callbackQueueState := some q' } := by
  induction n generalizing s q with
  | zero =>
      obtain ⟨phase, callbackQueueState, canceledAt⟩ := s
      obtain rfl : callbackQueueState = some q := hq
      cases h
      exact .nil _
  | succ n ih =>
      rw [List.replicate_succ] at h ⊢
      cases h with
      | @cons _ q₁ _ _ _ hconsume hrest =>
          refine .cons (t := { s with callbackQueueState := some q₁ }) ?_ (ih rfl hrest)
          refine Option.map_eq_some_iff.mpr ⟨q₁, ?_, rfl⟩
          exact Option.bind_eq_some_iff.mpr ⟨q, hq, hconsume⟩

/-- The worker of a destroyed session executes what is left and ends. -/
theorem drains_of_runs (h : Runs callbackStep initial ls s)
    (hq : s.callbackQueueState = some q) (hclosed : q.running = false) :
    ∃ n s' q', Runs callbackStep s (List.replicate n .worker) s' ∧
      s'.callbackQueueState = some q' ∧ q'.consumer = .ended ∧ q'.executed = q.accepted := by
  have hs := h.invariant (P := Sound) (fun _ _ _ => sound_step) sound_initial
  obtain ⟨n, q', hruns, hended⟩ := (hs.accounted q hq).drains hclosed
  have hruns' := worker_run hq hruns
  obtain ⟨q₀, hq₀, haccepted⟩ := closed_run hs hq hclosed hruns'
  obtain rfl := Option.some.inj hq₀
  exact ⟨n, _, q', hruns', rfl, hended,
    ((delivers_of_runs (h.append hruns')).ended q' rfl hended).1.trans haccepted⟩

/-- A session that is destroyed during an enrolment. -/
def destroyedEnrollment : List CallbackLabel :=
  [.construct, .worker, .postCallback (.onEnrollmentProgress 1 4), .destroy true, .worker,
    .destroy true, .worker, .postCallback .onLockoutCleared, .worker, .worker, .worker]

theorem destroyedEnrollment_delivers :
    ∃ s, Runs callbackStep initial destroyedEnrollment s ∧ s.canceledAt = some 1 ∧ s.Delivers := by
  have hruns : Runs callbackStep initial destroyedEnrollment _ :=
    .cons rfl (.cons rfl (.cons rfl (.cons rfl (.cons rfl (.cons rfl (.cons rfl (.cons rfl
      (.cons rfl (.cons rfl (.cons rfl (.nil _)))))))))))
  exact ⟨_, hruns, rfl, delivers_of_runs hruns⟩

end CallbackQueue
end FaceHal
