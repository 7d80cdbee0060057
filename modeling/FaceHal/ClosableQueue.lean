import FaceHal.Transition
import Mathlib.Data.List.Infix

/-!
# Queues that can be closed

Any number of producers append tasks while the queue is running. One consumer takes
the first task in one step and executes it in the next. It sleeps while the queue is
running and empty, and it ends when the queue is closed and empty.
-/
namespace FaceHal

/-- Where the consumer is. -/
inductive Consumer (α : Type) where
  /-- It is about to test whether to sleep, to end or to take a task. -/
  | tests
  | sleeps
  | holds (task : α)
  | ended
deriving DecidableEq, Repr

/-- The task that was taken and is not executed yet. -/
def Consumer.inHand {α : Type} : Consumer α → List α
  | .holds task => [task]
  | _ => []

structure ClosableQueue (α : Type) where
  queue : List α
  running : Bool
  consumer : Consumer α
  /-- History: the tasks that were appended. -/
  accepted : List α
  /-- History: the tasks that were executed. -/
  executed : List α
deriving DecidableEq, Repr

namespace ClosableQueue
variable {α : Type}

def new : ClosableQueue α := ⟨[], true, .tests, [], []⟩

/-- Wake the consumer. -/
def notify (q : ClosableQueue α) : ClosableQueue α :=
  match q.consumer with
  | .sleeps => { q with consumer := .tests }
  | _ => q

def post (q : ClosableQueue α) (task : α) : ClosableQueue α :=
  if q.running then
    { q with queue := q.queue ++ [task], accepted := q.accepted ++ [task] }.notify
  else q

def close (q : ClosableQueue α) : ClosableQueue α := { q with running := false }.notify

/-- One step of the consumer, unless it sleeps or has ended. -/
def consume (q : ClosableQueue α) : Option (ClosableQueue α) :=
  match q.consumer with
  | .tests =>
      match q.queue with
      | [] => some { q with consumer := if q.running then .sleeps else .ended }
      | task :: rest => some { q with queue := rest, consumer := .holds task }
  | .holds task => some { q with executed := q.executed ++ [task], consumer := .tests }
  | .sleeps | .ended => none

inductive Label (α : Type) where
  | post (task : α)
  | close
  | consume
  /-- The consumer wakes up for no reason. -/
  | wake
deriving DecidableEq, Repr

def Label.apply (q : ClosableQueue α) : Label α → Option (ClosableQueue α)
  | .post task => some (q.post task)
  | .close => some q.close
  | .consume => q.consume
  | .wake => some q.notify

def step : System (ClosableQueue α) (Label α) := fun q l q' => l.apply q = some q'

/-- Every accepted task is executed, in the consumer's hand or in the queue, in this order,
and the consumer sleeps or ends only when there is nothing to do. -/
structure Accounted (q : ClosableQueue α) : Prop where
  accepted : q.accepted = q.executed ++ (q.consumer.inHand ++ q.queue)
  sleeps : q.consumer = .sleeps → q.running = true ∧ q.queue = []
  ended : q.consumer = .ended → q.running = false ∧ q.queue = []

section
variable {q q' : ClosableQueue α} {l : Label α} {ls : List (Label α)}

@[simp] theorem running_notify (q : ClosableQueue α) : q.notify.running = q.running := by
  unfold notify
  split <;> rfl

@[simp] theorem queue_notify (q : ClosableQueue α) : q.notify.queue = q.queue := by
  unfold notify
  split <;> rfl

@[simp] theorem accepted_notify (q : ClosableQueue α) : q.notify.accepted = q.accepted := by
  unfold notify
  split <;> rfl

@[simp] theorem executed_notify (q : ClosableQueue α) : q.notify.executed = q.executed := by
  unfold notify
  split <;> rfl

@[simp] theorem running_post (q : ClosableQueue α) (task : α) :
    (q.post task).running = q.running := by
  unfold post
  split_ifs
  · rw [running_notify]
  · rfl

/-- A consumer that was notified does not sleep, and does what it did otherwise. -/
theorem consumer_notify (q : ClosableQueue α) : q.notify.consumer ≠ .sleeps ∧
    q.notify.consumer.inHand = q.consumer.inHand ∧
      (q.notify.consumer = .ended → q.consumer = .ended) := by
  unfold notify
  cases hq : q.consumer with
  | sleeps => exact ⟨nofun, rfl, nofun⟩
  | tests | holds | ended =>
      dsimp only
      rw [hq]
      exact ⟨nofun, rfl, id⟩

theorem accounted_new : (new : ClosableQueue α).Accounted := ⟨rfl, nofun, nofun⟩

theorem Accounted.notify (h : q.Accounted) : q.notify.Accounted := by
  obtain ⟨hawake, hhand, hended⟩ := q.consumer_notify
  refine ⟨?_, fun hsleeps => absurd hsleeps hawake, ?_⟩
  · simpa [hhand] using h.accepted
  · intro hend
    simpa using h.ended (hended hend)

theorem Accounted.post (h : q.Accounted) (task : α) : (q.post task).Accounted := by
  unfold ClosableQueue.post
  split_ifs with hrunning
  · obtain ⟨hawake, hhand, hended⟩ := consumer_notify
      { q with queue := q.queue ++ [task], accepted := q.accepted ++ [task] }
    refine ⟨?_, fun hsleeps => absurd hsleeps hawake, ?_⟩
    · rw [accepted_notify, executed_notify, queue_notify, hhand]
      simp [h.accepted]
    · intro hend
      have hclosed := (h.ended (hended hend)).1
      rw [hrunning] at hclosed
      cases hclosed
  · exact h

theorem Accounted.close (h : q.Accounted) : q.close.Accounted := by
  unfold ClosableQueue.close
  obtain ⟨hawake, hhand, hended⟩ := consumer_notify { q with running := false }
  refine ⟨?_, fun hsleeps => absurd hsleeps hawake, ?_⟩
  · simpa [hhand] using h.accepted
  · intro hend
    simpa using (h.ended (hended hend)).2

theorem Accounted.consume (h : q.Accounted) (hstep : q.consume = some q') : q'.Accounted := by
  obtain ⟨queue, running, consumer, accepted, executed⟩ := q
  have haccepted : accepted = executed ++ (consumer.inHand ++ queue) := h.accepted
  cases consumer with
  | tests =>
      cases queue with
      | nil =>
          cases running with
          | true =>
              obtain rfl := Option.some.inj hstep
              exact ⟨haccepted, fun _ => ⟨rfl, rfl⟩, nofun⟩
          | false =>
              obtain rfl := Option.some.inj hstep
              exact ⟨haccepted, nofun, fun _ => ⟨rfl, rfl⟩⟩
      | cons task rest =>
          obtain rfl := Option.some.inj hstep
          exact ⟨haccepted, nofun, nofun⟩
  | holds task =>
      obtain rfl := Option.some.inj hstep
      exact ⟨by simp [haccepted, Consumer.inHand], nofun, nofun⟩
  | sleeps | ended => cases hstep

theorem accounted_step (h : q.Accounted) (hstep : step q l q') : q'.Accounted := by
  unfold step at hstep
  cases l with
  | post task =>
      obtain rfl := Option.some.inj hstep
      exact h.post task
  | close =>
      obtain rfl := Option.some.inj hstep
      exact h.close
  | consume => exact h.consume hstep
  | wake =>
      obtain rfl := Option.some.inj hstep
      exact h.notify

/-- Tasks are executed in the order in which they were accepted. -/
theorem Accounted.executed_isPrefix (h : q.Accounted) : q.executed <+: q.accepted :=
  ⟨_, h.accepted.symm⟩

theorem Accounted.executed_eq (h : q.Accounted) (hended : q.consumer = .ended) :
    q.executed = q.accepted := by
  have haccepted := h.accepted
  rw [hended, (h.ended hended).2] at haccepted
  simpa [Consumer.inHand] using haccepted.symm

theorem consume_kept (hstep : q.consume = some q') :
    q'.accepted = q.accepted ∧ q'.running = q.running := by
  unfold consume at hstep
  split at hstep
  · split at hstep
    all_goals
      obtain rfl := Option.some.inj hstep
      exact ⟨rfl, rfl⟩
  · obtain rfl := Option.some.inj hstep
    exact ⟨rfl, rfl⟩
  all_goals cases hstep

theorem accepted_step (hstep : step q l q') : q.accepted <+: q'.accepted := by
  unfold step at hstep
  cases l with
  | post task =>
      obtain rfl := Option.some.inj hstep
      unfold post
      split_ifs
      · rw [accepted_notify]
        exact ⟨[task], rfl⟩
      · exact List.prefix_rfl
  | close =>
      obtain rfl := Option.some.inj hstep
      rw [close, accepted_notify]
  | consume =>
      rw [(consume_kept hstep).1]
  | wake =>
      obtain rfl := Option.some.inj hstep
      rw [accepted_notify]

theorem place_step {k : ℕ} {task : α} (hstep : step q l q') (h : q.accepted[k]? = some task) :
    q'.accepted[k]? = some task := by
  obtain ⟨hlt, rfl⟩ := List.getElem?_eq_some_iff.mp h
  exact List.prefix_iff_getElem?.mp (accepted_step hstep) k hlt

theorem closed_step (hclosed : q.running = false) (hstep : step q l q') :
    q'.running = false ∧ q'.accepted = q.accepted := by
  unfold step at hstep
  cases l with
  | post task =>
      obtain rfl := Option.some.inj hstep
      rw [post, if_neg (by simp [hclosed])]
      exact ⟨hclosed, rfl⟩
  | close =>
      obtain rfl := Option.some.inj hstep
      rw [close, running_notify, accepted_notify]
      exact ⟨rfl, rfl⟩
  | consume =>
      obtain ⟨haccepted, hrunning⟩ := consume_kept hstep
      exact ⟨hrunning.trans hclosed, haccepted⟩
  | wake =>
      obtain rfl := Option.some.inj hstep
      rw [running_notify, accepted_notify]
      exact ⟨hclosed, rfl⟩

/-- A consumer that is about to test empties a closed queue and ends. -/
theorem drains_from_test (hclosed : q.running = false) (htests : q.consumer = .tests) :
    ∃ n q', Runs step q (List.replicate n .consume) q' ∧ q'.consumer = .ended := by
  obtain ⟨queue, running, consumer, accepted, executed⟩ := q
  obtain rfl : running = false := hclosed
  obtain rfl : consumer = .tests := htests
  induction queue generalizing executed with
  | nil => exact ⟨1, _, .single rfl, rfl⟩
  | cons task rest ih =>
      obtain ⟨n, q', hruns, hended⟩ := ih (executed ++ [task])
      exact ⟨n + 2, q', .cons rfl (.cons rfl hruns), hended⟩

/-- The consumer of a closed queue comes to its end on its own. -/
theorem Accounted.drains (h : q.Accounted) (hclosed : q.running = false) :
    ∃ n q', Runs step q (List.replicate n .consume) q' ∧ q'.consumer = .ended := by
  cases hq : q.consumer with
  | tests => exact drains_from_test hclosed hq
  | holds task =>
      have hstep : step q .consume
          { q with executed := q.executed ++ [task], consumer := .tests } := by
        simp only [step, Label.apply, ClosableQueue.consume, hq]
      obtain ⟨n, q', hruns, hended⟩ := drains_from_test
        (q := { q with executed := q.executed ++ [task], consumer := .tests }) hclosed rfl
      exact ⟨n + 1, q', .cons hstep hruns, hended⟩
  | sleeps =>
      have hrunning := (h.sleeps hq).1
      rw [hclosed] at hrunning
      cases hrunning
  | ended => exact ⟨0, q, .nil q, hq⟩

end
end ClosableQueue
end FaceHal
