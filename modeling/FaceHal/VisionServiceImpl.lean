import FaceHal.Transition
import Mathlib.Data.List.Basic
import Mathlib.Tactic.SplitIfs

/-!
# The vision service

The service keeps one callback of an app and passes camera frames to it. An
invocation of `onCameraFrame` copies the callback under the lock, shares the frame in
memory and sends it outside the lock, and clears the slot in a second critical
section if the send has failed. By then the slot may hold another callback.
-/
namespace FaceHal

/-- An image and how to read it. -/
structure VisionFrame where
  data : List UInt8
  width : Int32
  height : Int32
  angle : Int32
deriving DecidableEq, Repr

/-- Where an invocation is. The names say what its next step does. -/
inductive VisionStage (α : Type) where
  | copyCallback
  /-- `ashmem_create_region` and `mmap`. -/
  | shareFrame (cb : α)
  | send (cb : α)
  | resetCallback
  | returned (result : Int32)
deriving DecidableEq, Repr

structure VisionInvocation (α : Type) where
  frame : VisionFrame
  stage : VisionStage α
deriving DecidableEq, Repr

structure VisionServiceImpl (α : Type) where
  callback : Option α
  invocations : List (VisionInvocation α)
deriving DecidableEq, Repr

inductive VisionLabel (α : Type) where
  | setCallback (callback : Option α)
  | onCameraFrame (frame : VisionFrame)
  /-- An invocation goes on. `ok` is what the calls for the memory or the send gave. -/
  | invocation (i : ℕ) (ok : Bool)
deriving DecidableEq, Repr

namespace VisionServiceImpl
variable {α : Type}

def initial : VisionServiceImpl α := ⟨none, []⟩

def setCallback (s : VisionServiceImpl α) (callback : Option α) : VisionServiceImpl α :=
  { s with callback := callback }

def onCameraFrame (s : VisionServiceImpl α) (frame : VisionFrame) : VisionServiceImpl α :=
  { s with invocations := s.invocations ++ [⟨frame, .copyCallback⟩] }

/-- The invocation goes on at another stage. -/
def goto (s : VisionServiceImpl α) (i : ℕ) (invocation : VisionInvocation α)
    (stage : VisionStage α) : VisionServiceImpl α :=
  { s with invocations := s.invocations.set i { invocation with stage := stage } }

/-- One step of `onCameraFrame`. -/
def frameStep (s : VisionServiceImpl α) (i : ℕ) (invocation : VisionInvocation α) (ok : Bool) :
    VisionServiceImpl α :=
  match invocation.stage with
  | .copyCallback =>
      match s.callback with
      | none => s.goto i invocation (.returned (-1))
      | some cb => s.goto i invocation (.shareFrame cb)
  | .shareFrame cb =>
      if ok then s.goto i invocation (.send cb) else s.goto i invocation (.returned (-1))
  | .send _ =>
      if ok then s.goto i invocation (.returned 0) else s.goto i invocation .resetCallback
  | .resetCallback => { s with callback := none }.goto i invocation (.returned (-1))
  | .returned _ => s

end VisionServiceImpl

def VisionLabel.apply {α : Type} (s : VisionServiceImpl α) :
    VisionLabel α → Option (VisionServiceImpl α)
  | .setCallback callback => some (s.setCallback callback)
  | .onCameraFrame frame => some (s.onCameraFrame frame)
  | .invocation i ok => (s.invocations[i]?).map fun invocation => s.frameStep i invocation ok

def visionStep {α : Type} : System (VisionServiceImpl α) (VisionLabel α) :=
  fun s l s' => l.apply s = some s'

/-- What was registered last, and whether a send to it has failed since. -/
structure Registration (α : Type) where
  callback : Option α
  sendFailed : Bool
deriving DecidableEq, Repr

namespace VisionServiceImpl
variable {α : Type} [DecidableEq α]

def unregistered : Registration α := ⟨none, false⟩

/-- The callback that the step sends a frame to in vain. -/
def failedSend (s : VisionServiceImpl α) : VisionLabel α → Option α
  | .invocation i false =>
      match (s.invocations[i]?).map VisionInvocation.stage with
      | some (.send cb) => some cb
      | _ => none
  | _ => none

def register (s : VisionServiceImpl α) (l : VisionLabel α) (_ : VisionServiceImpl α)
    (x : Registration α) : Registration α :=
  match l with
  | .setCallback callback => ⟨callback, false⟩
  | _ => { x with
      sendFailed := x.sendFailed || ((s.failedSend l).isSome && s.failedSend l == x.callback) }

/-- The callback registered last is in the slot unless a send to it has failed. -/
def StaysRegistered (s : VisionServiceImpl α × Registration α) : Prop :=
  s.2.sendFailed = true ∨ s.1.callback = s.2.callback

/-- The invocation's next step clears the slot. -/
def resets (s : VisionServiceImpl α) : VisionLabel α → Prop
  | .invocation i _ => (s.invocations[i]?).map VisionInvocation.stage = some .resetCallback
  | _ => False

/-- The slot is cleared only if it is empty or a send to what was registered last has
failed since. -/
def ClearsFailed (s : VisionServiceImpl α × Registration α) (l : VisionLabel α) : Prop :=
  s.1.resets l → s.2.sendFailed = true ∨ s.1.callback = none

section
variable {s s' : VisionServiceImpl α} {x : Registration α} {l : VisionLabel α}
  {ls : List (VisionLabel α)}

omit [DecidableEq α] in
theorem callback_of_step (h : visionStep s l s') :
    (∃ callback, l = .setCallback callback ∧ s'.callback = callback) ∨
    s.resets l ∧ s'.callback = none ∨
    (∀ callback, l ≠ .setCallback callback) ∧ ¬ s.resets l ∧ s'.callback = s.callback := by
  unfold visionStep at h
  cases l with
  | setCallback callback =>
      obtain rfl := Option.some.inj h
      exact .inl ⟨callback, rfl, rfl⟩
  | onCameraFrame frame =>
      obtain rfl := Option.some.inj h
      exact .inr (.inr ⟨nofun, nofun, rfl⟩)
  | invocation i ok =>
      obtain ⟨invocation, hi, rfl⟩ := Option.map_eq_some_iff.mp h
      have hresets : s.resets (.invocation i ok) ↔ invocation.stage = .resetCallback := by
        change (s.invocations[i]?).map VisionInvocation.stage = _ ↔ _
        rw [hi, Option.map_some, Option.some_inj]
      rw [hresets]
      refine .inr ?_
      unfold frameStep
      cases hstage : invocation.stage with
      | resetCallback => exact .inl ⟨rfl, rfl⟩
      | copyCallback =>
          refine .inr ⟨nofun, nofun, ?_⟩
          dsimp only
          split <;> rfl
      | shareFrame | send =>
          refine .inr ⟨nofun, nofun, ?_⟩
          cases ok <;> rfl
      | returned => exact .inr ⟨nofun, nofun, rfl⟩

/-- Other steps than a registration leave it, and what has failed stays failed. -/
theorem register_kept (hl : ∀ callback, l ≠ .setCallback callback) :
    (register s l s' x).callback = x.callback ∧
      (x.sendFailed = true → (register s l s' x).sendFailed = true) := by
  cases l with
  | setCallback callback => exact absurd rfl (hl callback)
  | _ =>
      refine ⟨rfl, ?_⟩
      intro hfailed
      change (x.sendFailed || _) = true
      rw [hfailed, Bool.true_or]

/-- No send fails in the step that clears the slot. -/
theorem register_resets (hl : s.resets l) : register s l s' x = x := by
  cases l with
  | invocation i ok =>
      change (s.invocations[i]?).map VisionInvocation.stage = some .resetCallback at hl
      have hnone : s.failedSend (.invocation i ok) = none := by
        unfold failedSend
        cases ok <;> simp [hl]
      change ({ x with sendFailed := x.sendFailed || _ } : Registration α) = x
      rw [hnone, Option.isSome_none, Bool.false_and, Bool.or_false]
  | _ => exact hl.elim

/-- A step from a state in which the registration stands keeps it exactly if it does
not clear the slot of a callback that works. -/
theorem staysRegistered_step_iff (hs : StaysRegistered (s, x)) (h : visionStep s l s') :
    StaysRegistered (s', register s l s' x) ↔ ClearsFailed (s, x) l := by
  rcases callback_of_step h with ⟨callback, rfl, hcb⟩ | ⟨hresets, hcb⟩ | ⟨hset, hresets, hcb⟩
  · exact iff_of_true (.inr hcb) nofun
  · rw [StaysRegistered, register_resets hresets, ClearsFailed, imp_iff_right hresets, hcb]
    rcases hs with hfailed | hslot
    · exact iff_of_true (.inl hfailed) (.inl hfailed)
    · rw [hslot, @eq_comm _ none]
  · refine iff_of_true ?_ fun h => absurd h hresets
    obtain ⟨hkept, hfailed⟩ : (register s l s' x).callback = x.callback ∧
        (x.sendFailed = true → (register s l s' x).sendFailed = true) := register_kept hset
    refine hs.imp hfailed ?_
    intro hslot
    exact hcb.trans (hslot.trans hkept.symm)

/-- A run keeps every registration to its proper end if and only if no step of it
clears the slot of a callback that works. -/
theorem staysRegistered_iff :
    Runs (fun s l t => withHistory visionStep register s l t ∧ StaysRegistered t)
        (initial, unregistered) ls (s', x) ↔
      Runs (guarded ClearsFailed (withHistory visionStep register)) (initial, unregistered) ls
        (s', x) := by
  have hinit : StaysRegistered ((initial, unregistered) : VisionServiceImpl α × _) := .inr rfl
  constructor
  · intro h
    refine (h.strengthen (P := StaysRegistered) ?_ hinit).1
    rintro s l t hs ⟨⟨hstep, hrecord⟩, ht⟩
    refine ⟨⟨?_, hstep, hrecord⟩, ht⟩
    rw [← staysRegistered_step_iff hs hstep, ← hrecord]
    exact ht
  · intro h
    refine (h.strengthen (P := StaysRegistered) ?_ hinit).1
    rintro s l t hs ⟨hclears, hstep, hrecord⟩
    have ht := (staysRegistered_step_iff hs hstep).mpr hclears
    rw [← hrecord] at ht
    exact ⟨⟨⟨hstep, hrecord⟩, ht⟩, ht⟩

/-- The app restarts and registers again while a send to it fails. -/
def restartedApp : List (VisionLabel ℕ) :=
  [.setCallback (some 1), .onCameraFrame ⟨[], 640, 480, 0⟩, .invocation 0 true, .invocation 0 true,
    .invocation 0 false, .setCallback (some 2), .invocation 0 true]

theorem restartedApp_unregistered : ¬ ∀ (ls : List (VisionLabel ℕ)) (s : VisionServiceImpl ℕ)
    (x : Registration ℕ), Runs (withHistory visionStep register) (initial, unregistered) ls (s, x) →
      StaysRegistered (s, x) := by
  intro h
  have hstays := h restartedApp _ _ (.remember rfl (.remember rfl (.remember rfl (.remember rfl
    (.remember rfl (.remember rfl (.remember rfl (.nil _))))))))
  rcases hstays with hfailed | hslot
  · cases hfailed
  · cases hslot

end
end VisionServiceImpl
end FaceHal
