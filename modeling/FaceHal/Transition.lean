import Mathlib.Logic.Basic

/-!
# Labelled transition systems

A system takes steps that carry a label, which says what was asked and what was
answered. A run is a sequence of steps. An invariant is proved for one step and
then holds at the end of every run, so in every state that is reached; a
simulation is proved for one step and then matches every run. `guarded` keeps
the steps that meet a condition.
-/
namespace FaceHal

abbrev System (σ ℓ : Type) : Type := σ → ℓ → σ → Prop

inductive Runs {σ ℓ : Type} (step : System σ ℓ) : σ → List ℓ → σ → Prop
  | nil (s : σ) : Runs step s [] s
  | cons {s t u : σ} {l : ℓ} {ls : List ℓ} :
      step s l t → Runs step t ls u → Runs step s (l :: ls) u

namespace Runs
variable {σ τ ℓ : Type} {step : System σ ℓ} {s t u : σ} {l : ℓ} {ls ms : List ℓ}

theorem single (h : step s l t) : Runs step s [l] t := .cons h (.nil t)

theorem append (h : Runs step s ls t) (h' : Runs step t ms u) : Runs step s (ls ++ ms) u := by
  induction h with
  | nil s => exact h'
  | cons hs _ ih => exact .cons hs (ih h')

theorem invariant {P : σ → Prop} (hstep : ∀ s l t, P s → step s l t → P t)
    (h : Runs step s ls t) (hs : P s) : P t := by
  induction h with
  | nil s => exact hs
  | cons hl _ ih => exact ih (hstep _ _ _ hs hl)

theorem simulate {step' : System τ ℓ} {R : σ → τ → Prop}
    (hstep : ∀ s l t s', R s s' → step s l t → ∃ t', step' s' l t' ∧ R t t')
    (h : Runs step s ls t) {s' : τ} (hs : R s s') : ∃ t', Runs step' s' ls t' ∧ R t t' := by
  induction h generalizing s' with
  | nil s => exact ⟨s', .nil s', hs⟩
  | cons hl _ ih =>
      obtain ⟨v, hv, hR⟩ := hstep _ _ _ _ hs hl
      obtain ⟨w, hw, hR'⟩ := ih hR
      exact ⟨w, .cons hv hw, hR'⟩

theorem mono {step' : System σ ℓ} (hstep : ∀ s l t, step s l t → step' s l t)
    (h : Runs step s ls t) : Runs step' s ls t := by
  induction h with
  | nil s => exact .nil s
  | cons hl _ ih => exact .cons (hstep _ _ _ hl) ih

/-- An invariant may be used to strengthen the steps of a run. -/
theorem strengthen {step' : System σ ℓ} {P : σ → Prop}
    (hstep : ∀ s l t, P s → step s l t → step' s l t ∧ P t) (h : Runs step s ls t) (hs : P s) :
    Runs step' s ls t ∧ P t := by
  induction h with
  | nil s => exact ⟨.nil s, hs⟩
  | cons hl _ ih =>
      obtain ⟨hl', hP⟩ := hstep _ _ _ hs hl
      obtain ⟨hrest, hend⟩ := ih hP
      exact ⟨.cons hl' hrest, hend⟩

end Runs

/-- A step of the run was one of these. -/
def Happened {σ ℓ : Type} (step : System σ ℓ) (s : σ) (ls : List ℓ) (t : σ)
    (P : σ → ℓ → σ → Prop) : Prop :=
  ∃ pre l post u v, ls = pre ++ l :: post ∧ Runs step s pre u ∧ step u l v ∧ Runs step v post t ∧
    P u l v

/-- What holds at the end and not at the start of a run was brought about by one of its steps. -/
theorem Runs.explained {σ ℓ : Type} {step : System σ ℓ} {Inv Q : σ → Prop}
    {P : σ → ℓ → σ → Prop} {s t : σ} {ls : List ℓ}
    (hstep : ∀ s l t, Inv s → step s l t → Inv t ∧ (Q t → Q s ∨ P s l t))
    (h : Runs step s ls t) (hs : Inv s) (ht : Q t) : Q s ∨ Happened step s ls t P := by
  induction h with
  | nil s => exact .inl ht
  | @cons s v t l ls hl hrest ih =>
      obtain ⟨hv, hbrought⟩ := hstep s l v hs hl
      rcases ih hv ht with hq | ⟨pre, l', post, u, w, rfl, hpre, hl', hpost, hp⟩
      · rcases hbrought hq with hq | hp
        · exact .inl hq
        · exact .inr ⟨[], l, ls, s, v, rfl, .nil s, hl, hrest, hp⟩
      · exact .inr ⟨l :: pre, l', post, u, w, rfl, .cons hl hpre, hl', hpost, hp⟩

/-- The steps that meet a condition on the state before them and their label. -/
def guarded {σ ℓ : Type} (allowed : σ → ℓ → Prop) (step : System σ ℓ) : System σ ℓ :=
  fun s l t => allowed s l ∧ step s l t

/-- The system that remembers its steps as `record` says. -/
def withHistory {σ ℓ η : Type} (step : System σ ℓ) (record : σ → ℓ → σ → η → η) :
    System (σ × η) ℓ :=
  fun s l t => step s.1 l t.1 ∧ t.2 = record s.1 l t.1 s.2

section
variable {σ ℓ η : Type} {step : System σ ℓ} {record : σ → ℓ → σ → η → η} {s t u : σ} {l : ℓ}
  {ls : List ℓ} {x y : η}

theorem Runs.remember (h : step s l t)
    (hrest : Runs (withHistory step record) (t, record s l t x) ls (u, y)) :
    Runs (withHistory step record) (s, x) (l :: ls) (u, y) := .cons ⟨h, rfl⟩ hrest

/-- Every run can be remembered. -/
theorem Runs.recorded (record : σ → ℓ → σ → η → η) (h : Runs step s ls t) (x : η) :
    ∃ y, Runs (withHistory step record) (s, x) ls (t, y) := by
  induction h generalizing x with
  | nil s => exact ⟨x, .nil _⟩
  | cons hl _ ih =>
      obtain ⟨y, hy⟩ := ih (record _ _ _ x)
      exact ⟨y, .remember hl hy⟩

end

/-- Execute a step function along the labels, as long as each is allowed. -/
def replay {σ ℓ : Type} (allowed : σ → ℓ → Prop) [∀ s l, Decidable (allowed s l)]
    (apply : σ → ℓ → Option σ) : List ℓ → σ → Option σ
  | [], s => some s
  | l :: ls, s => if allowed s l then (apply s l).bind (replay allowed apply ls) else none

theorem runs_of_replay {σ ℓ : Type} {allowed : σ → ℓ → Prop} [∀ s l, Decidable (allowed s l)]
    {apply : σ → ℓ → Option σ} {ls : List ℓ} {s t : σ} (h : replay allowed apply ls s = some t) :
    Runs (guarded allowed fun s l t => apply s l = some t) s ls t := by
  induction ls generalizing s with
  | nil =>
      obtain rfl := Option.some.inj h
      exact .nil s
  | cons l ls ih =>
      unfold replay at h
      by_cases hl : allowed s l
      · rw [if_pos hl] at h
        obtain ⟨u, hu, hrest⟩ := Option.bind_eq_some_iff.mp h
        exact .cons ⟨hl, hu⟩ (ih hrest)
      · rw [if_neg hl] at h
        cases h

theorem runs_replay {σ ℓ : Type} {allowed : σ → ℓ → Prop} [∀ s l, Decidable (allowed s l)]
    {apply : σ → ℓ → Option σ} {ls : List ℓ} {s : σ}
    (h : (replay allowed apply ls s).isSome = true) :
    Runs (guarded allowed fun s l t => apply s l = some t) s ls
      ((replay allowed apply ls s).get h) :=
  runs_of_replay (Option.some_get h).symm

end FaceHal
