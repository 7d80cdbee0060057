import Mathlib.Data.List.Basic

/-!
# Handles that are closed once

A record of events in which some obtain a handle, some are addressed to one, and some
of the latter close it. A record is in order if every handle it obtains is closed by
the last event that is addressed to it, and by that one only.
-/
namespace FaceHal

structure HandleProtocol (ε η : Type) where
  obtains : ε → Option η
  addresses : ε → Option η
  closes : ε → Bool

namespace HandleProtocol
variable {ε η : Type} [DecidableEq η] {P : HandleProtocol ε η} {tr before after : List ε} {e : ε}
  {h : η}

def ClosedOnce (P : HandleProtocol ε η) (tr : List ε) : Prop :=
  ∀ before e after h, tr = before ++ e :: after → P.obtains e = some h →
    ∃ earlier last, after.filter (fun x => P.addresses x = some h) = earlier ++ [last] ∧
      P.closes last = true ∧ ∀ x ∈ earlier, P.closes x = false

theorem closedOnce_of_none (htr : ∀ x ∈ tr, P.obtains x = none) : P.ClosedOnce tr := by
  rintro before e after h rfl he
  have hnone := htr e (by simp)
  rw [he] at hnone
  cases hnone

/-- A list is split in one way at an element that no other is like. -/
theorem split_unique {p : ε → Prop} {before' after' : List ε} {e' : ε}
    (hbefore : ∀ x ∈ before, ¬ p x) (hafter : ∀ x ∈ after, ¬ p x) (he' : p e')
    (heq : before ++ e :: after = before' ++ e' :: after') : e' = e ∧ after' = after := by
  induction before generalizing before' with
  | nil =>
      cases before' with
      | nil =>
          obtain ⟨rfl, rfl⟩ := List.cons.inj heq
          exact ⟨rfl, rfl⟩
      | cons x rest =>
          obtain ⟨-, rfl⟩ := List.cons.inj heq
          exact absurd he' (hafter e' (by simp))
  | cons b rest ih =>
      cases before' with
      | nil =>
          obtain ⟨rfl, -⟩ := List.cons.inj heq
          exact absurd he' (hbefore b (by simp))
      | cons x rest' =>
          exact ih (fun y hy => hbefore y (List.mem_cons_of_mem b hy)) (List.cons.inj heq).2

/-- Only one event obtains a handle, and what follows it is addressed to that handle
and closes it at the end. -/
theorem closedOnce_of_only {earlier : List ε} {last : ε}
    (hbefore : ∀ x ∈ before, P.obtains x = none) (he : P.obtains e = some h)
    (hafter : ∀ x ∈ earlier ++ [last], P.obtains x = none ∧ P.addresses x = some h)
    (hopen : ∀ x ∈ earlier, P.closes x = false) (hlast : P.closes last = true) :
    P.ClosedOnce (before ++ e :: (earlier ++ [last])) := by
  intro before' e' after' h' htr he'
  obtain ⟨rfl, rfl⟩ := split_unique (p := fun x => P.obtains x ≠ none)
    (fun x hx => not_not.mpr (hbefore x hx)) (fun x hx => not_not.mpr (hafter x hx).1)
    (by simp [he']) htr
  obtain rfl := Option.some.inj (he.symm.trans he')
  refine ⟨earlier, last, ?_, hlast, hopen⟩
  rw [List.filter_eq_self]
  intro x hx
  exact decide_eq_true (hafter x hx).2

end HandleProtocol
end FaceHal
