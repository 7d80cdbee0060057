import Mathlib.Data.List.Perm.Basic
import Mathlib.Data.List.Nodup

/-!
# Resources with one holder

Resources are created and released, and each is recorded in a log. What is created
and not yet released is held by exactly one of several holders. The rules below say
how this is kept when a holder creates a resource, releases one, or hands all that
it holds to another.
-/
namespace FaceHal

/-- The resources created and not released are those held, each by one holder and once. -/
structure Owned {O H : Type} (holds : O → List H) (created released : List H) : Prop where
  held_iff : ∀ h, (∃ o, h ∈ holds o) ↔ h ∈ created ∧ h ∉ released
  nodup : ∀ o, (holds o).Nodup
  unique : ∀ o p h, h ∈ holds o → h ∈ holds p → o = p
  released_nodup : released.Nodup
  created_of_released : ∀ h ∈ released, h ∈ created

namespace Owned
variable {O H : Type} {holds holds' : O → List H} {created released : List H} {o p : O} {h : H}

theorem initial (h : ∀ o, holds o = []) : Owned holds [] [] where
  held_iff x := by simp [h]
  nodup o := by simp [h]
  unique o p x hx := by simp [h] at hx
  released_nodup := .nil
  created_of_released := by simp

theorem created_of_held (hown : Owned holds created released) (hh : h ∈ holds o) : h ∈ created :=
  ((hown.held_iff h).mp ⟨o, hh⟩).1

theorem not_released (hown : Owned holds created released) (hh : h ∈ holds o) : h ∉ released :=
  ((hown.held_iff h).mp ⟨o, hh⟩).2

theorem create (hown : Owned holds created released) (hnew : h ∉ created)
    (hat : (holds' o).Perm (h :: holds o)) (helse : ∀ p, p ≠ o → holds' p = holds p) :
    Owned holds' (created ++ [h]) released := by
  have hmem : ∀ p x, x ∈ holds' p ↔ p = o ∧ x = h ∨ x ∈ holds p := by
    intro p x
    by_cases hp : p = o
    · subst hp
      simp [hat.mem_iff]
    · simp [hp, helse p hp]
  have hfresh : ∀ p, h ∉ holds p := fun p hh => hnew (hown.created_of_held hh)
  refine ⟨?_, ?_, ?_, hown.released_nodup, ?_⟩
  · intro x
    simp only [hmem, List.mem_append, List.mem_singleton]
    have hx := hown.held_iff x
    constructor
    · rintro ⟨p, ⟨-, rfl⟩ | hp⟩
      · exact ⟨.inr rfl, fun hr => hnew (hown.created_of_released _ hr)⟩
      · exact ⟨.inl (hx.mp ⟨p, hp⟩).1, (hx.mp ⟨p, hp⟩).2⟩
    · rintro ⟨hc | rfl, hr⟩
      · obtain ⟨p, hp⟩ := hx.mpr ⟨hc, hr⟩
        exact ⟨p, .inr hp⟩
      · exact ⟨o, .inl ⟨rfl, rfl⟩⟩
  · intro p
    by_cases hp : p = o
    · subst hp
      exact hat.nodup_iff.mpr (List.nodup_cons.mpr ⟨hfresh p, hown.nodup p⟩)
    · rw [helse p hp]
      exact hown.nodup p
  · intro p q x hp hq
    rcases (hmem p x).mp hp with ⟨rfl, rfl⟩ | hp
    · rcases (hmem q x).mp hq with ⟨rfl, -⟩ | hq
      · rfl
      · exact absurd hq (hfresh q)
    · rcases (hmem q x).mp hq with ⟨rfl, rfl⟩ | hq
      · exact absurd hp (hfresh p)
      · exact hown.unique p q x hp hq
  · intro x hx
    exact List.mem_append_left _ (hown.created_of_released x hx)

theorem release (hown : Owned holds created released) (hat : (holds o).Perm (h :: holds' o))
    (helse : ∀ p, p ≠ o → holds' p = holds p) : Owned holds' created (released ++ [h]) := by
  have hheld : h ∈ holds o := hat.mem_iff.mpr List.mem_cons_self
  have hgone : h ∉ holds' o := (List.nodup_cons.mp (hat.nodup_iff.mp (hown.nodup o))).1
  have hmem : ∀ p x, x ∈ holds' p ↔ x ∈ holds p ∧ x ≠ h := by
    intro p x
    by_cases hp : p = o
    · subst hp
      rw [hat.mem_iff, List.mem_cons]
      constructor
      · intro hx
        exact ⟨.inr hx, fun heq => hgone (heq ▸ hx)⟩
      · rintro ⟨rfl | hx, hne⟩
        · exact absurd rfl hne
        · exact hx
    · rw [helse p hp]
      refine ⟨fun hx => ⟨hx, ?_⟩, fun hx => hx.1⟩
      rintro rfl
      exact hp (hown.unique p o _ hx hheld)
  refine ⟨?_, ?_, ?_, ?_, ?_⟩
  · intro x
    have hx := hown.held_iff x
    simp only [hmem, List.mem_append, List.mem_singleton, not_or]
    constructor
    · rintro ⟨p, hp, hne⟩
      exact ⟨(hx.mp ⟨p, hp⟩).1, (hx.mp ⟨p, hp⟩).2, hne⟩
    · rintro ⟨hc, hr, hne⟩
      obtain ⟨p, hp⟩ := hx.mpr ⟨hc, hr⟩
      exact ⟨p, hp, hne⟩
  · intro p
    by_cases hp : p = o
    · subst hp
      exact (List.nodup_cons.mp (hat.nodup_iff.mp (hown.nodup p))).2
    · rw [helse p hp]
      exact hown.nodup p
  · intro p q x hp hq
    exact hown.unique p q x ((hmem p x).mp hp).1 ((hmem q x).mp hq).1
  · refine List.nodup_append.mpr ⟨hown.released_nodup, List.nodup_singleton h, ?_⟩
    rintro x hx y hy rfl
    exact hown.not_released hheld (List.mem_singleton.mp hy ▸ hx)
  · intro x hx
    rcases List.mem_append.mp hx with hx | hx
    · exact hown.created_of_released x hx
    · exact List.mem_singleton.mp hx ▸ hown.created_of_held hheld

/-- A holder hands everything to another one that holds nothing. -/
theorem handOver (hown : Owned holds created released) (hempty : holds p = [])
    (ho : holds' o = []) (hp : holds' p = holds o)
    (helse : ∀ q, q ≠ o → q ≠ p → holds' q = holds q) : Owned holds' created released := by
  have hmem : ∀ q x, x ∈ holds' q ↔ q = p ∧ x ∈ holds o ∨ q ≠ o ∧ x ∈ holds q := by
    intro q x
    by_cases hqp : q = p
    · subst hqp
      rw [hp, hempty]
      simp
    · by_cases hqo : q = o
      · subst hqo
        rw [ho]
        simp [hqp]
      · rw [helse q hqo hqp]
        simp [hqp, hqo]
  refine ⟨?_, ?_, ?_, hown.released_nodup, hown.created_of_released⟩
  · intro x
    rw [← hown.held_iff x]
    constructor
    · rintro ⟨q, hq⟩
      rcases (hmem q x).mp hq with ⟨-, hx⟩ | ⟨-, hx⟩
      · exact ⟨o, hx⟩
      · exact ⟨q, hx⟩
    · rintro ⟨q, hq⟩
      by_cases hqo : q = o
      · subst hqo
        exact ⟨p, (hmem p x).mpr (.inl ⟨rfl, hq⟩)⟩
      · exact ⟨q, (hmem q x).mpr (.inr ⟨hqo, hq⟩)⟩
  · intro q
    by_cases hqp : q = p
    · rw [hqp, hp]
      exact hown.nodup o
    · by_cases hqo : q = o
      · rw [hqo, ho]
        exact .nil
      · rw [helse q hqo hqp]
        exact hown.nodup q
  · intro q q' x hq hq'
    rcases (hmem q x).mp hq with ⟨rfl, hx⟩ | ⟨hqo, hx⟩
    · rcases (hmem q' x).mp hq' with ⟨rfl, -⟩ | ⟨hqo', hx'⟩
      · rfl
      · exact absurd (hown.unique q' o x hx' hx) hqo'
    · rcases (hmem q' x).mp hq' with ⟨rfl, hx'⟩ | ⟨-, hx'⟩
      · exact absurd (hown.unique q o x hx hx') hqo
      · exact hown.unique q q' x hx hx'

end Owned
end FaceHal
