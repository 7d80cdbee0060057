import FaceHal.ProgramRuns

/-!
# Calls with preconditions

Some calls may be made in some states only: a handle may be used while it is open. A
program is safe from a state if every call of every run is made where it may be, and
every run ends in the postcondition. The rules let a caller rely on the contract of a
callee.
-/
namespace FaceHal
namespace Program
variable {I : Interface} {α β σ : Type} {E : Environment I σ} {ok : I.Call → σ → Prop}

/-- Every call that is made is allowed, and every complete run ends in the postcondition. -/
def safe (E : Environment I σ) (ok : I.Call → σ → Prop) : Program I α → (α → σ → Prop) → σ → Prop
  | .done a, Q, s => Q a s
  | .call c next, Q, s => ok c s ∧ ∀ r t, E c s r t → (next r).safe E ok Q t

theorem safe_iff {p : Program I α} {Q : α → σ → Prop} {s : σ} :
    p.safe E ok Q s ↔ p.always E ok s ∧ p.wp E Q s := by
  induction p generalizing s with
  | done a => simp [safe, always, wp]
  | call c next ih =>
      simp only [safe, always, wp, ih]
      constructor
      · rintro ⟨hc, hn⟩
        exact ⟨⟨hc, fun r t hr => (hn r t hr).1⟩, fun r t hr => (hn r t hr).2⟩
      · rintro ⟨⟨hc, hn⟩, hq⟩
        exact ⟨hc, fun r t hr => ⟨hn r t hr, hq r t hr⟩⟩

theorem safe_bind (p : Program I α) (f : α → Program I β) (Q : β → σ → Prop) (s : σ) :
    (p >>= f).safe E ok Q s ↔ p.safe E ok (fun a t => (f a).safe E ok Q t) s := by
  induction p generalizing s with
  | done a => rfl
  | call c next ih => simp only [call_bind, safe, ih]

theorem safe_mono {p : Program I α} {Q R : α → σ → Prop} {s : σ} (hp : p.safe E ok Q s)
    (h : ∀ a t, Q a t → R a t) : p.safe E ok R s := by
  induction p generalizing s with
  | done a => exact h a s hp
  | call c next ih => exact ⟨hp.1, fun r t hr => ih r (hp.2 r t hr)⟩

theorem safe_invariant {Inv : σ → Prop}
    (hstep : ∀ c s r t, ok c s → Inv s → E c s r t → Inv t) {p : Program I α}
    {Q : α → σ → Prop} {s : σ} (hs : Inv s) (hp : p.safe E ok Q s) :
    p.safe E ok (fun a t => Inv t ∧ Q a t) s := by
  induction p generalizing s with
  | done a => exact ⟨hs, hp⟩
  | call c next ih =>
      refine ⟨hp.1, fun r t h => ?_⟩
      exact ih r (hstep c s r t hp.1 hs h) (hp.2 r t h)

end Program
end FaceHal
