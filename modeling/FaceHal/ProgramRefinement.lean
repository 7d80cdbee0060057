import FaceHal.ProgramRuns

/-!
# One program as the view of another

A program refines another one if what is seen of each of its runs is a run of the other
with a related result. The two may use different interfaces: a call of the second one
stands for a call, or for a whole program, of the first. Calls that change nothing that
is seen need no counterpart.
-/
namespace FaceHal
namespace Program
variable {I J : Interface} {α β γ δ σ τ : Type} {E : Environment I σ} {F : Environment J τ}
  {view : σ → τ}

def Refines (E : Environment I σ) (F : Environment J τ) (view : σ → τ) (p : Program I α)
    (q : Program J β) (R : α → β → Prop) : Prop :=
  ∀ s a t, Run E p s a t → ∃ b, Run F q (view s) b (view t) ∧ R a b

/-- No run of the program changes what is seen. -/
def Silent (E : Environment I σ) (view : σ → τ) (p : Program I α) : Prop :=
  ∀ s a t, Run E p s a t → view t = view s

/-- The postcondition of the second program holds of what is seen of the first. -/
theorem Refines.wp {p : Program I α} {q : Program J β} {R : α → β → Prop} {Q : β → τ → Prop}
    {s : σ} (h : Refines E F view p q R) (hq : q.wp F Q (view s)) :
    p.wp E (fun a t => ∃ b, R a b ∧ Q b (view t)) s := by
  refine wp_iff_run.mpr fun a t hrun => ?_
  obtain ⟨b, hb, hab⟩ := h s a t hrun
  exact ⟨b, hab, hb.wp hq⟩

theorem silent_of_uses {P : I.Call → Prop}
    (hstep : ∀ c, P c → ∀ s r t, E c s r t → view t = view s) {p : Program I α} (hp : p.Uses P) :
    Silent E view p := by
  intro s a t hrun
  induction hrun with
  | done a s => rfl
  | call hc _ ih => exact (ih (hp.2 _)).trans (hstep _ hp.1 _ _ _ hc)

theorem refines_done {a : α} {b : β} {R : α → β → Prop} (h : R a b) :
    Refines E F view (.done a) (.done b) R := by
  intro s a' t hrun
  obtain ⟨rfl, rfl⟩ := run_done.mp hrun
  exact ⟨b, .done b _, h⟩

theorem refines_bind {p : Program I α} {q : Program J β} {f : α → Program I γ}
    {g : β → Program J δ} {R : α → β → Prop} {R' : γ → δ → Prop}
    (hp : Refines E F view p q R) (hf : ∀ a b, R a b → Refines E F view (f a) (g b) R') :
    Refines E F view (p >>= f) (q >>= g) R' := by
  intro s c u hrun
  obtain ⟨a, t, ha, hc⟩ := run_bind.mp hrun
  obtain ⟨b, hb, hab⟩ := hp s a t ha
  obtain ⟨d, hd, hcd⟩ := hf a b hab t c u hc
  exact ⟨d, run_bind.mpr ⟨b, view t, hb, hd⟩, hcd⟩

theorem Refines.mono {p : Program I α} {q : Program J β} {R R' : α → β → Prop}
    (hp : Refines E F view p q R) (h : ∀ a b, R a b → R' a b) : Refines E F view p q R' := by
  intro s a t hrun
  obtain ⟨b, hb, hab⟩ := hp s a t hrun
  exact ⟨b, hb, h a b hab⟩

theorem refines_perform {c : I.Call} {d : J.Call} {R : I.Reply c → J.Reply d → Prop}
    (h : ∀ s r t, E c s r t → ∃ r', F d (view s) r' (view t) ∧ R r r') :
    Refines E F view (perform c) (perform d) R := by
  intro s r t hrun
  obtain ⟨r₁, t₁, hc, hdone⟩ := run_call.mp hrun
  obtain ⟨rfl, rfl⟩ := run_done.mp hdone
  obtain ⟨r', hd, hr⟩ := h s r t hc
  exact ⟨r', .call hd (.done r' _), hr⟩

/-- Each call of the second program stands for a program of the first. -/
theorem refines_expand {body : (c : J.Call) → Program I (J.Reply c)}
    (h : ∀ c, Refines E F view (body c) (perform c) (· = ·)) (q : Program J β) :
    Refines E F view (q.expand body) q (· = ·) := by
  induction q with
  | done b => exact refines_done rfl
  | call d next ih =>
      refine refines_bind (h d) ?_
      rintro r _ rfl
      exact ih r

theorem refines_silent {p : Program I α} {f : α → Program I γ} {q : Program J δ}
    {R : γ → δ → Prop} (hp : Silent E view p) (hf : ∀ a, Refines E F view (f a) q R) :
    Refines E F view (p >>= f) q R := by
  intro s c u hrun
  obtain ⟨a, t, ha, hc⟩ := run_bind.mp hrun
  obtain ⟨d, hd, hcd⟩ := hf a t c u hc
  rw [hp s a t ha] at hd
  exact ⟨d, hd, hcd⟩

theorem refines_answer {p : Program I α} {d : J.Call} (answer : α → J.Reply d)
    (hp : Silent E view p) (hd : ∀ w r, F d w r w) :
    Refines E F view p (perform d) fun a r => r = answer a := by
  intro s a t hrun
  rw [hp s a t hrun]
  exact ⟨answer a, .call (hd (view s) (answer a)) (.done _ _), rfl⟩

end Program
end FaceHal
