import FaceHal.ProgramRuns

/-!
# How a program ends

A run ends with a result or at a call that gets no answer, such as a read through a
null pointer. Where `wp` speaks of the runs that return, `ends` speaks of all that
go as far as they can, so a program that satisfies it with a postcondition that
refuses the second kind returns.
-/
namespace FaceHal
namespace Program
variable {I : Interface} {α β σ : Type} {E : Environment I σ}

/-- A run that goes as far as it can; `none` is a call without an answer. -/
inductive Ends (E : Environment I σ) : Program I α → σ → Option α → σ → Prop
  | done (a : α) (s : σ) : Ends E (.done a) s (some a) s
  | call {c : I.Call} {next : I.Reply c → Program I α} {s t u : σ} {r : I.Reply c} {o : Option α} :
      E c s r t → Ends E (next r) t o u → Ends E (.call c next) s o u
  | stuck {c : I.Call} {next : I.Reply c → Program I α} {s : σ} :
      (∀ r t, ¬ E c s r t) → Ends E (.call c next) s none s

theorem exists_ends (p : Program I α) (s : σ) : ∃ o t, Ends E p s o t := by
  induction p generalizing s with
  | done a => exact ⟨some a, s, .done a s⟩
  | call c next ih =>
      by_cases h : ∃ r t, E c s r t
      · obtain ⟨r, t, hc⟩ := h
        obtain ⟨o, u, hn⟩ := ih r t
        exact ⟨o, u, .call hc hn⟩
      · exact ⟨none, s, .stuck fun r t hc => h ⟨r, t, hc⟩⟩

/-- The runs that end with a result are the complete ones. -/
theorem ends_some_iff {p : Program I α} {s t : σ} {a : α} :
    Ends E p s (some a) t ↔ Run E p s a t := by
  induction p generalizing s with
  | done b =>
      rw [run_done]
      constructor
      · intro h
        cases h
        exact ⟨rfl, rfl⟩
      · rintro ⟨rfl, rfl⟩
        exact .done a t
  | call c next ih =>
      rw [run_call]
      constructor
      · intro h
        cases h with
        | call hc hn => exact ⟨_, _, hc, (ih _).mp hn⟩
      · rintro ⟨r, u, hc, hn⟩
        exact .call hc ((ih r).mpr hn)

/-- Every run from the state that goes as far as it can ends in the postcondition. -/
def ends (E : Environment I σ) : Program I α → (Option α → σ → Prop) → σ → Prop
  | .done a, Q, s => Q (some a) s
  | .call c next, Q, s =>
      (∀ r t, E c s r t → (next r).ends E Q t) ∧ ((∀ r t, ¬ E c s r t) → Q none s)

theorem Ends.ends {p : Program I α} {Q : Option α → σ → Prop} {s t : σ} {o : Option α}
    (h : Ends E p s o t) (hp : p.ends E Q s) : Q o t := by
  induction h with
  | done a s => exact hp
  | call hc _ ih => exact ih (hp.1 _ _ hc)
  | stuck hc => exact hp.2 hc

theorem ends_bind (p : Program I α) (f : α → Program I β) (Q : Option β → σ → Prop) (s : σ) :
    (p >>= f).ends E Q s ↔
      p.ends E (fun o t => o.elim (Q none t) fun a => (f a).ends E Q t) s := by
  induction p generalizing s with
  | done a => rfl
  | call c next ih => simp only [call_bind, ends, ih, Option.elim_none]

theorem ends_mono {p : Program I α} {Q R : Option α → σ → Prop} {s : σ} (hp : p.ends E Q s)
    (h : ∀ o t, Q o t → R o t) : p.ends E R s := by
  induction p generalizing s with
  | done a => exact h _ _ hp
  | call c next ih => exact ⟨fun r t hc => ih r (hp.1 r t hc), fun hc => h _ _ (hp.2 hc)⟩

theorem ends_of_wp {P : I.Call → Prop} (hE : ∀ c, P c → ∀ s, ∃ r t, E c s r t)
    {p : Program I α} (hp : p.Uses P) {Q : Option α → σ → Prop} {s : σ}
    (h : p.wp E (fun a t => Q (some a) t) s) : p.ends E Q s := by
  induction p generalizing s with
  | done a => exact h
  | call c next ih =>
      refine ⟨fun r t hc => ih r (hp.2 r) (h r t hc), fun hno => ?_⟩
      obtain ⟨r, t, hc⟩ := hE c hp.1 s
      exact absurd hc (hno r t)

end Program
end FaceHal
