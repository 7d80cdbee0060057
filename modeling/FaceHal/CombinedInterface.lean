import FaceHal.ProgramRuns

/-!
# Programs over two interfaces

A program that reaches two services has a call of one or of the other. Each
service keeps its own state. A program over one of them is a program over both,
and its runs there leave the other state alone.
-/
namespace FaceHal

abbrev Interface.sum (I J : Interface) : Interface := ⟨I.Call ⊕ J.Call, Sum.elim I.Reply J.Reply⟩

variable {I J : Interface} {α σ τ : Type}

/-- Each call acts on the state of its own service. -/
def Environment.both (E : Environment I σ) (F : Environment J τ) : Environment (I.sum J) (σ × τ)
  | .inl c, s, r, t => E c s.1 r t.1 ∧ t.2 = s.2
  | .inr c, s, r, t => F c s.2 r t.2 ∧ t.1 = s.1

namespace Program

/-- A program of the second service as one over both. -/
def inRight : Program J α → Program (I.sum J) α
  | .done a => .done a
  | .call c next => .call (Sum.inr c : I.Call ⊕ J.Call) fun r => (next r).inRight

theorem run_inRight {E : Environment I σ} {F : Environment J τ} {p : Program J α} {s t : σ × τ}
    {a : α} : Run (E.both F) (p.inRight (I := I)) s a t ↔ Run F p s.2 a t.2 ∧ t.1 = s.1 := by
  induction p generalizing s with
  | done b =>
      simp only [inRight, run_done]
      constructor
      · rintro ⟨rfl, rfl⟩
        exact ⟨⟨rfl, rfl⟩, rfl⟩
      · rintro ⟨⟨rfl, h⟩, h'⟩
        exact ⟨rfl, Prod.ext h' h⟩
  | call c next ih =>
      simp only [inRight, run_call]
      constructor
      · rintro ⟨r, u, ⟨hc, hu⟩, hn⟩
        obtain ⟨hrun, ht⟩ := (ih r).mp hn
        exact ⟨⟨r, u.2, hc, hrun⟩, ht.trans hu⟩
      · rintro ⟨⟨r, k, hc, hn⟩, ht⟩
        exact ⟨r, (s.1, k), ⟨hc, rfl⟩, (ih r).mpr ⟨hn, ht⟩⟩

theorem uses_inRight {P : I.Call → Prop} {R : J.Call → Prop} {p : Program J α} (h : p.Uses R) :
    (p.inRight (I := I)).Uses (Sum.elim P R) := by
  induction p with
  | done a => trivial
  | call c next ih => exact ⟨h.1, fun r => ih r (h.2 r)⟩

/-- A program of the first service as one over both. -/
def inLeft : Program I α → Program (I.sum J) α
  | .done a => .done a
  | .call c next => .call (Sum.inl c : I.Call ⊕ J.Call) fun r => (next r).inLeft

theorem inLeft_bind {β : Type} (p : Program I α) (f : α → Program I β) :
    (p >>= f).inLeft (J := J) = p.inLeft (J := J) >>= fun a => (f a).inLeft := by
  induction p with
  | done a => rfl
  | call c next ih => exact congrArg (Program.call _) (funext ih)

/-- Where the calls over both are answered as the first service answers them. -/
theorem wp_inLeft {E : Environment (I.sum J) τ} {F : Environment I σ} {R : τ → σ → Prop}
    {P : I.Call → Prop} {p : Program I α} {Q : α → Prop} {x : τ} {s : σ}
    (hstep : ∀ c, P c → ∀ x s r y, R x s → E (.inl c) x r y → ∃ t, F c s r t ∧ R y t)
    (hp : p.Uses P) (hx : R x s) (h : p.wp F (fun a _ => Q a) s) :
    (p.inLeft).wp E (fun a y => Q a ∧ ∃ t, R y t) x := by
  induction p generalizing x s with
  | done a => exact ⟨h, s, hx⟩
  | call c next ih =>
      intro r y hcall
      obtain ⟨t, ht, hy⟩ := hstep c hp.1 x s r y hx hcall
      exact ih r (hp.2 r) hy (h r t ht)

theorem may_inLeft {E : Environment (I.sum J) τ} {F : Environment I σ} {R : τ → σ → Prop}
    {P : I.Call → Prop} {p : Program I α} {Q : α → Prop} {x : τ} {s : σ}
    (hstep : ∀ c, P c → ∀ x s r t, R x s → F c s r t → ∃ y, E (.inl c) x r y ∧ R y t)
    (hp : p.Uses P) (hx : R x s) (h : p.may F (fun a _ => Q a) s) :
    (p.inLeft).may E (fun a _ => Q a) x := by
  induction p generalizing x s with
  | done a => exact h
  | call c next ih =>
      obtain ⟨r, t, hcall, hnext⟩ := h
      obtain ⟨y, hy, hyt⟩ := hstep c hp.1 x s r t hx hcall
      exact ⟨r, y, hy, ih r (hp.2 r) hyt hnext⟩

/-- What was asked of the second service. -/
def rightEvents (tr : List (Event (I.sum J))) : List (Event J) :=
  tr.filterMap fun
    | ⟨.inl _, _⟩ => none
    | ⟨.inr c, r⟩ => some ⟨c, r⟩

@[simp] theorem rightEvents_append (tr tr' : List (Event (I.sum J))) :
    rightEvents (tr ++ tr') = rightEvents tr ++ rightEvents tr' := List.filterMap_append

/-- A program of the second service is recorded there as it is on its own. -/
theorem wp_inRight_traced {E : Environment I σ} {F : Environment J τ} {p : Program J α}
    {Q : α → τ × List (Event J) → Prop} {s : (σ × τ) × List (Event (I.sum J))}
    (h : p.wp (traced F) Q (s.1.2, rightEvents s.2)) :
    (p.inRight (I := I)).wp (traced (E.both F)) (fun a t => Q a (t.1.2, rightEvents t.2)) s := by
  induction p generalizing s with
  | done a => exact h
  | call c next ih =>
      rintro r t ⟨⟨hc, -⟩, ht⟩
      refine ih r (h r (t.1.2, rightEvents t.2) ⟨hc, ?_⟩)
      rw [ht, rightEvents_append]
      rfl

end Program
end FaceHal
