import FaceHal.Program
import Mathlib.Data.Set.Basic

/-!
# Complete, possible and interrupted runs of a program

`Run` is one complete execution of a program in an environment. Three predicate
transformers describe all executions at once: `wp` (every complete run ends in
the postcondition), `may` (some complete run does) and `always` (a property
holds before every call and at the end, so also wherever the program is
stopped). Each is computed along the tree and each has a theorem that relates it
to runs; the rules for sequencing let a caller use the specification of a callee
without unfolding it.
-/
namespace FaceHal

/-- What a call may do: the state before, the reply, the state after. -/
abbrev Environment (I : Interface) (σ : Type) : Type :=
  (c : I.Call) → σ → I.Reply c → σ → Prop

namespace Program
variable {I J : Interface} {α β σ τ : Type} {E : Environment I σ}

inductive Run (E : Environment I σ) : Program I α → σ → α → σ → Prop
  | done (a : α) (s : σ) : Run E (.done a) s a s
  | call {c : I.Call} {next : I.Reply c → Program I α} {s t u : σ} {r : I.Reply c} {a : α} :
      E c s r t → Run E (next r) t a u → Run E (.call c next) s a u

theorem run_done {a b : α} {s t : σ} : Run E (.done a) s b t ↔ b = a ∧ t = s := by
  constructor
  · intro h
    cases h
    exact ⟨rfl, rfl⟩
  · rintro ⟨rfl, rfl⟩
    exact .done b t

theorem run_call {c : I.Call} {next : I.Reply c → Program I α} {s u : σ} {a : α} :
    Run E (.call c next) s a u ↔ ∃ r t, E c s r t ∧ Run E (next r) t a u := by
  constructor
  · intro h
    cases h with
    | call hc hn => exact ⟨_, _, hc, hn⟩
  · rintro ⟨r, t, hc, hn⟩
    exact .call hc hn

theorem run_bind {p : Program I α} {f : α → Program I β} {s u : σ} {b : β} :
    Run E (p >>= f) s b u ↔ ∃ a t, Run E p s a t ∧ Run E (f a) t b u := by
  induction p generalizing s with
  | done a =>
      rw [done_bind]
      constructor
      · intro h
        exact ⟨a, s, .done a s, h⟩
      · rintro ⟨a', t, h, hf⟩
        obtain ⟨rfl, rfl⟩ := run_done.mp h
        exact hf
  | call c next ih =>
      simp only [call_bind, run_call, ih]
      constructor
      · rintro ⟨r, t, hc, a, v, hn, hf⟩
        exact ⟨a, v, ⟨r, t, hc, hn⟩, hf⟩
      · rintro ⟨a, v, ⟨r, t, hc, hn⟩, hf⟩
        exact ⟨r, t, hc, a, v, hn, hf⟩

/-- Every complete run from the state ends in the postcondition. -/
def wp (E : Environment I σ) : Program I α → (α → σ → Prop) → σ → Prop
  | .done a, Q, s => Q a s
  | .call c next, Q, s => ∀ r t, E c s r t → (next r).wp E Q t

theorem wp_iff_run {p : Program I α} {Q : α → σ → Prop} {s : σ} :
    p.wp E Q s ↔ ∀ a t, Run E p s a t → Q a t := by
  induction p generalizing s with
  | done a => simp [wp, run_done]
  | call c next ih =>
      simp only [wp, ih, run_call]
      constructor
      · rintro h a t ⟨r, v, hc, hn⟩
        exact h r v hc a t hn
      · intro h r v hc a t hn
        exact h a t ⟨r, v, hc, hn⟩

theorem Run.wp {p : Program I α} {Q : α → σ → Prop} {s t : σ} {a : α}
    (h : Run E p s a t) (hp : p.wp E Q s) : Q a t := wp_iff_run.mp hp a t h

theorem wp_bind (p : Program I α) (f : α → Program I β) (Q : β → σ → Prop) (s : σ) :
    (p >>= f).wp E Q s ↔ p.wp E (fun a t => (f a).wp E Q t) s := by
  induction p generalizing s with
  | done a => rfl
  | call c next ih => simp only [call_bind, wp, ih]

theorem wp_map (p : Program I α) (f : α → β) (Q : β → σ → Prop) (s : σ) :
    (f <$> p).wp E Q s ↔ p.wp E (fun a t => Q (f a) t) s := by
  rw [map_eq_pure_bind, wp_bind]
  rfl

theorem wp_mono {p : Program I α} {Q R : α → σ → Prop} {s : σ}
    (hp : p.wp E Q s) (h : ∀ a t, Q a t → R a t) : p.wp E R s :=
  wp_iff_run.mpr fun a t ht => h a t (wp_iff_run.mp hp a t ht)

theorem wp_of_forall (p : Program I α) {Q : α → σ → Prop} {s : σ} (h : ∀ a t, Q a t) :
    p.wp E Q s :=
  wp_iff_run.mpr fun a t _ => h a t

theorem wp_and {p : Program I α} {Q R : α → σ → Prop} {s : σ} (hQ : p.wp E Q s) (hR : p.wp E R s) :
    p.wp E (fun a t => Q a t ∧ R a t) s :=
  wp_iff_run.mpr fun _ _ h => ⟨h.wp hQ, h.wp hR⟩

/-- Some complete run from the state ends in the postcondition. -/
def may (E : Environment I σ) : Program I α → (α → σ → Prop) → σ → Prop
  | .done a, Q, s => Q a s
  | .call c next, Q, s => ∃ r t, E c s r t ∧ (next r).may E Q t

theorem may_iff_run {p : Program I α} {Q : α → σ → Prop} {s : σ} :
    p.may E Q s ↔ ∃ a t, Run E p s a t ∧ Q a t := by
  induction p generalizing s with
  | done a =>
      simp only [may, run_done]
      constructor
      · intro h
        exact ⟨a, s, ⟨rfl, rfl⟩, h⟩
      · rintro ⟨b, t, ⟨rfl, rfl⟩, h⟩
        exact h
  | call c next ih =>
      simp only [may, ih, run_call]
      constructor
      · rintro ⟨r, v, hc, a, t, hn, hq⟩
        exact ⟨a, t, ⟨r, v, hc, hn⟩, hq⟩
      · rintro ⟨a, t, ⟨r, v, hc, hn⟩, hq⟩
        exact ⟨r, v, hc, a, t, hn, hq⟩

theorem may_mono {p : Program I α} {Q R : α → σ → Prop} {s : σ}
    (hp : p.may E Q s) (h : ∀ a t, Q a t → R a t) : p.may E R s := by
  obtain ⟨a, t, hrun, hq⟩ := may_iff_run.mp hp
  exact may_iff_run.mpr ⟨a, t, hrun, h a t hq⟩

theorem may_bind (p : Program I α) (f : α → Program I β) (Q : β → σ → Prop) (s : σ) :
    (p >>= f).may E Q s ↔ p.may E (fun a t => (f a).may E Q t) s := by
  induction p generalizing s with
  | done a => rfl
  | call c next ih => simp only [call_bind, may, ih]

/-- The program has a run from the state, and every one ends in the postcondition. -/
def returns (E : Environment I σ) (p : Program I α) (Q : α → σ → Prop) (s : σ) : Prop :=
  (∃ a t, Run E p s a t) ∧ p.wp E Q s

theorem returns_mono {p : Program I α} {Q R : α → σ → Prop} {s : σ} (hp : p.returns E Q s)
    (h : ∀ a t, Q a t → R a t) : p.returns E R s := ⟨hp.1, wp_mono hp.2 h⟩

theorem returns_done {a : α} {Q : α → σ → Prop} {s : σ} (h : Q a s) : (done a).returns E Q s :=
  ⟨⟨a, s, .done a s⟩, h⟩

theorem returns_call {c : I.Call} {next : I.Reply c → Program I α} {Q : α → σ → Prop} {s : σ}
    (hanswer : ∃ r t, E c s r t) (h : ∀ r t, E c s r t → (next r).returns E Q t) :
    (call c next).returns E Q s := by
  refine ⟨?_, fun r t hcall => (h r t hcall).2⟩
  obtain ⟨r, t, hcall⟩ := hanswer
  obtain ⟨a, u, hrun⟩ := (h r t hcall).1
  exact ⟨a, u, .call hcall hrun⟩

theorem returns_bind {p : Program I α} {f : α → Program I β} {Q : β → σ → Prop} {s : σ}
    (h : p.returns E (fun a t => (f a).returns E Q t) s) : (p >>= f).returns E Q s := by
  refine ⟨?_, ?_⟩
  · obtain ⟨a, t, hrun⟩ := h.1
    obtain ⟨b, u, hrun'⟩ := (hrun.wp h.2).1
    exact ⟨b, u, run_bind.mpr ⟨a, t, hrun, hrun'⟩⟩
  · rw [wp_bind]
    exact wp_mono h.2 fun _ _ hf => hf.2

/-- Where every call is answered from every state, a program has a complete run. -/
theorem exists_run (hE : ∀ c s, ∃ r t, E c s r t) (p : Program I α) (s : σ) :
    ∃ a t, Run E p s a t := by
  induction p generalizing s with
  | done a => exact ⟨a, s, .done a s⟩
  | call c next ih =>
      obtain ⟨r, t, hc⟩ := hE c s
      obtain ⟨a, u, hn⟩ := ih r t
      exact ⟨a, u, .call hc hn⟩

/-- A handler that stays inside the environment computes one of its runs. -/
theorem run_eval {handler : (c : I.Call) → σ → I.Reply c × σ}
    (h : ∀ c s, E c s (handler c s).1 (handler c s).2) (p : Program I α) (s : σ) :
    Run E p s (p.eval handler s).1 (p.eval handler s).2 := by
  induction p generalizing s with
  | done a => exact .done a s
  | call c next ih => exact .call (h c s) (ih _ _)

/-- The program was stopped just before the call `c`, its earlier calls done. -/
inductive Killed (E : Environment I σ) : Program I α → σ → I.Call → σ → Prop
  | here (c : I.Call) (next : I.Reply c → Program I α) (s : σ) : Killed E (.call c next) s c s
  | call {c d : I.Call} {next : I.Reply c → Program I α} {s t u : σ} {r : I.Reply c} :
      E c s r t → Killed E (next r) t d u → Killed E (.call c next) s d u

/-- The state when a handler has answered the first `n` calls. -/
def stateAfter (handler : (c : I.Call) → σ → I.Reply c × σ) : ℕ → Program I α → σ → σ
  | n + 1, .call c next, s => (next (handler c s).1).stateAfter handler n (handler c s).2
  | _, _, s => s

/-- The call that comes after the first `n`. -/
def pendingAfter (handler : (c : I.Call) → σ → I.Reply c × σ) : ℕ → Program I α → σ → Option I.Call
  | n + 1, .call c next, s => (next (handler c s).1).pendingAfter handler n (handler c s).2
  | 0, .call c _, _ => some c
  | _, .done _, _ => none

theorem killed_stateAfter {handler : (c : I.Call) → σ → I.Reply c × σ}
    (h : ∀ c s, E c s (handler c s).1 (handler c s).2) {n : ℕ} {p : Program I α} {s : σ}
    {c : I.Call} (hc : p.pendingAfter handler n s = some c) :
    Killed E p s c (p.stateAfter handler n s) := by
  induction n generalizing p s with
  | zero =>
      cases p with
      | done a => cases hc
      | call d next =>
          obtain rfl := Option.some.inj hc
          exact .here d next s
  | succ n ih =>
      cases p with
      | done a => cases hc
      | call d next => exact .call (h d s) (ih hc)

/-- Before every call `c` of every run the state satisfies `P c`. -/
def always (E : Environment I σ) : Program I α → (I.Call → σ → Prop) → σ → Prop
  | .done _, _, _ => True
  | .call c next, P, s => P c s ∧ ∀ r t, E c s r t → (next r).always E P t

theorem always_iff_killed {p : Program I α} {P : I.Call → σ → Prop} {s : σ} :
    p.always E P s ↔ ∀ c t, Killed E p s c t → P c t := by
  induction p generalizing s with
  | done a =>
      refine iff_of_true trivial ?_
      intro c t h
      cases h
  | call c next ih =>
      simp only [always, ih]
      constructor
      · rintro ⟨hc, hn⟩ d t h
        cases h with
        | here => exact hc
        | call hr hk => exact hn _ _ hr _ _ hk
      · intro h
        refine ⟨h c s (.here c next s), ?_⟩
        intro r t hr d u hk
        exact h d u (.call hr hk)

theorem always_bind (p : Program I α) (f : α → Program I β) (P : I.Call → σ → Prop) (s : σ) :
    (p >>= f).always E P s ↔ p.always E P s ∧ p.wp E (fun a t => (f a).always E P t) s := by
  induction p generalizing s with
  | done a => simp [always, wp]
  | call c next ih =>
      simp only [call_bind, always, wp, ih]
      constructor
      · rintro ⟨hc, hn⟩
        exact ⟨⟨hc, fun r t hr => (hn r t hr).1⟩, fun r t hr => (hn r t hr).2⟩
      · rintro ⟨⟨hc, hn⟩, hf⟩
        exact ⟨hc, fun r t hr => ⟨hn r t hr, hf r t hr⟩⟩

/-- The environment in which a call does what its body does in `E`. -/
def through (E : Environment J σ) (body : (c : I.Call) → Program J (I.Reply c)) :
    Environment I σ := fun c s r t => Run E (body c) s r t

/-- Expanding the calls of a program and running the result is the same as
running the program where each call is a run of its body. -/
theorem run_expand {F : Environment J σ} {body : (c : I.Call) → Program J (I.Reply c)}
    {p : Program I α} {s t : σ} {a : α} :
    Run F (p.expand body) s a t ↔ Run (through F body) p s a t := by
  induction p generalizing s with
  | done a => simp [expand, run_done]
  | call c next ih => simp only [expand, run_bind, run_call, ih, through]

/-- One call together with the reply it was given. -/
structure Event (I : Interface) where
  call : I.Call
  reply : I.Reply call

/-- The environment that also records every call and reply, oldest first. -/
def traced (E : Environment I σ) : Environment I (σ × List (Event I)) :=
  fun c s r t => E c s.1 r t.1 ∧ t.2 = s.2 ++ [⟨c, r⟩]

theorem Run.map {F : Environment I τ} {f : σ → τ}
    (hstep : ∀ c s r t, E c s r t → F c (f s) r (f t)) {p : Program I α} {s t : σ} {a : α}
    (h : Run E p s a t) : Run F p (f s) a (f t) := by
  induction h with
  | done a s => exact .done a (f s)
  | call hc _ ih => exact .call (hstep _ _ _ _ hc) ih

theorem Run.mono {F : Environment I σ} (hstep : ∀ c s r t, E c s r t → F c s r t)
    {p : Program I α} {s t : σ} {a : α} (h : Run E p s a t) : Run F p s a t :=
  h.map (f := id) hstep

theorem wp_restrict {F : Environment I σ} (hstep : ∀ c s r t, E c s r t → F c s r t)
    {p : Program I α} {Q : α → σ → Prop} {s : σ} (h : p.wp F Q s) : p.wp E Q s :=
  wp_iff_run.mpr fun _ _ hrun => (hrun.mono hstep).wp h

/-- Recording adds nothing to the runs of a program. -/
theorem Run.erase {p : Program I α} {s t : σ × List (Event I)} {a : α}
    (h : Run (traced E) p s a t) : Run E p s.1 a t.1 :=
  h.map (f := Prod.fst) fun _ _ _ _ hc => hc.1

theorem wp_traced {p : Program I α} {Q : α → σ → Prop} {s : σ × List (Event I)}
    (h : p.wp E Q s.1) : p.wp (traced E) (fun a t => Q a t.1) s :=
  wp_iff_run.mpr fun _ _ hrun => hrun.erase.wp h

theorem Run.record {p : Program I α} {s t : σ} {a : α} (h : Run E p s a t)
    (tr : List (Event I)) : ∃ tr', Run (traced E) p (s, tr) a (t, tr') := by
  induction h generalizing tr with
  | done a s => exact ⟨tr, .done a (s, tr)⟩
  | @call c next s t u r a hc _ ih =>
      obtain ⟨tr', h'⟩ := ih (tr ++ [⟨c, r⟩])
      exact ⟨tr', .call ⟨hc, rfl⟩ h'⟩

/-- Every call the program can issue satisfies `P`. -/
def Uses (P : I.Call → Prop) : Program I α → Prop
  | .done _ => True
  | .call c next => P c ∧ ∀ r, (next r).Uses P

theorem uses_bind {P : I.Call → Prop} {p : Program I α} {f : α → Program I β}
    (hp : p.Uses P) (hf : ∀ a, (f a).Uses P) : (p >>= f).Uses P := by
  induction p with
  | done a => exact hf a
  | call c next ih => exact ⟨hp.1, fun r => ih r (hp.2 r)⟩

theorem uses_of_forall {P : I.Call → Prop} (h : ∀ c, P c) (p : Program I α) : p.Uses P := by
  induction p with
  | done a => trivial
  | call c next ih => exact ⟨h c, ih⟩

theorem Uses.mono {P R : I.Call → Prop} (h : ∀ c, P c → R c) {p : Program I α} (hp : p.Uses P) :
    p.Uses R := by
  induction p with
  | done a => trivial
  | call c next ih => exact ⟨h c hp.1, fun r => ih r (hp.2 r)⟩

/-- Every call the program can issue satisfies `P` and every result `Q`, whatever
the replies are. -/
def Issues (P : I.Call → Prop) (Q : α → Prop) : Program I α → Prop
  | .done a => Q a
  | .call c next => P c ∧ ∀ r, (next r).Issues P Q

theorem Uses.issues {P : I.Call → Prop} {p : Program I α} (h : p.Uses P) :
    p.Issues P fun _ => True := by
  induction p with
  | done a => trivial
  | call c next ih => exact ⟨h.1, fun r => ih r (h.2 r)⟩

theorem issues_bind {P : I.Call → Prop} {R : α → Prop} {Q : β → Prop} {p : Program I α}
    {f : α → Program I β} (hp : p.Issues P R) (hf : ∀ a, R a → (f a).Issues P Q) :
    (p >>= f).Issues P Q := by
  induction p with
  | done a => exact hf a hp
  | call c next ih => exact ⟨hp.1, fun r => ih r (hp.2 r)⟩

theorem Issues.mono {P R : I.Call → Prop} {Q : α → Prop} (h : ∀ c, P c → R c) {p : Program I α}
    (hp : p.Issues P Q) : p.Issues R Q := by
  induction p with
  | done a => exact hp
  | call c next ih => exact ⟨h c hp.1, fun r => ih r (hp.2 r)⟩

theorem Issues.wp {P : I.Call → Prop} {Q : α → Prop} {inv : σ → Prop}
    (hstep : ∀ c, P c → ∀ s r t, inv s → E c s r t → inv t) {p : Program I α}
    (hp : p.Issues P Q) {s : σ} (hs : inv s) : p.wp E (fun a t => Q a ∧ inv t) s := by
  induction p generalizing s with
  | done a => exact ⟨hp, hs⟩
  | call c next ih => exact fun r t hr => ih r (hp.2 r) (hstep c hp.1 s r t hs hr)

/-- It also holds wherever a run is stopped. -/
theorem Issues.killed {P : I.Call → Prop} {Q : α → Prop} {inv : σ → Prop}
    (hstep : ∀ c, P c → ∀ s r t, inv s → E c s r t → inv t) {p : Program I α}
    (hp : p.Issues P Q) {s t : σ} {c : I.Call} (h : Killed E p s c t) (hs : inv s) : inv t := by
  induction h with
  | here c next s => exact hs
  | call hc _ ih => exact ih (hp.2 _) (hstep _ hp.1 _ _ _ hs hc)

theorem uses_expand {P : I.Call → Prop} {R : J.Call → Prop}
    {body : (c : I.Call) → Program J (I.Reply c)} (hbody : ∀ c, P c → (body c).Uses R)
    {p : Program I α} (hp : p.Uses P) : (p.expand body).Uses R := by
  induction p with
  | done a => trivial
  | call c next ih => exact uses_bind (hbody c hp.1) fun r => ih r (hp.2 r)

/-- What the body of every such call preserves, a run of the expanded program preserves. -/
theorem wp_expand {P : I.Call → Prop} {F : Environment J σ} {inv : σ → Prop}
    {body : (c : I.Call) → Program J (I.Reply c)}
    (hbody : ∀ c, P c → ∀ s, inv s → (body c).wp F (fun _ t => inv t) s)
    {p : Program I α} (hp : p.Uses P) {s : σ} (hs : inv s) :
    (p.expand body).wp F (fun _ t => inv t) s := by
  induction p generalizing s with
  | done a => exact hs
  | call c next ih =>
      unfold expand
      rw [wp_bind]
      exact wp_mono (hbody c hp.1 s hs) fun r t ht => ih r (hp.2 r) ht

/-- If every step of `E` for a call of the program is matched by a step of `F` on
related states, then so is every run. -/
theorem Run.simulate {P : I.Call → Prop} {F : Environment I τ} {R : σ → τ → Prop}
    (hstep : ∀ c, P c → ∀ s r t s', R s s' → E c s r t → ∃ t', F c s' r t' ∧ R t t')
    {p : Program I α} {s t : σ} {a : α} (h : Run E p s a t) (hp : p.Uses P) {s' : τ} (hs : R s s') :
    ∃ t', Run F p s' a t' ∧ R t t' := by
  induction h generalizing s' with
  | done a s => exact ⟨s', .done a s', hs⟩
  | call hc _ ih =>
      obtain ⟨v, hv, hR⟩ := hstep _ hp.1 _ _ _ _ hs hc
      obtain ⟨w, hw, hR'⟩ := ih (hp.2 _) hR
      exact ⟨w, .call hv hw, hR'⟩

/-- A run only adds events whose calls the program can issue. -/
theorem Run.events {P : I.Call → Prop} {p : Program I α} {s t : σ × List (Event I)} {a : α}
    (h : Run (traced E) p s a t) (hp : p.Uses P) :
    ∃ tr, t.2 = s.2 ++ tr ∧ ∀ e ∈ tr, P e.call := by
  induction h with
  | done a s => exact ⟨[], by simp, by simp⟩
  | @call c next s t u r a hc _ ih =>
      obtain ⟨tr, htr, hall⟩ := ih (hp.2 r)
      refine ⟨⟨c, r⟩ :: tr, ?_, ?_⟩
      · rw [htr, hc.2, List.append_assoc]
        rfl
      · intro e he
        rcases List.mem_cons.mp he with rfl | he
        · exact hp.1
        · exact hall e he

/-- The handler that also records. -/
def recording (handler : (c : I.Call) → σ → I.Reply c × σ) (c : I.Call)
    (s : σ × List (Event I)) : I.Reply c × (σ × List (Event I)) :=
  ((handler c s.1).1, (handler c s.1).2, s.2 ++ [⟨c, (handler c s.1).1⟩])

end Program
end FaceHal
