import FaceHal.ProgramRuns
import Mathlib.Logic.Relation

/-!
# Two programs on one state

Two threads run a program each and every call is one atomic step. `Interleaved`
is one complete interleaving; its trace keeps the events of the two programs
apart. The first program is then proved correct on its own, in an environment
where any number of the second program's calls may come before each of its calls.
What such a proof may assume between two calls is an assertion that the second
program cannot falsify.
-/
namespace FaceHal
namespace Program
variable {I : Interface} {α β σ : Type} {E : Environment I σ} {P : I.Call → Prop}

/-- The events of two programs in the order in which they happened. -/
abbrev PairTrace (I : Interface) : Type := List (Event I ⊕ Event I)

inductive Interleaved (E : Environment I σ) :
    Program I α → Program I β → σ → PairTrace I → α → β → σ → Prop
  | done (a : α) (b : β) (s : σ) : Interleaved E (.done a) (.done b) s [] a b s
  | left {c : I.Call} {next : I.Reply c → Program I α} {q : Program I β} {s t u : σ}
      {r : I.Reply c} {tr : PairTrace I} {a : α} {b : β} :
      E c s r t → Interleaved E (next r) q t tr a b u →
      Interleaved E (.call c next) q s (.inl ⟨c, r⟩ :: tr) a b u
  | right {c : I.Call} {p : Program I α} {next : I.Reply c → Program I β} {s t u : σ}
      {r : I.Reply c} {tr : PairTrace I} {a : α} {b : β} :
      E c s r t → Interleaved E p (next r) t tr a b u →
      Interleaved E p (.call c next) s (.inr ⟨c, r⟩ :: tr) a b u

theorem Interleaved.mono {E' : Environment I σ} (hE : ∀ c s r t, E c s r t → E' c s r t)
    {p : Program I α} {q : Program I β} {s u : σ} {tr : PairTrace I} {a : α} {b : β}
    (h : Interleaved E p q s tr a b u) : Interleaved E' p q s tr a b u := by
  induction h with
  | done a b s => exact .done a b s
  | left hc _ ih => exact .left (hE _ _ _ _ hc) ih
  | right hc _ ih => exact .right (hE _ _ _ _ hc) ih

/-- One call of the second program, recorded. -/
def others (E : Environment I σ) (P : I.Call → Prop) (x y : σ × PairTrace I) : Prop :=
  ∃ c r, P c ∧ E c x.1 r y.1 ∧ y.2 = x.2 ++ [.inr ⟨c, r⟩]

/-- The environment in which the second program may go on before every call. -/
def disturbed (E : Environment I σ) (P : I.Call → Prop) : Environment I (σ × PairTrace I) :=
  fun c x r y => ∃ z, Relation.ReflTransGen (others E P) x z ∧ E c z.1 r y.1 ∧
    y.2 = z.2 ++ [.inl ⟨c, r⟩]

/-- What the calls of the second program leave true. -/
def Stable (E : Environment I σ) (P : I.Call → Prop) (J : σ × PairTrace I → Prop) : Prop :=
  ∀ x y, J x → others E P x y → J y

theorem Stable.trans {J : σ × PairTrace I → Prop} (hJ : Stable E P J) {x y : σ × PairTrace I}
    (hx : J x) (h : Relation.ReflTransGen (others E P) x y) : J y := by
  induction h with
  | refl => exact hx
  | tail _ hstep ih => exact hJ _ _ ih hstep

theorem Stable.and {J K : σ × PairTrace I → Prop} (hJ : Stable E P J) (hK : Stable E P K) :
    Stable E P fun x => J x ∧ K x := fun x y h hstep => ⟨hJ x y h.1 hstep, hK x y h.2 hstep⟩

/-- Seen from the first program, an interleaving is one of its runs in the
disturbed environment, followed by the rest of the second program. -/
theorem Interleaved.run_left {p : Program I α} {q : Program I β} {s u : σ} {tr : PairTrace I}
    {a : α} {b : β} (h : Interleaved E p q s tr a b u) (hq : q.Uses P) (tr₀ : PairTrace I) :
    ∃ y, Run (disturbed E P) p (s, tr₀) a y ∧
      Relation.ReflTransGen (others E P) y (u, tr₀ ++ tr) := by
  induction h generalizing tr₀ with
  | done a b s =>
      refine ⟨(s, tr₀), .done a _, ?_⟩
      rw [List.append_nil]
  | @left c next q s t u r tr a b hc _ ih =>
      obtain ⟨y, hrun, hrest⟩ := ih hq (tr₀ ++ [.inl ⟨c, r⟩])
      rw [List.append_assoc] at hrest
      exact ⟨y, .call ⟨(s, tr₀), .refl, hc, rfl⟩ hrun, hrest⟩
  | @right c p next s t u r tr a b hc _ ih =>
      obtain ⟨y, hrun, hrest⟩ := ih (hq.2 r) (tr₀ ++ [.inr ⟨c, r⟩])
      rw [List.append_assoc] at hrest
      have hstep : others E P (s, tr₀) (t, tr₀ ++ [.inr ⟨c, r⟩]) := ⟨c, r, hq.1, hc, rfl⟩
      cases hrun with
      | done a y => exact ⟨(s, tr₀), .done a _, hrest.head hstep⟩
      | call hcall hn =>
          obtain ⟨z, hz, hcall⟩ := hcall
          exact ⟨y, .call ⟨z, hz.head hstep, hcall⟩ hn, hrest⟩

/-- A stable postcondition that the first program reaches in the disturbed
environment holds at the end of every interleaving. -/
theorem Interleaved.wp_left {p : Program I α} {q : Program I β} {s u : σ} {tr : PairTrace I}
    {a : α} {b : β} {Q : α → σ × PairTrace I → Prop} (h : Interleaved E p q s tr a b u)
    (hq : q.Uses P) (hp : p.wp (disturbed E P) Q (s, [])) (hQ : ∀ a, Stable E P (Q a)) :
    Q a (u, tr) := by
  obtain ⟨y, hrun, hrest⟩ := h.run_left hq []
  exact (hQ a).trans (hrun.wp hp) hrest

/-- The rule for a call: what holds before it holds still when it is made. -/
theorem wp_disturbed {c : I.Call} {next : I.Reply c → Program I α}
    {Q : α → σ × PairTrace I → Prop} {J : σ × PairTrace I → Prop} {x : σ × PairTrace I}
    (hJ : Stable E P J) (hx : J x)
    (h : ∀ y r t, J y → E c y.1 r t →
      (next r).wp (disturbed E P) Q (t, y.2 ++ [.inl ⟨c, r⟩])) :
    (Program.call c next).wp (disturbed E P) Q x := by
  intro r z hcall
  obtain ⟨y, hy, hc, htr⟩ := hcall
  have hz : z = (z.1, y.2 ++ [.inl ⟨c, r⟩]) := Prod.ext rfl htr
  rw [hz]
  exact h y r z.1 (hJ.trans hx hy) hc

/-- Run two programs by a schedule: the first one makes a call at `true`. -/
def replayPair (handler : (c : I.Call) → σ → I.Reply c × σ) :
    List Bool → Program I α → Program I β → σ → Option (PairTrace I × α × β × σ)
  | [], .done a, .done b, s => some ([], a, b, s)
  | true :: w, .call c next, q, s =>
      (replayPair handler w (next (handler c s).1) q (handler c s).2).map fun out =>
        (.inl ⟨c, (handler c s).1⟩ :: out.1, out.2)
  | false :: w, p, .call c next, s =>
      (replayPair handler w p (next (handler c s).1) (handler c s).2).map fun out =>
        (.inr ⟨c, (handler c s).1⟩ :: out.1, out.2)
  | _, _, _, _ => none

theorem interleaved_of_replayPair {handler : (c : I.Call) → σ → I.Reply c × σ}
    (hE : ∀ c s, E c s (handler c s).1 (handler c s).2) {w : List Bool} {p : Program I α}
    {q : Program I β} {s : σ} {out : PairTrace I × α × β × σ}
    (h : replayPair handler w p q s = some out) :
    Interleaved E p q s out.1 out.2.1 out.2.2.1 out.2.2.2 := by
  induction w generalizing p q s out with
  | nil =>
      cases p with
      | call c next => cases h
      | done a =>
          cases q with
          | call c next => cases h
          | done b =>
              obtain rfl := Option.some.inj h
              exact .done a b s
  | cons b w ih =>
      cases b with
      | true =>
          cases p with
          | done a => cases h
          | call c next =>
              obtain ⟨rest, hrest, rfl⟩ := Option.map_eq_some_iff.mp h
              exact .left (hE c s) (ih hrest)
      | false =>
          cases q with
          | done b => cases p <;> cases h
          | call c next =>
              have h' : (replayPair handler w p (next (handler c s).1) (handler c s).2).map
                  (fun rest => (.inr ⟨c, (handler c s).1⟩ :: rest.1, rest.2)) = some out := by
                cases p <;> exact h
              obtain ⟨rest, hrest, rfl⟩ := Option.map_eq_some_iff.mp h'
              exact .right (hE c s) (ih hrest)

/-- The same where some calls are not answered. -/
def replayAnswered (handler : (c : I.Call) → σ → Option (I.Reply c × σ)) :
    List Bool → Program I α → Program I β → σ → Option (PairTrace I × α × β × σ)
  | [], .done a, .done b, s => some ([], a, b, s)
  | true :: w, .call c next, q, s => (handler c s).bind fun reply =>
      (replayAnswered handler w (next reply.1) q reply.2).map fun out =>
        (.inl ⟨c, reply.1⟩ :: out.1, out.2)
  | false :: w, p, .call c next, s => (handler c s).bind fun reply =>
      (replayAnswered handler w p (next reply.1) reply.2).map fun out =>
        (.inr ⟨c, reply.1⟩ :: out.1, out.2)
  | _, _, _, _ => none

theorem interleaved_of_replayAnswered {handler : (c : I.Call) → σ → Option (I.Reply c × σ)}
    (hE : ∀ c s reply, handler c s = some reply → E c s reply.1 reply.2) {w : List Bool}
    {p : Program I α} {q : Program I β} {s : σ} {out : PairTrace I × α × β × σ}
    (h : replayAnswered handler w p q s = some out) :
    Interleaved E p q s out.1 out.2.1 out.2.2.1 out.2.2.2 := by
  induction w generalizing p q s out with
  | nil =>
      cases p with
      | call c next => cases h
      | done a =>
          cases q with
          | call c next => cases h
          | done b =>
              obtain rfl := Option.some.inj h
              exact .done a b s
  | cons b w ih =>
      cases b with
      | true =>
          cases p with
          | done a => cases h
          | call c next =>
              obtain ⟨reply, hreply, hmap⟩ := Option.bind_eq_some_iff.mp h
              obtain ⟨rest, hrest, rfl⟩ := Option.map_eq_some_iff.mp hmap
              exact .left (hE c s reply hreply) (ih hrest)
      | false =>
          cases q with
          | done b => cases p <;> cases h
          | call c next =>
              have h' : ((handler c s).bind fun reply =>
                  (replayAnswered handler w p (next reply.1) reply.2).map fun rest =>
                    (.inr ⟨c, reply.1⟩ :: rest.1, rest.2)) = some out := by
                cases p <;> exact h
              obtain ⟨reply, hreply, hmap⟩ := Option.bind_eq_some_iff.mp h'
              obtain ⟨rest, hrest, rfl⟩ := Option.map_eq_some_iff.mp hmap
              exact .right (hE c s reply hreply) (ih hrest)

/-- No call of the kind is made before an event that releases it. -/
def Awaits (kind : I.Call → Prop) (releases : Event I → Prop) : Program I α → Prop
  | .done _ => True
  | .call c next => ¬ kind c ∧ ∀ r, releases ⟨c, r⟩ ∨ (next r).Awaits kind releases

section awaits
variable {kind : I.Call → Prop} {releases : Event I → Prop}

theorem awaits_of_uses {p : Program I α} (hp : p.Uses fun c => ¬ kind c) :
    p.Awaits kind releases := by
  induction p with
  | done a => trivial
  | call c next ih => exact ⟨hp.1, fun r => .inr (ih r (hp.2 r))⟩

theorem awaits_bind {p : Program I α} {f : α → Program I β} (hp : p.Awaits kind releases)
    (hf : ∀ a, (f a).Awaits kind releases) : (p >>= f).Awaits kind releases := by
  induction p with
  | done a => exact hf a
  | call c next ih => exact ⟨hp.1, fun r => (hp.2 r).imp_right fun h => ih r h⟩

/-- If nothing else makes a releasing event possible, no such call is ever made. -/
theorem Interleaved.awaits {J : σ → Prop} {p : Program I α} {q : Program I β} {s u : σ}
    {tr : PairTrace I} {a : α} {b : β}
    (hstep : ∀ c s r t, J s → E c s r t → ¬ kind c → J t ∧ ¬ releases ⟨c, r⟩)
    (h : Interleaved E p q s tr a b u) (hp : p.Awaits kind releases)
    (hq : q.Awaits kind releases) (hs : J s) : J u ∧ ∀ e ∈ tr, ¬ kind (e.elim id id).call := by
  induction h with
  | done a b s => exact ⟨hs, fun e he => absurd he List.not_mem_nil⟩
  | left hc _ ih =>
      obtain ⟨hkind, hnext⟩ := hp
      obtain ⟨ht, hheld⟩ := hstep _ _ _ _ hs hc hkind
      obtain ⟨hu, hrest⟩ := ih ((hnext _).resolve_left hheld) hq ht
      exact ⟨hu, List.forall_mem_cons.mpr ⟨hkind, hrest⟩⟩
  | right hc _ ih =>
      obtain ⟨hkind, hnext⟩ := hq
      obtain ⟨ht, hheld⟩ := hstep _ _ _ _ hs hc hkind
      obtain ⟨hu, hrest⟩ := ih hp ((hnext _).resolve_left hheld) ht
      exact ⟨hu, List.forall_mem_cons.mpr ⟨hkind, hrest⟩⟩

end awaits

end Program
end FaceHal
