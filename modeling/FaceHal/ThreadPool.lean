import FaceHal.ProgramRuns
import FaceHal.Transition

/-!
# Threads that claim one flag

Threads run programs over shared state, one call at a time and in any order, and any
number of them may be started. Some calls claim a flag, one kind gives it back, and one
starts a thread that takes the claim over. A program keeps the discipline if it makes the
guarded calls, gives back and hands over only while it holds the claim, and does not end
with it. If all do, one thread at most holds the claim, and it does exactly while the flag
is set; and from the turns of that thread alone the flag is reset.
-/
namespace FaceHal

/-- The part of the calls in the claim. `J` is what a thread is started with. -/
structure ClaimProtocol (I : Interface) (J : Type) where
  takes : (c : I.Call) → I.Reply c → Bool
  releases : I.Call → Bool
  guards : I.Call → Bool
  starts : I.Call → Option J
  starts_only : ∀ c, (starts c).isSome = true → releases c = false ∧ ∀ r, takes c r = false

namespace ClaimProtocol
variable {I : Interface} {J α β : Type} {P : ClaimProtocol I J}

/-- The call is for the holder of the claim. -/
def needs (P : ClaimProtocol I J) (c : I.Call) : Bool :=
  P.releases c || P.guards c || (P.starts c).isSome

/-- Whether the thread holds the claim after the call. -/
def after (P : ClaimProtocol I J) (c : I.Call) (r : I.Reply c) (held : Bool) : Bool :=
  !(P.releases c || (P.starts c).isSome) && (held || P.takes c r)

/-- From `held` on, the program keeps the discipline and ends in the postcondition. -/
def Keeps (P : ClaimProtocol I J) : Program I α → Bool → (α → Bool → Prop) → Prop
  | .done a, held, Q => Q a held
  | .call c next, held, Q =>
      (P.needs c = true → held = true) ∧ ∀ r, P.Keeps (next r) (P.after c r held) Q

theorem keeps_bind (p : Program I α) (f : α → Program I β) (held : Bool) (Q : β → Bool → Prop) :
    P.Keeps (p >>= f) held Q ↔ P.Keeps p held fun a held' => P.Keeps (f a) held' Q := by
  induction p generalizing held with
  | done a => rfl
  | call c next ih => simp only [Program.call_bind, Keeps, ih]

theorem keeps_mono {p : Program I α} {held : Bool} {Q R : α → Bool → Prop} (hp : P.Keeps p held Q)
    (h : ∀ a held', Q a held' → R a held') : P.Keeps p held R := by
  induction p generalizing held with
  | done a => exact h a held hp
  | call c next ih => exact ⟨hp.1, fun r => ih r (hp.2 r)⟩

/-- A call that leaves the claim where it is and that the thread may make. -/
structure Stays (P : ClaimProtocol I J) (held : Bool) (c : I.Call) : Prop where
  takes : ∀ r, P.takes c r = false
  releases : P.releases c = false
  starts : P.starts c = none
  guards : P.guards c = true → held = true

theorem keeps_of_stays {p : Program I α} {held : Bool} (hp : p.Uses (P.Stays held)) :
    P.Keeps p held fun _ held' => held' = held := by
  induction p with
  | done a => rfl
  | call c next ih =>
      obtain ⟨hc, hnext⟩ := hp
      refine ⟨fun hneeds => hc.guards ?_, fun r => ?_⟩
      · simpa [needs, hc.releases, hc.starts] using hneeds
      · have hafter : P.after c r held = held := by
          simp [after, hc.takes r, hc.releases, hc.starts]
        rw [hafter]
        exact ih r (hnext r)

/-- What the calls do to the flag. -/
structure Respects {σ : Type} (P : ClaimProtocol I J) (E : Environment I σ) (flag : σ → Bool) :
    Prop where
  takes : ∀ c s r t, E c s r t → P.takes c r = true → flag s = false ∧ flag t = true
  releases : ∀ c s r t, E c s r t → P.releases c = true → flag t = false
  keeps : ∀ c s r t, E c s r t → P.takes c r = false → P.releases c = false → flag t = flag s

end ClaimProtocol

theorem countP_replaced {β : Type} (p : β → Bool) {l : List β} {i : ℕ} {b : β} (a : β)
    (h : l[i]? = some b) : (l.set i a).countP p + (p b).toNat = l.countP p + (p a).toNat := by
  induction l generalizing i with
  | nil => cases h
  | cons x rest ih =>
      cases i with
      | zero =>
          obtain rfl := Option.some.inj h
          cases hx : p x <;> cases ha : p a <;> simp [hx, ha]
      | succ i =>
          have hrest := ih h
          rw [List.set_cons_succ, List.countP_cons, List.countP_cons]
          omega

theorem unique_of_countP_le_one {β : Type} {p : β → Bool} {l : List β} {i j : ℕ} {a b : β}
    (h : l.countP p ≤ 1) (hi : l[i]? = some a) (hj : l[j]? = some b) (ha : p a = true)
    (hb : p b = true) : i = j := by
  induction l generalizing i j with
  | nil => cases hi
  | cons x rest ih =>
      rw [List.countP_cons] at h
      have hnone : ∀ (k : ℕ) (c : β), rest[k]? = some c → p x = true → p c = false := by
        intro k c hk hx
        rw [if_pos hx] at h
        cases hc : p c with
        | false => rfl
        | true =>
            have hpos : 0 < rest.countP p :=
              List.countP_pos_iff.mpr ⟨c, List.mem_of_getElem? hk, hc⟩
            omega
      cases i with
      | zero =>
          cases j with
          | zero => rfl
          | succ j =>
              obtain rfl := Option.some.inj hi
              rw [hnone j b hj ha] at hb
              cases hb
      | succ i =>
          cases j with
          | zero =>
              obtain rfl := Option.some.inj hj
              rw [hnone i a hi hb] at ha
              cases ha
          | succ j => exact congrArg Nat.succ (ih (by omega) hi hj)

/-- What is left of the program. History: whether the thread holds the claim. -/
structure PoolThread (I : Interface) where
  rest : Program I Unit
  holds : Bool

structure Pool (I : Interface) (σ : Type) where
  shared : σ
  threads : List (PoolThread I)

inductive PoolLabel (L : Type) where
  /-- The shared state was changed by others. -/
  | outside
  | start (l : L)
  | run (i : ℕ)

/-- `L` is what is called from outside, each call on a thread of its own. -/
structure Threads (I : Interface) (J L σ : Type) where
  protocol : ClaimProtocol I J
  environment : Environment I σ
  outside : σ → σ → Prop
  entry : L → Program I Unit
  body : J → Program I Unit

namespace Threads
variable {I : Interface} {J L σ : Type} {T : Threads I J L σ} {flag : σ → Bool}
  {s t u : Pool I σ} {i j : ℕ} {th : PoolThread I}

/-- The thread that a call starts takes the claim over. -/
def started (T : Threads I J L σ) (c : I.Call) : List (PoolThread I) :=
  (T.protocol.starts c).toList.map fun j => ⟨T.body j, true⟩

def step (T : Threads I J L σ) : System (Pool I σ) (PoolLabel L)
  | s, .outside, t => T.outside s.shared t.shared ∧ t.threads = s.threads
  | s, .start l, t => t = ⟨s.shared, s.threads ++ [⟨T.entry l, false⟩]⟩
  | s, .run i, t => ∃ c next held r, s.threads[i]? = some ⟨.call c next, held⟩ ∧
      T.environment c s.shared r t.shared ∧
      t.threads = s.threads.set i ⟨next r, T.protocol.after c r held⟩ ++ T.started c

theorem step_run {c : I.Call} {next : I.Reply c → Program I Unit} {held : Bool} {r : I.Reply c}
    {x : σ} (hi : s.threads[i]? = some ⟨.call c next, held⟩) (hE : T.environment c s.shared r x) :
    T.step s (.run i)
      ⟨x, s.threads.set i ⟨next r, T.protocol.after c r held⟩ ++ T.started c⟩ :=
  ⟨c, next, held, r, hi, hE, rfl⟩

/-- The programs keep the discipline, and nothing else touches the flag. -/
structure Disciplined (T : Threads I J L σ) (flag : σ → Bool) : Prop where
  respects : T.protocol.Respects T.environment flag
  outside : ∀ s t, T.outside s t → flag t = flag s
  entry : ∀ l, T.protocol.Keeps (T.entry l) false fun _ held => held = false
  body : ∀ j, T.protocol.Keeps (T.body j) true fun _ held => held = false

/-- Every thread keeps the discipline, and the flag counts the holders. -/
structure Sound (T : Threads I J L σ) (flag : σ → Bool) (s : Pool I σ) : Prop where
  keeps : ∀ th ∈ s.threads, T.protocol.Keeps th.rest th.holds fun _ held => held = false
  counted : s.threads.countP PoolThread.holds = (flag s.shared).toNat

theorem sound_empty {x : σ} (hx : flag x = false) : T.Sound flag ⟨x, []⟩ where
  keeps := nofun
  counted := by rw [hx]; rfl

theorem countP_started (c : I.Call) :
    (T.started c).countP PoolThread.holds = ((T.protocol.starts c).isSome).toNat := by
  unfold started
  cases T.protocol.starts c with
  | none => rfl
  | some j => rfl

/-- The claims of a thread and of the one that it starts change as the flag does. -/
theorem counted_call (hT : T.Disciplined flag) {c : I.Call} {r : I.Reply c} {x y : σ} {held : Bool}
    (hneeds : T.protocol.needs c = true → held = true) (hE : T.environment c x r y)
    (hheld : held = true → flag x = true) :
    (T.protocol.after c r held).toNat + (T.started c).countP PoolThread.holds + (flag x).toNat =
      held.toNat + (flag y).toNat := by
  rw [countP_started]
  unfold ClaimProtocol.needs at hneeds
  unfold ClaimProtocol.after
  cases hstarts : (T.protocol.starts c).isSome with
  | true =>
      obtain ⟨hreleases, htakes⟩ := T.protocol.starts_only c hstarts
      have hflag := hT.respects.keeps c x r y hE (htakes r) hreleases
      rw [hneeds (by simp [hstarts]), hflag]
      simp
  | false =>
      cases hreleases : T.protocol.releases c with
      | true =>
          have hheld' := hneeds (by simp [hreleases])
          rw [hT.respects.releases c x r y hE hreleases, hheld', hheld hheld']
          simp
      | false =>
          cases htakes : T.protocol.takes c r with
          | true =>
              obtain ⟨hbefore, hafter⟩ := hT.respects.takes c x r y hE htakes
              cases held with
              | true => cases hbefore.symm.trans (hheld rfl)
              | false => simp [hbefore, hafter]
          | false =>
              rw [hT.respects.keeps c x r y hE htakes hreleases]
              simp

theorem Sound.flag_of_holds (hs : T.Sound flag s) (hth : th ∈ s.threads) (h : th.holds = true) :
    flag s.shared = true := by
  have hpos := List.countP_pos_iff.mpr ⟨th, hth, h⟩
  rw [hs.counted] at hpos
  cases hflag : flag s.shared with
  | true => rfl
  | false =>
      rw [hflag] at hpos
      cases hpos

theorem sound_step (hT : T.Disciplined flag) {l : PoolLabel L} (hs : T.Sound flag s)
    (h : T.step s l t) : T.Sound flag t := by
  cases l with
  | outside =>
      obtain ⟨hout, hthreads⟩ := h
      refine ⟨?_, ?_⟩
      · rw [hthreads]
        exact hs.keeps
      · rw [hthreads, hT.outside _ _ hout]
        exact hs.counted
  | start l =>
      obtain rfl := h
      refine ⟨?_, ?_⟩
      · intro th hth
        rcases List.mem_append.mp hth with hth | hth
        · exact hs.keeps th hth
        · obtain rfl := List.mem_singleton.mp hth
          exact hT.entry l
      · rw [List.countP_append]
        exact hs.counted
  | run i =>
      obtain ⟨c, next, held, r, hi, hE, hthreads⟩ := h
      have hmem := List.mem_of_getElem? hi
      have hkeeps : T.protocol.Keeps (.call c next) held fun _ held => held = false :=
        hs.keeps _ hmem
      obtain ⟨hneeds, hnext⟩ := hkeeps
      have hheld : held = true → flag s.shared = true := hs.flag_of_holds hmem
      refine ⟨?_, ?_⟩
      · intro th hth
        rw [hthreads] at hth
        rcases List.mem_append.mp hth with hth | hth
        · rcases List.mem_or_eq_of_mem_set hth with hth | rfl
          · exact hs.keeps th hth
          · exact hnext r
        · obtain ⟨j, -, rfl⟩ := List.mem_map.mp hth
          exact hT.body j
      · have hcall := counted_call hT hneeds hE hheld
        have hset : (s.threads.set i ⟨next r, T.protocol.after c r held⟩).countP PoolThread.holds +
            held.toNat = s.threads.countP PoolThread.holds + (T.protocol.after c r held).toNat :=
          countP_replaced PoolThread.holds ⟨next r, T.protocol.after c r held⟩ hi
        have hcounted := hs.counted
        rw [hthreads, List.countP_append]
        omega

theorem sound_runs (hT : T.Disciplined flag) {ls : List (PoolLabel L)} (hs : T.Sound flag s)
    (h : Runs T.step s ls t) : T.Sound flag t :=
  h.invariant (fun _ _ _ hs hl => sound_step hT hs hl) hs

/-- The thread holds the claim, with this program left. -/
def HolderAt (s : Pool I σ) (i : ℕ) (p : Program I Unit) : Prop := s.threads[i]? = some ⟨p, true⟩

/-- The thread is about to make a call that only the holder makes. -/
def AboutTo (s : Pool I σ) (i : ℕ) (c : I.Call) : Prop :=
  ∃ next held, s.threads[i]? = some ⟨.call c next, held⟩

theorem Sound.countP_le_one (hs : T.Sound flag s) : s.threads.countP PoolThread.holds ≤ 1 := by
  rw [hs.counted]
  exact Bool.toNat_le _

theorem Sound.holder_unique (hs : T.Sound flag s) {p q : Program I Unit} (hi : HolderAt s i p)
    (hj : HolderAt s j q) : i = j :=
  unique_of_countP_le_one hs.countP_le_one hi hj rfl rfl

theorem Sound.holder_of_aboutTo (hs : T.Sound flag s) {c : I.Call} (h : AboutTo s i c)
    (hc : T.protocol.needs c = true) : ∃ p, HolderAt s i p := by
  obtain ⟨next, held, hi⟩ := h
  obtain rfl := (hs.keeps _ (List.mem_of_getElem? hi)).1 hc
  exact ⟨_, hi⟩

/-- Two threads never are at calls for the holder. -/
theorem Sound.aboutTo_unique (hs : T.Sound flag s) {c d : I.Call} (hi : AboutTo s i c)
    (hj : AboutTo s j d) (hc : T.protocol.needs c = true) (hd : T.protocol.needs d = true) :
    i = j := by
  obtain ⟨p, hp⟩ := hs.holder_of_aboutTo hi hc
  obtain ⟨q, hq⟩ := hs.holder_of_aboutTo hj hd
  exact hs.holder_unique hp hq

/-- The flag is set only while a thread holds the claim, and this one has not ended. -/
theorem Sound.exists_holder (hs : T.Sound flag s) (h : flag s.shared = true) :
    ∃ i c next, HolderAt s i (.call c next) := by
  have hcounted : s.threads.countP PoolThread.holds = 1 := by
    rw [hs.counted, h]
    rfl
  have hpos : 0 < s.threads.countP PoolThread.holds := by omega
  obtain ⟨th, hth, hholds⟩ := List.countP_pos_iff.mp hpos
  obtain ⟨i, hi⟩ := List.getElem?_of_mem hth
  have hkeeps := hs.keeps th hth
  obtain ⟨rest, held⟩ := th
  obtain rfl : held = true := hholds
  cases rest with
  | done a => cases hkeeps
  | call c next => exact ⟨i, c, next, hi⟩

theorem thread_of_step {l : PoolLabel L} (h : T.step s l t) (hl : l ≠ .run i)
    (hi : s.threads[i]? = some th) : t.threads[i]? = some th := by
  have hlt : i < s.threads.length := (List.getElem?_eq_some_iff.mp hi).choose
  cases l with
  | outside => rw [h.2, hi]
  | start l =>
      obtain rfl := h
      rw [List.getElem?_append_left hlt, hi]
  | run j =>
      obtain ⟨c, next, held, r, -, -, hthreads⟩ := h
      have hji : j ≠ i := fun hji => hl (congrArg _ hji)
      rw [hthreads, List.getElem?_append_left (by rwa [List.length_set]),
        List.getElem?_set_ne hji, hi]

theorem thread_of_runs {ls : List (PoolLabel L)}
    (h : Runs (guarded (fun _ l => l ≠ .run i) T.step) s ls t) (hi : s.threads[i]? = some th) :
    t.threads[i]? = some th :=
  h.invariant (P := fun s => s.threads[i]? = some th)
    (fun _ _ _ hi hstep => thread_of_step hstep.2 hstep.1 hi) hi

/-- The others take any steps, and then the holder of the claim takes one. -/
def Turn (T : Threads I J L σ) (s t : Pool I σ) : Prop :=
  ∃ i p ls u, HolderAt s i p ∧ Runs (guarded (fun _ l => l ≠ .run i) T.step) s ls u ∧
    T.step u (.run i) t

/-- A turn of the holder is its next call, and a started thread is the holder from then on. -/
theorem Sound.turn_cases (hT : T.Disciplined flag) (hs : T.Sound flag s) {c : I.Call}
    {next : I.Reply c → Program I Unit} (hi : HolderAt s i (.call c next)) (h : T.Turn s t) :
    T.Sound flag t ∧ (flag t.shared = false ∨ (∃ r, HolderAt t i (next r)) ∨
      ∃ j k, T.protocol.starts c = some j ∧ HolderAt t k (T.body j)) := by
  obtain ⟨i', p, ls, u, hp, hothers, hstep⟩ := h
  obtain rfl := hs.holder_unique hi hp
  have hu := sound_runs hT hs (hothers.mono fun _ _ _ hl => hl.2)
  have hui := thread_of_runs hothers hi
  refine ⟨sound_step hT hu hstep, ?_⟩
  obtain ⟨c', next', held, r, hi', hE, hthreads⟩ := hstep
  rw [hui] at hi'
  obtain ⟨⟨rfl, hnext⟩, rfl⟩ : (c = c' ∧ HEq next next') ∧ held = true := by
    simpa using hi'
  obtain rfl := eq_of_heq hnext
  have hlt : i < u.threads.length := (List.getElem?_eq_some_iff.mp hui).choose
  cases hstarts : T.protocol.starts c with
  | some j =>
      refine .inr (.inr ⟨j, u.threads.length, rfl, ?_⟩)
      unfold HolderAt
      rw [hthreads, started, hstarts, List.getElem?_append_right (by rw [List.length_set]),
        List.length_set, Nat.sub_self]
      rfl
  | none =>
      cases hreleases : T.protocol.releases c with
      | true => exact .inl (hT.respects.releases c _ r _ hE hreleases)
      | false =>
          refine .inr (.inl ⟨r, ?_⟩)
          unfold HolderAt
          rw [hthreads, List.getElem?_append_left (by rwa [List.length_set]),
            List.getElem?_set_self hlt, ClaimProtocol.after, hreleases, hstarts]
          rfl

end Threads

/-- Such moves can be made until the goal is reached, and it is, whichever they are. -/
inductive Inevitably {σ : Type} (move : σ → σ → Prop) (goal : σ → Prop) : σ → Prop
  | now {s : σ} : goal s → Inevitably move goal s
  | next {s : σ} : (∃ t, move s t) → (∀ t, move s t → Inevitably move goal t) →
      Inevitably move goal s

namespace Threads
variable {I : Interface} {J L σ : Type} {T : Threads I J L σ} {flag : σ → Bool}
  {s : Pool I σ} {i : ℕ}

/-- The holder's program resets the flag, or a thread that it starts does. -/
theorem inevitably_of_holder (hT : T.Disciplined flag) (hE : ∀ c s, ∃ r t, T.environment c s r t)
    {P : J → Prop}
    (hP : ∀ j, P j → ∀ s k, T.Sound flag s → HolderAt s k (T.body j) →
      Inevitably T.Turn (fun t => flag t.shared = false) s)
    {p : Program I Unit} (hp : p.Uses fun c => ∀ j, T.protocol.starts c = some j → P j)
    (hs : T.Sound flag s) (hi : HolderAt s i p) :
    Inevitably T.Turn (fun t => flag t.shared = false) s := by
  induction p generalizing s with
  | done a =>
      have hkeeps : (true = false) := hs.keeps _ (List.mem_of_getElem? hi)
      cases hkeeps
  | call c next ih =>
      refine .next ?_ ?_
      · obtain ⟨r, x, hcall⟩ := hE c s.shared
        exact ⟨_, i, _, [], s, hi, .nil s, step_run hi hcall⟩
      · intro t hturn
        obtain ⟨ht, hflag | ⟨r, hnext⟩ | ⟨j, k, hstarts, hbody⟩⟩ := hs.turn_cases hT hi hturn
        · exact .now hflag
        · exact ih r (hp.2 r) ht hnext
        · exact hP j (hp.1 j hstarts) t k ht hbody

/-- From the turns of the holder alone the flag is reset. -/
theorem Sound.inevitably (hT : T.Disciplined flag) (hE : ∀ c s, ∃ r t, T.environment c s r t)
    (hbody : ∀ j, (T.body j).Uses fun c => T.protocol.starts c = none) (hs : T.Sound flag s) :
    Inevitably T.Turn (fun t => flag t.shared = false) s := by
  have hstarted : ∀ j, True → ∀ s k, T.Sound flag s → HolderAt s k (T.body j) →
      Inevitably T.Turn (fun t => flag t.shared = false) s := by
    intro j _ s k hs hk
    have hnone : (T.body j).Uses fun c => ∀ j, T.protocol.starts c = some j → False :=
      (hbody j).mono fun c hc j hj => by rw [hc] at hj; cases hj
    exact inevitably_of_holder hT hE (fun _ h => h.elim) hnone hs hk
  cases hflag : flag s.shared with
  | false => exact .now hflag
  | true =>
      obtain ⟨i, c, next, hi⟩ := hs.exists_holder hflag
      have hany : (Program.call c next).Uses fun c => ∀ j, T.protocol.starts c = some j → True :=
        Program.uses_of_forall (fun _ _ _ => trivial) _
      exact inevitably_of_holder hT hE hstarted hany hs hi

end Threads
end FaceHal
