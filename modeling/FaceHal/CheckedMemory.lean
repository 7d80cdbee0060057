import Mathlib.Data.List.Basic
import Mathlib.Data.List.Range

/-!
# Checked memory and checked integers

Loops that fill a buffer at computed places. An access outside of its array and a signed
addition or product that does not fit make the whole computation fail, so what succeeds
stayed inside. A buffer remembers where it was written. The rules give, for a loop over
loops, the list of all its assignments, and row-major lists of places are ranges.
-/
namespace FaceHal

/-- A signed result in 32 bits. -/
def int (x : ℤ) : Option ℤ := if -2147483648 ≤ x ∧ x ≤ 2147483647 then some x else none

/-- A number that 32 bits hold. -/
abbrev FitsInt (n : ℕ) : Prop := n ≤ 2147483647

theorem int_of_eq {x : ℤ} {n : ℕ} (hx : x = n) (h : FitsInt n) : int x = some (n : ℤ) := by
  rw [hx]
  exact if_pos (by omega)

theorem int_natCast {n : ℕ} (h : FitsInt n) : int n = some (n : ℤ) := int_of_eq rfl h

theorem int_eq_none {n : ℕ} (h : ¬ FitsInt n) : int n = none := if_neg (by omega)

/-- The value at an offset of an array. -/
def load {α : Type} (src : List α) (i : ℤ) : Option α := if 0 ≤ i then src[i.toNat]? else none

@[simp] theorem load_natCast {α : Type} (src : List α) (i : ℕ) : load src i = src[i]? :=
  if_pos (Int.natCast_nonneg i)

/-- The body for each of the first `n` numbers, in order. -/
def forRange {σ : Type} : ℕ → (ℕ → σ → Option σ) → σ → Option σ
  | 0, _, s => some s
  | n + 1, body, s => (forRange n body s).bind (body n)

theorem forRange_add {σ : Type} (m n : ℕ) (body : ℕ → σ → Option σ) (s : σ) :
    forRange (m + n) body s = (forRange m body s).bind (forRange n fun i => body (m + i)) := by
  induction n with
  | zero => exact (Option.bind_fun_some _).symm
  | succ n ih =>
      rw [← Nat.add_assoc, forRange, ih, Option.bind_assoc]
      rfl

theorem forRange_mul {σ : Type} (rows cols : ℕ) (body : ℕ → σ → Option σ) (s : σ) :
    forRange (rows * cols) body s =
      forRange rows (fun r => forRange cols fun c => body (r * cols + c)) s := by
  induction rows with
  | zero => rw [Nat.zero_mul]; rfl
  | succ rows ih =>
      rw [Nat.succ_mul, forRange_add, ih]
      rfl

section rowMajor
variable {β : Type}

theorem rowMajor (rows cols : ℕ) (f : ℕ → β) :
    ((List.range rows).flatMap fun r => (List.range cols).map fun c => f (r * cols + c)) =
      (List.range (rows * cols)).map f := by
  induction rows with
  | zero => rw [Nat.zero_mul]; rfl
  | succ rows ih =>
      rw [List.range_succ, List.flatMap_append, ih, List.flatMap_singleton, Nat.succ_mul,
        List.range_add, List.map_append, List.map_map]
      rfl

theorem flatMap_pairs (n : ℕ) (f : ℕ → β) :
    ((List.range n).flatMap fun x => [f (2 * x), f (2 * x + 1)]) = (List.range (2 * n)).map f := by
  rw [Nat.mul_comm 2 n, ← rowMajor n 2 f]
  simp only [Nat.mul_comm 2]
  rfl

/-- Rows that do not fill the stride leave places out. -/
theorem rowMajor_sublist {cols stride : ℕ} (rows : ℕ) (h : cols ≤ stride) (f : ℕ → β) :
    ((List.range rows).flatMap fun r => (List.range cols).map fun c => f (r * stride + c)).Sublist
      ((List.range (rows * stride)).map f) := by
  rw [← rowMajor rows stride f]
  induction rows with
  | zero => exact List.Sublist.refl _
  | succ rows ih =>
      rw [List.range_succ, List.flatMap_append, List.flatMap_append, List.flatMap_singleton,
        List.flatMap_singleton]
      exact ih.append ((List.range_sublist.mpr h).map _)

end rowMajor

/-- The cells and the places that were written, oldest first. -/
structure Buffer (α : Type) where
  cells : List α
  written : List ℕ := []

namespace Buffer
variable {α : Type} {b : Buffer α} {len : ℕ}

/-- A vector that is given a size; what is new is filled. -/
def resize (cells : List α) (size : ℕ) (fill : α) : Buffer α :=
  ⟨cells.take size ++ List.replicate (size - cells.length) fill, []⟩

@[simp] theorem length_resize (cells : List α) (size : ℕ) (fill : α) :
    (resize cells size fill).cells.length = size := by
  rw [resize, List.length_append, List.length_take, List.length_replicate]
  omega

/-- A store that stays inside. -/
def put (b : Buffer α) (i : ℕ) (v : α) : Buffer α := ⟨b.cells.set i v, b.written ++ [i]⟩

def store (b : Buffer α) (i : ℤ) (v : α) : Option (Buffer α) :=
  if 0 ≤ i ∧ i < b.cells.length then some (b.put i.toNat v) else none

/-- `size` values from one array to another. -/
def copy (b : Buffer α) (dst : ℤ) (src : List α) (offset : ℤ) (size : ℕ) : Option (Buffer α) :=
  forRange size (fun i b => (load src (offset + i)).bind fun v => b.store (dst + i) v) b

def putAll (b : Buffer α) (ms : List (ℕ × α)) : Buffer α := ms.foldl (fun b m => b.put m.1 m.2) b

@[simp] theorem length_putAll (ms : List (ℕ × α)) :
    (b.putAll ms).cells.length = b.cells.length := by
  induction ms generalizing b with
  | nil => rfl
  | cons m rest ih => exact ih.trans List.length_set

theorem written_putAll (ms : List (ℕ × α)) :
    (b.putAll ms).written = b.written ++ ms.map Prod.fst := by
  induction ms generalizing b with
  | nil => exact (List.append_nil _).symm
  | cons m rest ih => exact ih.trans (List.append_assoc _ _ _)

theorem putAll_append (ms ns : List (ℕ × α)) : b.putAll (ms ++ ns) = (b.putAll ms).putAll ns :=
  List.foldl_append

theorem getElem?_putAll_of_not_mem {ms : List (ℕ × α)} {i : ℕ} (h : i ∉ ms.map Prod.fst) :
    (b.putAll ms).cells[i]? = b.cells[i]? := by
  induction ms generalizing b with
  | nil => rfl
  | cons m rest ih =>
      rw [List.map_cons, List.mem_cons, not_or] at h
      exact (ih h.2).trans (List.getElem?_set_ne fun heq => h.1 heq.symm)

/-- Where no place is written twice, each holds the value it was given. -/
theorem getElem?_putAll {ms : List (ℕ × α)} {i : ℕ} {v : α} (hnodup : (ms.map Prod.fst).Nodup)
    (hmem : (i, v) ∈ ms) (hi : i < b.cells.length) : (b.putAll ms).cells[i]? = some v := by
  induction ms generalizing b with
  | nil => cases hmem
  | cons m rest ih =>
      rw [List.map_cons, List.nodup_cons] at hnodup
      rcases List.mem_cons.mp hmem with rfl | hmem
      · exact (getElem?_putAll_of_not_mem hnodup.1).trans (List.getElem?_set_self hi)
      · exact ih hnodup.2 hmem (hi.trans_eq List.length_set.symm)

/-- On buffers of the length the program succeeds and makes these assignments. -/
def Stores (len : ℕ) (p : Buffer α → Option (Buffer α)) (ms : List (ℕ × α)) : Prop :=
  ∀ b : Buffer α, b.cells.length = len → p b = some (b.putAll ms)

theorem Stores.run {p : Buffer α → Option (Buffer α)} {ms : List (ℕ × α)} (hp : Stores len p ms)
    (hb : b.cells.length = len) {β : Type} (next : Buffer α → Option β) :
    (p b).bind next = next (b.putAll ms) := by
  rw [hp b hb, Option.bind_some]

theorem stores_store {i : ℕ} (h : i < len) (v : α) :
    Stores len (fun b => b.store i v) [(i, v)] := by
  intro b hb
  exact if_pos ⟨Int.natCast_nonneg i, by omega⟩

theorem Stores.andThen {p q : Buffer α → Option (Buffer α)} {ms ns : List (ℕ × α)}
    (hp : Stores len p ms) (hq : Stores len q ns) :
    Stores len (fun b => (p b).bind q) (ms ++ ns) := by
  intro b hb
  rw [putAll_append]
  exact (hp.run hb q).trans (hq _ ((length_putAll ms).trans hb))

theorem stores_forRange {n : ℕ} {body : ℕ → Buffer α → Option (Buffer α)}
    {f : ℕ → List (ℕ × α)} (h : ∀ i < n, Stores len (body i) (f i)) :
    Stores len (forRange n body) ((List.range n).flatMap f) := by
  induction n with
  | zero => exact fun b _ => rfl
  | succ n ih =>
      have hrest := ih fun i hi => h i (Nat.lt_succ_of_lt hi)
      rw [List.range_succ, List.flatMap_append, List.flatMap_singleton]
      exact hrest.andThen (h n (Nat.lt_succ_self n))

theorem stores_copy {dst size : ℕ} {offset : ℤ} {src : List α} (f : ℕ → α) (hdst : dst + size ≤ len)
    (hsrc : ∀ i < size, load src (offset + i) = some (f i)) :
    Stores len (fun b => b.copy dst src offset size)
      ((List.range size).map fun i => (dst + i, f i)) := by
  rw [List.map_eq_flatMap]
  refine stores_forRange fun i hi => ?_
  intro b hb
  change (load src (offset + i)).bind _ = _
  rw [hsrc i hi, Option.bind_some]
  exact stores_store (i := dst + i) (by omega) (f i) b hb

end Buffer
end FaceHal
