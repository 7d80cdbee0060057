import Mathlib.Data.List.Nodup

/-!
# Scanning a list for the first value under each key

A scan walks a list of items, each of which may carry a key. An item whose key
was seen before is skipped; otherwise the value of its key is looked up and kept.
An item without a value is passed over, unless it is stuck: then the scan ends,
and everything after it is lost. The last theorem says exactly when nothing is.
-/
namespace FaceHal
namespace KeyedScan
variable {α β κ : Type*}

section scan
variable (key : α → Option κ) (value : κ → Option β) (stuck : α → Prop)

def scan [DecidableEq κ] [DecidablePred stuck] : List α → List κ → List β
  | [], _ => []
  | x :: rest, seen =>
      match key x with
      | none => scan rest seen
      | some k =>
          if k ∈ seen then scan rest seen
          else match value k with
            | some v => v :: scan rest (k :: seen)
            | none => if stuck x then [] else scan rest seen

/-- No stuck item without a value stands before an item whose value has not been
kept by then. -/
def Unblocked (items : List α) (seen : List κ) : Prop :=
  ∀ pre x post, items = pre ++ x :: post → stuck x → (∃ k, key x = some k ∧ value k = none) →
    ∀ y ∈ post, ∀ k v, key y = some k → value k = some v → k ∈ seen ∨ ∃ z ∈ pre, key z = some k

/-- Every value that an item stands for is kept, now or earlier. -/
def Complete (items : List α) (seen : List κ) (kept : List β) : Prop :=
  ∀ y ∈ items, ∀ k v, key y = some k → value k = some v → k ∈ seen ∨ v ∈ kept

end scan

variable {key : α → Option κ} {value : κ → Option β} {stuck : α → Prop}

theorem unblocked_skip {x : α} {rest : List α} {seen : List κ} (hseen : ∀ k ∈ seen, value k ≠ none)
    (h : ∀ k, key x = some k → k ∈ seen ∨ value k = none ∧ ¬ stuck x) :
    Unblocked key value stuck (x :: rest) seen ↔ Unblocked key value stuck rest seen := by
  constructor
  · intro hu pre z post hsplit hst hmiss y hy k v hk hv
    rcases hu (x :: pre) z post (by rw [hsplit]; rfl) hst hmiss y hy k v hk hv with hin |
      ⟨w, hw, hkw⟩
    · exact .inl hin
    · rcases List.mem_cons.mp hw with rfl | hw
      · rcases h k hkw with hin | ⟨hnone, -⟩
        · exact .inl hin
        · rw [hv] at hnone
          cases hnone
      · exact .inr ⟨w, hw, hkw⟩
  · intro hu pre z post hsplit hst hmiss y hy k v hk hv
    cases pre with
    | nil =>
        obtain ⟨rfl, -⟩ := List.cons.inj hsplit
        obtain ⟨l, hl, hnone⟩ := hmiss
        rcases h l hl with hin | ⟨-, hns⟩
        · exact absurd hnone (hseen l hin)
        · exact absurd hst hns
    | cons w pre =>
        obtain ⟨rfl, hrest⟩ := List.cons.inj hsplit
        rcases hu pre z post hrest hst hmiss y hy k v hk hv with hin | ⟨z', hz', hkz⟩
        · exact .inl hin
        · exact .inr ⟨z', List.mem_cons_of_mem x hz', hkz⟩

theorem unblocked_value {x : α} {rest : List α} {seen : List κ} {k : κ} {v : β}
    (hk : key x = some k) (hv : value k = some v) :
    Unblocked key value stuck (x :: rest) seen ↔ Unblocked key value stuck rest (k :: seen) := by
  constructor
  · intro hu pre z post hsplit hst hmiss y hy l w hl hw
    rcases hu (x :: pre) z post (by rw [hsplit]; rfl) hst hmiss y hy l w hl hw with hin |
      ⟨z', hz', hkz⟩
    · exact .inl (List.mem_cons_of_mem k hin)
    · rcases List.mem_cons.mp hz' with rfl | hz'
      · obtain rfl := Option.some.inj (hk.symm.trans hkz)
        exact .inl List.mem_cons_self
      · exact .inr ⟨z', hz', hkz⟩
  · intro hu pre z post hsplit hst hmiss y hy l w hl hw
    cases pre with
    | nil =>
        obtain ⟨rfl, -⟩ := List.cons.inj hsplit
        obtain ⟨m, hm, hnone⟩ := hmiss
        rw [Option.some.inj (hm.symm.trans hk), hv] at hnone
        cases hnone
    | cons x' pre =>
        obtain ⟨rfl, hrest⟩ := List.cons.inj hsplit
        rcases hu pre z post hrest hst hmiss y hy l w hl hw with hin | ⟨z', hz', hkz⟩
        · rcases List.mem_cons.mp hin with rfl | hin
          · exact .inr ⟨x, List.mem_cons_self, hk⟩
          · exact .inl hin
        · exact .inr ⟨z', List.mem_cons_of_mem x hz', hkz⟩

variable [DecidableEq κ] [DecidablePred stuck]

theorem scan_skip {x : α} {rest : List α} {seen : List κ} (h : ∀ k, key x = some k → k ∈ seen) :
    scan key value stuck (x :: rest) seen = scan key value stuck rest seen := by
  rw [scan]
  split
  · rfl
  · next k hk => rw [if_pos (h k hk)]

theorem scan_value {x : α} {rest : List α} {seen : List κ} {k : κ} {v : β} (hk : key x = some k)
    (hs : k ∉ seen) (hv : value k = some v) :
    scan key value stuck (x :: rest) seen = v :: scan key value stuck rest (k :: seen) := by
  simp only [scan, hk, if_neg hs, hv]

theorem scan_miss {x : α} {rest : List α} {seen : List κ} {k : κ} (hk : key x = some k)
    (hs : k ∉ seen) (hv : value k = none) : scan key value stuck (x :: rest) seen =
      if stuck x then [] else scan key value stuck rest seen := by
  simp only [scan, hk, if_neg hs, hv]

theorem mem_scan {items : List α} {seen : List κ} {v : β}
    (h : v ∈ scan key value stuck items seen) :
    ∃ x ∈ items, ∃ k, key x = some k ∧ value k = some v ∧ k ∉ seen := by
  induction items generalizing seen with
  | nil => simp [scan] at h
  | cons x rest ih =>
      have later : ∀ seen', (∀ k, k ∈ seen → k ∈ seen') → v ∈ scan key value stuck rest seen' →
          ∃ y ∈ x :: rest, ∃ k, key y = some k ∧ value k = some v ∧ k ∉ seen := by
        intro seen' hsub hmem
        obtain ⟨y, hy, k, hk, hv, hs⟩ := ih hmem
        exact ⟨y, List.mem_cons_of_mem x hy, k, hk, hv, fun hin => hs (hsub k hin)⟩
      by_cases hskip : ∀ k, key x = some k → k ∈ seen
      · rw [scan_skip hskip] at h
        exact later seen (fun _ hk => hk) h
      · push Not at hskip
        obtain ⟨k, hk, hs⟩ := hskip
        cases hv : value k with
        | some w =>
            rw [scan_value hk hs hv] at h
            rcases List.mem_cons.mp h with rfl | h
            · exact ⟨x, List.mem_cons_self, k, hk, hv, hs⟩
            · exact later (k :: seen) (fun _ hm => List.mem_cons_of_mem k hm) h
        | none =>
            rw [scan_miss hk hs hv] at h
            split_ifs at h
            · cases h
            · exact later seen (fun _ hm => hm) h

theorem scan_nodup {keyOf : β → κ} (hkey : ∀ k v, value k = some v → keyOf v = k)
    (items : List α) (seen : List κ) : ((scan key value stuck items seen).map keyOf).Nodup := by
  induction items generalizing seen with
  | nil => simp [scan]
  | cons x rest ih =>
      by_cases hskip : ∀ k, key x = some k → k ∈ seen
      · rw [scan_skip hskip]
        exact ih seen
      · push Not at hskip
        obtain ⟨k, hk, hs⟩ := hskip
        cases hv : value k with
        | none =>
            rw [scan_miss hk hs hv]
            split_ifs
            · exact List.nodup_nil
            · exact ih seen
        | some v =>
            rw [scan_value hk hs hv, List.map_cons, List.nodup_cons]
            refine ⟨?_, ih _⟩
            intro hmem
            obtain ⟨w, hw, hkw⟩ := List.mem_map.mp hmem
            obtain ⟨y, -, l, -, hl, hns⟩ := mem_scan hw
            apply hns
            rw [← hkey l w hl, hkw, hkey k v hv]
            exact List.mem_cons_self

/-- A scan keeps the value of every item exactly when no value is blocked. -/
theorem complete_scan_iff {keyOf : β → κ} (hkey : ∀ k v, value k = some v → keyOf v = k)
    {items : List α} {seen : List κ} (hseen : ∀ k ∈ seen, value k ≠ none) :
    Complete key value items seen (scan key value stuck items seen) ↔
      Unblocked key value stuck items seen := by
  induction items generalizing seen with
  | nil =>
      refine iff_of_true ?_ ?_
      · intro y hy
        cases hy
      · intro pre x post hsplit
        simp at hsplit
  | cons x rest ih =>
      have drop : ∀ kept : List β, (∀ k v, key x = some k → value k = some v → k ∈ seen) →
          (Complete key value (x :: rest) seen kept ↔ Complete key value rest seen kept) := by
        intro kept hx
        constructor
        · intro h y hy
          exact h y (List.mem_cons_of_mem x hy)
        · intro h y hy k v hk hv
          rcases List.mem_cons.mp hy with rfl | hy
          · exact .inl (hx k v hk hv)
          · exact h y hy k v hk hv
      by_cases hskip : ∀ k, key x = some k → k ∈ seen
      · rw [scan_skip hskip, drop _ (fun k _ hk _ => hskip k hk), ih hseen,
          unblocked_skip hseen fun k hk => .inl (hskip k hk)]
      · push Not at hskip
        obtain ⟨k, hk, hs⟩ := hskip
        cases hv : value k with
        | some v =>
            have hseen' : ∀ l ∈ k :: seen, value l ≠ none := by
              intro l hl
              rcases List.mem_cons.mp hl with rfl | hl
              · simp [hv]
              · exact hseen l hl
            rw [scan_value hk hs hv, unblocked_value hk hv, ← ih hseen']
            constructor
            · intro h y hy l w hl hw
              rcases h y (List.mem_cons_of_mem x hy) l w hl hw with hin | hin
              · exact .inl (List.mem_cons_of_mem k hin)
              · rcases List.mem_cons.mp hin with rfl | hin
                · refine .inl ?_
                  rw [← hkey l w hw, hkey k w hv]
                  exact List.mem_cons_self
                · exact .inr hin
            · intro h y hy l w hl hw
              rcases List.mem_cons.mp hy with rfl | hy
              · obtain rfl := Option.some.inj (hk.symm.trans hl)
                obtain rfl := Option.some.inj (hv.symm.trans hw)
                exact .inr List.mem_cons_self
              · rcases h y hy l w hl hw with hin | hin
                · rcases List.mem_cons.mp hin with rfl | hin
                  · obtain rfl := Option.some.inj (hv.symm.trans hw)
                    exact .inr List.mem_cons_self
                  · exact .inl hin
                · exact .inr (List.mem_cons_of_mem v hin)
        | none =>
            have hnone : ∀ l v, key x = some l → value l = some v → l ∈ seen := by
              intro l v hl hlv
              rw [Option.some.inj (hl.symm.trans hk), hv] at hlv
              cases hlv
            rw [scan_miss hk hs hv, drop _ hnone]
            split_ifs with hst
            · constructor
              · intro h pre z post hsplit _ _ y hy l w hl hw
                have hy' : y ∈ rest := by
                  cases pre with
                  | nil => exact (List.cons.inj hsplit).2 ▸ hy
                  | cons x' pre =>
                      rw [(List.cons.inj hsplit).2]
                      simp [hy]
                rcases h y hy' l w hl hw with hin | hin
                · exact .inl hin
                · cases hin
              · intro h y hy l w hl hw
                rcases h [] x rest rfl hst ⟨k, hk, hv⟩ y hy l w hl hw with hin | ⟨z, hz, -⟩
                · exact .inl hin
                · cases hz
            · rw [ih hseen, unblocked_skip hseen]
              intro l hl
              rw [Option.some.inj (hl.symm.trans hk)]
              exact .inr ⟨hv, hst⟩

end KeyedScan
end FaceHal
