import Mathlib

/-!
# The choice among the stream configurations

One pass over the configurations keeps the first of largest area and the first that is
nearest to 1280 by 720. The last test looks at the size of the former only: where it is
too narrow or too low it is taken, whether or not another configuration reaches the
expected size.
-/
namespace FaceHal
namespace Camera2NdkBackend

def AIMAGE_FORMAT_YUV_420_888 : Int32 := 35

/-- Both are `long long`, which holds them: `fits_scanConfigurations`. -/
def area (width height : Int32) : ℤ := width.toInt * height.toInt
def diff (width height : Int32) : ℤ := (width.toInt - 1280).natAbs + (height.toInt - 720).natAbs

theorem natAbs_toInt_le (x : Int32) : x.toInt.natAbs ≤ 2 ^ 31 := by
  have hlow := x.le_toInt
  have hhigh := x.toInt_lt
  omega

theorem area_fits (width height : Int32) : (area width height).natAbs < 2 ^ 63 := by
  rw [area, Int.natAbs_mul]
  calc width.toInt.natAbs * height.toInt.natAbs
      ≤ 2 ^ 31 * 2 ^ 31 := Nat.mul_le_mul (natAbs_toInt_le width) (natAbs_toInt_le height)
    _ < 2 ^ 63 := by decide

theorem diff_fits (width height : Int32) : (diff width height).natAbs < 2 ^ 63 := by
  have hwidth := natAbs_toInt_le width
  have hheight := natAbs_toInt_le height
  unfold diff
  omega

/-- The variables of the pass. -/
structure ResolutionScan where
  absoluteMaxW : Int32 := 0
  absoluteMaxH : Int32 := 0
  maxArea : ℤ := 0
  bestW : Int32 := 0
  bestH : Int32 := 0
  bestDiff : ℤ := -1

namespace ResolutionScan

def considerArea (s : ResolutionScan) (width height : Int32) : ResolutionScan :=
  if area width height > s.maxArea then
    { s with maxArea := area width height, absoluteMaxW := width, absoluteMaxH := height }
  else s

def considerDiff (s : ResolutionScan) (width height : Int32) : ResolutionScan :=
  if s.bestDiff = -1 ∨ diff width height < s.bestDiff then
    { s with bestDiff := diff width height, bestW := width, bestH := height }
  else s

/-- The choice after the pass. -/
def choose (s : ResolutionScan) : Option (Int32 × Int32) :=
  if s.absoluteMaxW > 0 ∧ (s.absoluteMaxW < 1280 ∨ s.absoluteMaxH < 720) then
    some (s.absoluteMaxW, s.absoluteMaxH)
  else if s.bestW > 0 ∧ s.bestH > 0 then some (s.bestW, s.bestH)
  else none

end ResolutionScan

/-- The pass over the entry; `none` is a read past its end. -/
def scanConfigurations : List Int32 → ResolutionScan → Option ResolutionScan
  | [], s => some s
  | format :: width :: height :: isInput :: rest, s =>
      scanConfigurations rest <|
        if format = AIMAGE_FORMAT_YUV_420_888 ∧ isInput = 0 then
          (s.considerArea width height).considerDiff width height
        else s
  | _, _ => none

structure ResolutionScan.Fits (s : ResolutionScan) : Prop where
  maxArea : s.maxArea.natAbs < 2 ^ 63
  bestDiff : s.bestDiff.natAbs < 2 ^ 63

theorem ResolutionScan.Fits.consider {s : ResolutionScan} (h : s.Fits) (width height : Int32) :
    ((s.considerArea width height).considerDiff width height).Fits := by
  have harea : (s.considerArea width height).Fits := by
    unfold considerArea
    split_ifs
    · exact ⟨area_fits width height, h.bestDiff⟩
    · exact h
  unfold considerDiff
  split_ifs
  · exact ⟨harea.maxArea, diff_fits width height⟩
  · exact harea

/-- Whatever the camera service gives, the pass does not leave `long long`. -/
theorem fits_scanConfigurations {data : List Int32} {s t : ResolutionScan} (hs : s.Fits)
    (h : scanConfigurations data s = some t) : t.Fits := by
  induction data, s using scanConfigurations.induct with
  | case1 s =>
      obtain rfl := Option.some.inj h
      exact hs
  | case2 format width height isInput rest s ih =>
      refine ih ?_ h
      split_ifs
      · exact hs.consider width height
      · exact hs
  | case3 data s hnil hfour =>
      unfold scanConfigurations at h
      split at h
      · exact absurd rfl hnil
      · exact absurd rfl (hfour _ _ _ _ _)
      · cases h

/-- What the camera service gives for the camera. -/
inductive Characteristics where
  | unavailable
  | noConfigurations
  | configurations (data : List Int32)

/-- The inner `none` is `false`. -/
def getOptimalSupportedResolution : Characteristics → Option (Option (Int32 × Int32))
  | .unavailable => some none
  | .noConfigurations => some none
  | .configurations data => (scanConfigurations data {}).map ResolutionScan.choose

/-- Four numbers of the entry. -/
structure StreamConfiguration where
  format : Int32
  width : Int32
  height : Int32
  isInput : Int32
  deriving DecidableEq

namespace StreamConfiguration

def numbers (c : StreamConfiguration) : List Int32 := [c.format, c.width, c.height, c.isInput]

def size (c : StreamConfiguration) : Int32 × Int32 := (c.width, c.height)
def area (c : StreamConfiguration) : ℤ := Camera2NdkBackend.area c.width c.height
def diff (c : StreamConfiguration) : ℤ := Camera2NdkBackend.diff c.width c.height

def IsYuvOutput (c : StreamConfiguration) : Prop :=
  c.format = AIMAGE_FORMAT_YUV_420_888 ∧ c.isInput = 0

instance : DecidablePred IsYuvOutput := fun _ => inferInstanceAs (Decidable (_ ∧ _))

def Positive (c : StreamConfiguration) : Prop := c.width > 0 ∧ c.height > 0

/-- At least as wide and as high as expected. -/
def Reaches (c : StreamConfiguration) : Prop := c.width ≥ 1280 ∧ c.height ≥ 720

instance : DecidablePred Reaches := fun _ => inferInstanceAs (Decidable (_ ∧ _))

theorem Positive.area_pos {c : StreamConfiguration} (hc : c.Positive) : 0 < c.area :=
  mul_pos (Int32.lt_iff_toInt_lt.mp hc.1) (Int32.lt_iff_toInt_lt.mp hc.2)

theorem diff_nonneg (c : StreamConfiguration) : 0 ≤ c.diff := by
  unfold diff Camera2NdkBackend.diff
  omega

theorem not_reaches_iff {c : StreamConfiguration} :
    ¬ c.Reaches ↔ c.width < 1280 ∨ c.height < 720 := by
  rw [Reaches, not_and_or, ge_iff_le, ge_iff_le, Int32.not_le, Int32.not_le]

end StreamConfiguration

open StreamConfiguration

/-- The variables when `m` is the largest and `n` the nearest so far. -/
def ResolutionScan.of (m n : Option StreamConfiguration) : ResolutionScan where
  absoluteMaxW := m.elim 0 width
  absoluteMaxH := m.elim 0 height
  maxArea := m.elim 0 StreamConfiguration.area
  bestW := n.elim 0 width
  bestH := n.elim 0 height
  bestDiff := n.elim (-1) StreamConfiguration.diff

abbrev larger : Option StreamConfiguration → StreamConfiguration → Option StreamConfiguration :=
  List.argAux fun b c => c.area < b.area

abbrev nearer : Option StreamConfiguration → StreamConfiguration → Option StreamConfiguration :=
  List.argAux fun b c => b.diff < c.diff

theorem larger_some (m c : StreamConfiguration) :
    larger (some m) c = if m.area < c.area then some c else some m := rfl

theorem nearer_some (n c : StreamConfiguration) :
    nearer (some n) c = if c.diff < n.diff then some c else some n := rfl

section pass
variable {m n : Option StreamConfiguration} {c : StreamConfiguration}

theorem considerArea_of (hc : c.Positive) :
    (ResolutionScan.of m n).considerArea c.width c.height = .of (larger m c) n := by
  cases m with
  | none => exact if_pos hc.area_pos
  | some m =>
      by_cases h : m.area < c.area
      · rw [larger_some, if_pos h]
        exact if_pos h
      · rw [larger_some, if_neg h]
        exact if_neg h

theorem considerDiff_of :
    (ResolutionScan.of m n).considerDiff c.width c.height = .of m (nearer n c) := by
  cases n with
  | none => exact if_pos (.inl rfl)
  | some n =>
      have hn := n.diff_nonneg
      by_cases h : c.diff < n.diff
      · rw [nearer_some, if_pos h]
        exact if_pos (.inr h)
      · rw [nearer_some, if_neg h]
        refine if_neg ?_
        change ¬ (n.diff = -1 ∨ c.diff < n.diff)
        omega

theorem scanConfigurations_of {configs : List StreamConfiguration}
    (hpos : ∀ c ∈ configs, c.Positive) :
    scanConfigurations (configs.flatMap numbers) (.of m n) =
      some (.of ((configs.filter fun c => c.IsYuvOutput).foldl larger m)
        ((configs.filter fun c => c.IsYuvOutput).foldl nearer n)) := by
  induction configs generalizing m n with
  | nil => rfl
  | cons c rest ih =>
      have hrest : ∀ c ∈ rest, c.Positive := fun x hx => hpos x (List.mem_cons_of_mem c hx)
      change scanConfigurations (rest.flatMap numbers) (if c.IsYuvOutput then _ else _) = _
      by_cases hyuv : c.IsYuvOutput
      · rw [if_pos hyuv, considerArea_of (hpos c List.mem_cons_self), considerDiff_of, ih hrest,
          List.filter_cons_of_pos (by simpa using hyuv)]
        rfl
      · rw [if_neg hyuv, ih hrest, List.filter_cons_of_neg (by simpa using hyuv)]

end pass

/-- What the function is to do among the outputs. -/
def Optimal (outputs : List StreamConfiguration) (r : Option (Option (Int32 × Int32))) : Prop :=
  ∃ result, r = some result ∧ (result.isSome = true ↔ outputs ≠ []) ∧
    ∀ width height, result = some (width, height) →
      (∃ c ∈ outputs, c.size = (width, height)) ∧
      ((∃ c ∈ outputs, c.Reaches) → ∀ c ∈ outputs, diff width height ≤ c.diff) ∧
      ((¬ ∃ c ∈ outputs, c.Reaches) → ∀ c ∈ outputs, c.area ≤ area width height)

/-- No output reaches the expected size, or the first one of largest area does, or no
other is nearer to it than that one. -/
def LargestDecides (outputs : List StreamConfiguration) : Prop :=
  (∀ c ∈ outputs, ¬ c.Reaches) ∨
    ∀ m ∈ outputs.argmax StreamConfiguration.area, m.Reaches ∨ ∀ c ∈ outputs, m.diff ≤ c.diff

theorem choose_of {m n : StreamConfiguration} (hm : m.Positive) (hn : n.Positive) :
    (ResolutionScan.of (some m) (some n)).choose = some (if m.Reaches then n.size else m.size) := by
  unfold ResolutionScan.choose
  by_cases h : m.Reaches
  · rw [if_pos h, if_neg fun hfew => not_reaches_iff.mpr hfew.2 h]
    exact if_pos hn
  · rw [if_neg h]
    exact if_pos ⟨hm.1, not_reaches_iff.mp h⟩

theorem scan_eq {configs : List StreamConfiguration} (hpos : ∀ c ∈ configs, c.Positive) :
    getOptimalSupportedResolution (.configurations (configs.flatMap numbers)) =
      some (ResolutionScan.of
        ((configs.filter fun c => c.IsYuvOutput).argmax StreamConfiguration.area)
        ((configs.filter fun c => c.IsYuvOutput).argmin StreamConfiguration.diff)).choose := by
  have hscan := scanConfigurations_of (m := none) (n := none) hpos
  change (scanConfigurations _ (.of none none)).map _ = _
  rw [hscan]
  rfl

/-- The outputs with the first of largest area and the first that is nearest. -/
theorem optimal_iff_of_optima {outputs : List StreamConfiguration} {m n : StreamConfiguration}
    (hpos : ∀ c ∈ outputs, c.Positive) (hm : m ∈ outputs.argmax StreamConfiguration.area)
    (hn : n ∈ outputs.argmin StreamConfiguration.diff) :
    Optimal outputs (some (ResolutionScan.of (some m) (some n)).choose) ↔
      LargestDecides outputs := by
  have hmem := List.argmax_mem hm
  have hnmem := List.argmin_mem hn
  have hne : outputs ≠ [] := List.ne_nil_of_mem hmem
  rw [choose_of (hpos m hmem) (hpos n hnmem)]
  constructor
  · rintro ⟨result, hresult, -, hchosen⟩
    by_cases hlarge : ∃ c ∈ outputs, c.Reaches
    · right
      intro m' hm'
      obtain rfl := Option.mem_unique hm hm'
      by_cases hreaches : m.Reaches
      · exact .inl hreaches
      · rw [if_neg hreaches] at hresult
        exact .inr ((hchosen _ _ (Option.some.inj hresult).symm).2.1 hlarge)
    · left
      exact fun c hc hreaches => hlarge ⟨c, hc, hreaches⟩
  · intro hdecides
    refine ⟨_, rfl, iff_of_true rfl hne, ?_⟩
    intro width height hsize
    by_cases hreaches : m.Reaches
    · rw [if_pos hreaches] at hsize
      obtain ⟨rfl, rfl⟩ := Prod.mk.inj (Option.some.inj hsize)
      refine ⟨⟨n, hnmem, rfl⟩, fun _ c hc => List.le_of_mem_argmin hc hn, ?_⟩
      exact fun hnone => absurd ⟨m, hmem, hreaches⟩ hnone
    · rw [if_neg hreaches] at hsize
      obtain ⟨rfl, rfl⟩ := Prod.mk.inj (Option.some.inj hsize)
      refine ⟨⟨m, hmem, rfl⟩, ?_, fun _ c hc => List.le_of_mem_argmax hc hm⟩
      rintro ⟨c, hc, hlarge⟩
      rcases hdecides with hnone | hlargest
      · exact absurd hlarge (hnone c hc)
      · exact (hlargest m hm).resolve_left hreaches

/-- The choice is the optimal one exactly when the entry of largest area decides it rightly. -/
theorem optimal_iff (configs : List StreamConfiguration) (hpos : ∀ c ∈ configs, c.Positive) :
    Optimal (configs.filter fun c => c.IsYuvOutput)
        (getOptimalSupportedResolution (.configurations (configs.flatMap numbers))) ↔
      LargestDecides (configs.filter fun c => c.IsYuvOutput) := by
  rw [scan_eq hpos]
  have hsome : ∀ c ∈ configs.filter fun c => c.IsYuvOutput, c.Positive :=
    fun c hc => hpos c (List.mem_of_mem_filter hc)
  cases hm : (configs.filter fun c => c.IsYuvOutput).argmax StreamConfiguration.area with
  | none =>
      rw [List.argmax_eq_none] at hm
      rw [hm]
      refine iff_of_true ⟨none, rfl, by simp, nofun⟩ (.inl nofun)
  | some m =>
      cases hn : (configs.filter fun c => c.IsYuvOutput).argmin StreamConfiguration.diff with
      | none =>
          rw [List.argmin_eq_none] at hn
          rw [hn] at hm
          cases hm
      | some n => exact optimal_iff_of_optima hsome hm hn

def sampleConfigurations : List StreamConfiguration :=
  [⟨33, 4000, 3000, 0⟩, ⟨35, 1280, 720, 0⟩, ⟨35, 1920, 1080, 0⟩, ⟨35, 4000, 3000, 1⟩]

theorem optimal_sample : Optimal (sampleConfigurations.filter fun c => c.IsYuvOutput)
    (getOptimalSupportedResolution (.configurations (sampleConfigurations.flatMap numbers))) := by
  refine (optimal_iff sampleConfigurations ?_).mpr ?_
  · simp only [sampleConfigurations, Positive]
    decide
  · right
    decide

/-- The square one has the larger area and is too narrow. -/
def squareConfigurations : List StreamConfiguration := [⟨35, 1280, 720, 0⟩, ⟨35, 1088, 1088, 0⟩]

theorem not_optimal_square : ¬ Optimal (squareConfigurations.filter fun c => c.IsYuvOutput)
    (getOptimalSupportedResolution (.configurations (squareConfigurations.flatMap numbers))) := by
  rintro ⟨result, hresult, -, hchosen⟩
  have hsquare : result = some (1088, 1088) := by
    have heval : getOptimalSupportedResolution
        (.configurations (squareConfigurations.flatMap numbers)) = some (some (1088, 1088)) := by
      decide
    exact (Option.some.inj (heval.symm.trans hresult)).symm
  have hnearest := (hchosen 1088 1088 hsquare).2.1 (by decide) ⟨35, 1280, 720, 0⟩ (by decide)
  exact absurd hnearest (by decide)

/-- Where the choice is the optimal one, the expected size is taken if it is supported. -/
theorem Optimal.expected {outputs : List StreamConfiguration} {width height : Int32}
    (hopt : Optimal outputs (some (some (width, height)))) {c : StreamConfiguration}
    (hc : c ∈ outputs) (hsize : c.size = (1280, 720)) : (width, height) = (1280, 720) := by
  obtain ⟨result, hresult, -, hchosen⟩ := hopt
  obtain ⟨hwidth, hheight⟩ := Prod.mk.inj hsize
  have hreaches : c.Reaches := by
    rw [Reaches, hwidth, hheight]
    decide
  have hdiff : c.diff = 0 := by
    rw [StreamConfiguration.diff, hwidth, hheight]
    decide
  have hle := (hchosen width height (Option.some.inj hresult).symm).2.1 ⟨c, hc, hreaches⟩ c hc
  rw [hdiff, diff] at hle
  have hw : width.toInt = (1280 : Int32).toInt := by
    change width.toInt = 1280
    omega
  have hh : height.toInt = (720 : Int32).toInt := by
    change height.toInt = 720
    omega
  rw [Int32.toInt_inj.mp hw, Int32.toInt_inj.mp hh]

end Camera2NdkBackend
end FaceHal
