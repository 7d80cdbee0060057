import FaceHal.Nv21Packing
import Mathlib.Data.Rat.Floor

/-!
# Scaling a camera frame down

`onCameraFrame` fits a frame that is too long into the box of the optimal resolution and
samples it at the nearest places before. The scale factors are read as exact rationals;
the sizes and the places are `int`, whose products may not fit.
-/
namespace FaceHal

/-- The conversion of a floating value to `int`, towards zero. -/
def truncate (q : ℚ) : Option ℤ := int (if 0 ≤ q then ⌊q⌋ else ⌈q⌉)

theorem truncate_ratio (a b c : ℕ) : truncate (a * ((b : ℚ) / c)) = int (a * b / c : ℕ) := by
  have hratio : (a : ℚ) * ((b : ℚ) / c) = ((a * b : ℕ) : ℚ) / c := by
    rw [Nat.cast_mul, mul_div_assoc]
  have hnonneg : (0 : ℚ) ≤ ((a * b : ℕ) : ℚ) / c :=
    div_nonneg (Nat.cast_nonneg _) (Nat.cast_nonneg _)
  rw [truncate, hratio, if_pos hnonneg, Rat.floor_natCast_div_natCast, Int.natCast_ediv]

namespace Session

section sampling
variable (src : List UInt8)

def scaleLumaPixel (srcRow dstRow : ℤ) (scaleX : ℚ) (x : ℕ) (dst : Buffer UInt8) :
    Option (Buffer UInt8) := do
  let value ← load src (← int (srcRow + (← truncate (x * scaleX))))
  dst.store (← int (dstRow + x)) value

def scaleLumaRow (srcW dstW : ℤ) (scaleX scaleY : ℚ) (y : ℕ) (dst : Buffer UInt8) :
    Option (Buffer UInt8) := do
  let srcRow ← int ((← truncate (y * scaleY)) * srcW)
  let dstRow ← int (y * dstW)
  forRange dstW.toNat (scaleLumaPixel src srcRow dstRow scaleX) dst

def scaleChromaPair (srcUV dstUV srcRow dstRow : ℤ) (scaleX : ℚ) (x : ℕ) (dst : Buffer UInt8) :
    Option (Buffer UInt8) := do
  let srcX ← truncate (x * scaleX)
  let value ← load src (srcUV + (← int (srcRow + 2 * srcX)))
  let dst ← dst.store (dstUV + (← int (dstRow + 2 * x))) value
  let value ← load src (srcUV + (← int (srcRow + 2 * srcX + 1)))
  dst.store (dstUV + (← int (dstRow + 2 * x + 1))) value

def scaleChromaRow (srcW dstW srcUV dstUV : ℤ) (scaleX scaleY : ℚ) (y : ℕ) (dst : Buffer UInt8) :
    Option (Buffer UInt8) := do
  let srcRow ← int ((← truncate (y * scaleY)) * srcW)
  let dstRow ← int (y * dstW)
  forRange (dstW / 2).toNat (scaleChromaPair src srcUV dstUV srcRow dstRow scaleX) dst

/-- No loop runs where a divisor is zero. -/
def downscaleNv21 (srcW srcH : ℤ) (dst : List UInt8) (dstW dstH : ℤ) : Option (Buffer UInt8) := do
  let size ← int ((← int (dstW * dstH)) * 3)
  let dst := Buffer.resize dst (size / 2).toNat 0
  let srcUV ← int (srcW * srcH)
  let dstUV ← int (dstW * dstH)
  let scaleX : ℚ := srcW / dstW
  let scaleY : ℚ := srcH / dstH
  let dst ← forRange dstH.toNat (scaleLumaRow src srcW dstW scaleX scaleY) dst
  forRange (dstH / 2).toNat (scaleChromaRow src srcW dstW srcUV dstUV scaleX scaleY) dst

end sampling

/-- `x & ~1` -/
def clearLowBit (x : ℤ) : ℤ := x - x % 2

/-- The size that the frame is scaled to, or `none` inside where it is taken as it is. -/
def processingSize (width height maxDim minDim : ℤ) : Option (Option (ℤ × ℤ)) := do
  if width > maxDim ∨ height > maxDim then
    let aspectRatio : ℚ := width / height
    if width > height then
      let targetH ← truncate (maxDim / aspectRatio)
      if targetH > minDim then
        let targetW ← truncate (minDim * aspectRatio)
        return some (clearLowBit targetW, clearLowBit minDim)
      return some (clearLowBit maxDim, clearLowBit targetH)
    else
      let targetW ← truncate (maxDim * aspectRatio)
      if targetW > minDim then
        let targetH ← truncate (minDim / aspectRatio)
        return some (clearLowBit minDim, clearLowBit targetH)
      return some (clearLowBit targetW, clearLowBit maxDim)
  return none

/-- `none` where the camera client is missing or does not know. -/
def optimalSize (reported : Option (Int32 × Int32)) : ℤ × ℤ :=
  match reported with
  | some (optW, optH) => (optW.toInt, optH.toInt)
  | none => (1280, 720)

/-- The frame that `onCameraFrame` goes on with, and its size. -/
def frameToProcess (frame : List UInt8) (width height : Int32)
    (reported : Option (Int32 × Int32)) : Option (Buffer UInt8 × ℤ × ℤ) := do
  let opt := optimalSize reported
  match ← processingSize width.toInt height.toInt (max opt.1 opt.2) (min opt.1 opt.2) with
  | none => return (⟨frame, []⟩, width.toInt, height.toInt)
  | some (processingWidth, processingHeight) =>
      let downscaledFrame ←
        downscaleNv21 frame width.toInt height.toInt [] processingWidth processingHeight
      return (downscaledFrame, processingWidth, processingHeight)

/-- The row or column of the source that one of the output is taken from. -/
def sampledFrom (src dst i : ℕ) : ℕ := i * src / dst

section places
variable {src dst i : ℕ}

theorem sampledFrom_lt (hi : i < dst) (hsrc : 0 < src) : sampledFrom src dst i < src :=
  Nat.div_lt_of_lt_mul (Nat.mul_lt_mul_of_pos_right hi hsrc)

theorem sampledFrom_lt_half (heven : 2 ∣ dst) (hle : dst ≤ src) (hi : i < dst / 2) :
    sampledFrom src dst i < src / 2 := by
  have hdst : 0 < dst := by omega
  have hdouble : 2 * (i + 1) ≤ dst := by omega
  have hfloor : sampledFrom src dst i * dst ≤ i * src := Nat.div_mul_le_self _ _
  have hbound : 2 * (sampledFrom src dst i + 1) * dst ≤ src * dst := by
    calc 2 * (sampledFrom src dst i + 1) * dst
        = 2 * (sampledFrom src dst i * dst + dst) := by ring
      _ ≤ 2 * (i * src + src) := by omega
      _ = 2 * (i + 1) * src := by ring
      _ ≤ dst * src := Nat.mul_le_mul_right src hdouble
      _ = src * dst := Nat.mul_comm ..
  have hle := Nat.le_of_mul_le_mul_right hbound hdst
  omega

end places

section loops
variable {src : List UInt8} {w h pw ph y x : ℕ}

theorem getElem?_getD_of_lt {n : ℕ} (h : n < src.length) : some (src[n]?.getD 0) = src[n]? := by
  rw [List.getElem?_eq_getElem h, Option.getD_some]

theorem load_of_eq {i : ℤ} {n : ℕ} (hi : i = n) (h : n < src.length) :
    load src i = some (src[n]?.getD 0) := by
  rw [hi, load_natCast, getElem?_getD_of_lt h]

theorem truncate_place {n : ℕ} (i s d : ℕ) (hn : sampledFrom s d i = n) (hlt : FitsInt n) :
    truncate (i * (((s : ℤ) : ℚ) / ((d : ℤ) : ℚ))) = some (n : ℤ) := by
  subst hn
  rw [Int.cast_natCast, Int.cast_natCast, truncate_ratio]
  exact int_natCast hlt

/-- An even size that is not larger, with products that fit. -/
structure Scales (w h pw ph : ℕ) : Prop where
  width_pos : 0 < w
  height_pos : 0 < h
  width_even : 2 ∣ pw
  height_even : 2 ∣ ph
  width_le : pw ≤ w
  height_le : ph ≤ h
  source_fits : FitsInt (w * h)
  size_fits : FitsInt (pw * ph * 3)

theorem chroma_offset_lt {r c : ℕ} (hr : r < h / 2) (hc : c < w / 2) :
    r * w + 2 * c + 1 < w * h := by
  have hrow : (r + 1) * w ≤ h * w := Nat.mul_le_mul_right w (by omega)
  rw [Nat.succ_mul, Nat.mul_comm h w] at hrow
  omega

/-- The luma and chroma samples of the source at the places that are taken. -/
def lumaFrom (src : List UInt8) (w h pw ph y x : ℕ) : UInt8 :=
  src[nv21Y w (sampledFrom h ph y) (sampledFrom w pw x)]?.getD 0

def vFrom (src : List UInt8) (w h pw ph y x : ℕ) : UInt8 :=
  src[nv21V w h (sampledFrom h ph y) (sampledFrom w pw x)]?.getD 0

def uFrom (src : List UInt8) (w h pw ph y x : ℕ) : UInt8 :=
  src[nv21U w h (sampledFrom h ph y) (sampledFrom w pw x)]?.getD 0

variable (hs : Scales w h pw ph) (hlen : src.length = nv21Size w h)
include hs

theorem Scales.width_fits : FitsInt w :=
  (Nat.le_mul_of_pos_right w hs.height_pos).trans hs.source_fits

theorem Scales.height_fits : FitsInt h :=
  (Nat.le_mul_of_pos_left h hs.width_pos).trans hs.source_fits

theorem Scales.source_row (hy : y < ph) :
    int (sampledFrom h ph y * (w : ℤ)) = some ((sampledFrom h ph y * w : ℕ) : ℤ) := by
  have hrow := sampledFrom_lt hy hs.height_pos
  have hle : sampledFrom h ph y * w ≤ h * w := Nat.mul_le_mul_right w hrow.le
  rw [Nat.mul_comm h w] at hle
  exact int_of_eq (Int.natCast_mul _ _).symm (hle.trans hs.source_fits)

theorem Scales.output_row (hy : y < ph) : int (y * (pw : ℤ)) = some ((y * pw : ℕ) : ℤ) := by
  have hle : y * pw ≤ ph * pw := Nat.mul_le_mul_right pw hy.le
  have hfits := hs.size_fits
  rw [Nat.mul_comm pw ph] at hfits
  exact int_of_eq (Int.natCast_mul _ _).symm (by omega)

include hlen

theorem stores_lumaPixel (hy : y < ph) (hx : x < pw) :
    Buffer.Stores (nv21Size pw ph)
      (scaleLumaPixel src (sampledFrom h ph y * w : ℕ) (y * pw : ℕ) (((w : ℤ) : ℚ) / ((pw : ℤ) : ℚ))
        x)
      [(nv21Y pw y x, lumaFrom src w h pw ph y x)] := by
  have hcol := sampledFrom_lt hx hs.width_pos
  have hfrom := nv21Y_lt (sampledFrom_lt hy hs.height_pos) hcol
  have hto := nv21Y_lt hy hx
  have hfits := hs.size_fits
  have hfits' := hs.source_fits
  have hinside : nv21Y w (sampledFrom h ph y) (sampledFrom w pw x) < src.length :=
    hlen ▸ hfrom.trans_le (Nat.le_add_right _ _)
  have htruncate := truncate_place x w pw rfl (hcol.le.trans hs.width_fits)
  have hload : int ((sampledFrom h ph y * w : ℕ) + (sampledFrom w pw x : ℤ)) =
      some (nv21Y w (sampledFrom h ph y) (sampledFrom w pw x) : ℤ) :=
    int_of_eq (Int.natCast_add _ _).symm (hfrom.le.trans hfits')
  have hstore : int ((y * pw : ℕ) + (x : ℤ)) = some (nv21Y pw y x : ℤ) :=
    int_of_eq (Int.natCast_add _ _).symm (by omega)
  intro b hb
  unfold scaleLumaPixel
  simp only [bind, htruncate]
  rw [Option.bind_some, hload, Option.bind_some, load_of_eq rfl hinside, Option.bind_some, hstore,
    Option.bind_some]
  exact Buffer.stores_store (hto.trans_le (Nat.le_add_right _ _)) _ b hb

theorem stores_lumaRow (hy : y < ph) :
    Buffer.Stores (nv21Size pw ph)
      (scaleLumaRow src w pw (((w : ℤ) : ℚ) / ((pw : ℤ) : ℚ)) (((h : ℤ) : ℚ) / ((ph : ℤ) : ℚ)) y)
      ((List.range pw).map fun x => (nv21Y pw y x, lumaFrom src w h pw ph y x)) := by
  have hrow := sampledFrom_lt hy hs.height_pos
  have htruncate := truncate_place y h ph rfl (hrow.le.trans hs.height_fits)
  intro b hb
  unfold scaleLumaRow
  simp only [bind, htruncate]
  rw [Option.bind_some, hs.source_row hy, Option.bind_some, hs.output_row hy, Option.bind_some,
    Int.toNat_natCast, List.map_eq_flatMap]
  exact Buffer.stores_forRange (fun x hx => stores_lumaPixel hs hlen hy hx) b hb

theorem stores_chromaPair (hy : y < ph / 2) (hx : x < pw / 2) :
    Buffer.Stores (nv21Size pw ph)
      (scaleChromaPair src (w * h : ℕ) (pw * ph : ℕ) (sampledFrom h ph y * w : ℕ) (y * pw : ℕ)
        (((w : ℤ) : ℚ) / ((pw : ℤ) : ℚ)) x)
      [(nv21V pw ph y x, vFrom src w h pw ph y x), (nv21U pw ph y x, uFrom src w h pw ph y x)] := by
  have hrow := sampledFrom_lt_half hs.height_even hs.height_le hy
  have hcol := sampledFrom_lt_half hs.width_even hs.width_le hx
  have hfrom := nv21U_lt hrow hcol
  have hto := nv21U_lt hy hx
  have hsource := chroma_offset_lt hrow hcol
  have houtput := chroma_offset_lt hy hx
  have hfits := hs.source_fits
  have hfits' := hs.size_fits
  have hu : nv21U w h (sampledFrom h ph y) (sampledFrom w pw x) < src.length := hlen ▸ hfrom
  have htruncate := truncate_place x w pw rfl (by omega)
  have hfromV := int_of_eq (x := (sampledFrom h ph y * w : ℕ) + 2 * (sampledFrom w pw x : ℤ))
    (n := sampledFrom h ph y * w + 2 * sampledFrom w pw x) (by omega) (by omega)
  have hfromU := int_of_eq (x := (sampledFrom h ph y * w : ℕ) + 2 * (sampledFrom w pw x : ℤ) + 1)
    (n := sampledFrom h ph y * w + 2 * sampledFrom w pw x + 1) (by omega) (by omega)
  have htoV := int_of_eq (x := (y * pw : ℕ) + 2 * (x : ℤ)) (n := y * pw + 2 * x)
    (by omega) (by omega)
  have htoU := int_of_eq (x := (y * pw : ℕ) + 2 * (x : ℤ) + 1) (n := y * pw + 2 * x + 1)
    (by omega) (by omega)
  have hloadV : load src ((w * h : ℕ) + (sampledFrom h ph y * w + 2 * sampledFrom w pw x : ℕ)) =
      some (vFrom src w h pw ph y x) :=
    load_of_eq (by unfold nv21V; omega) (Nat.lt_of_succ_lt hu)
  have hloadU : load src ((w * h : ℕ) +
      (sampledFrom h ph y * w + 2 * sampledFrom w pw x + 1 : ℕ)) =
      some (uFrom src w h pw ph y x) :=
    load_of_eq (by unfold nv21U nv21V; omega) hu
  have hplaceV : ((pw * ph : ℕ) : ℤ) + (y * pw + 2 * x : ℕ) = nv21V pw ph y x := by
    unfold nv21V
    omega
  have hplaceU : ((pw * ph : ℕ) : ℤ) + (y * pw + 2 * x + 1 : ℕ) = nv21U pw ph y x := by
    unfold nv21U nv21V
    omega
  have hfirst := Buffer.stores_store (Nat.lt_of_succ_lt hto) (vFrom src w h pw ph y x)
  have hsecond := Buffer.stores_store hto (uFrom src w h pw ph y x)
  intro b hb
  unfold scaleChromaPair
  simp only [bind, htruncate]
  rw [Option.bind_some, hfromV, Option.bind_some, hloadV, Option.bind_some, htoV, Option.bind_some,
    hplaceV]
  refine (hfirst.run hb _).trans ?_
  rw [hfromU, Option.bind_some, hloadU, Option.bind_some, htoU, Option.bind_some, hplaceU]
  exact hsecond _ ((Buffer.length_putAll _).trans hb)

theorem stores_chromaRow (hy : y < ph / 2) :
    Buffer.Stores (nv21Size pw ph)
      (scaleChromaRow src w pw (w * h : ℕ) (pw * ph : ℕ) (((w : ℤ) : ℚ) / ((pw : ℤ) : ℚ))
        (((h : ℤ) : ℚ) / ((ph : ℤ) : ℚ)) y)
      ((List.range (pw / 2)).flatMap fun x =>
        [(nv21V pw ph y x, vFrom src w h pw ph y x),
          (nv21U pw ph y x, uFrom src w h pw ph y x)]) := by
  have hy' : y < ph := by omega
  have hrow := sampledFrom_lt hy' hs.height_pos
  have htruncate := truncate_place y h ph rfl (hrow.le.trans hs.height_fits)
  have hhalf : ((pw : ℤ) / 2).toNat = pw / 2 := by omega
  intro b hb
  unfold scaleChromaRow
  simp only [bind, htruncate]
  rw [Option.bind_some, hs.source_row hy', Option.bind_some, hs.output_row hy', Option.bind_some,
    hhalf]
  exact Buffer.stores_forRange (fun x hx => stores_chromaPair hs hlen hy hx) b hb

theorem downscaleNv21_eq : downscaleNv21 src w h [] pw ph =
    some ((Buffer.resize [] (nv21Size pw ph) 0).putAll
      (nv21Assignments pw ph (lumaFrom src w h pw ph) (vFrom src w h pw ph)
        (uFrom src w h pw ph))) := by
  have hfits := hs.size_fits
  have hpixels : int ((pw : ℤ) * ph) = some ((pw * ph : ℕ) : ℤ) :=
    int_of_eq (Int.natCast_mul _ _).symm (by omega)
  have hsize : int (((pw * ph : ℕ) : ℤ) * 3) = some ((pw * ph * 3 : ℕ) : ℤ) :=
    int_of_eq (by omega) hfits
  have hbytes : (((pw * ph * 3 : ℕ) : ℤ) / 2).toNat = nv21Size pw ph := by
    have heven : 2 ∣ pw * ph := Dvd.dvd.mul_right hs.width_even ph
    unfold nv21Size
    omega
  have hsource : int ((w : ℤ) * h) = some ((w * h : ℕ) : ℤ) :=
    int_of_eq (Int.natCast_mul _ _).symm hs.source_fits
  have hhalf : ((ph : ℤ) / 2).toNat = ph / 2 := by omega
  have hluma : Buffer.Stores (nv21Size pw ph) (forRange ph _) (lumaAssignments pw ph _) :=
    Buffer.stores_forRange fun y hy => stores_lumaRow hs hlen hy
  have hchroma : Buffer.Stores (nv21Size pw ph) (forRange (ph / 2) _)
      (chromaAssignments pw ph _ _) :=
    Buffer.stores_forRange fun y hy => stores_chromaRow hs hlen hy
  have hlength := Buffer.length_resize ([] : List UInt8) (nv21Size pw ph) 0
  unfold downscaleNv21
  simp only [bind]
  rw [hpixels, Option.bind_some, hsize, Option.bind_some, hbytes, hsource, Option.bind_some,
    Option.bind_some, Int.toNat_natCast, hhalf]
  exact hluma.andThen hchroma _ hlength

/-- The scaled frame is written from the beginning to the end, and each of its pairs is
one of the source. -/
theorem downscaleNv21_spec : ∃ out, downscaleNv21 src w h [] pw ph = some out ∧
    out.cells.length = nv21Size pw ph ∧ out.written = List.range (nv21Size pw ph) ∧
    ∀ y < ph / 2, ∀ x < pw / 2,
      out.cells[nv21V pw ph y x]? = src[nv21V w h (sampledFrom h ph y) (sampledFrom w pw x)]? ∧
      out.cells[nv21U pw ph y x]? = src[nv21U w h (sampledFrom h ph y) (sampledFrom w pw x)]? := by
  have hlength := Buffer.length_resize ([] : List UInt8) (nv21Size pw ph) 0
  refine ⟨_, downscaleNv21_eq hs hlen, ?_, ?_, ?_⟩
  · rw [Buffer.length_putAll, hlength]
  · rw [Buffer.written_putAll, nv21_places_even hs.width_even hs.height_even]
    rfl
  · intro y hy x hx
    have hrow := sampledFrom_lt_half hs.height_even hs.height_le hy
    have hcol := sampledFrom_lt_half hs.width_even hs.width_le hx
    have hv := getElem?_getD_of_lt (hlen ▸ nv21V_lt hrow hcol)
    have hu := getElem?_getD_of_lt (hlen ▸ nv21U_lt hrow hcol)
    rw [← hv, ← hu]
    exact getElem?_chroma hlength hy hx

end loops

/-- The sides `a` and `b`, `b` not longer, scaled into a box. -/
def fitSides (long short a b : ℕ) : ℕ × ℕ :=
  if long * b / a ≤ short then (long, long * b / a) else (short * a / b, short)

/-- The size of a frame in the box that is oriented like it. -/
def fitBox (long short w h : ℕ) : ℕ × ℕ :=
  if h < w then fitSides long short w h else (fitSides long short h w).swap

/-- The even size in the box. -/
def scaledSize (long short w h : ℕ) : ℕ × ℕ :=
  ((fitBox long short w h).1 / 2 * 2, (fitBox long short w h).2 / 2 * 2)

section box
variable {long short a b w h : ℕ}

theorem fitSides_le (short : ℕ) (hb : 0 < b) (hba : b ≤ a) (hlong : long ≤ a) :
    (fitSides long short a b).1 ≤ long ∧ (fitSides long short a b).1 ≤ a ∧
      (fitSides long short a b).2 ≤ short ∧ (fitSides long short a b).2 ≤ b := by
  have ha : 0 < a := hb.trans_le hba
  have hside : long * b / a ≤ b := Nat.div_le_of_le_mul (Nat.mul_le_mul_right b hlong)
  unfold fitSides
  split_ifs with hfit
  · exact ⟨le_rfl, hlong, hfit, hside⟩
  · have hshort : (short + 1) * a ≤ long * b := (Nat.le_div_iff_mul_le ha).mp (by omega)
    have hscaled : short * a / b ≤ long := by
      refine Nat.div_le_of_le_mul ?_
      rw [Nat.mul_comm b long]
      exact (Nat.mul_le_mul_right a (Nat.le_succ short)).trans hshort
    exact ⟨hscaled, hscaled.trans hlong, le_rfl, by omega⟩

/-- The scaled size is not larger than the frame and lies in the box. -/
theorem fitBox_le (short : ℕ) (hw : 0 < w) (hh : 0 < h) (hlong : long < w ∨ long < h) :
    (fitBox long short w h).1 ≤ w ∧ (fitBox long short w h).2 ≤ h ∧
      if h < w then (fitBox long short w h).1 ≤ long ∧ (fitBox long short w h).2 ≤ short
      else (fitBox long short w h).1 ≤ short ∧ (fitBox long short w h).2 ≤ long := by
  unfold fitBox
  split_ifs with hlandscape
  · obtain ⟨hbox, hw', hbox', hh'⟩ :=
      fitSides_le short hh hlandscape.le (by omega : long ≤ w)
    exact ⟨hw', hh', hbox, hbox'⟩
  · obtain ⟨hbox, hh', hbox', hw'⟩ :=
      fitSides_le short hw (by omega : w ≤ h) (by omega : long ≤ h)
    exact ⟨hw', hh', hbox', hbox⟩

theorem clearLowBit_natCast (n : ℕ) : clearLowBit n = ((n / 2 * 2 : ℕ) : ℤ) := by
  unfold clearLowBit
  omega

theorem truncate_quotient (x b c : ℕ) :
    truncate ((x : ℤ) / (((b : ℤ) : ℚ) / ((c : ℤ) : ℚ))) = int (x * c / b : ℕ) := by
  have hquotient : ((x : ℤ) : ℚ) / (((b : ℤ) : ℚ) / ((c : ℤ) : ℚ)) = x * ((c : ℚ) / b) := by
    rw [Int.cast_natCast, Int.cast_natCast, Int.cast_natCast, div_div_eq_mul_div, mul_div_assoc]
  rw [hquotient, truncate_ratio]

theorem truncate_product (x b c : ℕ) :
    truncate ((x : ℤ) * (((b : ℤ) : ℚ) / ((c : ℤ) : ℚ))) = int (x * b / c : ℕ) := by
  rw [Int.cast_natCast, Int.cast_natCast, Int.cast_natCast, truncate_ratio]

/-- The size that the code computes, where the sides are `int`. -/
theorem processingSize_eq (short : ℕ) (hw : 0 < w) (hh : 0 < h) (hwfits : FitsInt w)
    (hhfits : FitsInt h) (hlong : long < w ∨ long < h) : processingSize w h long short =
      some (some (((scaledSize long short w h).1 : ℤ), ((scaledSize long short w h).2 : ℤ))) := by
  have hexceeds : (w : ℤ) > long ∨ (h : ℤ) > long := by omega
  unfold processingSize scaledSize fitBox
  rw [if_pos hexceeds]
  by_cases hlandscape : h < w
  · have hsides := fitSides_le short hh hlandscape.le (by omega : long ≤ w)
    have hside : FitsInt (long * h / w) :=
      (Nat.div_le_of_le_mul (Nat.mul_le_mul_right h (by omega : long ≤ w))).trans hhfits
    rw [if_pos (by omega : (w : ℤ) > h), if_pos hlandscape, truncate_quotient, int_natCast hside]
    unfold fitSides at hsides ⊢
    by_cases hfit : long * h / w ≤ short
    · rw [if_pos hfit]
      refine (if_neg (by omega)).trans ?_
      rw [clearLowBit_natCast, clearLowBit_natCast]
      rfl
    · rw [if_neg hfit] at hsides ⊢
      refine (if_pos (by omega)).trans ?_
      rw [truncate_product, int_natCast (hsides.2.1.trans hwfits), clearLowBit_natCast]
      change some (some (clearLowBit _, _)) = _
      rw [clearLowBit_natCast]
  · have hsides := fitSides_le short hw (by omega : w ≤ h) (by omega : long ≤ h)
    have hside : FitsInt (long * w / h) :=
      (Nat.div_le_of_le_mul (Nat.mul_le_mul_right w (by omega : long ≤ h))).trans hwfits
    rw [if_neg (by omega : ¬ (w : ℤ) > h), if_neg hlandscape, truncate_product, int_natCast hside]
    unfold fitSides at hsides ⊢
    by_cases hfit : long * w / h ≤ short
    · rw [if_pos hfit]
      refine (if_neg (by omega)).trans ?_
      rw [clearLowBit_natCast, clearLowBit_natCast]
      rfl
    · rw [if_neg hfit] at hsides ⊢
      refine (if_pos (by omega)).trans ?_
      rw [truncate_quotient, int_natCast (hsides.2.1.trans hhfits), clearLowBit_natCast]
      change some (some (_, clearLowBit _)) = _
      rw [clearLowBit_natCast]
      rfl

end box

def longSide (reported : Option (Int32 × Int32)) : ℕ :=
  (max (optimalSize reported).1 (optimalSize reported).2).toNat

def shortSide (reported : Option (Int32 × Int32)) : ℕ :=
  (min (optimalSize reported).1 (optimalSize reported).2).toNat

/-- A frame of the size is scaled down. -/
def Exceeds (w h : ℕ) (reported : Option (Int32 × Int32)) : Prop :=
  longSide reported < w ∨ longSide reported < h

/-- What is to hold of every frame of the size: an even size in the box, every byte of
the output written once, and each pair taken from one pair of the source. -/
def DownscalesSafely (width height : Int32) (reported : Option (Int32 × Int32)) : Prop :=
  let w := width.toInt.toNat
  let h := height.toInt.toNat
  Exceeds w h reported → ∃ (pw ph : ℕ) (row col : ℕ → ℕ),
    (2 ∣ pw ∧ 2 ∣ ph ∧ pw ≤ w ∧ ph ≤ h) ∧
    (if h < w then pw ≤ longSide reported ∧ ph ≤ shortSide reported
      else pw ≤ shortSide reported ∧ ph ≤ longSide reported) ∧
    (∀ y < ph / 2, row y < h / 2) ∧ (∀ x < pw / 2, col x < w / 2) ∧
    ∀ frame : List UInt8, frame.length = nv21Size w h →
      ∃ out, frameToProcess frame width height reported = some (out, (pw : ℤ), (ph : ℤ)) ∧
        out.cells.length = nv21Size pw ph ∧ out.written = List.range (nv21Size pw ph) ∧
        ∀ y < ph / 2, ∀ x < pw / 2,
          out.cells[nv21V pw ph y x]? = frame[nv21V w h (row y) (col x)]? ∧
          out.cells[nv21U pw ph y x]? = frame[nv21U w h (row y) (col x)]?

/-- The products that the scaling computes are `int`. -/
def ScalingFits (width height : Int32) (reported : Option (Int32 × Int32)) : Prop :=
  let w := width.toInt.toNat
  let h := height.toInt.toNat
  let size := scaledSize (longSide reported) (shortSide reported) w h
  Exceeds w h reported → FitsInt (w * h) ∧ FitsInt (size.1 * size.2 * 3)

section frames
variable {width height : Int32} {w h : ℕ} {reported : Option (Int32 × Int32)}
  {frame : List UInt8}

theorem fits_toInt {x : Int32} {n : ℕ} (hx : x.toInt = n) : FitsInt n := by
  have hlt := x.toInt_lt
  rw [hx] at hlt
  omega

theorem sides_eq (hreported : ∀ size ∈ reported, 0 < size.1 ∧ 0 < size.2) :
    max (optimalSize reported).1 (optimalSize reported).2 = (longSide reported : ℤ) ∧
      min (optimalSize reported).1 (optimalSize reported).2 = (shortSide reported : ℤ) := by
  have hpos : 0 < (optimalSize reported).1 ∧ 0 < (optimalSize reported).2 := by
    cases reported with
    | none => exact ⟨by decide, by decide⟩
    | some size =>
        obtain ⟨hwidth, hheight⟩ := hreported size rfl
        exact ⟨Int32.lt_iff_toInt_lt.mp hwidth, Int32.lt_iff_toInt_lt.mp hheight⟩
  unfold longSide shortSide
  omega

theorem frameToProcess_scaled (hw : width.toInt = w) (hh : height.toInt = h) (hwpos : 0 < w)
    (hhpos : 0 < h) (hreported : ∀ size ∈ reported, 0 < size.1 ∧ 0 < size.2)
    (hexceeds : Exceeds w h reported) :
    frameToProcess frame width height reported =
      (downscaleNv21 frame w h [] (scaledSize (longSide reported) (shortSide reported) w h).1
        (scaledSize (longSide reported) (shortSide reported) w h).2).map fun out =>
          (out, ((scaledSize (longSide reported) (shortSide reported) w h).1 : ℤ),
            ((scaledSize (longSide reported) (shortSide reported) w h).2 : ℤ)) := by
  obtain ⟨hlong, hshort⟩ := sides_eq hreported
  have hsize := processingSize_eq (shortSide reported) hwpos hhpos (fits_toInt hw)
    (fits_toInt hh) hexceeds
  unfold frameToProcess
  simp only [bind]
  rw [hlong, hshort, hw, hh, hsize, Option.bind_some]
  dsimp only
  cases downscaleNv21 frame w h [] (scaledSize (longSide reported) (shortSide reported) w h).1
    (scaledSize (longSide reported) (shortSide reported) w h).2 with
  | none => rfl
  | some out => rfl

theorem downscaleNv21_eq_none {pw ph : ℕ} (hno : ¬ (FitsInt (w * h) ∧ FitsInt (pw * ph * 3))) :
    downscaleNv21 frame w h [] pw ph = none := by
  have hpixels : ((pw : ℤ) * ph) = ((pw * ph : ℕ) : ℤ) := (Int.natCast_mul _ _).symm
  have hsource : ((w : ℤ) * h) = ((w * h : ℕ) : ℤ) := (Int.natCast_mul _ _).symm
  have hbytes : (((pw * ph : ℕ) : ℤ) * 3) = ((pw * ph * 3 : ℕ) : ℤ) := by omega
  unfold downscaleNv21
  simp only [bind]
  rw [hpixels, hsource]
  by_cases hfits : FitsInt (pw * ph)
  · rw [int_natCast hfits, Option.bind_some, hbytes]
    by_cases hfits' : FitsInt (pw * ph * 3)
    · rw [int_natCast hfits', Option.bind_some, int_eq_none fun h => hno ⟨h, hfits'⟩]
      rfl
    · rw [int_eq_none hfits']
      rfl
  · rw [int_eq_none hfits]
    rfl

/-- The size that is computed is an even one in the source. -/
theorem scales_scaledSize (hwpos : 0 < w) (hhpos : 0 < h) (hexceeds : Exceeds w h reported)
    (hsource : FitsInt (w * h))
    (hsize : FitsInt ((scaledSize (longSide reported) (shortSide reported) w h).1 *
      (scaledSize (longSide reported) (shortSide reported) w h).2 * 3)) :
    Scales w h (scaledSize (longSide reported) (shortSide reported) w h).1
      (scaledSize (longSide reported) (shortSide reported) w h).2 where
  width_pos := hwpos
  height_pos := hhpos
  width_even := Nat.dvd_mul_left 2 _
  height_even := Nat.dvd_mul_left 2 _
  width_le := (Nat.div_mul_le_self _ 2).trans (fitBox_le _ hwpos hhpos hexceeds).1
  height_le := (Nat.div_mul_le_self _ 2).trans (fitBox_le _ hwpos hhpos hexceeds).2.1
  source_fits := hsource
  size_fits := hsize

theorem exists_natCast {x : Int32} (hx : 0 < x) : ∃ n : ℕ, 0 < n ∧ x.toInt = n := by
  have hpos : 0 < x.toInt := Int32.lt_iff_toInt_lt.mp hx
  exact ⟨x.toInt.toNat, by omega, (Int.toNat_of_nonneg hpos.le).symm⟩

theorem DownscalesSafely.scalingFits (hwidth : 0 < width) (hheight : 0 < height)
    (hreported : ∀ size ∈ reported, 0 < size.1 ∧ 0 < size.2)
    (hsafe : DownscalesSafely width height reported) : ScalingFits width height reported := by
  obtain ⟨w, hwpos, hw⟩ := exists_natCast hwidth
  obtain ⟨h, hhpos, hh⟩ := exists_natCast hheight
  unfold DownscalesSafely at hsafe
  unfold ScalingFits
  rw [hw, hh] at hsafe ⊢
  dsimp only [Int.toNat_natCast] at hsafe ⊢
  intro hexceeds
  obtain ⟨pw, ph, row, col, -, -, -, -, hframe⟩ := hsafe hexceeds
  obtain ⟨out, hout, -⟩ := hframe (List.replicate (nv21Size w h) 0) List.length_replicate
  by_contra hno
  rw [frameToProcess_scaled hw hh hwpos hhpos hreported hexceeds, downscaleNv21_eq_none hno] at hout
  cases hout

theorem ScalingFits.downscalesSafely (hwidth : 0 < width) (hheight : 0 < height)
    (hreported : ∀ size ∈ reported, 0 < size.1 ∧ 0 < size.2)
    (hfits : ScalingFits width height reported) : DownscalesSafely width height reported := by
  obtain ⟨w, hwpos, hw⟩ := exists_natCast hwidth
  obtain ⟨h, hhpos, hh⟩ := exists_natCast hheight
  unfold ScalingFits at hfits
  unfold DownscalesSafely
  rw [hw, hh] at hfits ⊢
  dsimp only [Int.toNat_natCast] at hfits ⊢
  intro hexceeds
  obtain ⟨hsource, hsize⟩ := hfits hexceeds
  have hs := scales_scaledSize hwpos hhpos hexceeds hsource hsize
  have hbox := (fitBox_le (shortSide reported) hwpos hhpos hexceeds).2.2
  refine ⟨_, _, _, _, ⟨hs.width_even, hs.height_even, hs.width_le, hs.height_le⟩, ?_,
    fun y hy => sampledFrom_lt_half hs.height_even hs.height_le hy,
    fun x hx => sampledFrom_lt_half hs.width_even hs.width_le hx, ?_⟩
  · have hw2 := Nat.div_mul_le_self (fitBox (longSide reported) (shortSide reported) w h).1 2
    have hh2 := Nat.div_mul_le_self (fitBox (longSide reported) (shortSide reported) w h).2 2
    unfold scaledSize
    split_ifs at hbox ⊢
    · exact ⟨hw2.trans hbox.1, hh2.trans hbox.2⟩
    · exact ⟨hw2.trans hbox.1, hh2.trans hbox.2⟩
  · intro frame hframe
    obtain ⟨out, hout, hspec⟩ := downscaleNv21_spec hs hframe
    refine ⟨out, ?_, hspec⟩
    rw [frameToProcess_scaled hw hh hwpos hhpos hreported hexceeds, hout]
    rfl

/-- The scaling is safe exactly where its products fit. -/
theorem downscalesSafely_iff (width height : Int32) (reported : Option (Int32 × Int32))
    (hwidth : 0 < width) (hheight : 0 < height)
    (hreported : ∀ size ∈ reported, 0 < size.1 ∧ 0 < size.2) :
    DownscalesSafely width height reported ↔ ScalingFits width height reported :=
  ⟨DownscalesSafely.scalingFits hwidth hheight hreported,
    ScalingFits.downscalesSafely hwidth hheight hreported⟩

/-- A portrait frame in a box that is not even. -/
theorem downscalesSafely_portrait : DownscalesSafely 1081 1920 (some (1279, 719)) := by
  refine (downscalesSafely_iff 1081 1920 (some (1279, 719)) (by decide) (by decide) ?_).mpr ?_
  · intro size hsize
    obtain rfl := Option.some.inj hsize
    decide
  · exact fun _ => by decide

/-- The source has more than 2147483647 pixels. -/
theorem not_downscalesSafely_large : ¬ DownscalesSafely 50000 50000 none := by
  intro hsafe
  have hfits := hsafe.scalingFits (by decide) (by decide) (by simp)
  exact absurd (hfits (.inl (by decide))).1 (by decide)

end frames

end Session
end FaceHal
