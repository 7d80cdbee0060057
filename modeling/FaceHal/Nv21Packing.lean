import FaceHal.CheckedMemory

/-!
# Packing an image as NV21

`packAImageToNv21` writes the Y plane and then, for each pair of rows and columns, a V
byte and a U byte. The image brings three planes with strides of their own. An access
outside of a plane or of the output, and an `int` product that does not fit, is `none`.
-/
namespace FaceHal

def nv21Y (w r c : ℕ) : ℕ := r * w + c
def nv21V (w h r c : ℕ) : ℕ := w * h + r * w + 2 * c
def nv21U (w h r c : ℕ) : ℕ := nv21V w h r c + 1

def nv21Size (w h : ℕ) : ℕ := w * h + w * h / 2

theorem nv21Y_lt {w h r c : ℕ} (hr : r < h) (hc : c < w) : nv21Y w r c < w * h := by
  have hrow : (r + 1) * w ≤ h * w := Nat.mul_le_mul_right w hr
  rw [Nat.succ_mul, Nat.mul_comm h w] at hrow
  unfold nv21Y
  omega

theorem nv21U_lt {w h r c : ℕ} (hr : r < h / 2) (hc : c < w / 2) :
    nv21U w h r c < nv21Size w h := by
  have hrow : (r + 1) * w ≤ h / 2 * w := Nat.mul_le_mul_right w hr
  have hhalf : w * (h / 2) ≤ w * h / 2 := Nat.mul_div_le_mul_div_assoc w h 2
  rw [Nat.succ_mul, Nat.mul_comm (h / 2)] at hrow
  unfold nv21U nv21V nv21Size
  omega

theorem nv21V_lt {w h r c : ℕ} (hr : r < h / 2) (hc : c < w / 2) :
    nv21V w h r c < nv21Size w h :=
  Nat.lt_of_succ_lt (nv21U_lt hr hc)

section assignments
variable {α : Type} {w h : ℕ} {y v u : ℕ → ℕ → α}

def lumaAssignments (w h : ℕ) (y : ℕ → ℕ → α) : List (ℕ × α) :=
  (List.range h).flatMap fun r => (List.range w).map fun c => (nv21Y w r c, y r c)

def chromaAssignments (w h : ℕ) (v u : ℕ → ℕ → α) : List (ℕ × α) :=
  (List.range (h / 2)).flatMap fun r => (List.range (w / 2)).flatMap fun c =>
    [(nv21V w h r c, v r c), (nv21U w h r c, u r c)]

def nv21Assignments (w h : ℕ) (y v u : ℕ → ℕ → α) : List (ℕ × α) :=
  lumaAssignments w h y ++ chromaAssignments w h v u

theorem luma_places : (lumaAssignments w h y).map Prod.fst = List.range (w * h) := by
  simp only [lumaAssignments, List.map_flatMap, List.map_map]
  refine (rowMajor h w id).trans ?_
  rw [List.map_id, Nat.mul_comm]

theorem chroma_places : (chromaAssignments w h v u).map Prod.fst =
    (List.range (h / 2)).flatMap fun r =>
      (List.range (2 * (w / 2))).map fun c => w * h + (r * w + c) := by
  simp only [chromaAssignments, List.map_flatMap, List.map_cons, List.map_nil]
  congr 1
  funext r
  rw [← flatMap_pairs]
  congr 1
  funext c
  rw [← Nat.add_assoc, ← Nat.add_assoc]
  rfl

theorem range_append_map (m n : ℕ) :
    List.range m ++ (List.range n).map (fun i => m + i) = List.range (m + n) :=
  List.range_add.symm

/-- The places follow each other; an odd width leaves one out in each chroma row. -/
theorem nv21_places_sublist :
    ((nv21Assignments w h y v u).map Prod.fst).Sublist (List.range (nv21Size w h)) := by
  have hhalf : h / 2 * w ≤ w * h / 2 := by
    rw [Nat.mul_comm]
    exact Nat.mul_div_le_mul_div_assoc w h 2
  rw [nv21Assignments, List.map_append, luma_places, chroma_places]
  have hrows := rowMajor_sublist (h / 2) (Nat.mul_div_le w 2) fun i => w * h + i
  have happend := (List.Sublist.refl (List.range (w * h))).append hrows
  rw [range_append_map] at happend
  exact happend.trans (List.range_sublist.mpr (Nat.add_le_add_left hhalf _))

/-- An even size is filled from the beginning to the end. -/
theorem nv21_places_even (hw : 2 ∣ w) (hh : 2 ∣ h) :
    (nv21Assignments w h y v u).map Prod.fst = List.range (nv21Size w h) := by
  rw [nv21Assignments, List.map_append, luma_places, chroma_places, Nat.mul_div_cancel' hw,
    rowMajor (h / 2) w fun i => w * h + i, range_append_map, nv21Size, Nat.mul_div_assoc w hh,
    Nat.mul_comm (h / 2)]

variable {b : Buffer α} {r c : ℕ}

theorem getElem?_luma (hb : b.cells.length = nv21Size w h) (hr : r < h) (hc : c < w) :
    (b.putAll (nv21Assignments w h y v u)).cells[nv21Y w r c]? = some (y r c) := by
  refine Buffer.getElem?_putAll (nv21_places_sublist.nodup List.nodup_range) ?_ ?_
  · refine List.mem_append_left _ (List.mem_flatMap.mpr ⟨r, List.mem_range.mpr hr, ?_⟩)
    exact List.mem_map.mpr ⟨c, List.mem_range.mpr hc, rfl⟩
  · rw [hb]
    exact (nv21Y_lt hr hc).trans_le (Nat.le_add_right _ _)

theorem getElem?_chroma (hb : b.cells.length = nv21Size w h) (hr : r < h / 2) (hc : c < w / 2) :
    (b.putAll (nv21Assignments w h y v u)).cells[nv21V w h r c]? = some (v r c) ∧
      (b.putAll (nv21Assignments w h y v u)).cells[nv21U w h r c]? = some (u r c) := by
  have hmem : ∀ m ∈ [(nv21V w h r c, v r c), (nv21U w h r c, u r c)],
      m ∈ nv21Assignments w h y v u := by
    intro m hm
    refine List.mem_append_right _ (List.mem_flatMap.mpr ⟨r, List.mem_range.mpr hr, ?_⟩)
    exact List.mem_flatMap.mpr ⟨c, List.mem_range.mpr hc, hm⟩
  have hnodup := (nv21_places_sublist (y := y) (v := v) (u := u)).nodup
    (List.nodup_range (n := nv21Size w h))
  constructor
  · exact Buffer.getElem?_putAll hnodup (hmem _ (by simp)) (hb ▸ nv21V_lt hr hc)
  · exact Buffer.getElem?_putAll hnodup (hmem _ (by simp)) (hb ▸ nv21U_lt hr hc)

end assignments

namespace Camera2NdkBackend

/-- What the getters of a plane give. -/
structure Plane where
  /-- `none` is a null pointer. -/
  data : Option (List UInt8)
  rowStride : Int32
  pixelStride : Int32
  /-- The length is an `int`. -/
  length_lt : ∀ cells, data = some cells → FitsInt cells.length

structure AImage where
  width : Int32
  height : Int32
  planeCount : Int32
  plane : ℕ → Plane

/-- One copy for the whole Y plane. -/
def copyWhole (ySrc : List UInt8) (ySize : ℕ) (out : Buffer UInt8) : Option (Buffer UInt8) :=
  out.copy 0 ySrc 0 ySize

/-- One copy for each row. -/
def copyRows (ySrc : List UInt8) (yRow w h : ℤ) (out : Buffer UInt8) : Option (Buffer UInt8) :=
  forRange h.toNat (fun row out => out.copy (row * w) ySrc (row * yRow) w.toNat) out

def copyLuma (ySrc : List UInt8) (yRow yPx w h : ℤ) (ySize : ℕ) (out : Buffer UInt8) :
    Option (Buffer UInt8) :=
  if yPx = 1 ∧ yRow = w then copyWhole ySrc ySize out else copyRows ySrc yRow w h out

/-- One turn of the inner chroma loop. -/
def packPair (uSrc vSrc : List UInt8) (uPx vPx dst uLine vLine : ℤ) (x : ℕ) (out : Buffer UInt8) :
    Option (Buffer UInt8) := do
  let out ← out.store (dst + (← int (2 * x))) (← load vSrc (vLine + (← int (x * vPx))))
  out.store (dst + (← int (2 * x + 1))) (← load uSrc (uLine + (← int (x * uPx))))

/-- The result is `none` inside for `false`, else the width and the height. -/
def packAImageToNv21 (img : AImage) (out : List UInt8) :
    Option (Option (ℤ × ℤ) × Buffer UInt8) := do
  let w := img.width.toInt
  let h := img.height.toInt
  if w ≤ 0 ∨ h ≤ 0 ∨ img.planeCount.toInt < 2 then
    return (none, ⟨out, []⟩)
  let ySize := (w * h).toNat
  let uvSize := ySize / 2
  let out := Buffer.resize out (ySize + uvSize) 0
  let yRow := (img.plane 0).rowStride.toInt
  let yPx := (img.plane 0).pixelStride.toInt
  match (img.plane 0).data with
  | none => return (none, out)
  | some ySrc =>
      let out ← copyLuma ySrc yRow yPx w h ySize out
      let uRow := (img.plane 1).rowStride.toInt
      let uPx := (img.plane 1).pixelStride.toInt
      let vRow := (img.plane 2).rowStride.toInt
      let vPx := (img.plane 2).pixelStride.toInt
      match (img.plane 1).data, (img.plane 2).data with
      | some uSrc, some vSrc =>
          let chromaH := h / 2
          let chromaW := w / 2
          let out ← forRange chromaH.toNat (fun row =>
            forRange chromaW.toNat
              (packPair uSrc vSrc uPx vPx (ySize + row * w) (row * uRow) (row * vRow))) out
          return (some (w, h), out)
      | _, _ => return (none, out)

/-- The place of a sample in its plane. -/
def Plane.place (p : Plane) (r c : ℕ) : ℤ := r * p.rowStride.toInt + c * p.pixelStride.toInt

def Plane.sample (p : Plane) (r c : ℕ) : Option UInt8 :=
  p.data.bind fun cells => load cells (p.place r c)

/-- Every sample that is addressed lies in the plane. -/
def Plane.Holds (p : Plane) (rows cols : ℕ) : Prop :=
  ∀ r < rows, ∀ c < cols, 0 ≤ p.place r c ∧ p.place r c < (p.data.getD []).length

section plane
variable {p : Plane} {cells : List UInt8} {rows cols r c : ℕ}

/-- Where no stride is negative the plane is to be as long as its last addressed sample. -/
theorem Plane.holds_iff_last (hrow : 0 ≤ p.rowStride.toInt) (hpixel : 0 ≤ p.pixelStride.toInt) :
    p.Holds (rows + 1) (cols + 1) ↔ p.place rows cols < (p.data.getD []).length := by
  constructor
  · exact fun h => (h rows (Nat.lt_succ_self rows) cols (Nat.lt_succ_self cols)).2
  · intro hlast r hr c hc
    have hr' : (r : ℤ) * p.rowStride.toInt ≤ rows * p.rowStride.toInt :=
      Int.mul_le_mul_of_nonneg_right (by omega) hrow
    have hc' : (c : ℤ) * p.pixelStride.toInt ≤ cols * p.pixelStride.toInt :=
      Int.mul_le_mul_of_nonneg_right (by omega) hpixel
    have hr0 : 0 ≤ (r : ℤ) * p.rowStride.toInt := Int.mul_nonneg (Int.natCast_nonneg r) hrow
    have hc0 : 0 ≤ (c : ℤ) * p.pixelStride.toInt := Int.mul_nonneg (Int.natCast_nonneg c) hpixel
    unfold place at hlast ⊢
    omega

theorem Plane.Holds.int_column (h : p.Holds rows cols) (hp : p.data = some cells) (hr : r < rows)
    (hc : c < cols) : int (c * p.pixelStride.toInt) = some (c * p.pixelStride.toInt) := by
  have hfirst := h 0 (Nat.zero_lt_of_lt hr) c hc
  rw [place, hp, Option.getD_some, Int.natCast_zero, Int.zero_mul, Int.zero_add] at hfirst
  have hlength := p.length_lt cells hp
  exact if_pos (by omega)

theorem Plane.Holds.sample_eq (h : p.Holds rows cols) (hr : r < rows) (hc : c < cols) :
    p.sample r c = some ((p.sample r c).getD 0) := by
  have hplace := h r hr c hc
  cases hp : p.data with
  | none =>
      rw [hp] at hplace
      have hnone : p.place r c < 0 := hplace.2
      omega
  | some cells =>
      rw [hp, Option.getD_some] at hplace
      have hload : p.sample r c = cells[(p.place r c).toNat]? := by
        rw [sample, hp, Option.bind_some, load, if_pos hplace.1]
      rw [hload, List.getElem?_eq_getElem (by omega), Option.getD_some]

theorem Plane.Holds.load_eq (h : p.Holds rows cols) (hp : p.data = some cells) (hr : r < rows)
    (hc : c < cols) : load cells (r * p.rowStride.toInt + c * p.pixelStride.toInt) =
      some ((p.sample r c).getD 0) := by
  rw [← h.sample_eq hr hc, sample, hp]
  rfl

end plane

/-- The one copy and the row loop do the same where the rows follow each other. -/
theorem copyRows_eq_copyWhole (ySrc : List UInt8) (w h : ℕ) (out : Buffer UInt8) :
    copyRows ySrc w w h out = copyWhole ySrc (w * h) out := by
  rw [copyWhole, Buffer.copy, Nat.mul_comm, forRange_mul]
  unfold copyRows Buffer.copy
  simp only [Int.toNat_natCast, Int.zero_add, Int.natCast_add, Int.natCast_mul]

section packing
variable {p : Plane} {cells : List UInt8} {w h len : ℕ}

theorem stores_copyRows (hp : p.data = some cells) (hpixel : p.pixelStride.toInt = 1)
    (hholds : p.Holds h w) (hlen : w * h ≤ len) :
    Buffer.Stores len (copyRows cells p.rowStride.toInt w h)
      (lumaAssignments w h fun r c => (p.sample r c).getD 0) := by
  refine Buffer.stores_forRange fun r hr => ?_
  have hrow : (r + 1) * w ≤ h * w := Nat.mul_le_mul_right w hr
  rw [Nat.succ_mul, Nat.mul_comm h w] at hrow
  have hcopy : Buffer.Stores len (fun out => out.copy (r * w : ℕ) cells (r * p.rowStride.toInt) w)
      ((List.range w).map fun c => (nv21Y w r c, (p.sample r c).getD 0)) := by
    refine Buffer.stores_copy _ (by omega) fun c hc => ?_
    have hload := hholds.load_eq hp hr hc
    rwa [hpixel, Int.mul_one] at hload
  rwa [Int.natCast_mul] at hcopy

theorem stores_copyWhole (hp : p.data = some cells) (hpixel : p.pixelStride.toInt = 1)
    (hrow : p.rowStride.toInt = w) (hholds : p.Holds h w) (hlen : w * h ≤ len) :
    Buffer.Stores len (copyWhole cells (w * h))
      (lumaAssignments w h fun r c => (p.sample r c).getD 0) := by
  intro out hout
  have hrows := stores_copyRows hp hpixel hholds hlen out hout
  rwa [hrow, copyRows_eq_copyWhole] at hrows

variable {pu pv : Plane} {us vs : List UInt8} {r c : ℕ}

theorem stores_packPair (hu : pu.data = some us) (hv : pv.data = some vs)
    (husamples : pu.Holds (h / 2) (w / 2)) (hvsamples : pv.Holds (h / 2) (w / 2))
    (hw : FitsInt w) (hr : r < h / 2) (hc : c < w / 2) :
    Buffer.Stores (nv21Size w h)
      (packPair us vs pu.pixelStride.toInt pv.pixelStride.toInt ((w * h : ℕ) + r * w)
        (r * pu.rowStride.toInt) (r * pv.rowStride.toInt) c)
      [(nv21V w h r c, (pv.sample r c).getD 0), (nv21U w h r c, (pu.sample r c).getD 0)] := by
  have hv2 : int (2 * (c : ℤ)) = some ((2 * c : ℕ) : ℤ) := int_natCast (n := 2 * c) (by omega)
  have hu2 : int (2 * (c : ℤ) + 1) = some ((2 * c + 1 : ℕ) : ℤ) :=
    int_natCast (n := 2 * c + 1) (by omega)
  have hfirst := Buffer.stores_store (nv21V_lt hr hc) ((pv.sample r c).getD 0)
  have hsecond := Buffer.stores_store (nv21U_lt hr hc) ((pu.sample r c).getD 0)
  intro out hout
  have hboth := hfirst.andThen hsecond out hout
  unfold packPair
  rw [hv2, hvsamples.int_column hv hr hc, hu2, husamples.int_column hu hr hc]
  simp only [bind, Option.bind_some]
  rw [hvsamples.load_eq hv hr hc, husamples.load_eq hu hr hc]
  exact hboth

theorem stores_chroma (hu : pu.data = some us) (hv : pv.data = some vs)
    (husamples : pu.Holds (h / 2) (w / 2)) (hvsamples : pv.Holds (h / 2) (w / 2))
    (hw : FitsInt w) :
    Buffer.Stores (nv21Size w h)
      (forRange (h / 2) fun row => forRange (w / 2)
        (packPair us vs pu.pixelStride.toInt pv.pixelStride.toInt ((w * h : ℕ) + row * w)
          (row * pu.rowStride.toInt) (row * pv.rowStride.toInt)))
      (chromaAssignments w h (fun r c => (pv.sample r c).getD 0)
        fun r c => (pu.sample r c).getD 0) :=
  Buffer.stores_forRange fun _ hr => Buffer.stores_forRange fun _ hc =>
    stores_packPair hu hv husamples hvsamples hw hr hc

end packing

/-- Three planes, each of which holds the samples that are addressed. The Y samples
follow each other in a row. -/
structure AImage.WellFormed (img : AImage) (w h : ℕ) : Prop where
  width : img.width.toInt = w
  height : img.height.toInt = h
  width_pos : 0 < w
  height_pos : 0 < h
  planeCount : img.planeCount.toInt = 3
  present : ∀ i < 3, (img.plane i).data ≠ none
  luma_pixelStride : (img.plane 0).pixelStride.toInt = 1
  luma : (img.plane 0).Holds h w
  chroma : ∀ i < 3, 0 < i → (img.plane i).Holds (h / 2) (w / 2)

theorem packAImageToNv21_eq {img : AImage} {w h : ℕ} (himg : img.WellFormed w h)
    (out : List UInt8) :
    packAImageToNv21 img out = some (some ((w : ℤ), (h : ℤ)),
      (Buffer.resize out (nv21Size w h) 0).putAll
      (nv21Assignments w h (fun r c => ((img.plane 0).sample r c).getD 0)
        (fun r c => ((img.plane 2).sample r c).getD 0)
        fun r c => ((img.plane 1).sample r c).getD 0)) := by
  obtain ⟨ys, hy⟩ := Option.ne_none_iff_exists'.mp (himg.present 0 (by omega))
  obtain ⟨us, hu⟩ := Option.ne_none_iff_exists'.mp (himg.present 1 (by omega))
  obtain ⟨vs, hv⟩ := Option.ne_none_iff_exists'.mp (himg.present 2 (by omega))
  have hwlt : FitsInt w := by
    have hlt := img.width.toInt_lt
    rw [himg.width] at hlt
    omega
  have hsize : ((w : ℤ) * h).toNat = w * h := by
    rw [← Int.natCast_mul, Int.toNat_natCast]
  have hluma : Buffer.Stores (nv21Size w h)
      (copyLuma ys (img.plane 0).rowStride.toInt (img.plane 0).pixelStride.toInt w h (w * h))
      (lumaAssignments w h fun r c => ((img.plane 0).sample r c).getD 0) := by
    intro b hb
    unfold copyLuma
    split_ifs with hwhole
    · exact stores_copyWhole hy hwhole.1 hwhole.2 himg.luma (Nat.le_add_right _ _) b hb
    · exact stores_copyRows hy himg.luma_pixelStride himg.luma (Nat.le_add_right _ _) b hb
  have hchroma := stores_chroma hu hv (himg.chroma 1 (by omega) (by omega))
    (himg.chroma 2 (by omega) (by omega)) hwlt
  have hlength := Buffer.length_resize out (nv21Size w h) 0
  have hsizes : ¬ ((w : ℤ) ≤ 0 ∨ (h : ℤ) ≤ 0 ∨ (3 : ℤ) < 2) := by
    have hpos := himg.width_pos
    have hpos' := himg.height_pos
    omega
  unfold packAImageToNv21
  rw [himg.width, himg.height, himg.planeCount, if_neg hsizes, hsize, hy, hu, hv]
  dsimp only
  have hhalf : ∀ n : ℕ, ((n : ℤ) / 2).toNat = n / 2 := by
    intro n
    omega
  rw [hhalf w, hhalf h]
  refine (hluma.run hlength _).trans ((hchroma.run ?_ _).trans ?_)
  · rw [Buffer.length_putAll, hlength]
  · rw [← Buffer.putAll_append]
    rfl

/-- The packing agrees with the reference layout. -/
theorem packAImageToNv21_reference (img : AImage) (w h : ℕ) (himg : img.WellFormed w h)
    (old : List UInt8) : ∃ out, packAImageToNv21 img old = some (some ((w : ℤ), (h : ℤ)), out) ∧
      out.cells.length = w * h + w * h / 2 ∧
      (∀ r < h, ∀ c < w, out.cells[r * w + c]? = (img.plane 0).sample r c) ∧
      (∀ r < h / 2, ∀ c < w / 2,
        out.cells[w * h + r * w + 2 * c]? = (img.plane 2).sample r c ∧
        out.cells[w * h + r * w + 2 * c + 1]? = (img.plane 1).sample r c) ∧
      out.written.Sublist (List.range out.cells.length) ∧
      ((img.plane 0).rowStride.toInt = w → ∀ ySrc b,
        copyRows ySrc (img.plane 0).rowStride.toInt w h b = copyWhole ySrc (w * h) b) := by
  have hlength := Buffer.length_resize old (nv21Size w h) 0
  refine ⟨_, packAImageToNv21_eq himg old, ?_, ?_, ?_, ?_, ?_⟩
  · rw [Buffer.length_putAll, hlength]
    rfl
  · intro r hr c hc
    rw [himg.luma.sample_eq hr hc]
    exact getElem?_luma hlength hr hc
  · intro r hr c hc
    rw [(himg.chroma 1 (by omega) (by omega)).sample_eq hr hc,
      (himg.chroma 2 (by omega) (by omega)).sample_eq hr hc]
    exact getElem?_chroma hlength hr hc
  · rw [Buffer.length_putAll, hlength, Buffer.written_putAll]
    exact nv21_places_sublist
  · intro hrow ySrc b
    rw [hrow]
    exact copyRows_eq_copyWhole ySrc w h b

def samplePlane (cells : List UInt8) (rowStride pixelStride : Int32)
    (h : FitsInt cells.length) : Plane where
  data := some cells
  rowStride := rowStride
  pixelStride := pixelStride
  length_lt _ heq := Option.some.inj heq ▸ h

/-- Padded rows of odd width, and chroma planes that overlap. -/
def sampleImage : AImage where
  width := 3
  height := 2
  planeCount := 3
  plane
    | 0 => samplePlane [1, 2, 3, 0, 4, 5, 6] 4 1 (by decide)
    | 1 => samplePlane [8, 7] 2 2 (by decide)
    | _ => samplePlane [7] 2 2 (by decide)

theorem sampleImage_wellFormed : sampleImage.WellFormed 3 2 where
  width := rfl
  height := rfl
  width_pos := by decide
  height_pos := by decide
  planeCount := rfl
  present := by decide
  luma_pixelStride := rfl
  luma := by unfold Plane.Holds; decide
  chroma := by unfold Plane.Holds; decide

theorem packAImageToNv21_sample : ∃ out,
    packAImageToNv21 sampleImage [] = some (some (3, 2), out) ∧ out.cells.length = 9 ∧
      out.cells[6]? = some 7 ∧ out.cells[7]? = some 8 := by
  obtain ⟨out, hpack, hlength, -, hchroma, -⟩ :=
    packAImageToNv21_reference sampleImage 3 2 sampleImage_wellFormed []
  exact ⟨out, hpack, hlength, hchroma 0 (by decide) 0 (by decide)⟩

end Camera2NdkBackend
end FaceHal
