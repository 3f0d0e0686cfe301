import Mathlib.Data.Finset.Prod
import PixelPool.Proofs.Areas

/-!
Enclosure of rectangles: as a comparison of exact edges, as inclusion of pixels, and against the
comparison of the edges that are reported.

* Enclosure orders all rectangles, those without pixels too (`encloses_trans`,
  `encloses_antisymm`). A rectangle is its four edges, so two that enclose each other are one.
* Of a rectangle with pixels, enclosure says that every pixel of the one is a pixel of the other
  (`encloses_iff_mem`). Its two extreme pixels decide it. Without pixels there is nothing to decide
  it by, and the order still tells two empty rectangles apart.
* The reported edges are the exact ones, clamped (`toInt_right`, `toInt_bottom`). Clamping is
  monotone, so a comparison of reported edges never refuses what is enclosed. It is not injective,
  so it may accept what is not.
-/

namespace PixelPool.Rect

variable {a b c r : Rect} {p : Int × Int}

/-! ## The order -/

theorem encloses_trans (outer : a.encloses b = true) (inner : b.encloses c = true) :
    a.encloses c = true := by
  rw [encloses_iff] at *
  omega

theorem encloses_antisymm (h : a.encloses b = true) (h' : b.encloses a = true) : a = b := by
  simp only [encloses_iff, rightEdge, bottomEdge] at h h'
  have left : a.left = b.left := Int32.toInt_inj.1 (by omega)
  have top : a.top = b.top := Int32.toInt_inj.1 (by omega)
  have width : a.width = b.width := Int32.toInt_inj.1 (by omega)
  have height : a.height = b.height := Int32.toInt_inj.1 (by omega)
  cases a
  cases b
  simp_all

/-! ## Pixels -/

theorem mem_iff : p ∈ r ↔
    r.left.toInt ≤ p.1 ∧ p.1 < r.rightEdge ∧ r.top.toInt ≤ p.2 ∧ p.2 < r.bottomEdge := Iff.rfl

/-- The pixels of a rectangle, column by column and row by row from the corner on. -/
def pixels (r : Rect) : Finset (Int × Int) :=
  (Finset.range r.width.toInt.toNat ×ˢ Finset.range r.height.toInt.toNat).image fun p =>
    (r.left.toInt + p.1, r.top.toInt + p.2)

@[simp] theorem mem_pixels : p ∈ r.pixels ↔ p ∈ r := by
  obtain ⟨x, y⟩ := p
  simp only [pixels, Finset.mem_image, Finset.mem_product, Finset.mem_range, Prod.exists,
    Prod.mk.injEq, mem_iff, rightEdge, bottomEdge]
  constructor
  · rintro ⟨i, j, inside, column, row⟩
    omega
  · intro inside
    refine ⟨(x - r.left.toInt).toNat, (y - r.top.toInt).toNat, ?_⟩
    omega

theorem card_pixels (r : Rect) : r.pixels.card = r.pixelCount := by
  have apart : Function.Injective fun p : Nat × Nat =>
      (r.left.toInt + (p.1 : Int), r.top.toInt + (p.2 : Int)) := by
    intro p q same
    simp only [Prod.mk.injEq] at same
    exact Prod.ext (by omega) (by omega)
  unfold pixels pixelCount
  rw [Finset.card_image_of_injective _ apart, Finset.card_product, Finset.card_range,
    Finset.card_range]
  split
  · next empty =>
    -- one factor is zero: a negative extent counts as none
    simp only [isEmpty, Bool.or_eq_true, decide_eq_true_eq] at empty
    rcases empty with h | h <;> simp [Int.toNat_of_nonpos h]
  · rfl

/-- The pixel in the top left corner. -/
theorem topLeft_mem (filled : r.isEmpty = false) : (r.left.toInt, r.top.toInt) ∈ r := by
  simp only [isEmpty_eq_false_iff] at filled
  simp only [mem_iff, rightEdge, bottomEdge]
  omega

/-- The pixel in the bottom right corner, one before each of the far edges. -/
theorem bottomRight_mem (filled : r.isEmpty = false) : (r.rightEdge - 1, r.bottomEdge - 1) ∈ r := by
  simp only [isEmpty_eq_false_iff] at filled
  simp only [mem_iff, rightEdge, bottomEdge]
  omega

/-- A rectangle with pixels is enclosed where its pixels are. -/
theorem encloses_iff_mem (filled : b.isEmpty = false) :
    a.encloses b = true ↔ ∀ p ∈ b, p ∈ a := by
  rw [encloses_iff]
  constructor
  · intro edges p inside
    rw [mem_iff] at *
    omega
  · intro pixels
    have first := mem_iff.1 (pixels _ (topLeft_mem filled))
    have last := mem_iff.1 (pixels _ (bottomRight_mem filled))
    simp only at first last
    omega

theorem pixels_subset_of_encloses (filled : b.isEmpty = false) (h : a.encloses b = true) :
    b.pixels ⊆ a.pixels := by
  intro p inside
  rw [mem_pixels] at *
  exact (encloses_iff_mem filled).1 h p inside

theorem pixelCount_le_of_encloses (filled : b.isEmpty = false) (h : a.encloses b = true) :
    b.pixelCount ≤ a.pixelCount := by
  rw [← card_pixels, ← card_pixels]
  exact Finset.card_le_card (pixels_subset_of_encloses filled h)

/-- An enclosed rectangle with as many pixels is the enclosing one. -/
theorem eq_of_encloses_of_pixelCount_eq (filled : b.isEmpty = false) (h : a.encloses b = true)
    (same : b.pixelCount = a.pixelCount) : a = b := by
  have pixels : b.pixels = a.pixels :=
    Finset.eq_of_subset_of_card_le (pixels_subset_of_encloses filled h)
      (by rw [card_pixels, card_pixels, same])
  have back : b.encloses a = true := by
    rw [encloses_iff_mem (isEmpty_of_encloses h filled)]
    intro p inside
    rwa [← mem_pixels, pixels, mem_pixels]
  exact encloses_antisymm h back

/-! ## Reported edges -/

/-- The nearest 32-bit number to `x`, as an integer. -/
theorem toInt_clamped (x : Int) :
    (Int32.ofIntClamp x).toInt = max (-2 ^ 31) (min x (2 ^ 31 - 1)) := by
  have low := Int32.toInt_minValue
  have high := Int32.toInt_maxValue
  unfold Int32.ofIntClamp
  split
  · split
    · rw [Int32.toInt_ofIntLE]
      omega
    · show Int32.maxValue.toInt = _
      omega
  · show Int32.minValue.toInt = _
    omega

theorem toInt_right (r : Rect) : r.right.toInt = max (-2 ^ 31) (min r.rightEdge (2 ^ 31 - 1)) :=
  toInt_clamped _

theorem toInt_bottom (r : Rect) : r.bottom.toInt = max (-2 ^ 31) (min r.bottomEdge (2 ^ 31 - 1)) :=
  toInt_clamped _

/-- Whether no reported edge of `b` lies outside those of `a`. -/
def spans (a b : Rect) : Bool :=
  decide (a.left ≤ b.left) && decide (a.top ≤ b.top) &&
    decide (b.right ≤ a.right) && decide (b.bottom ≤ a.bottom)

/-- Neither far edge leaves the 32-bit range. -/
def InRange (r : Rect) : Prop :=
  (-2 ^ 31 ≤ r.rightEdge ∧ r.rightEdge < 2 ^ 31) ∧
    (-2 ^ 31 ≤ r.bottomEdge ∧ r.bottomEdge < 2 ^ 31)

theorem spans_iff : a.spans b = true ↔
    a.left.toInt ≤ b.left.toInt ∧ a.top.toInt ≤ b.top.toInt ∧
      b.right.toInt ≤ a.right.toInt ∧ b.bottom.toInt ≤ a.bottom.toInt := by
  simp [spans, Int32.le_iff_toInt_le, and_assoc]

theorem spans_of_encloses (h : a.encloses b = true) : a.spans b = true := by
  rw [encloses_iff] at h
  rw [spans_iff, toInt_right, toInt_right, toInt_bottom, toInt_bottom]
  omega

theorem encloses_eq_spans (outer : a.InRange) (inner : b.InRange) : a.encloses b = a.spans b := by
  unfold InRange at *
  rw [Bool.eq_iff_iff, encloses_iff, spans_iff, toInt_right, toInt_right, toInt_bottom,
    toInt_bottom]
  omega

/-- Clamping can make two far edges equal: both of these end on the last 32-bit column as
reported, and the second is four columns wider. -/
theorem exists_spans_of_not_encloses : ∃ a b : Rect,
    a.isEmpty = false ∧ b.isEmpty = false ∧ a.spans b = true ∧ a.encloses b = false :=
  ⟨⟨2147483647, 0, 1, 1⟩, ⟨2147483647, 0, 5, 1⟩, by decide, by decide, by decide, by decide⟩

/-! ## All of it -/

/-- Enclosure is a partial order on all rectangles. Of a rectangle with pixels it is inclusion of
pixels, so the enclosing one has pixels as well and at least as many, as many only if it is the same
rectangle. Where no far edge leaves the 32-bit range, it is what the reported edges say; elsewhere
they may accept what is not enclosed, and never refuse what is. -/
theorem encloses_laws (a b c : Rect) :
    a.encloses a = true ∧
      (a.encloses b = true → b.encloses c = true → a.encloses c = true) ∧
      (a.encloses b = true → b.encloses a = true → a = b) ∧
      (b.isEmpty = false →
        (a.encloses b = true ↔ ∀ p : Int × Int, p ∈ b → p ∈ a) ∧
        (a.encloses b = true → a.isEmpty = false ∧ b.pixelCount ≤ a.pixelCount ∧
          (b.pixelCount = a.pixelCount ↔ a = b))) ∧
      (a.InRange → b.InRange → a.encloses b = a.spans b) ∧
      (a.encloses b = true → a.spans b = true) ∧
      ∃ outer inner : Rect, outer.isEmpty = false ∧ inner.isEmpty = false ∧
        outer.spans inner = true ∧ outer.encloses inner = false := by
  refine ⟨encloses_self a, encloses_trans, encloses_antisymm, ?_, encloses_eq_spans,
    spans_of_encloses, exists_spans_of_not_encloses⟩
  intro filled
  refine ⟨encloses_iff_mem filled, ?_⟩
  intro h
  have count : b.pixelCount = a.pixelCount ↔ a = b := by
    constructor
    · exact eq_of_encloses_of_pixelCount_eq filled h
    · intro same
      rw [same]
  exact ⟨isEmpty_of_encloses h filled, pixelCount_le_of_encloses filled h, count⟩

/-- A frame that ends beyond the last 32-bit column encloses the one inside it, and the one inside
that; it has more pixels than either. -/
theorem encloses_laws_beyond_last_column :
    let a : Rect := ⟨2147483640, -4, 20, 8⟩
    let b : Rect := ⟨2147483642, -2, 10, 4⟩
    a.encloses ⟨2147483645, -1, 3, 1⟩ = true ∧ a.isEmpty = false ∧
      ¬ b.pixelCount = a.pixelCount := by
  intro a b
  obtain ⟨-, trans, -, filled, -⟩ := encloses_laws a b ⟨2147483645, -1, 3, 1⟩
  obtain ⟨hasPixels, -, count⟩ := (filled (by decide)).2 (by decide)
  exact ⟨trans (by decide) (by decide), hasPixels, mt count.1 (by decide)⟩

end PixelPool.Rect
