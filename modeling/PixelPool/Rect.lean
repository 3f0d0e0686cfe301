/-!
Rectangles of pixels on the integer grid.

A rectangle is four 32-bit numbers and nothing is assumed of them: extents may be zero or negative,
and an edge may lie outside the 32-bit range. The reported edges `right` and `bottom` are therefore
clamped, while `encloses` compares the exact edges, so that extreme coordinates never change its
answer.
-/

namespace PixelPool

/-- A rectangle given by its top left corner and its extent. -/
structure Rect where
  left : Int32
  top : Int32
  width : Int32
  height : Int32
  deriving DecidableEq

namespace Rect

/-- The rectangle at the origin without extent, which stands for "no area". -/
def zero : Rect := ⟨0, 0, 0, 0⟩

/-- The exact right edge, the first column that is no longer inside. -/
def rightEdge (r : Rect) : Int := r.left.toInt + r.width.toInt

/-- The exact bottom edge, the first row that is no longer inside. -/
def bottomEdge (r : Rect) : Int := r.top.toInt + r.height.toInt

/-- The right edge as a 32-bit number, clamped to the nearest one. -/
def right (r : Rect) : Int32 := Int32.ofIntClamp r.rightEdge

/-- The bottom edge as a 32-bit number, clamped to the nearest one. -/
def bottom (r : Rect) : Int32 := Int32.ofIntClamp r.bottomEdge

/-- A rectangle is empty unless both extents are positive. -/
def isEmpty (r : Rect) : Bool := decide (r.width.toInt ≤ 0) || decide (r.height.toInt ≤ 0)

/-- The number of pixels inside, none for an empty rectangle. -/
def pixelCount (r : Rect) : Nat :=
  if r.isEmpty then 0 else r.width.toInt.toNat * r.height.toInt.toNat

/-- Whether no edge of `b` lies outside `a`. Only edges are compared, so an empty rectangle on the
border of `a`, corners included, counts as enclosed. -/
def encloses (a b : Rect) : Bool :=
  decide (a.left.toInt ≤ b.left.toInt) && decide (a.top.toInt ≤ b.top.toInt) &&
    decide (b.rightEdge ≤ a.rightEdge) && decide (b.bottomEdge ≤ a.bottomEdge)

/-- The pixel `p` (column, row) lies in `r`: from the corner on, and before the far edges. -/
instance : Membership (Int × Int) Rect where
  mem r p := r.left.toInt ≤ p.1 ∧ p.1 < r.rightEdge ∧ r.top.toInt ≤ p.2 ∧ p.2 < r.bottomEdge

/-- The usual geometry text, extent first and then the corner: `4x3+10+-2`. -/
def geometry (r : Rect) : String :=
  s!"{r.width.toInt}x{r.height.toInt}+{r.left.toInt}+{r.top.toInt}"

/-- The rectangle field by field, for diagnostics. -/
def describe (r : Rect) : String :=
  s!"Rect \x7b left: {r.left.toInt}, top: {r.top.toInt}, " ++
    s!"width: {r.width.toInt}, height: {r.height.toInt} \x7d"

theorem encloses_iff {a b : Rect} : a.encloses b = true ↔
    a.left.toInt ≤ b.left.toInt ∧ a.top.toInt ≤ b.top.toInt ∧
      b.rightEdge ≤ a.rightEdge ∧ b.bottomEdge ≤ a.bottomEdge := by
  simp [encloses, and_assoc]

theorem isEmpty_eq_false_iff {r : Rect} :
    r.isEmpty = false ↔ 0 < r.width.toInt ∧ 0 < r.height.toInt := by
  simp [isEmpty]

end Rect

end PixelPool
