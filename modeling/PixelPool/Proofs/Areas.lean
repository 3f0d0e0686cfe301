import PixelPool.Proofs.Effects

/-!
Areas and the bytes they take.

An area has a size in bytes exactly if its extents are not negative and the bytes are no more than
one block can have (`byteSize?_eq_some_iff`): the products of two extents never leave the machine
word, so that the last check is the only one that matters. An area that lies inside another one
takes no more bytes (`byteSize_le_of_encloses`).
-/

namespace PixelPool

namespace Rect

variable {a b : Rect}

@[simp] theorem isEmpty_zero : zero.isEmpty = true := rfl

theorem width_le_of_encloses (h : a.encloses b = true) : b.width.toInt ≤ a.width.toInt := by
  obtain ⟨left, -, right, -⟩ := encloses_iff.1 h
  unfold rightEdge at right
  omega

theorem height_le_of_encloses (h : a.encloses b = true) : b.height.toInt ≤ a.height.toInt := by
  obtain ⟨-, top, -, bottom⟩ := encloses_iff.1 h
  unfold bottomEdge at bottom
  omega

@[simp] theorem encloses_self (a : Rect) : a.encloses a = true :=
  encloses_iff.2 ⟨le_rfl, le_rfl, le_rfl, le_rfl⟩

/-- What encloses an area with pixels has pixels. -/
theorem isEmpty_of_encloses (h : a.encloses b = true) (filled : b.isEmpty = false) :
    a.isEmpty = false := by
  have wide := width_le_of_encloses h
  have high := height_le_of_encloses h
  rw [isEmpty_eq_false_iff] at filled ⊢
  omega

end Rect

/-- The bytes of an area, where its extents are not negative and the bytes are few enough. -/
def byteSize (area : Rect) (bytesPerPixel : Nat) : Nat :=
  area.width.toInt.toNat * area.height.toInt.toNat * bytesPerPixel

variable {area b : Rect} {bytesPerPixel n : Nat}

/-- The number of pixels always fits a machine word. -/
theorem extents_le_max (area : Rect) :
    area.width.toInt.toNat * area.height.toInt.toNat ≤ Word.max := by
  have wide : area.width.toInt.toNat ≤ 2 ^ 31 := by
    have := area.width.toInt_lt
    omega
  have high : area.height.toInt.toNat ≤ 2 ^ 31 := by
    have := area.height.toInt_lt
    omega
  calc area.width.toInt.toNat * area.height.toInt.toNat
      ≤ 2 ^ 31 * 2 ^ 31 := Nat.mul_le_mul wide high
    _ ≤ Word.max := by decide

/-- The only areas without a size are those with a negative extent, and those that are too large for
a block. -/
theorem byteSize?_eq_some_iff : byteSize? area bytesPerPixel = some n ↔
    0 ≤ area.width.toInt ∧ 0 ≤ area.height.toInt ∧ n = byteSize area bytesPerPixel ∧
      n ≤ Word.maxBlock := by
  have pixels : Word.mul? area.width.toInt.toNat area.height.toInt.toNat
      = some (area.width.toInt.toNat * area.height.toInt.toNat) :=
    Word.mul?_eq_some_iff.2 ⟨rfl, extents_le_max area⟩
  have blocks : Word.maxBlock ≤ Word.max := by decide
  unfold byteSize? byteSize
  split
  · next negative =>
    refine iff_of_false (by simp) ?_
    omega
  · next extents =>
    simp only [pixels, Option.bind_eq_bind, Option.bind_some, Option.bind_eq_some_iff,
      Word.mul?_eq_some_iff, Option.ite_none_right_eq_some, Option.some.injEq]
    constructor
    · rintro ⟨m, ⟨rfl, -⟩, fits, rfl⟩
      exact ⟨by omega, by omega, rfl, fits⟩
    · rintro ⟨-, -, rfl, fits⟩
      exact ⟨_, ⟨rfl, fits.trans blocks⟩, fits, rfl⟩

@[simp] theorem byteSize?_zero (bytesPerPixel : Nat) : byteSize? .zero bytesPerPixel = some 0 :=
  byteSize?_eq_some_iff.2 ⟨le_rfl, le_rfl, by simp [byteSize, Rect.zero], Nat.zero_le _⟩

theorem storageSize_eq_ok_iff :
    storageSize area bytesPerPixel = .ok n ↔ byteSize? area bytesPerPixel = some n := by
  unfold storageSize
  split <;> simp_all

/-- An area inside another one takes no more bytes. -/
theorem byteSize_le_of_encloses (h : area.encloses b = true) :
    byteSize b bytesPerPixel ≤ byteSize area bytesPerPixel := by
  have wide := Rect.width_le_of_encloses h
  have high := Rect.height_le_of_encloses h
  exact Nat.mul_le_mul_right _ (Nat.mul_le_mul (by omega) (by omega))

end PixelPool
