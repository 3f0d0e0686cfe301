import PixelPool.Proofs.Areas

/-!
The bytes of an area: as exact integers, and as the machine words in which they are computed.

* An area has a size exactly if its extents are not negative and their product with the bytes of a
  pixel, over all integers, is no more than a block can have; the size is that product
  (`storageSize_eq_ok_iff_exact`). Everything else is refused by naming the area and the bytes of a
  pixel (`storageSize_eq_error`).
* Words are multiplied modulo `2 ^ 64`. A checked product is one that loses nothing by that
  (`Word.isSome_mul?_iff`), so the words of a computed size are the exact numbers
  (`toNat_pixelWord`, `toNat_byteWord`). The product of two extents never wraps, and a size that
  would is refused.
* What lies inside an area that has a size has one too, and it is no larger
  (`storageSize_of_encloses`).
-/

namespace PixelPool

/-! ## 1. Products of words -/

namespace Word

variable {a b : Nat}

theorem toNat_ofNat_mul (a b : Nat) :
    (UInt64.ofNat a * UInt64.ofNat b).toNat = a * b % 2 ^ 64 := by
  rw [UInt64.toNat_mul, UInt64.toNat_ofNat', UInt64.toNat_ofNat', ← Nat.mul_mod]

/-- The product of two words is refused exactly if the machine's product is another number. -/
theorem isSome_mul?_iff :
    (mul? a b).isSome ↔ (UInt64.ofNat a * UInt64.ofNat b).toNat = a * b := by
  rw [toNat_ofNat_mul, Option.isSome_iff_exists]
  simp only [mul?_eq_some_iff, max, exists_eq_left]
  omega

end Word

/-! ## 2. The exact size -/

variable {area b : Rect} {bytesPerPixel n : Nat}

/-- The size of an area with extents that are not negative is the product over the integers. -/
theorem byteSize_eq (wide : 0 ≤ area.width.toInt) (high : 0 ≤ area.height.toInt) :
    (byteSize area bytesPerPixel : Int)
      = area.width.toInt * area.height.toInt * bytesPerPixel := by
  unfold byteSize
  rw [Int.natCast_mul, Int.natCast_mul, Int.toNat_of_nonneg wide, Int.toNat_of_nonneg high]

/-- An area of which the bytes can be counted, and held in one block. -/
def HasSize (area : Rect) (bytesPerPixel : Nat) : Prop :=
  0 ≤ area.width.toInt ∧ 0 ≤ area.height.toInt ∧
    area.width.toInt * area.height.toInt * bytesPerPixel ≤ 2 ^ 63 - 1

theorem storageSize_eq_ok_iff_exact : storageSize area bytesPerPixel = .ok n ↔
    HasSize area bytesPerPixel ∧
      (n : Int) = area.width.toInt * area.height.toInt * bytesPerPixel := by
  rw [storageSize_eq_ok_iff, byteSize?_eq_some_iff]
  unfold HasSize Word.maxBlock
  constructor
  · rintro ⟨wide, high, rfl, fits⟩
    have product : (byteSize area bytesPerPixel : Int) = _ := byteSize_eq wide high
    omega
  · rintro ⟨⟨wide, high, fits⟩, same⟩
    have product : (byteSize area bytesPerPixel : Int) = _ := byteSize_eq wide high
    omega

theorem storageSize_of_hasSize (sized : HasSize area bytesPerPixel) :
    storageSize area bytesPerPixel = .ok (byteSize area bytesPerPixel) :=
  storageSize_eq_ok_iff_exact.2 ⟨sized, byteSize_eq sized.1 sized.2.1⟩

theorem storageSize_eq_error (unsized : ¬ HasSize area bytesPerPixel) :
    storageSize area bytesPerPixel = .error (.invalidArea area bytesPerPixel) := by
  have refused : byteSize? area bytesPerPixel = none := by
    rw [Option.eq_none_iff_forall_ne_some]
    intro n size
    exact unsized (storageSize_eq_ok_iff_exact.1 (storageSize_eq_ok_iff.2 size)).1
  simp only [storageSize, refused]

/-! ## 3. The size in words -/

/-- The number of pixels as the machine multiplies the extents. -/
def Rect.pixelWord (area : Rect) : UInt64 :=
  UInt64.ofNat area.width.toInt.toNat * UInt64.ofNat area.height.toInt.toNat

/-- The number of bytes as the machine goes on from the number of pixels. -/
def byteWord (area : Rect) (bytesPerPixel : Nat) : UInt64 :=
  area.pixelWord * UInt64.ofNat bytesPerPixel

/-- Two extents never have a product beyond a word. -/
theorem toNat_pixelWord (area : Rect) :
    area.pixelWord.toNat = area.width.toInt.toNat * area.height.toInt.toNat := by
  have fits : (Word.mul? area.width.toInt.toNat area.height.toInt.toNat).isSome := by
    rw [Word.mul?_eq_some_iff.2 ⟨rfl, extents_le_max area⟩]
    rfl
  exact Word.isSome_mul?_iff.1 fits

theorem toNat_byteWord (area : Rect) (bytesPerPixel : Nat) :
    (byteWord area bytesPerPixel).toNat = byteSize area bytesPerPixel % 2 ^ 64 := by
  have pixels : area.pixelWord
      = UInt64.ofNat (area.width.toInt.toNat * area.height.toInt.toNat) := by
    rw [← toNat_pixelWord, UInt64.ofNat_toNat]
  rw [byteWord, pixels, Word.toNat_ofNat_mul, byteSize]

/-- The word of a size is the size. -/
theorem toNat_byteWord_of_ok (size : storageSize area bytesPerPixel = .ok n) :
    (byteWord area bytesPerPixel).toNat = n := by
  obtain ⟨-, -, rfl, fits⟩ := byteSize?_eq_some_iff.1 (storageSize_eq_ok_iff.1 size)
  unfold Word.maxBlock at fits
  rw [toNat_byteWord]
  omega

/-! ## 4. Sizes and enclosure -/

theorem storageSize_of_encloses (h : area.encloses b = true) (wide : 0 ≤ b.width.toInt)
    (high : 0 ≤ b.height.toInt) (size : storageSize area bytesPerPixel = .ok n) :
    ∃ m, storageSize b bytesPerPixel = .ok m ∧ m ≤ n := by
  obtain ⟨-, -, rfl, fits⟩ := byteSize?_eq_some_iff.1 (storageSize_eq_ok_iff.1 size)
  have smaller : byteSize b bytesPerPixel ≤ byteSize area bytesPerPixel :=
    byteSize_le_of_encloses h
  refine ⟨byteSize b bytesPerPixel, ?_, smaller⟩
  rw [storageSize_eq_ok_iff, byteSize?_eq_some_iff]
  exact ⟨wide, high, rfl, smaller.trans fits⟩

/-! ## 5. All of it -/

/-- The size of an area is the exact product of its extents and the bytes of a pixel, given exactly
where that product makes sense and one block can have as many bytes; everything else is refused,
naming what was asked for. No word on the way wraps: the number of pixels never does, the number of
bytes does not where there is a size, and there is none where it would. An area inside one that has
a size has a size as well, and no larger one. -/
theorem storageSize_laws (a b : Rect) (bytesPerPixel : Nat) :
    (∀ n, storageSize a bytesPerPixel = .ok n ↔ HasSize a bytesPerPixel ∧
        (n : Int) = a.width.toInt * a.height.toInt * bytesPerPixel) ∧
      (¬ HasSize a bytesPerPixel →
        storageSize a bytesPerPixel = .error (.invalidArea a bytesPerPixel)) ∧
      (0 ≤ a.width.toInt → 0 ≤ a.height.toInt →
        (a.pixelWord.toNat : Int) = a.width.toInt * a.height.toInt ∧
        (((byteWord a bytesPerPixel).toNat : Int)
            ≠ a.width.toInt * a.height.toInt * bytesPerPixel →
          storageSize a bytesPerPixel = .error (.invalidArea a bytesPerPixel))) ∧
      (∀ n, storageSize a bytesPerPixel = .ok n → (byteWord a bytesPerPixel).toNat = n) ∧
      ∀ n, a.encloses b = true → 0 ≤ b.width.toInt → 0 ≤ b.height.toInt →
        storageSize a bytesPerPixel = .ok n →
          ∃ m, storageSize b bytesPerPixel = .ok m ∧ m ≤ n := by
  refine ⟨fun n => storageSize_eq_ok_iff_exact, storageSize_eq_error, ?_,
    fun n => toNat_byteWord_of_ok, fun n => storageSize_of_encloses⟩
  intro wide high
  constructor
  · rw [toNat_pixelWord, Int.natCast_mul, Int.toNat_of_nonneg wide, Int.toNat_of_nonneg high]
  · intro wraps
    apply storageSize_eq_error
    intro sized
    have word := toNat_byteWord_of_ok (storageSize_of_hasSize sized)
    rw [word] at wraps
    exact wraps (byteSize_eq wide high)

/-- The largest square has room for two bytes a pixel. With three it has no size although no word
wraps, and with five the number of bytes would wrap. A strip of seven columns at its right edge is
smaller. -/
theorem storageSize_laws_largest_square :
    let a : Rect := ⟨0, 0, 2147483647, 2147483647⟩
    storageSize a 2 = .ok 9223372028264841218 ∧
      (byteWord a 2).toNat = 9223372028264841218 ∧
      (a.pixelWord.toNat : Int) = a.width.toInt * a.height.toInt ∧
      storageSize a 3 = .error (.invalidArea a 3) ∧
      storageSize a 5 = .error (.invalidArea a 5) ∧
      ∃ m, storageSize ⟨2147483640, 0, 7, 2147483647⟩ 2 = .ok m ∧ m ≤ 9223372028264841218 := by
  intro a
  obtain ⟨sizes, -, words, word, inside⟩ :=
    storageSize_laws a ⟨2147483640, 0, 7, 2147483647⟩ 2
  have size : storageSize a 2 = .ok 9223372028264841218 :=
    (sizes 9223372028264841218).2 ⟨by unfold HasSize; decide, by decide⟩
  have three := (storageSize_laws a a 3).2.1 (by unfold HasSize; decide)
  have five := ((storageSize_laws a a 5).2.2.1 (by decide) (by decide)).2
    (by rw [toNat_byteWord]; decide)
  exact ⟨size, word _ size, (words (by decide) (by decide)).1, three, five,
    inside _ (by decide) (by decide) (by decide) size⟩

end PixelPool
