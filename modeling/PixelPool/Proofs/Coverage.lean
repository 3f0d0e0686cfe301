import PixelPool.Proofs.Areas
import PixelPool.Proofs.Results
import PixelPool.Proofs.Runs

/-!
The storage of a buffer holds the pixels of its area, at any time.

`Record.Covered` is what a record keeps to, on a given heap: without storage its area is the zero
rectangle, its area has a size in bytes, which is at most that of its storage, and its storage is a
block that the heap can give. Every move keeps it (`World.Step.covers`), also those that fail: a
buffer that loses its storage loses its area too, and one that is taken into use has no area yet, so
that the bytes of a pixel may change. What the pixels of a buffer are follows from it
(`Record.Covered.pixels_eq`).
-/

namespace PixelPool

/-- The heap has room for a block of so many bytes, and there are such blocks. -/
def Heap.Grants (heap : Heap) (size : Nat) : Prop := size ≤ Word.maxBlock ∧ heap size = true

instance (heap : Heap) (size : Nat) : Decidable (heap.Grants size) :=
  inferInstanceAs (Decidable (_ ∧ _))

/-! ## 1. Records -/

/-- The storage of a record holds the pixels of its area, and comes from the heap. -/
structure Record.Covered (x : Record) (heap : Heap) : Prop where
  bare : x.storage = none → x.area = .zero
  covers : ∃ n, byteSize? x.area x.bytesPerPixel = some n ∧ n ≤ x.capacity
  granted : ∀ b, x.storage = some b → heap.Grants b.size

namespace Record.Covered

variable {x y : Record} {heap : Heap}

/-- A record without an area is covered by whatever storage it has. -/
theorem of_zero (empty : x.area = .zero) (granted : ∀ b, x.storage = some b → heap.Grants b.size) :
    x.Covered heap where
  bare _ := empty
  covers := ⟨0, by simp [empty], Nat.zero_le _⟩
  granted := granted

/-- Only the content of a record and the size of its storage matter. -/
theorem of_same (h : x.Covered heap) (area : y.area = x.area)
    (bytesPerPixel : y.bytesPerPixel = x.bytesPerPixel)
    (storage : y.storage.map Block.size = x.storage.map Block.size) : y.Covered heap where
  bare none := by
    rw [none, Option.map_none] at storage
    rw [area, h.bare (Option.map_eq_none_iff.1 storage.symm)]
  covers := by simpa [area, bytesPerPixel, capacity, storage] using h.covers
  granted b stored := by
    rw [stored, Option.map_some] at storage
    obtain ⟨b', stored', same⟩ := Option.map_eq_some_iff.1 storage.symm
    exact same ▸ h.granted b' stored'

theorem contentSize_eq (h : x.Covered heap) : x.contentSize = byteSize x.area x.bytesPerPixel := by
  obtain ⟨n, size, -⟩ := h.covers
  simp [contentSize, size, (byteSize?_eq_some_iff.1 size).2.2.1]

theorem contentSize_le (h : x.Covered heap) : x.contentSize ≤ x.capacity := by
  obtain ⟨n, size, fits⟩ := h.covers
  simpa [contentSize, size] using fits

/-- The pixels of a buffer with storage are the first bytes of it. -/
theorem pixels_eq (h : x.Covered heap) : x.pixels = x.storage.map (·.truncate x.contentSize) := by
  cases stored : x.storage with
  | none => simp [pixels, stored]
  | some b =>
    have fits : x.contentSize ≤ b.size := by simpa [capacity, stored] using h.contentSize_le
    simp [pixels, stored, fits]

theorem size_pixels (h : x.Covered heap) {p : Block} (shown : x.pixels = some p) :
    p.size = byteSize x.area x.bytesPerPixel := by
  rw [h.pixels_eq] at shown
  obtain ⟨b, stored, rfl⟩ := Option.map_eq_some_iff.1 shown
  have fits : x.contentSize ≤ b.size := by simpa [capacity, stored] using h.contentSize_le
  rw [Block.size_truncate, Nat.min_eq_left fits, h.contentSize_eq]

/-- The pixels of an unpublished buffer with a single reference can be written if it has storage. -/
theorem write_of_stored (h : x.Covered heap) {b : Block} (stored : x.storage = some b)
    (free : ¬ (x.references ≠ 1 ∨ x.published = true)) (fill : Nat → UInt8) :
    x.write fill
      = some (x.contentSize, { x with storage := some (b.overwrite x.contentSize fill) }) := by
  have fits : x.contentSize ≤ b.size := by simpa [capacity, stored] using h.contentSize_le
  rw [Record.write, if_neg free, stored, Option.bind_some, if_pos fits]

theorem write (h : x.Covered heap) {n : Nat} {fill : Nat → UInt8}
    (written : x.write fill = some (n, y)) : y.Covered heap := by
  obtain ⟨-, -, b, stored, rfl⟩ := Record.write_eq written
  exact h.of_same rfl rfl (by simp [stored])

end Record.Covered

/-! ## 2. Storage that was granted -/

namespace Allocator

variable {s after : Allocator} {heap : Heap} {n : Nat} {b : Block}

theorem allocateIf_eq_ok {room : Bool} (h : s.allocateIf room n = (.ok b, after)) :
    b = .zeroed n ∧ n ≤ Word.maxBlock ∧ room = true := by
  unfold allocateIf at h
  split at h
  · cases h
  · next small =>
    split at h
    · cases h
    · split at h
      · next granted =>
        cases h
        exact ⟨rfl, Nat.le_of_not_lt small, granted⟩
      · cases h

/-- What is granted has the size that was asked for, and the heap has room for that. -/
theorem allocate_eq_ok (h : s.allocate heap n = (.ok b, after)) :
    b = .zeroed n ∧ heap.Grants n :=
  allocateIf_eq_ok h

end Allocator

/-- A record that was moved to an area is covered, and so is one that could not be moved. -/
theorem Store.Fits.covers {w w' : Store} {r : RecordId} {x y : Record} {area : Rect}
    {outcome : Except StorageError Bool} (fits : w.Fits r x area outcome w')
    (hx : w.records.get? r = some x) (hy : w'.records.get? r = some y)
    (covered : x.Covered w.host.heap) : y.Covered w.host.heap := by
  cases fits with
  | invalid =>
    obtain rfl := Option.some.inj (hx.symm.trans hy)
    exact covered
  | kept size stored enough =>
    obtain rfl : { x with area } = y := by simpa [Table.get?_update, hx] using hy
    refine ⟨fun none => ?_, ⟨_, size, enough⟩, covered.granted⟩
    rw [none] at stored
    cases stored
  | renewed size lacking source granted =>
    obtain ⟨rfl, room⟩ := Allocator.allocate_eq_ok granted
    obtain rfl : { x with area, storage := some (.zeroed _) } = y := by
      simpa [Table.get?_update, hx] using hy
    refine ⟨nofun, ⟨_, size, by simp [Record.capacity]⟩, fun b stored => ?_⟩
    rw [← Option.some.inj stored, Block.size_zeroed]
    exact room
  | lost size lacking source refused =>
    obtain rfl : { x with area := .zero, storage := none } = y := by
      simpa [Table.get?_update, hx] using hy
    exact .of_zero rfl nofun

/-! ## 3. Every move -/

namespace World

/-- All records are covered. -/
def Covered (W : World) : Prop :=
  ∀ r x, W.store.records.get? r = some x → x.Covered W.store.host.heap

variable {W W' : World} {m : Move} {r : RecordId}

/-- Records of which one was replaced by a covered one. -/
theorem Covered.of_update (h : W.Covered) {y : Record} (here : y.Covered W.store.host.heap)
    (update : W'.store.records = W.store.records.update r fun _ => y)
    (host : W'.store.host = W.store.host) : W'.Covered := by
  intro j x hx
  rw [host]
  rw [update, Table.get?_update] at hx
  split at hx
  · obtain ⟨-, -, rfl⟩ := Option.map_eq_some_iff.1 hx
    exact here
  · exact h j x hx

/-- Records of which one is gone. -/
theorem Covered.of_without (h : W.Covered) {w : Store} (ended : W'.store = w.without r)
    (same : w.records = W.store.records) (host : w.host = W.store.host) : W'.Covered := by
  intro j x hx
  rw [ended, Store.host_without, host]
  rw [ended, Store.get?_records_without, same] at hx
  exact h j x (Option.ite_none_left_eq_some.1 hx).2

/-- Records of which one was moved. -/
theorem Covered.refit (h : W.Covered) {w : Store} {x : Record} {area : Rect}
    {outcome : Except StorageError Bool} (hx : W.store.records.get? r = some x)
    (fits : W.store.Fits r x area outcome w) : ({ W with store := w } : World).Covered := by
  intro j y hy
  rw [fits.host]
  by_cases hj : j = r
  · subst hj
    exact fits.covers hx hy (h _ x hx)
  · exact h j y ((fits.get?_of_ne hj).symm.trans hy)

/-- Every move keeps all records covered. -/
theorem Step.covers (move : Step m W W') (sound : W.Sound) (h : W.Covered) : W'.Covered := by
  induction move with
  | @retain W b x hx =>
    exact h.of_update (y := { x with references := x.references + 1 })
      ((h _ _ hx).of_same rfl rfl rfl) rfl rfl
  | @letGo W H b x held hx =>
    exact h.of_update (y := { x with references := x.references - 1 })
      ((h _ _ hx).of_same rfl rfl rfl) rfl rfl
  | @publish W b x s held hx =>
    exact h.of_update (y := x.markPublished b.cache) ((h _ _ hx).of_same rfl rfl rfl) rfl rfl
  | @withdraw W r x s k hx =>
    exact h.of_update (y := x.unmark.withoutArea) (.of_zero rfl (h _ _ hx).granted) rfl rfl
  | refit hx undone sole fits => exact fun j x => h.refit hx fits j x
  | refitFailed hx undone sole fails => exact h.refit hx fails
  | write held hx written => exact h.of_update ((h _ _ hx).write written) rfl rfl
  | @reuse W c s r rest x i hs top hx =>
    obtain ⟨_, hy, hc, -, image, -⟩ := sound.idle_of_slot (r := r) hs (by simp [top])
    obtain rfl := Option.some.inj (hx.symm.trans hy)
    exact h.of_update (y := x.takenFor i) (.of_zero (hc.idle image).1 (h _ _ hx).granted) rfl
      rfl
  | @make W c s i hs empty =>
    intro j x hx
    simp only [Table.get?_add] at hx
    split at hx
    · obtain rfl := Option.some.inj hx
      exact .of_zero rfl nofun
    · exact h j x hx
  | @keep W H b x s held hx =>
    exact h.of_update (y := x.parked) (.of_zero rfl (h _ _ hx).granted) rfl rfl
  | free => exact h.of_without rfl rfl rfl
  | outlive => exact h.of_without rfl rfl rfl
  | discard => exact h.of_without rfl rfl rfl
  | retire withdrawn parted how withdraws parts =>
    exact parts (sound.step withdrawn) (withdraws sound h)
  | @tearDown W O c s held hs last =>
    intro j x hx
    rw [(Step.tearDown held hs last).host]
    rw [Store.get?_records_tornDown] at hx
    split at hx
    · cases hx
    · split at hx
      · obtain ⟨y, hy, rfl⟩ := Option.map_eq_some_iff.1 hx
        exact (h j y hy).of_same rfl rfl rfl
      · exact h j x hx
  | emptyReserve hs =>
    intro j x hx
    rw [(Step.emptyReserve hs).host]
    rw [Store.get?_records_emptied] at hx
    exact h j x (Option.ite_none_left_eq_some.1 hx).2
  | _ => exact h

/-- What is known of all worlds that a session comes to. -/
structure Whole (W : World) : Prop where
  sound : W.Sound
  covered : W.Covered

/-- Moves keep that. -/
theorem Whole.reaches (h : W.Whole) (moves : W.Reaches (fun _ => True) W') : W'.Whole :=
  moves.keeps (fun _ _ _ _ move whole =>
    ⟨whole.sound.step move, move.covers whole.sound whole.covered⟩) h

/-- And programs. -/
theorem Whole.leads {α : Type} {program : Except Fault α} {post : α → World → Prop} {a : α}
    (h : W.Whole) (run : program = .ok a) (does : W.Does (fun _ => True) program post) :
    ∃ V : World, V.Whole ∧ post a V := by
  obtain ⟨V, moves, holds⟩ := does.reaches run
  exact ⟨V, h.reaches moves, holds⟩

end World

namespace Session

theorem covered_start {w : Store} (h : w.Initial) (out : Multiset Loan) :
    ((start w).world out).Covered := by
  intro r x hx
  cases (h.get?_records r).symm.trans hx

/-- In every session that acts lead to, the storage of every buffer holds the pixels of its area. -/
theorem Reachable.covered {s : Session} (h : s.Reachable) {r : RecordId} {x : Record}
    (hx : s.store.records.get? r = some x) : x.Covered s.store.host.heap := by
  obtain ⟨w, acts, initial, rfl⟩ := h
  have kept := (sound_start initial).run_keeps (I := World.Covered) acts
    (fun m V V' sound move covered => move.covers sound covered) (covered_start initial 0)
  exact kept r x hx

end Session

end PixelPool
