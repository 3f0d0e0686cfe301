import PixelPool.Proofs.Exchanges
import PixelPool.Proofs.Sizes

/-!
What a request checks, and what it takes from the published buffer that it finds.

A request looks at the keys of images and at the edges of areas. If no published buffer will do, it
acquires one, which checks the size of the area and provides storage for it; if one will do, nothing
else is checked: not whether the area has a size, not whether the buffer has storage, and not how
many bytes a pixel the buffer was acquired with (`World.Sound.request_answer`). Main statements:
`Session.Reachable.request_validity` for sizes and pixels, and `Session.capacity_of_obtained` for
the bytes a pixel.
-/

namespace PixelPool

/-! ## 1. Buffers that a request acquires -/

/-- Only an exchange with a handle of the cache and of the image is not refused as a violation. -/
theorem Store.own_of_exchange {w v : Store} {c : CacheId} {i : Image} {area : Rect} {d : Handle}
    {outcome : Except Refusal Handle} (run : w.exchange c (some d) i area = .ok (outcome, v))
    (proper : ∀ violation, outcome ≠ .error (.violation violation)) :
    d.cache = c ∧ d.image = i.key := by
  by_contra other
  have refused : ∃ violation, w.exchange c (some d) i area
      = (w.dropHandle d >>= fun v => .ok (.error (.violation violation), v)) := by
    by_cases foreign : d.cache ≠ c
    · exact ⟨.foreignCache, by simp [Store.exchange, foreign]⟩
    · have own := not_not.1 foreign
      have image : d.image ≠ i.key := fun image => other ⟨own, image⟩
      exact ⟨.otherImage, by simp [Store.exchange, own, image]⟩
  obtain ⟨violation, same⟩ := refused
  rw [same] at run
  cases dropped : w.dropHandle d with
  | error fault => simp [dropped] at run
  | ok u =>
    rw [dropped] at run
    cases run
    exact proper violation rfl

namespace World.Sound

variable {W : World} {c : CacheId} {s : Cache} {i : Image} {area : Rect} {b : Handle} {v : Store}
  {outcome : Except StorageError Handle}

/-- An area that has no size in bytes is refused. -/
theorem acquire_of_invalid (h : W.Sound) (hs : W.store.caches.get? c = some s)
    (invalid : byteSize? area i.bytesPerPixel = none) :
    ∃ v, W.store.acquire c i area
      = .ok (.error (.invalidArea area i.bytesPerPixel), v) := by
  obtain ⟨r, x, u, outcome, w, taken, fits, run⟩ := h.acquire_eq hs i area
  obtain ⟨-, bytesPerPixel, -⟩ := taken.bound
  rw [← bytesPerPixel] at invalid ⊢
  cases fits with
  | invalid => exact ⟨_, run⟩
  | kept size | renewed size | lost size => simp [invalid] at size

/-- A buffer that is acquired has storage. -/
theorem acquire_stored (h : W.Sound) (hs : W.store.caches.get? c = some s)
    (run : W.store.acquire c i area = .ok (.ok b, v)) :
    ∃ x, v.records.get? b.record = some x ∧ x.storage.isSome = true := by
  obtain ⟨r, x, u, outcome, w, taken, fits, acquired⟩ := h.acquire_eq hs i area
  rw [acquired] at run
  cases outcome with
  | error e => cases run
  | ok newBlock =>
    obtain ⟨block, hy⟩ := fits.moved taken.get?
    cases run
    exact ⟨_, hy, rfl⟩

/-- A request is answered with a published buffer if one encloses the area. -/
theorem request_of_listed (h : W.Sound) (hs : W.store.caches.get? c = some s)
    (run : W.store.request c i area = .ok (outcome, v)) {r : RecordId}
    (hr : r ∈ W.store.listOf c i.key) (encloses : (W.store.areaOf r).encloses area = true) :
    ∃ r ∈ W.store.listOf c i.key, (W.store.areaOf r).encloses area = true ∧
      outcome = .ok ⟨r, c, i.key⟩ := by
  cases hit : W.store.hit? c i.key area with
  | some r =>
    obtain ⟨listed, encloses⟩ := Store.mem_of_hit? hit
    obtain ⟨y, hy, -⟩ := h.exists_listed listed
    have found := (h.request_of_hit hs hit hy).symm.trans run
    rw [Except.ok.injEq, Prod.mk.injEq] at found
    exact ⟨r, listed, encloses, found.1.symm⟩
  | none => simp [Store.hit?_eq_none_iff.1 hit r hr] at encloses

/-- A request for an area that has no size in bytes is refused if no published buffer encloses
it. -/
theorem request_of_invalid (h : W.Sound) (hs : W.store.caches.get? c = some s)
    (run : W.store.request c i area = .ok (outcome, v))
    (miss : ∀ r ∈ W.store.listOf c i.key, (W.store.areaOf r).encloses area = false)
    (invalid : byteSize? area i.bytesPerPixel = none) :
    outcome = .error (.invalidArea area i.bytesPerPixel) := by
  have missed := h.request_of_miss hs (Store.hit?_eq_none_iff.2 miss)
  obtain ⟨w, refused⟩ := (h.count c .addMiss).acquire_of_invalid (c := c)
    (Store.get?_caches_count hs .addMiss) invalid
  have same := (missed.trans refused).symm.trans run
  rw [Except.ok.injEq, Prod.mk.injEq] at same
  exact same.1.symm

/-- What a request is answered with: a published buffer that encloses the area, with one reference
more, or one that was acquired and has storage. -/
theorem request_answer (h : W.Sound) (hs : W.store.caches.get? c = some s)
    (run : W.store.request c i area = .ok (.ok b, v)) :
    (∃ y, b.record ∈ W.store.listOf c i.key ∧ W.store.records.get? b.record = some y ∧
      y.area.encloses area = true ∧
      v.records.get? b.record = some { y with references := y.references + 1 }) ∨
    ∃ x, v.records.get? b.record = some x ∧ x.storage.isSome = true := by
  cases hit : W.store.hit? c i.key area with
  | some r =>
    obtain ⟨listed, encloses⟩ := Store.mem_of_hit? hit
    obtain ⟨y, hy, -⟩ := h.exists_listed listed
    rw [Store.areaOf_of_get? hy] at encloses
    cases (h.request_of_hit hs hit hy).symm.trans run
    exact .inl ⟨y, listed, hy, encloses, by simp [Store.retained, Table.get?_update, hy]⟩
  | none =>
    rw [h.request_of_miss hs hit] at run
    exact .inr ((h.count c .addMiss).acquire_stored (c := c)
      (Store.get?_caches_count hs .addMiss) run)

end World.Sound

/-- Pixels of a covered record are there if its storage is. -/
theorem Record.Covered.isSome_pixels {x : Record} {heap : Heap} (h : x.Covered heap) :
    x.pixels.isSome = x.storage.isSome := by
  rw [h.pixels_eq, Option.isSome_map]

namespace Session

variable {s : Session} {c : CacheId} {z : Cache} {i : Image} {area : Rect} {b : Handle} {v : Store}

/-! ## 2. Sizes and pixels -/

/-- In every session that acts lead to, a request is answered with a published buffer if the area of
one encloses the area, whatever size that has. If there is none, an area without a size in bytes is
refused, as acquiring a buffer for it is in any case. What is answered has pixels, unless it is a
published buffer without storage: its area is the zero rectangle, and encloses the area. An acquired
buffer always has pixels. -/
theorem Reachable.request_validity (h : s.Reachable) (hs : s.store.caches.get? c = some z)
    (i : Image) (area : Rect) :
    ∃ outcome v, s.store.request c i area = .ok (outcome, v) ∧
      ((∃ r ∈ s.store.listOf c i.key, (s.store.areaOf r).encloses area = true) →
        ∃ r ∈ s.store.listOf c i.key, (s.store.areaOf r).encloses area = true ∧
          outcome = .ok ⟨r, c, i.key⟩) ∧
      ((∀ r ∈ s.store.listOf c i.key, (s.store.areaOf r).encloses area = false) →
        byteSize? area i.bytesPerPixel = none →
          outcome = .error (.invalidArea area i.bytesPerPixel)) ∧
      (byteSize? area i.bytesPerPixel = none → ∃ w, s.store.acquire c i area
        = .ok (.error (.invalidArea area i.bytesPerPixel), w)) ∧
      (∀ b, outcome = .ok b → ∃ x, v.records.get? b.record = some x ∧
        (x.pixels.isSome = true ∨ b.record ∈ s.store.listOf c i.key ∧ x.storage = none ∧
          x.area = .zero ∧ Rect.zero.encloses area = true)) ∧
      ∀ b w, s.store.acquire c i area = .ok (.ok b, w) →
        ∃ x, w.records.get? b.record = some x ∧ x.pixels.isSome = true := by
  obtain ⟨out, sound⟩ := h.sound
  have alive : (s.store.caches.get? c).isSome = true := by simp [hs]
  have does : (s.world out).Does (fun _ => True) (s.store.request c i area) _ :=
    World.request_does sound.world World.any_quiet (sound.world.alive_iff.1 alive)
      (World.allowsTaking_any _ _)
  obtain ⟨⟨outcome, v⟩, -, run, -⟩ := does
  refine ⟨outcome, v, run, ?_, sound.world.request_of_invalid hs run,
    sound.world.acquire_of_invalid hs, ?_, ?_⟩
  · rintro ⟨r, hr, encloses⟩
    exact sound.world.request_of_listed hs run hr encloses
  · rintro b rfl
    rcases sound.world.request_answer hs run with
      ⟨y, listed, -, encloses, hx⟩ | ⟨x, hx, stored⟩
    · have covered := (Answered.requested run).covered h alive hx
      refine ⟨_, hx, ?_⟩
      cases stored : y.storage with
      | some block => exact .inl (by rw [← stored, covered.isSome_pixels, stored]; rfl)
      | none =>
        have zero : y.area = .zero := covered.bare stored
        exact .inr ⟨listed, rfl, zero, zero ▸ encloses⟩
    · have covered := (Answered.requested run).covered h alive hx
      exact ⟨x, hx, .inl (covered.isSome_pixels.trans stored)⟩
  · intro b w acquired
    obtain ⟨x, hx, stored⟩ := sound.world.acquire_stored hs acquired
    have covered := (Answered.acquired acquired).covered h alive hx
    exact ⟨x, hx, covered.isSome_pixels.trans stored⟩

/-- The short run, after which the buffer loses its storage to an area that no memory holds, and is
published again. -/
def bareActs : List Act :=
  sampleActs ++ [.resize "cache" "buffer" ⟨0, 0, 0x40000000, 0x40000000⟩ false,
    .publish "cache" "buffer"]

/-- The session after that run. -/
def bare : Session := (start (.fresh none)).run bareActs

/-- After the short run an area of negative width, which cannot be acquired, is enclosed by the
published buffer, and a request for it is answered with that. Once the buffer has lost its storage,
a request for the zero rectangle is answered with it, and there are no pixels. -/
theorem request_hits_unchecked :
    (sample.Reachable ∧
      (sample.store.caches.get? 1).bind (fun z =>
        (sample.store.allocators.get? z.allocator).map (·.limit)) = some none ∧
      byteSize? ⟨1, 1, -1, 1⟩ 1 = none ∧
      (∃ v, sample.store.acquire 1 ⟨.explicit 1, 1⟩ ⟨1, 1, -1, 1⟩
        = .ok (.error (.invalidArea ⟨1, 1, -1, 1⟩ 1), v)) ∧
      ∃ v, sample.store.request 1 ⟨.explicit 1, 1⟩ ⟨1, 1, -1, 1⟩
        = .ok (.ok ⟨0, 1, .explicit 1⟩, v)) ∧
    bare.Reachable ∧ ∃ v x, bare.store.request 1 ⟨.explicit 1, 1⟩ .zero
      = .ok (.ok ⟨0, 1, .explicit 1⟩, v) ∧ v.records.get? 0 = some x ∧ x.pixels = none :=
  ⟨⟨⟨_, sampleActs, .fresh none, rfl⟩, by decide +kernel, by decide, ⟨_, rfl⟩, ⟨_, rfl⟩⟩,
    ⟨_, bareActs, .fresh none, rfl⟩, _, _, rfl, rfl, by decide +kernel⟩

/-- After the short run an area of negative width that no published buffer encloses is refused. -/
theorem request_validity_sample :
    ∃ v, sample.store.request 1 ⟨.explicit 1, 1⟩ ⟨5, 5, -1, 1⟩
      = .ok (.error (.invalidArea ⟨5, 5, -1, 1⟩ 1), v) := by
  have reachable : sample.Reachable := ⟨_, sampleActs, .fresh none, rfl⟩
  obtain ⟨outcome, v, run, -, refused, -⟩ :=
    reachable.request_validity (c := 1) rfl ⟨.explicit 1, 1⟩ ⟨5, 5, -1, 1⟩
  have invalid := refused (by decide +kernel) (by decide)
  exact ⟨v, invalid ▸ run⟩

/-! ## 3. Bytes a pixel -/

/-- A cache is asked for an area of an image, or to exchange a handle, or nothing, for one, and
answers with the handle `b`. -/
inductive Obtains (s : Session) (c : CacheId) (i : Image) (area : Rect) (b : Handle) (v : Store) :
    Prop where
  | requested (run : s.store.request c i area = .ok (.ok b, v))
  | exchanged {old : Option Handle} (held : ∀ d, old = some d → d ∈ s.handles)
      (run : s.store.exchange c old i area = .ok (.ok b, v))

theorem Obtains.answered (h : s.Obtains c i area b v) : s.Answered c i area b v := by
  cases h with
  | requested run => exact .requested run
  | exchanged held run =>
    refine .exchanged held ?_ run
    rintro d rfl
    exact Store.own_of_exchange run nofun

/-- What is obtained of a cache for an area of no negative extent has storage for it, as many bytes
as the product over the integers, with the bytes a pixel for which the buffer was acquired last: by
the request itself, for the image, or else before, for one with the same key. These are the bytes a
pixel of the image if all descriptors of a key agree on them. -/
theorem capacity_of_obtained {w : Store} (initial : w.Initial) (acts : List Act)
    (now : s = (start w).run acts) (alive : (s.store.caches.get? c).isSome = true)
    (wide : 0 ≤ area.width.toInt) (high : 0 ≤ area.height.toInt)
    (obtained : s.Obtains c i area b v) :
    ∃ x, v.records.get? b.record = some x ∧
      area.width.toInt * area.height.toInt * x.bytesPerPixel ≤ x.capacity ∧
      (x.bytesPerPixel = i.bytesPerPixel ∨
        ∃ y, s.store.records.get? b.record = some y ∧ y.image = some i.key ∧
          (start w).AcquiredLast acts b.record x.bytesPerPixel) ∧
      ∀ size, (start w).Uniform acts size → i.bytesPerPixel = size i.key →
        area.width.toInt * area.height.toInt * i.bytesPerPixel ≤ x.capacity := by
  have sound : s.Sound _ := now ▸ (sound_start initial).run acts
  have answered := obtained.answered
  obtain ⟨-, x, hx, -, encloses, -⟩ := answered.gives sound alive
  have covered : x.Covered _ := answered.covered ⟨w, acts, initial, now⟩ alive hx
  have covers : byteSize area x.bytesPerPixel ≤ x.capacity := calc
    byteSize area x.bytesPerPixel ≤ byteSize x.area x.bytesPerPixel :=
      byteSize_le_of_encloses encloses
    _ = x.contentSize := covered.contentSize_eq.symm
    _ ≤ x.capacity := covered.contentSize_le
  have enough : area.width.toInt * area.height.toInt * x.bytesPerPixel ≤ x.capacity := by
    rw [← byteSize_eq wide high]
    exact Int.ofNat_le.2 covers
  refine ⟨x, hx, enough, ?_, fun size uniform sized => ?_⟩
  · rcases answered.bytesPerPixel sound alive hx with same | ⟨y, hy, image, same⟩
    · exact .inl same
    · have acquired := (sound_start initial).exists_acquiredLast
        (initial.get?_records b.record) acts (now ▸ hy)
      exact .inr ⟨y, hy, image, same ▸ acquired⟩
  · exact answered.bytesPerPixel_of_uniform initial acts now alive uniform sized hx ▸ enough

/-- The short run, and another descriptor of the same key, with four bytes a pixel. -/
def mixedActs : List Act := sampleActs ++ [.newImage "wide" 4 (some 1)]

/-- The session after that run. -/
def mixed : Session := (start (.fresh none)).run mixedActs

/-- In that session a request for the other descriptor is answered with the published buffer, which
has one byte for each of the four pixels. -/
theorem request_other_bytesPerPixel :
    mixed.Reachable ∧ mixed.images.get? "wide" = some ⟨.explicit 1, 4⟩ ∧
      ∃ v x, mixed.store.request 1 ⟨.explicit 1, 4⟩ ⟨0, 0, 2, 2⟩
          = .ok (.ok ⟨0, 1, .explicit 1⟩, v) ∧
        v.records.get? 0 = some x ∧ x.capacity < 2 * 2 * 4 :=
  ⟨⟨_, mixedActs, .fresh none, rfl⟩, by decide +kernel, _, _, rfl, rfl, by decide +kernel⟩

/-- After the short run what is requested for two by two pixels has four bytes. -/
theorem capacity_of_obtained_sample :
    ∃ b v x, sample.store.request 1 ⟨.explicit 1, 1⟩ ⟨0, 0, 2, 2⟩ = .ok (.ok b, v) ∧
      v.records.get? b.record = some x ∧ 2 * 2 * 1 ≤ x.capacity := by
  have obtained : sample.Obtains 1 ⟨.explicit 1, 1⟩ ⟨0, 0, 2, 2⟩ _ _ := .requested rfl
  obtain ⟨x, hx, -, -, enough⟩ := capacity_of_obtained (w := .fresh none) (.fresh none)
    sampleActs rfl rfl (by decide) (by decide) obtained
  exact ⟨_, _, x, rfl, hx, Int.ofNat_le.1 (enough _ uniform_sampleActs rfl)⟩

end Session

end PixelPool
