import PixelPool.Proofs.Bindings
import PixelPool.Proofs.Coverage

/-!
What can be relied on of a buffer, and of one that a request is answered with.

The area of a buffer never exceeds its storage (`Session.area_within_storage`). A request for an
area is answered with a buffer that encloses it, and which has pixels enough, where all descriptors
of an image agree on the bytes of a pixel (`Session.usable_of_answered`). Whichever way the answer
comes, its buffer enclosed the area before, or it was moved to the area by the request itself
(`Session.Answered.encloses`); so one that lost its area has been moved since.
-/

namespace PixelPool

namespace Session

variable {s : Session} {act : Act} {out : Multiset Loan} {r : RecordId} {x y : Record}

/-! ## 1. Areas and storage -/

/-- In whatever state acts leave it, a record has an area without negative extents, and the zero
rectangle if it has no storage; if it has storage the area takes, with the bytes a pixel of its last
acquisition, no more bytes than there are. So it has pixels exactly if it has storage, to the number
of its area, the size of its area is always known, and its pixels always lie within its storage. -/
theorem area_within_storage {w : Store} (initial : w.Initial) (acts : List Act)
    (hx : ((start w).run acts).store.records.get? r = some x) :
    (start w).AcquiredLast acts r x.bytesPerPixel ∧
    0 ≤ x.area.width.toInt ∧ 0 ≤ x.area.height.toInt ∧
    (x.storage = none → x.area = .zero) ∧
    (∀ b, x.storage = some b → ∃ n, storageSize x.area x.bytesPerPixel = .ok n ∧ n ≤ b.size) ∧
    (x.pixels = none ↔ x.storage = none) ∧
    (∀ p, x.pixels = some p →
      p.size = x.area.width.toInt.toNat * x.area.height.toInt.toNat * x.bytesPerPixel) ∧
    (byteSize? x.area x.bytesPerPixel).isSome = true ∧
    ∀ b, x.storage = some b → x.contentSize ≤ b.size := by
  have covered : x.Covered _ := Reachable.covered ⟨w, acts, initial, rfl⟩ hx
  obtain ⟨n, size, fits⟩ := covered.covers
  obtain ⟨wide, high, -, -⟩ := byteSize?_eq_some_iff.1 size
  have capacity : ∀ b, x.storage = some b → x.capacity = b.size := by
    intro b stored
    simp [Record.capacity, stored]
  refine ⟨(sound_start initial).exists_acquiredLast (initial.get?_records r) acts hx, wide, high,
    covered.bare, fun b stored => ⟨n, storageSize_eq_ok_iff.2 size, capacity b stored ▸ fits⟩, ?_,
    fun p => covered.size_pixels, by simp [size],
    fun b stored => capacity b stored ▸ covered.contentSize_le⟩
  rw [covered.pixels_eq, Option.map_eq_none_iff]

/-- After the short run the buffer has four pixels of one byte. -/
theorem area_within_storage_sample :
    ∃ x, sample.store.records.get? 0 = some x ∧ (start (.fresh none)).AcquiredLast sampleActs 0 1 ∧
      ∀ p, x.pixels = some p → p.size = 4 := by
  obtain ⟨acquired, -, -, -, -, -, size, -⟩ :=
    area_within_storage (w := .fresh none) (.fresh none) sampleActs (r := 0) rfl
  exact ⟨_, rfl, acquired, size⟩

end Session

/-- A record without an area stays so unless it is moved or taken. -/
theorem Fate.of_unplaced {m : Move} {r : RecordId} {before after : Option Record}
    (h : Fate m r before after) (unplaced : ∀ x, before = some x → x.area = .zero)
    (unmoved : m ≠ .refit r) (untaken : ∀ b, b.record = r → m ≠ .take b) :
    ∀ y, after = some y → y.area = .zero := by
  cases h with
  | refitted => exact absurd rfl unmoved
  | taken | made => exact absurd rfl (untaken _ rfl)
  | spared => exact unplaced
  | withdrawn | parked => rintro _ ⟨⟩; rfl
  | retired kept => exact fun y hy => kept y hy ▸ rfl
  | ended => nofun
  | counted | published | written | unmarked =>
    simpa [Record.markPublished, Record.unmark] using unplaced

/-! ## 2. Answers -/

/-- The handle is one on a buffer of the image, which in `v` encloses the area. The buffer has just
been moved to the area, or its area is what it was. -/
structure Store.Gives (w : Store) (i : Image) (area : Rect) (b : Handle) (v : Store) : Prop where
  image : b.image = i.key
  encloses : ∃ x, v.records.get? b.record = some x ∧ x.image = some i.key ∧
    x.area.encloses area = true ∧
    (x.area = area ∨ ∃ z, w.records.get? b.record = some z ∧ z.area = x.area)

/-- A published buffer that a lookup found, with other references. -/
theorem Store.Gives.of_hit {w v : Store} {i : Image} {area : Rect} {r : RecordId} {c : CacheId}
    {x : Record} {n : Nat} (hx : w.records.get? r = some x) (image : x.image = some i.key)
    (encloses : x.area.encloses area = true)
    (hv : v.records.get? r = some { x with references := n }) : w.Gives i area ⟨r, c, i.key⟩ v :=
  ⟨rfl, _, hv, image, encloses, .inr ⟨x, hx, rfl⟩⟩

namespace World.Sound

variable {W : World} {c : CacheId} {s : Cache} {i : Image} {area : Rect} {b d : Handle} {v : Store}

theorem acquire_gives (h : W.Sound) (hs : W.store.caches.get? c = some s)
    (run : W.store.acquire c i area = .ok (.ok b, v)) : W.store.Gives i area b v := by
  obtain ⟨r, x, u, outcome, w, taken, fits, acquired⟩ := h.acquire_eq hs i area
  rw [acquired] at run
  cases outcome with
  | error e => cases run
  | ok newBlock =>
    obtain ⟨block, hy⟩ := fits.moved taken.get?
    cases run
    exact ⟨rfl, _, hy, taken.bound.1, Rect.encloses_self area, .inl rfl⟩

theorem counted_gives (h : W.Sound) (hs : W.store.caches.get? c = some s)
    (run : (W.store.count c .addMiss).acquire c i area = .ok (.ok b, v)) :
    W.store.Gives i area b v := by
  obtain ⟨image, encloses⟩ :=
    (h.count c .addMiss).acquire_gives (c := c) (Store.get?_caches_count hs .addMiss) run
  exact ⟨image, encloses⟩

theorem acquireMissed_gives (h : W.Sound) (hs : W.store.caches.get? c = some s)
    (run : W.store.acquireMissed c i area = .ok (.ok b, v)) : W.store.Gives i area b v := by
  have counted := (h.count c .addMiss).acquire_eq (c := c) (Store.get?_caches_count hs .addMiss) i
    area
  obtain ⟨r, x, u, outcome, w, -, -, acquired⟩ := counted
  refine h.counted_gives hs (acquired.trans ?_)
  rw [Store.acquireMissed, acquired, Fault.ok_bind] at run
  cases outcome with
  | ok newBlock =>
    cases run
    rfl
  | error e => cases run

theorem request_gives (h : W.Sound) (hs : W.store.caches.get? c = some s)
    (run : W.store.request c i area = .ok (.ok b, v)) : W.store.Gives i area b v := by
  rcases h.lookup_eq hs i area with ⟨-, found⟩ | ⟨r, x, -, hx, -, image, -, encloses, found⟩
  · rw [Store.request, found] at run
    exact h.counted_gives hs run
  · rw [Store.request, found] at run
    cases run
    exact .of_hit hx image encloses (by simp [Store.retained, Table.get?_update, hx]; rfl)

theorem exchangeNone_gives (h : W.Sound) (hs : W.store.caches.get? c = some s)
    (run : W.store.exchange c none i area = .ok (.ok b, v)) : W.store.Gives i area b v := by
  rcases h.lookup_eq hs i area with ⟨-, found⟩ | ⟨r, x, -, hx, -, image, -, encloses, found⟩
  · rw [Store.exchange, found] at run
    exact h.acquireMissed_gives hs run
  · rw [Store.exchange, found] at run
    cases run
    exact .of_hit hx image encloses (by simp [Store.retained, Table.get?_update, hx]; rfl)

/-- The answer to an exchange: the old buffer as it is, a published one, the old one moved, or
another one. -/
theorem exchangeSome_gives (h : W.Sound) (held : d ∈ W.handles) (own : d.cache = c)
    (same : d.image = i.key) (hs : W.store.caches.get? c = some s)
    (run : W.store.exchange c (some d) i area = .ok (.ok b, v)) : W.store.Gives i area b v := by
  subst own
  obtain ⟨x, hx, -, -, image, used⟩ := h.exists_record held
  rw [same] at image
  simp only [Store.exchange, ne_eq, not_true_eq_false, if_false, same, Fault.pure_eq,
    Store.areaOf_of_get? hx] at run
  by_cases encloses : x.area.encloses area = true
  · rw [if_pos encloses] at run
    cases run
    exact ⟨same, x, hx, image, encloses, .inr ⟨x, hx, rfl⟩⟩
  rw [if_neg encloses] at run
  rcases h.lookup_eq hs i area with ⟨-, found⟩ | ⟨r, y, -, hy, origin, bound, -, fits, found⟩
  · rw [found, Fault.ok_bind] at run
    dsimp only at run
    rw [Store.referencesOf_of_get? hx] at run
    by_cases sole : x.references = 1
    · obtain ⟨y, u, outcome, w, withdrawn, moved, resized⟩ := h.resize_eq held hx sole area
      rw [if_pos sole, resized, Fault.ok_bind] at run
      cases outcome with
      | ok newBlock =>
        obtain ⟨block, hz⟩ := moved.moved (withdrawn.get? hx)
        obtain ⟨-, -, image', -⟩ := withdrawn.same
        cases run
        exact ⟨same, _, hz, image'.trans image, Rect.encloses_self area, .inl rfl⟩
      | error e =>
        exact absurd run (by
          dsimp only [Store.resized]
          cases Store.dropHandle _ d <;> simp)
    · obtain ⟨H, others⟩ := Multiset.exists_cons_of_mem held
      have more : 1 < x.references := by omega
      rw [if_neg sole, dropHandle_of_more hx more, Fault.ok_bind] at run
      obtain ⟨image, z, hz, bound, encloses, moved⟩ :=
        (h.letGo others hx more).acquireMissed_gives (c := d.cache) hs run
      refine ⟨image, z, hz, bound, encloses, moved.imp_right ?_⟩
      rintro ⟨y, hy, area⟩
      by_cases hb : b.record = d.record
      · refine ⟨x, hb ▸ hx, ?_⟩
        obtain rfl : { x with references := x.references - 1 } = y := by
          simpa [Table.get?_update, hb, hx] using hy
        exact area
      · exact ⟨y, by simpa [Table.get?_update, hb] using hy, area⟩
  · have other : r ≠ d.record := by
      rintro rfl
      exact encloses (Option.some.inj (hx.symm.trans hy) ▸ fits)
    have counted := (h.retain (b := ⟨r, d.cache, i.key⟩) hy bound origin).count d.cache
      .addHit
    obtain ⟨u, parted, dropped⟩ := counted.dropHandle_eq (b := d) (x := x)
      (Multiset.mem_cons_of_mem held) (by simp [Store.retained, Table.get?_update, other.symm, hx])
    rw [found, Fault.ok_bind] at run
    dsimp only at run dropped
    rw [dropped, Fault.ok_bind] at run
    cases run
    refine .of_hit hy bound fits (n := y.references + 1) ?_
    rw [parted.get?_of_ne other]
    simp [Store.retained, Table.get?_update, hy]

end World.Sound

namespace Session

variable {s : Session} {act : Act} {out : Multiset Loan} {r : RecordId} {x y : Record}
  {c : CacheId} {i : Image} {area : Rect} {b : Handle} {v : Store}

/-- A request to a cache for an area of an image is answered with the handle `b`, and leaves the
store `v`: a buffer is acquired, or requested, or exchanged for one of the image and the cache, or
for nothing. -/
inductive Answered (s : Session) (c : CacheId) (i : Image) (area : Rect) (b : Handle) (v : Store) :
    Prop where
  | acquired (run : s.store.acquire c i area = .ok (.ok b, v))
  | requested (run : s.store.request c i area = .ok (.ok b, v))
  | exchanged {old : Option Handle} (held : ∀ d, old = some d → d ∈ s.handles)
      (own : ∀ d, old = some d → d.cache = c ∧ d.image = i.key)
      (run : s.store.exchange c old i area = .ok (.ok b, v))

theorem Answered.gives (answered : s.Answered c i area b v) (h : s.Sound out)
    (alive : (s.store.caches.get? c).isSome = true) : s.store.Gives i area b v := by
  obtain ⟨z, hz⟩ := Option.isSome_iff_exists.1 alive
  cases answered with
  | acquired run => exact h.world.acquire_gives hz run
  | requested run => exact h.world.request_gives hz run
  | @exchanged old held own run =>
    cases old with
    | none => exact h.world.exchangeNone_gives hz run
    | some d =>
      obtain ⟨cache, image⟩ := own d rfl
      exact h.world.exchangeSome_gives (held d rfl) cache image hz run

/-- The moves of a request that is answered bind no record but to the image. -/
theorem Answered.reaches (answered : s.Answered c i area b v) (h : s.Sound out)
    (alive : (s.store.caches.get? c).isSome = true) :
    ∃ V : World, V.store = v ∧ (s.world out).Reaches (fun _ => True) V ∧
      (s.world out).Binds i V := by
  have owned : c ∈ s.shares := (h.world.alive_iff (W := s.world out)).1 alive
  cases answered with
  | acquired run =>
    obtain ⟨V, moves, rfl, binds⟩ := (World.acquire_binds h.world owned i area).reaches run
    exact ⟨_, rfl, moves, binds⟩
  | requested run =>
    obtain ⟨V, moves, rfl, binds⟩ :=
      ((World.binds_tracks i).request h.world owned area).reaches run
    exact ⟨_, rfl, moves, binds⟩
  | @exchanged old held own run =>
    obtain ⟨H, handles⟩ : ∃ H, s.handles = old.toList + H := by
      cases old with
      | none => exact ⟨s.handles, by simp⟩
      | some d =>
        obtain ⟨H, others⟩ := Multiset.exists_cons_of_mem (held d rfl)
        exact ⟨H, by simpa using others⟩
    obtain ⟨V, moves, rfl, binds⟩ :=
      ((World.binds_tracks i).exchange h.world owned handles area).reaches run
    exact ⟨_, rfl, moves, binds⟩

/-- A request that is answered leaves all records covered. -/
theorem Answered.covered (answered : s.Answered c i area b v) (h : s.Reachable)
    (alive : (s.store.caches.get? c).isSome = true) (hx : v.records.get? r = some x) :
    x.Covered v.host.heap := by
  obtain ⟨out, sound⟩ := h.sound
  obtain ⟨V, rfl, moves, -⟩ := answered.reaches sound alive
  have whole : (s.world out).Whole := ⟨sound.world, fun _ _ => h.covered⟩
  exact (whole.reaches moves).covered r x hx

/-- The bytes a pixel of a buffer that a request is answered with are those of the image, or the
buffer is in use already and they are what they were. -/
theorem Answered.bytesPerPixel (answered : s.Answered c i area b v) (h : s.Sound out)
    (alive : (s.store.caches.get? c).isSome = true) (hx : v.records.get? b.record = some x) :
    x.bytesPerPixel = i.bytesPerPixel ∨ ∃ y, s.store.records.get? b.record = some y ∧
      y.image = some i.key ∧ x.bytesPerPixel = y.bytesPerPixel := by
  obtain ⟨-, x', hx', image, -⟩ := answered.gives h alive
  obtain rfl := Option.some.inj (hx.symm.trans hx')
  obtain ⟨V, rfl, moves, binds⟩ := answered.reaches h alive
  rcases binds b.record x hx with ⟨y, hy, bytesPerPixel, same | none⟩ | ⟨bytesPerPixel, -⟩
  · exact .inr ⟨y, hy, same ▸ image, bytesPerPixel⟩
  · simp [image] at none
  · exact .inl bytesPerPixel

/-! ## 3. Descriptors that agree on the bytes a pixel -/

/-- All descriptors that have names at any time of the run have as many bytes a pixel as `size`
gives to their key. -/
def Uniform (s : Session) (acts : List Act) (size : ImageKey → Nat) : Prop :=
  ∀ before, before <+: acts → ∀ name i, (s.run before).images.get? name = some i →
    i.bytesPerPixel = size i.key

/-- The records that are bound to an image have as many bytes a pixel as it has. -/
def Sized (size : ImageKey → Nat) (w : Store) : Prop :=
  ∀ r x k, w.records.get? r = some x → x.image = some k → x.bytesPerPixel = size k

theorem sized_of_bound {size : ImageKey → Nat} {k : ImageKey} {before : Option Record}
    (old : ∀ x, before = some x → x.image = some k → x.bytesPerPixel = size k)
    (sized : i.bytesPerPixel = size i.key) (bound : Record.Stays before y ∨ Record.BoundTo i y)
    (image : y.image = some k) : y.bytesPerPixel = size k := by
  rcases bound with ⟨x, hx, bytesPerPixel, same | none⟩ | ⟨bytesPerPixel, same | none⟩
  · exact bytesPerPixel.trans (old x hx (same ▸ image))
  · simp [none] at image
  · rw [image] at same
    rw [bytesPerPixel, sized, Option.some.inj same]
  · simp [none] at image

theorem Uniform.sized {size : ImageKey → Nat} {acts : List Act} (h : s.Sound out)
    (uniform : s.Uniform acts size) (start : Sized size s.store) :
    Sized size (s.run acts).store := by
  induction acts using List.reverseRecOn with
  | nil => exact start
  | append_singleton acts act ih =>
    have earlier := ih fun before hb => uniform before (hb.trans (List.prefix_append ..))
    rw [run_concat]
    intro r y k hy image
    rcases (h.run acts).step_bound act hy with stays | ⟨-, i, asked, bound⟩
    · exact sized_of_bound (i := ⟨k, size k⟩) (earlier r · k) rfl (.inl stays) image
    · obtain ⟨name, -, named⟩ := Option.bind_eq_some_iff.1 asked
      have sized := uniform acts (List.prefix_append ..) name i named
      exact sized_of_bound (earlier r · k) sized (.inr bound) image

/-- Where the descriptors of an image agree, what a request is answered with has as many bytes a
pixel as the image. -/
theorem Answered.bytesPerPixel_of_uniform {w : Store} (answered : s.Answered c i area b v)
    (initial : w.Initial) (acts : List Act) (now : s = (start w).run acts)
    (alive : (s.store.caches.get? c).isSome = true) {size : ImageKey → Nat}
    (uniform : (start w).Uniform acts size) (sized : i.bytesPerPixel = size i.key)
    (hx : v.records.get? b.record = some x) : x.bytesPerPixel = i.bytesPerPixel := by
  have sound : s.Sound _ := now ▸ (sound_start initial).run acts
  have known : Sized size s.store := by
    rw [now]
    refine uniform.sized (sound_start initial) ?_
    intro r x k hx
    cases (initial.get?_records r).symm.trans hx
  rcases answered.bytesPerPixel sound alive hx with same | ⟨y, hy, image, same⟩
  · exact same
  · rw [same, known _ y _ hy image, sized]

/-! ## 4. Buffers that lost their area -/

/-- The act gives a buffer an area: it moves the buffer for its holder, or takes it into use. -/
structure Reshapes (s : Session) (act : Act) (r : RecordId) : Prop where
  allowed : s.Moves act r ∨ s.Takes act r
  placed : ∃ y, (s.step act).2.store.records.get? r = some y ∧ y.area ≠ .zero

/-- A record has no area, or there is none. -/
def Unplaced (w : Store) (r : RecordId) : Prop := ∀ x, w.records.get? r = some x → x.area = .zero

/-- A record without an area gets one only by an act that reshapes it. -/
theorem Sound.step_unplaced (h : s.Sound out) (act : Act) (unplaced : Unplaced s.store r)
    (hy : (s.step act).2.store.records.get? r = some y) (placed : y.area ≠ .zero) :
    s.Reshapes act r := by
  refine ⟨?_, y, hy, placed⟩
  by_contra none
  obtain ⟨moves, takes⟩ := not_or.1 none
  refine placed (h.step_keeps act (I := fun V => Unplaced V.store r) ?_ unplaced y hy)
  intro m V V' sound allowed move old z hz
  refine (move.fate sound r).of_unplaced old ?_ ?_ z hz
  · rintro rfl
    exact allowed.elim moves takes
  · rintro b rfl rfl
    exact takes allowed

/-- A run that gives an area to a record without one has an act that reshapes it. -/
theorem Sound.exists_reshapes (h : s.Sound out) (unplaced : Unplaced s.store r) (acts : List Act)
    (hy : (s.run acts).store.records.get? r = some y) (placed : y.area ≠ .zero) :
    ∃ before act after, acts = before ++ act :: after ∧ (s.run before).Reshapes act r := by
  induction acts using List.reverseRecOn generalizing y with
  | nil => exact absurd (unplaced y hy) placed
  | append_singleton acts act ih =>
    by_cases still : Unplaced (s.run acts).store r
    · rw [run_concat] at hy
      exact ⟨acts, act, [], rfl, (h.run acts).step_unplaced act still hy placed⟩
    · simp only [Unplaced, not_forall] at still
      obtain ⟨x, hx, placed⟩ := still
      obtain ⟨before, first, after, rfl, reshapes⟩ := ih hx placed
      exact ⟨before, first, after ++ [act], by simp, reshapes⟩

/-! ## 5. Answers that can be used -/

/-- Where all descriptors of an image agree on the bytes a pixel, a request for an area with pixels
that is answered with a buffer is answered with one of the image that encloses the area, and whose
pixels are there and are enough for it. If the buffer had no area at some time before, as one has
none that lost its storage or was withdrawn, it has been reshaped since: by an act after that time,
or by the request itself, which moved it to the very area. -/
theorem usable_of_answered {w : Store} (initial : w.Initial) (acts : List Act)
    (now : s = (start w).run acts) {size : ImageKey → Nat} (uniform : (start w).Uniform acts size)
    (alive : (s.store.caches.get? c).isSome = true) (sized : i.bytesPerPixel = size i.key)
    (filled : 0 < area.width.toInt ∧ 0 < area.height.toInt) (answered : s.Answered c i area b v) :
    b.image = i.key ∧ ∃ x p, v.records.get? b.record = some x ∧ x.area.encloses area = true ∧
      x.pixels = some p ∧
      area.width.toInt.toNat * area.height.toInt.toNat * i.bytesPerPixel ≤ p.size ∧
      ∀ before after, acts = before ++ after →
        Unplaced ((start w).run before).store b.record →
        (Unplaced s.store b.record ∧ x.area = area) ∨
        ∃ mid act rest, after = mid ++ act :: rest ∧
          ((start w).run (before ++ mid)).Reshapes act b.record := by
  have sound : s.Sound _ := now ▸ (sound_start initial).run acts
  obtain ⟨image, x, hx, bound, encloses, fitted⟩ := answered.gives sound alive
  have bytes : x.bytesPerPixel = i.bytesPerPixel :=
    answered.bytesPerPixel_of_uniform initial acts now alive uniform sized hx
  have covered : x.Covered _ := answered.covered ⟨w, acts, initial, now⟩ alive hx
  have placed : x.area ≠ .zero := by
    intro zero
    have filled := Rect.isEmpty_of_encloses encloses (Rect.isEmpty_eq_false_iff.2 filled)
    simp [zero] at filled
  obtain ⟨p, shown⟩ : ∃ p, x.pixels = some p := by
    rw [covered.pixels_eq]
    cases stored : x.storage with
    | none => exact absurd (covered.bare stored) placed
    | some block => exact ⟨_, rfl⟩
  refine ⟨image, x, p, hx, encloses, shown, ?_, fun before after split unplaced => ?_⟩
  · rw [covered.size_pixels shown, bytes]
    exact byteSize_le_of_encloses encloses
  · by_cases still : Unplaced s.store b.record
    · refine .inl ⟨still, fitted.elim id ?_⟩
      rintro ⟨z, hz, area⟩
      exact absurd (area ▸ still z hz) placed
    · simp only [Unplaced, not_forall] at still
      obtain ⟨z, hz, placed⟩ := still
      rw [now, split, run_append] at hz
      obtain ⟨mid, act, rest, rfl, reshapes⟩ :=
        ((sound_start initial).run before).exists_reshapes unplaced after hz placed
      exact .inr ⟨mid, act, rest, rfl, by rwa [run_append]⟩

/-- The short run has one descriptor. -/
theorem uniform_sampleActs : (start (.fresh none)).Uniform sampleActs fun _ => 1 := by
  intro before hb name i hi
  have images : ((start (.fresh none)).run before).images = .empty ∨
      ((start (.fresh none)).run before).images = Names.empty.put "image" ⟨.explicit 1, 1⟩ := by
    rw [← List.mem_inits] at hb
    simp only [sampleActs, List.inits, List.map_cons, List.map_nil, List.mem_cons,
      List.not_mem_nil, or_false] at hb
    rcases hb with rfl | rfl | rfl | rfl | rfl | rfl
    · exact .inl rfl
    · exact .inl rfl
    all_goals exact .inr rfl
  rcases images with none | one
  · simp [none] at hi
  · rw [one, Names.get?_put] at hi
    split at hi
    · cases hi
      rfl
    · cases hi

/-- After the short run a request for one pixel is answered with the published buffer. -/
theorem usable_of_answered_sample :
    ∃ b v x p, sample.store.request 1 ⟨.explicit 1, 1⟩ ⟨1, 1, 1, 1⟩ = .ok (.ok b, v) ∧
      v.records.get? b.record = some x ∧ x.pixels = some p ∧ 1 ≤ p.size := by
  have answered : sample.Answered 1 ⟨.explicit 1, 1⟩ ⟨1, 1, 1, 1⟩ _ _ := .requested rfl
  obtain ⟨-, x, p, hx, -, shown, enough, -⟩ := usable_of_answered (w := .fresh none)
    (.fresh none) sampleActs rfl uniform_sampleActs rfl rfl ⟨by decide, by decide⟩ answered
  exact ⟨_, _, x, p, rfl, hx, shown, enough⟩

end Session

end PixelPool
