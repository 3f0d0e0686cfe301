import PixelPool.Proofs.Accounting
import PixelPool.Proofs.Exchanges
import PixelPool.Proofs.Listings

/-!
What acquiring a buffer gives, and what it leaves alone.

A buffer from the reserve was in use before, maybe for another image with other bytes a pixel. It is
as good as a new one since nothing refers to it any more, and since taking it binds every field of
its record anew but the storage. That nothing refers to it is read off the world after the
acquisition, which is sound (`World.Sound.acquire_sound`): the one reference that the record counts
is the handle that was given. Main statement: `Session.Reachable.acquire_unshared`.
-/

namespace PixelPool

/-! ## 1. Storage for an area -/

/-- How a buffer with the block `had`, if any, comes by one of at least `n` bytes:
`Provided heap had a t n block t'` says that it is `block`, and that `t'` is what becomes of the
allocators `t`, of which `a` is the buffer's. -/
inductive Provided (heap : Heap) (had : Option Block) (a : AllocatorId) (t : Table Allocator)
    (n : Nat) : Block → Table Allocator → Prop where
  /-- The block is large enough and stays, with its bytes. No allocator is asked. -/
  | kept {block : Block} (stored : had = some block) (enough : n ≤ block.size) :
      Provided heap had a t n block t
  /-- What there was goes back to the allocator, which then grants a block of zeros. -/
  | renewed {s after : Allocator} (short : ∀ block, had = some block → block.size < n)
      (source : t.get? a = some s)
      (granted : (had.elim s s.free).allocate heap n = (.ok (.zeroed n), after)) :
      Provided heap had a t n (.zeroed n) (t.update a fun _ => after)

/-- A buffer never loses capacity by being provided for. -/
theorem Provided.size {heap : Heap} {had : Option Block} {a : AllocatorId}
    {t t' : Table Allocator} {n : Nat} {block : Block} (h : Provided heap had a t n block t') :
    block.size = max ((had.map Block.size).getD 0) n := by
  cases h with
  | kept stored enough => simp [stored, enough]
  | renewed short =>
    cases had with
    | none => simp
    | some old => simp [(short old rfl).le]

/-- A block that is large enough stays. -/
theorem Provided.eq_of_enough {heap : Heap} {had : Option Block} {a : AllocatorId}
    {t t' : Table Allocator} {n : Nat} {block old : Block}
    (h : Provided heap had a t n block t') (stored : had = some old) (enough : n ≤ old.size) :
    block = old ∧ t' = t := by
  cases h with
  | kept stored' => exact ⟨Option.some.inj (stored'.symm.trans stored), rfl⟩
  | renewed short => exact absurd (short old stored) (Nat.not_lt.2 enough)

namespace Store

variable {w v : Store} {c d : CacheId} {z : Cache} {i : Image} {r j : RecordId} {x : Record}
  {k : ImageKey} {area : Rect} {b : Handle}

theorem lowered_eq (s : Allocator) (x : Record) : lowered s x = x.storage.elim s s.free := by
  unfold lowered
  cases x.storage <;> rfl

/-- Storage that will not do is missing or too small. -/
theorem lacking_iff {n : Nat} : ¬ (x.storage.isSome = true ∧ n ≤ x.capacity) ↔
    ∀ block, x.storage = some block → block.size < n := by
  cases stored : x.storage <;> simp [Record.capacity, stored]

/-- The block of a buffer, if the buffer exists and has one. -/
def blockOf (w : Store) (r : RecordId) : Option Block := (w.records.get? r).bind (·.storage)

theorem capacityOf_eq (w : Store) (r : RecordId) :
    w.capacityOf r = ((w.blockOf r).map Block.size).getD 0 := by
  unfold capacityOf blockOf Record.capacity
  cases w.records.get? r <;> rfl

/-- A record that was moved to an area was provided with a block for it. -/
theorem Fits.provided {newBlock : Bool} (fits : w.Fits r x area (.ok newBlock) v)
    (hx : w.records.get? r = some x) :
    ∃ n block, storageSize area x.bytesPerPixel = .ok n ∧
      v.records.get? r = some { x with area, storage := some block } ∧
      Provided w.host.heap x.storage x.allocator w.allocators n block v.allocators := by
  cases fits with
  | @kept n size stored enough =>
    obtain ⟨block, stored⟩ := Option.isSome_iff_exists.1 stored
    have enough : n ≤ block.size := by simpa [Record.capacity, stored] using enough
    exact ⟨n, block, storageSize_eq_ok_iff.2 size, by simp [Table.get?_update, hx, ← stored],
      .kept stored enough⟩
  | @renewed n s after block size lacking source granted =>
    obtain ⟨rfl, -⟩ := Allocator.allocate_eq_ok granted
    rw [lowered_eq] at granted
    exact ⟨n, _, storageSize_eq_ok_iff.2 size, by simp [Table.get?_update, hx],
      .renewed (lacking_iff.1 lacking) source granted⟩

/-! ## 2. Buffers that are taken -/

theorem caches_count_of_get? (hs : w.caches.get? c = some z) (f : Stats → Stats) :
    (w.count c f).caches = w.caches.update c fun _ => { z with stats := f z.stats } := by
  rw [caches_count]
  exact Table.update_congr hs rfl

namespace Taken

/-- A buffer that is taken has the storage that it had before, a new one none. -/
theorem storage (h : Taken w c z i r x v) : x.storage = w.blockOf r := by
  cases h with
  | reused top hx => simp [blockOf, hx, Record.takenFor]
  | made => simp [blockOf, Record.takenFor]

theorem allocators (h : Taken w c z i r x v) : v.allocators = w.allocators := by
  cases h <;> rfl

theorem host (h : Taken w c z i r x v) : v.host = w.host := by cases h <;> rfl

/-- The buffer is the top of the reserve, or a new one if there is none. -/
theorem source (h : Taken w c z i r x v) :
    (∃ rest old, z.reserve.slots = r :: rest ∧ w.records.get? r = some old ∧
      x.allocator = old.allocator) ∨
    (z.reserve.slots = [] ∧ w.records.get? r = none ∧ x.allocator = z.allocator) := by
  cases h with
  | reused top hx => exact .inl ⟨_, _, top, hx, rfl⟩
  | made empty => exact .inr ⟨empty, by simp, rfl⟩

/-- A cache from which a buffer is taken loses the top of its reserve, if there is one, and counts
one thing. -/
theorem caches_eq (h : Taken w c z i r x v) (hs : w.caches.get? c = some z) :
    ∃ stats, v.caches = w.caches.update c fun _ =>
      { z with reserve := { z.reserve with slots := z.reserve.slots.tail }, stats } := by
  cases h with
  | reused top =>
    refine ⟨z.stats.addReused, ?_⟩
    rw [caches_setRecord, caches_count_setCache, top, List.tail_cons]
  | made empty =>
    have same : ({ z.reserve with slots := z.reserve.slots.tail } : Reserve) = z.reserve := by
      rw [empty, List.tail_nil, ← empty]
    refine ⟨z.stats.addMade, ?_⟩
    simp only [same]
    exact caches_count_of_get? hs .addMade

end Taken

theorem get?_acquired_of_ne (u : Store) (c : CacheId) (i : Image) (area : Rect)
    (outcome : Except StorageError Bool) (other : j ≠ r) :
    (u.acquired c i area r outcome).2.records.get? j = u.records.get? j := by
  cases outcome with
  | ok newBlock => rfl
  | error e => simp [acquired, get?_records_without, other]

/-! ## 3. Lists of published buffers -/

/-- A cache answers the same when it is asked for a list, if the list and the areas are the
same. -/
theorem listing_congr (calm : w.inside = []) (calm' : v.inside = [])
    (lists : v.lists? d = w.lists? d) (areas : ∀ r ∈ w.listOf d k, v.areaOf r = w.areaOf r) :
    Session.listing v d k = Session.listing w d k := by
  have both : (v.caches.get? d).isSome = (w.caches.get? d).isSome := by
    simpa [lists?] using congrArg Option.isSome lists
  by_cases alive : (w.caches.get? d).isSome = true
  · have members : v.listOf d k = w.listOf d k := by rw [listOf_eq, listOf_eq, lists]
    have same : (w.listOf d k).map v.areaOf = (w.listOf d k).map w.areaOf :=
      List.map_congr_left areas
    rw [listing_eq calm alive, listing_eq calm' (both.trans alive), hasList, hasList, lists,
      members, same]
  · have gone : w.caches.get? d = none := by simpa using alive
    have gone' : v.caches.get? d = none := by simpa [gone] using both
    simp [Session.listing, cacheAt, cache, calm, calm', gone, gone']

/-- The buffer of the handle `b`, with the record `x` in the store `v`, was acquired from a cache
with the state `z` in the store `w`. -/
structure Acquires (w : Store) (z : Cache) (i : Image) (area : Rect) (b : Handle) (x : Record)
    (v : Store) : Prop where
  record : v.records.get? b.record = some x
  /-- The record is bound to the image and to the area, unpublished and with one reference. -/
  bound : x.origin = b.cache ∧ x.image = some i.key ∧ b.image = i.key ∧
    x.bytesPerPixel = i.bytesPerPixel ∧ x.area = area ∧ x.references = 1 ∧ x.published = false
  /-- The buffer is the top of the reserve; if the reserve is empty it is a new one. -/
  source : (∃ rest old, z.reserve.slots = b.record :: rest ∧
      w.records.get? b.record = some old) ∨
    (z.reserve.slots = [] ∧ w.records.get? b.record = none)
  /-- Its storage is what the buffer had if that will do, else a new block of zeros. -/
  storage : ∃ n block, storageSize area i.bytesPerPixel = .ok n ∧ x.storage = some block ∧
    block.size = max (w.capacityOf b.record) n ∧ x.allocator = z.allocator ∧
    Provided w.host.heap (w.blockOf b.record) z.allocator w.allocators n block v.allocators

end Store

/-! ## 4. Acquisitions -/

namespace World.Sound

variable {W : World} {c : CacheId} {z : Cache} {i : Image} {area : Rect} {b d : Handle} {v : Store}
  {outcome : Except StorageError Handle} {r : RecordId} {k : ImageKey}

theorem acquire_sound (h : W.Sound) (hs : W.store.caches.get? c = some z)
    (run : W.store.acquire c i area = .ok (outcome, v)) :
    ({ W with store := v, handles := given outcome + W.handles } : World).Sound := by
  have owned : c ∈ W.shares := h.alive_iff.1 (by simp [hs])
  obtain ⟨V, moves, rfl⟩ := (acquire_does h any_quiet owned (allowsTaking_any _ _)).reaches run
  exact h.reaches moves

/-- An acquisition changes no other cache, and of its own one the reserve and the counts only. -/
theorem acquire_caches (h : W.Sound) (hs : W.store.caches.get? c = some z)
    (run : W.store.acquire c i area = .ok (outcome, v)) :
    ∃ stats, v.caches = W.store.caches.update c fun _ =>
      { z with reserve := { z.reserve with slots := z.reserve.slots.tail }, stats } := by
  obtain ⟨r, x, u, moved, w, taken, fits, run'⟩ := h.acquire_eq hs i area
  obtain ⟨stats, caches⟩ := taken.caches_eq hs
  obtain rfl : (w.acquired c i area r moved).2 = v :=
    congrArg Prod.snd (Except.ok.inj (run'.symm.trans run))
  exact ⟨Store.fitted moved stats, by
    rw [Store.caches_acquired, fits.caches, caches, Table.update_update]⟩

/-- An acquisition changes no record of a buffer in use. -/
theorem acquire_get? (h : W.Sound) (hs : W.store.caches.get? c = some z)
    (run : W.store.acquire c i area = .ok (outcome, v)) {y : Record}
    (hy : W.store.records.get? r = some y) (used : y.image ≠ none) :
    v.records.get? r = some y := by
  obtain ⟨j, x, u, moved, w, taken, fits, run'⟩ := h.acquire_eq hs i area
  obtain rfl : (w.acquired c i area j moved).2 = v :=
    congrArg Prod.snd (Except.ok.inj (run'.symm.trans run))
  have other : r ≠ j := by
    rintro rfl
    exact used ((h.of_taken hs taken).1 y hy)
  rw [Store.get?_acquired_of_ne _ _ _ _ _ other, fits.get?_of_ne other, taken.get?_of_ne other, hy]

/-- What is published stays as it is when a buffer is acquired. -/
theorem acquire_lists (h : W.Sound) (hs : W.store.caches.get? c = some z)
    (run : W.store.acquire c i area = .ok (outcome, v)) (d : CacheId) (k : ImageKey) :
    v.listOf d k = W.store.listOf d k ∧
      Session.listing v d k = Session.listing W.store d k := by
  obtain ⟨stats, caches⟩ := h.acquire_caches hs run
  have same : ∀ s, W.store.caches.get? c = some s → z.lists = s.lists := by
    intro s hs'
    rw [Option.some.inj (hs.symm.trans hs')]
  refine ⟨Store.listOf_update caches same d k, Store.listing_congr h.calm
    (h.acquire_sound hs run).calm (Store.lists?_update caches same d) fun r hr => ?_⟩
  obtain ⟨y, hy, -, -, image, -⟩ := h.exists_listed hr
  rw [Store.areaOf_of_get? hy, Store.areaOf_of_get?]
  exact h.acquire_get? hs run hy (by simp [image])

/-- What is given is a handle of the cache, on a buffer that was not in use. -/
theorem acquire_own (h : W.Sound) (hs : W.store.caches.get? c = some z)
    (run : W.store.acquire c i area = .ok (.ok b, v)) :
    b.cache = c ∧ ∀ y, W.store.records.get? b.record = some y → y.image = none := by
  obtain ⟨r, x, u, moved, w, taken, fits, run'⟩ := h.acquire_eq hs i area
  rw [run'] at run
  cases moved with
  | error e => cases run
  | ok newBlock =>
    cases run
    exact ⟨rfl, (h.of_taken hs taken).1⟩

/-- The buffer that a cache takes is on the allocator of the cache. -/
theorem allocator_of_taken {x : Record} (h : W.Sound) (rooted : W.store.Rooted)
    (hs : W.store.caches.get? c = some z) (taken : W.store.Taken c z i r x v) :
    x.allocator = z.allocator := by
  rcases taken.source with ⟨rest, old, top, hx, same⟩ | ⟨-, -, same⟩
  · obtain ⟨y, hy, source⟩ := h.source_of_slot rooted hs r (by simp [top])
    obtain rfl := Option.some.inj (hx.symm.trans hy)
    rw [same, source]
  · exact same

theorem acquire_acquires (h : W.Sound) (rooted : W.store.Rooted)
    (hs : W.store.caches.get? c = some z) (run : W.store.acquire c i area = .ok (.ok b, v)) :
    b.cache = c ∧ ∃ x, W.store.Acquires z i area b x v := by
  obtain ⟨r, x, u, moved, w, taken, fits, run'⟩ := h.acquire_eq hs i area
  rw [run'] at run
  cases moved with
  | error e => cases run
  | ok newBlock =>
    cases run
    obtain ⟨image, bytesPerPixel, references, undone⟩ := taken.bound
    obtain ⟨-, origin, -, -⟩ := h.of_taken hs taken
    obtain ⟨n, block, size, hy, provided⟩ := fits.provided taken.get?
    rw [bytesPerPixel] at size
    rw [taken.storage, taken.allocators, taken.host] at provided
    have allocator := h.allocator_of_taken rooted hs taken
    rw [allocator] at provided
    refine ⟨rfl, _, hy, ⟨origin, image, rfl, bytesPerPixel, rfl, references, undone⟩, ?_,
      n, block, size, rfl, ?_, allocator, provided⟩
    · rcases taken.source with ⟨rest, old, top, hx, -⟩ | ⟨empty, new, -⟩
      · exact .inl ⟨rest, old, top, hx⟩
      · exact .inr ⟨empty, new⟩
    · rw [provided.size, Store.capacityOf_eq]

/-- No other handle is on a buffer that was acquired, and it is neither in a list nor in a
reserve. -/
theorem acquire_alone (h : W.Sound) (hs : W.store.caches.get? c = some z)
    (run : W.store.acquire c i area = .ok (.ok b, v)) {x : Record}
    (acquires : W.store.Acquires z i area b x v) :
    (∀ d ∈ W.handles, d.record ≠ b.record) ∧
      ∀ d, b.record ∉ v.shelf d ∧ ∀ k, b.record ∉ v.listOf d k := by
  obtain ⟨-, image, -, -, -, sole, undone⟩ := acquires.bound
  have hc := (h.acquire_sound hs run).at_record acquires.record
  refine ⟨fun d held => ?_, fun d => ⟨fun shelved => ?_, fun k listed => ?_⟩⟩
  · have counted := hc.references
    simp only [given_ok, Multiset.singleton_add, Multiset.countP_cons, sole, if_true] at counted
    have nobody : W.handles.countP (·.record = b.record) = 0 := by omega
    exact Multiset.countP_eq_zero.1 nobody d held
  · simpa [image] using ((hc.shelved d).1 shelved).2
  · simpa [undone] using ((hc.listed d k).1 listed).2.2

end World.Sound

namespace Session

variable {s : Session} {c : CacheId} {z : Cache}

theorem Reachable.rooted (h : s.Reachable) : s.store.Rooted := by
  obtain ⟨w, acts, initial, rfl⟩ := h
  exact (sound_start initial).run_rooted acts (rooted_start initial)

/-- In every session that acts lead to, acquiring a buffer from a cache runs through. If it is
answered with a handle, that is the only reference to its buffer, which is bound as it was asked for
and not published; it is the top of the reserve if there is one and else a new buffer, with the
storage it had if that will do and else with zeros. Whatever the answer, the cache loses the top of
its reserve and nothing else, no record of a handle changes, and all lists stay as they are. -/
theorem Reachable.acquire_unshared (h : s.Reachable) (hs : s.store.caches.get? c = some z)
    (i : Image) (area : Rect) :
    ∃ outcome v, s.store.acquire c i area = .ok (outcome, v) ∧
      (∀ b, outcome = .ok b → b.cache = c ∧ (∃ x, s.store.Acquires z i area b x v) ∧
        (∀ d ∈ s.handles, d.record ≠ b.record) ∧
        ∀ d, b.record ∉ v.shelf d ∧ ∀ k, b.record ∉ v.listOf d k) ∧
      (∃ stats, v.caches = s.store.caches.update c fun _ =>
        { z with reserve := { z.reserve with slots := z.reserve.slots.tail }, stats }) ∧
      (∀ d ∈ s.handles, v.records.get? d.record = s.store.records.get? d.record) ∧
      ∀ d k, v.listOf d k = s.store.listOf d k ∧
        Session.listing v d k = Session.listing s.store d k := by
  obtain ⟨out, sound⟩ := h.sound
  have world := sound.world
  obtain ⟨r, -, -, moved, u, -, -, run⟩ := world.acquire_eq hs i area
  refine ⟨_, _, run, fun b given => ?_, world.acquire_caches hs run, fun d held => ?_,
    world.acquire_lists hs run⟩
  · have run : s.store.acquire c i area = .ok (.ok b, (u.acquired c i area r moved).2) := by
      rw [← given]
      exact run
    obtain ⟨own, x, acquires⟩ := world.acquire_acquires h.rooted hs run
    exact ⟨own, ⟨x, acquires⟩, world.acquire_alone hs run acquires⟩
  · obtain ⟨y, hy, -, -, image, -⟩ := world.exists_record held
    exact (world.acquire_get? hs run hy (by simp [image])).trans hy.symm

/-- A run after which the buffer of the short run is idle and another buffer is in use. -/
def recycledActs : List Act :=
  sampleActs ++ [.newImage "wide" 4 (some 2), .acquire "cache" "image" ⟨0, 0, 1, 1⟩ "other",
    .release "cache" "buffer"]

/-- The session after that run. -/
def recycled : Session := (start (.fresh none)).run recycledActs

/-- The idle buffer is acquired for an image with four bytes a pixel: it has its old bytes, and the
other buffer is as it was. -/
theorem acquire_unshared_sample :
    recycled.Reachable ∧ ∃ v x,
      recycled.store.acquire 1 ⟨.explicit 2, 4⟩ ⟨0, 0, 1, 1⟩ = .ok (.ok ⟨0, 1, .explicit 2⟩, v) ∧
      v.records.get? 0 = some x ∧ x.references = 1 ∧ x.storage = some ⟨#[7, 8, 9, 10]⟩ ∧
      v.records.get? 1 = recycled.store.records.get? 1 := by
  have reachable : recycled.Reachable := ⟨_, recycledActs, .fresh none, rfl⟩
  obtain ⟨outcome, v, run, given, -, others, -⟩ :=
    reachable.acquire_unshared (c := 1) rfl ⟨.explicit 2, 4⟩ ⟨0, 0, 1, 1⟩
  have answer : ∃ v, recycled.store.acquire 1 ⟨.explicit 2, 4⟩ ⟨0, 0, 1, 1⟩
      = .ok (.ok ⟨0, 1, .explicit 2⟩, v) := ⟨_, rfl⟩
  obtain ⟨v', answer⟩ := answer
  obtain ⟨rfl, rfl⟩ := Prod.mk.inj (Except.ok.inj (run.symm.trans answer))
  obtain ⟨-, ⟨x, acquires⟩, -⟩ := given _ rfl
  obtain ⟨n, block, size, stored, -, -, provided⟩ := acquires.storage
  obtain rfl : 4 = n := Except.ok.inj size
  refine ⟨reachable, v, x, run, acquires.record, acquires.bound.2.2.2.2.2.1, ?_,
    others ⟨1, 1, .explicit 1⟩ (by decide)⟩
  have had : recycled.store.blockOf 0 = some ⟨#[7, 8, 9, 10]⟩ := rfl
  rw [stored, (provided.eq_of_enough had (by decide)).1]

end Session

end PixelPool
