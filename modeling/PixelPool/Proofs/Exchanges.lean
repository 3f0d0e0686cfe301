import Mathlib.Data.List.Find
import PixelPool.Proofs.Requests

/-!
Exchanging a buffer is giving it up and requesting another one.

An exchange looks for a published buffer first, and moves the old one where it can; giving up the
old buffer before requesting may withdraw it and put it into the reserve, from where it is taken
again.
The stores that the two leave are compared without the counts of the cache and without the events
(`Store.uncounted`). Both orders come down to the same changes: a hit is not the old buffer
(`World.Sound.hit?_parted`), and what was put into the reserve last is taken from it first
(`Store.Taken.of_shelved`). Main statement: `Session.Reachable.exchange_eq_request`.
-/

namespace PixelPool

namespace Store

variable {w v v' : Store} {c : CacheId} {s : Cache} {i : Image} {r j : RecordId} {x y z : Record}
  {b : Handle} {area : Rect}

/-! ## 1. Stores without counts and events -/

/-- The store without the counts of a cache and without events. -/
def uncounted (w : Store) (c : CacheId) : Store := { w.count c (fun _ => {}) with log := [] }

@[simp] theorem uncounted_emit (w : Store) (e : Event) (c : CacheId) :
    (w.emit e).uncounted c = w.uncounted c := rfl

@[simp] theorem uncounted_count (w : Store) (c : CacheId) (f : Stats → Stats) :
    (w.count c f).uncounted c = w.uncounted c := by
  simp [uncounted, count, Table.update_update]

@[simp] theorem uncounted_setRecord (w : Store) (r : RecordId) (x : Record) (c : CacheId) :
    (w.setRecord r x).uncounted c = (w.uncounted c).setRecord r x := rfl

@[simp] theorem uncounted_setAllocator (w : Store) (a : AllocatorId) (s : Allocator) (c : CacheId) :
    (w.setAllocator a s).uncounted c = (w.uncounted c).setAllocator a s := rfl

@[simp] theorem uncounted_setCache (w : Store) (c : CacheId) (s : Cache) :
    (w.setCache c s).uncounted c = (w.uncounted c).setCache c { s with stats := {} } := by
  simp [uncounted, count, setCache, Table.update_update]

@[simp] theorem uncounted_without (w : Store) (r : RecordId) (c : CacheId) :
    (w.without r).uncounted c = (w.uncounted c).without r := by
  have records : (w.uncounted c).records = w.records := rfl
  cases hx : w.records.get? r with
  | none => simp only [without, records, hx]
  | some x =>
    simp only [without, records, hx]
    rfl

@[simp] theorem uncounted_allocators (w : Store) (t : Table Allocator) (c : CacheId) :
    ({ w with allocators := t } : Store).uncounted c = { w.uncounted c with allocators := t } := rfl

/-- But for its counts, a cache is in the store that it was looked up in. -/
theorem setCache_uncounted (hs : w.caches.get? c = some s) :
    (w.uncounted c).setCache c { s with stats := {} } = w.uncounted c := by
  have same : w.caches.update c (fun _ => { s with stats := {} })
      = w.caches.update c fun s => { s with stats := {} } := Table.update_congr hs rfl
  simp [uncounted, count, setCache, Table.update_update, same]

/-! ## 2. Changes in either order -/

theorem setRecord_comm (w : Store) (other : r ≠ j) (x y : Record) :
    (w.setRecord r x).setRecord j y = (w.setRecord j y).setRecord r x := by
  simp [setRecord, Table.update_comm w.records other]

@[simp] theorem setCache_setRecord (w : Store) (c : CacheId) (s : Cache) (r : RecordId)
    (x : Record) : (w.setRecord r x).setCache c s = (w.setCache c s).setRecord r x := rfl

@[simp] theorem setCache_setCache (w : Store) (c : CacheId) (s s' : Cache) :
    (w.setCache c s).setCache c s' = w.setCache c s' := by
  simp [setCache, Table.update_update]

/-- A buffer can end before or after a change of another one. -/
theorem without_setRecord_comm (w : Store) (other : r ≠ j) (x : Record) :
    (w.setRecord r x).without j = (w.without j).setRecord r x := by
  have same : (w.setRecord r x).records.get? j = w.records.get? j := by
    simp [Table.get?_update, other.symm]
  unfold without
  rw [same]
  cases w.records.get? j with
  | none => rfl
  | some y => simp [setRecord, Table.erase_update_comm]

/-! ## 3. Operations go one way -/

theorem Withdrawn.unique (h : Withdrawn w c r x y v) (h' : Withdrawn w c r x z v') :
    y = z ∧ v = v' := by
  cases h with
  | undone undone =>
    cases h' with
    | undone => exact ⟨rfl, rfl⟩
    | done done => simp [undone] at done
  | done done image hs =>
    cases h' with
    | undone undone => simp [undone] at done
    | done _ image' hs' =>
      obtain rfl := Option.some.inj (image.symm.trans image')
      obtain rfl := Option.some.inj (hs.symm.trans hs')
      exact ⟨rfl, rfl⟩

/-- A handle is given up in one way. -/
theorem Parted.unique (h : Parted w b x v) (h' : Parted w b x v') : v = v' := by
  have alive : ∀ {y u z}, Withdrawn w b.cache b.record x y u → u.caches.get? b.cache = some z →
      w.caches.get? b.cache ≠ none := by
    rintro y u z (_ | ⟨_, _, hs⟩) hz none
    · simp [none] at hz
    · simp [none] at hs
  cases h with
  | more more => cases h' <;> first | rfl | omega
  | kept last withdrawn hs room =>
    cases h' with
    | more => omega
    | kept _ withdrawn' hs' =>
      obtain ⟨rfl, rfl⟩ := withdrawn.unique withdrawn'
      obtain rfl := Option.some.inj (hs.symm.trans hs')
      rfl
    | freed _ withdrawn' hs' full =>
      obtain ⟨rfl, rfl⟩ := withdrawn.unique withdrawn'
      obtain rfl := Option.some.inj (hs.symm.trans hs')
      omega
    | outlived _ _ dead => exact absurd dead (alive withdrawn hs)
  | freed last withdrawn hs full =>
    cases h' with
    | more => omega
    | kept _ withdrawn' hs' room =>
      obtain ⟨rfl, rfl⟩ := withdrawn.unique withdrawn'
      obtain rfl := Option.some.inj (hs.symm.trans hs')
      omega
    | freed _ withdrawn' hs' =>
      obtain ⟨rfl, rfl⟩ := withdrawn.unique withdrawn'
      rfl
    | outlived _ _ dead => exact absurd dead (alive withdrawn hs)
  | outlived last undone dead =>
    cases h' with
    | more => omega
    | kept _ withdrawn hs => exact absurd dead (alive withdrawn hs)
    | freed _ withdrawn hs => exact absurd dead (alive withdrawn hs)
    | outlived => rfl

/-- Records with the same storage and as many bytes a pixel are moved alike in stores with the same
allocators: both fail with the same error, or both get the same storage. -/
theorem Fits.agree {w' u u' : Store} {x' : Record} {outcome outcome' : Except StorageError Bool}
    (fits : w.Fits r x area outcome u) (fits' : w'.Fits r x' area outcome' u')
    (allocators : w'.allocators = w.allocators) (host : w'.host = w.host)
    (bytesPerPixel : x'.bytesPerPixel = x.bytesPerPixel)
    (storage : x'.storage = x.storage) (source : x'.allocator = x.allocator) :
    outcome' = outcome ∧ ∀ newBlock, outcome = .ok newBlock → ∃ allocators storage,
      u = { w with allocators }.setRecord r { x with area, storage } ∧
      u' = { w' with allocators }.setRecord r { x' with area, storage } := by
  have capacity : x'.capacity = x.capacity := by simp [Record.capacity, storage]
  have lower : ∀ s, lowered s x' = lowered s x := fun s => by simp [lowered, storage]
  cases fits with
  | invalid size =>
    cases fits' with
    | invalid => exact ⟨by rw [bytesPerPixel], by simp⟩
    | kept size' | renewed size' | lost size' => simp [bytesPerPixel, size] at size'
  | kept size stored enough =>
    cases fits' with
    | invalid size' => simp [bytesPerPixel, size] at size'
    | kept =>
      exact ⟨rfl, fun _ _ => ⟨w.allocators, x.storage, rfl, by rw [← allocators, ← storage]⟩⟩
    | renewed size' lacking | lost size' lacking =>
      rw [bytesPerPixel, size, Option.some.injEq] at size'
      exact absurd ⟨storage ▸ stored, size' ▸ capacity ▸ enough⟩ lacking
  | renewed size lacking source₀ granted =>
    cases fits' with
    | invalid size' => simp [bytesPerPixel, size] at size'
    | kept size' stored enough =>
      rw [bytesPerPixel, size, Option.some.injEq] at size'
      exact absurd ⟨storage ▸ stored, size' ▸ capacity ▸ enough⟩ lacking
    | renewed size' _ source' granted' =>
      rw [bytesPerPixel, size, Option.some.injEq] at size'
      rw [allocators, source, source₀, Option.some.injEq] at source'
      subst size' source'
      rw [host, lower, granted, Prod.mk.injEq, Except.ok.injEq] at granted'
      obtain ⟨rfl, rfl⟩ := granted'
      refine ⟨rfl, fun _ _ => ⟨_, _, rfl, ?_⟩⟩
      rw [Store.setAllocator, allocators, source]
    | lost size' _ source' refused =>
      rw [bytesPerPixel, size, Option.some.injEq] at size'
      rw [allocators, source, source₀, Option.some.injEq] at source'
      subst size' source'
      simp [host, lower, granted] at refused
  | lost size lacking source₀ refused =>
    cases fits' with
    | invalid size' => simp [bytesPerPixel, size] at size'
    | kept size' stored enough =>
      rw [bytesPerPixel, size, Option.some.injEq] at size'
      exact absurd ⟨storage ▸ stored, size' ▸ capacity ▸ enough⟩ lacking
    | renewed size' _ source' granted =>
      rw [bytesPerPixel, size, Option.some.injEq] at size'
      rw [allocators, source, source₀, Option.some.injEq] at source'
      subst size' source'
      simp [host, lower, refused] at granted
    | lost size' _ source' refused' =>
      rw [bytesPerPixel, size, Option.some.injEq] at size'
      rw [allocators, source, source₀, Option.some.injEq] at source'
      subst size' source'
      rw [host, lower, refused, Prod.mk.injEq, Except.error.injEq] at refused'
      exact ⟨by rw [refused'.1], by simp⟩

/-- The buffer that was put into a reserve is the one that is taken out of it next. -/
theorem Taken.of_shelved {f : Stats → Stats} (hs : w.caches.get? c = some s)
    (hx : w.records.get? r = some x) {s' : Cache}
    (hs' : ((w.shelved c s r).count c f).caches.get? c = some s')
    (taken : Taken ((w.shelved c s r).count c f) c s' i j y v) :
    j = r ∧ y = x.takenFor i ∧ v.allocators = w.allocators ∧
      v.uncounted c = (w.uncounted c).setRecord r (x.takenFor i) := by
  have same : { s with
      reserve := { s.reserve with slots := r :: s.reserve.slots }
      stats := f s.stats.addKept } = s' := by
    simpa [shelved, Table.get?_update, hs] using hs'
  subst same
  cases taken with
  | @reused _ rest z top hz =>
    obtain ⟨rfl, rfl⟩ := List.cons.inj top
    obtain rfl : x = z := by simpa [shelved, hx] using hz
    refine ⟨rfl, rfl, rfl, ?_⟩
    simp [shelved, setCache_uncounted hs]
  | made empty => cases empty

/-! ## 4. A hit before or after a handle is given up -/

/-- The store after a reference was added to a buffer that a lookup found. -/
def hitAt (w : Store) (c : CacheId) (r : RecordId) (y : Record) : Store :=
  (w.retained r y).count c .addHit

theorem Withdrawn.hitAt (h : Withdrawn w c j x z v) (other : r ≠ j)
    (hs : v.caches.get? c = some s) :
    ∃ v', Withdrawn (w.hitAt c r y) c j x z v' ∧
      v'.caches.get? c = some { s with stats := s.stats.addHit } ∧
      v'.uncounted c = (v.uncounted c).retained r y := by
  cases h with
  | undone undone =>
    refine ⟨_, .undone undone, ?_, ?_⟩
    · simp [Store.hitAt, Store.retained, Table.get?_update, hs]
    · simp [Store.hitAt, Store.retained]
  | @done s₀ k done image hs₀ =>
    obtain rfl : { s₀ with lists := s₀.lists.put k ((s₀.lists.members k).erase j) } = s := by
      simpa [Store.withdrawn, Table.get?_update, hs₀] using hs
    have hz : (w.hitAt c r y).caches.get? c = some { s₀ with stats := s₀.stats.addHit } := by
      simp [Store.hitAt, Store.retained, Table.get?_update, hs₀]
    refine ⟨_, .done done image hz, ?_, ?_⟩
    · simp [Store.withdrawn, Table.get?_update, hz]
    · simp [Store.withdrawn, Store.hitAt, Store.retained, setRecord_comm _ other]

/-- Giving up a handle spares a buffer that a lookup found. -/
theorem Parted.hitAt (h : Parted w b x v) (other : r ≠ b.record)
    (alive : (w.caches.get? b.cache).isSome = true) :
    ∃ v', Parted (w.hitAt b.cache r y) b x v' ∧
      v'.uncounted b.cache = (v.uncounted b.cache).retained r y := by
  cases h with
  | more more =>
    refine ⟨_, .more more, ?_⟩
    simp [Store.hitAt, Store.retained, setRecord_comm _ other]
  | kept last withdrawn hs room =>
    obtain ⟨v', withdrawn', hs', same⟩ := withdrawn.hitAt (y := y) other hs
    refine ⟨_, .kept last withdrawn' hs' room, ?_⟩
    simp [Store.shelved, same, Store.retained, setRecord_comm _ other]
  | freed last withdrawn hs full =>
    obtain ⟨v', withdrawn', hs', same⟩ := withdrawn.hitAt (y := y) other hs
    refine ⟨_, .freed last withdrawn' hs' full, ?_⟩
    simp [Store.crowdedOut, same, Store.retained, without_setRecord_comm _ other]
  | outlived last undone dead => simp [dead] at alive

/-! ## 5. Lookups after a handle was given up -/

/-- A member that a search passes over may as well be missing. -/
theorem find?_erase {α : Type} [BEq α] [LawfulBEq α] {p : α → Bool} {a : α} (passed : p a = false)
    (l : List α) : (l.erase a).find? p = l.find? p := by
  induction l with
  | nil => rfl
  | cons b l ih =>
    rw [List.erase_cons, List.find?_cons]
    split
    · next same => rw [eq_of_beq same, passed]
    · rw [List.find?_cons, ih]

/-- A buffer leaves at most the list that it is in. -/
theorem Withdrawn.listOf (h : Withdrawn w c r x y v) (k : ImageKey) :
    v.listOf c k = w.listOf c k ∨ v.listOf c k = (w.listOf c k).erase r := by
  cases h with
  | undone => exact .inl rfl
  | @done s k' done image hs =>
    have alive : (w.caches.get? c).isSome = true := by simp [hs]
    simp only [Store.withdrawn, listOf_emit, listOf_setRecord, listOf_setCache alive, if_pos,
      Lists.members_put, listOf_of_get? hs]
    split
    · next hk => exact .inr (by rw [hk])
    · exact .inl rfl

theorem listOf_shelved (hs : w.caches.get? c = some s) (r : RecordId) (d : CacheId) (k : ImageKey) :
    (w.shelved c s r).listOf d k = w.listOf d k := by
  have alive : (w.caches.get? c).isSome = true := by simp [hs]
  rw [Store.shelved, listOf_count, listOf_setCache alive]
  split
  · next hd => rw [hd, listOf_of_get? hs]
  · rfl

@[simp] theorem listOf_without (w : Store) (r : RecordId) (c : CacheId) (k : ImageKey) :
    (w.without r).listOf c k = w.listOf c k := by
  simp [Store.listOf]

theorem Parted.listOf (h : Parted w b x v) (k : ImageKey) :
    v.listOf b.cache k = w.listOf b.cache k ∨
      v.listOf b.cache k = (w.listOf b.cache k).erase b.record := by
  cases h with
  | more => exact .inl rfl
  | kept last withdrawn hs room =>
    rw [listOf_shelved (w := Store.setRecord _ _ _) hs, listOf_setRecord]
    exact withdrawn.listOf k
  | freed last withdrawn hs full =>
    simpa [Store.crowdedOut] using withdrawn.listOf k
  | outlived => exact .inl (by simp)

/-- Giving up a handle leaves its cache. -/
theorem Parted.exists_cache (h : Parted w b x v) (hs : w.caches.get? b.cache = some s) :
    ∃ s', v.caches.get? b.cache = some s' := by
  cases h with
  | more => exact ⟨s, hs⟩
  | kept last withdrawn hs' => exact ⟨_, by simp [Store.shelved, Table.get?_update, hs']; rfl⟩
  | freed last withdrawn hs' => exact ⟨_, by simp [Store.crowdedOut, Table.get?_update, hs']; rfl⟩
  | outlived => exact ⟨s, by simpa using hs⟩

/-- What is left of a record of which a handle was given up is the same but for its references, or
nobody uses it. -/
theorem Parted.get?_same (h : Parted w b x v) (hx : w.records.get? b.record = some x)
    (hz : v.records.get? b.record = some z) :
    (∃ n, z = { x with references := n }) ∨ z.image = none := by
  cases h with
  | more =>
    obtain rfl : { x with references := x.references - 1 } = z := by
      simpa [Table.get?_update, hx] using hz
    exact .inl ⟨_, rfl⟩
  | kept last withdrawn =>
    have hy := withdrawn.get? hx
    simp [Store.shelved, Table.get?_update, hy] at hz
    exact .inr (hz ▸ rfl)
  | freed => simp [Store.crowdedOut, get?_records_without] at hz
  | outlived => simp [get?_records_without] at hz

end Store

namespace World.Sound

variable {W : World} {c : CacheId} {s : Cache} {i : Image} {r : RecordId} {x y : Record}
  {b : Handle} {area : Rect} {v : Store} {H : Multiset Handle}

/-- Giving up a handle on a buffer that does not enclose the area does not change what a lookup
finds. -/
theorem hit?_parted (h : ({ W with store := v, handles := H } : World).Sound)
    (parted : W.store.Parted b x v) (hx : W.store.records.get? b.record = some x)
    (outside : x.area.encloses area = false) (k : ImageKey) :
    v.hit? b.cache k area = W.store.hit? b.cache k area := by
  have passed : (W.store.areaOf b.record).encloses area = false := by
    rw [Store.areaOf_of_get? hx, outside]
  have areas : ∀ j ∈ v.listOf b.cache k, v.areaOf j = W.store.areaOf j := by
    intro j hj
    by_cases same : j = b.record
    · subst same
      obtain ⟨z, hz, -, -, image, -⟩ := h.exists_listed hj
      rcases parted.get?_same hx hz with ⟨n, rfl⟩ | none
      · rw [Store.areaOf_of_get? hz, Store.areaOf_of_get? hx]
      · simp [none] at image
    · rw [Store.areaOf, parted.get?_of_ne same, Store.areaOf]
  calc v.hit? b.cache k area
      = (v.listOf b.cache k).find? fun r => (W.store.areaOf r).encloses area :=
        List.find?_congr fun j hj => by rw [areas j hj]
    _ = W.store.hit? b.cache k area := by
        rcases parted.listOf k with same | erased
        · rw [same, Store.hit?]
        · rw [erased]
          exact Store.find?_erase (p := fun r => (W.store.areaOf r).encloses area) passed _

/-- The handle that is left of a session of handles after one of them was given up. -/
theorem exists_parted (h : W.Sound) (held : b ∈ W.handles)
    (hx : W.store.records.get? b.record = some x) :
    ∃ v H, W.store.Parted b x v ∧ W.store.dropHandle b = .ok v ∧
      ({ W with store := v, handles := H } : World).Sound := by
  obtain ⟨v, parted, run⟩ := h.dropHandle_eq held hx
  obtain ⟨H, others⟩ := Multiset.exists_cons_of_mem held
  obtain ⟨_, moves, rfl, -⟩ := (dropHandle_does h any_quiet others).reaches run
  exact ⟨v, H, parted, run, h.reaches moves⟩

end World.Sound

/-! ## 6. Exchanging and requesting -/

/-- The two programs fail with the same error, or they give the same handle and leave the same store
but for the counts of the cache and the events. -/
inductive Store.Agree (c : CacheId) (p : Except Fault (Except Refusal Handle × Store))
    (q : Except Fault (Except StorageError Handle × Store)) : Prop where
  | failed {e : StorageError} {v v' : Store} (left : p = .ok (.error (.allocation e), v))
      (right : q = .ok (.error e, v'))
  | given {d : Handle} {v v' : Store} (left : p = .ok (.ok d, v)) (right : q = .ok (.ok d, v'))
      (same : v.uncounted c = v'.uncounted c)

/-- What is known of an exchange of a handle that does not go the shortest way. -/
structure World.Exchanging (W : World) (b : Handle) (x : Record) (s : Cache) (i : Image)
    (area : Rect) : Prop where
  held : b ∈ W.handles
  hx : W.store.records.get? b.record = some x
  hs : W.store.caches.get? b.cache = some s
  image : b.image = i.key
  outside : x.area.encloses area = false

namespace World.Sound

variable {W : World} {c : CacheId} {s : Cache} {i : Image} {r : RecordId} {x y : Record}
  {b : Handle} {area : Rect} {v : Store} {H : Multiset Handle}

theorem exchange_eq_replace (e : Exchanging W b x s i area) :
    W.store.exchange b.cache (some b) i area = W.store.replace b i area := by
  rw [Store.exchange_own W.store e.image, Store.areaOf_of_get? e.hx, e.outside]
  rfl

/-- A lookup that finds a published buffer. -/
theorem lookup_of_hit (h : W.Sound) (hs : W.store.caches.get? c = some s)
    (hit : W.store.hit? c i.key area = some r) (hy : W.store.records.get? r = some y) :
    y.origin = c ∧ y.image = some i.key ∧ y.area.encloses area = true ∧
      W.store.lookup c i area = .ok (some ⟨r, c, i.key⟩, W.store.retained r y) := by
  rcases h.lookup_eq hs i area with ⟨none, -⟩ | ⟨j, z, hit', hz, origin, image, -, encloses, found⟩
  · simp [hit] at none
  · obtain rfl := Option.some.inj (hit.symm.trans hit')
    obtain rfl := Option.some.inj (hy.symm.trans hz)
    exact ⟨origin, image, encloses, found⟩

theorem lookup_of_miss (h : W.Sound) (hs : W.store.caches.get? c = some s)
    (miss : W.store.hit? c i.key area = none) :
    W.store.lookup c i area = .ok (none, W.store) := by
  rcases h.lookup_eq hs i area with ⟨-, found⟩ | ⟨j, y, hit, -⟩
  · exact found
  · simp [miss] at hit

/-- A request that a published buffer is found for. -/
theorem request_of_hit (h : W.Sound) (hs : W.store.caches.get? c = some s)
    (hit : W.store.hit? c i.key area = some r) (hy : W.store.records.get? r = some y) :
    W.store.request c i area = .ok (.ok ⟨r, c, i.key⟩, ((W.store.retained r y).count c .addHit).emit
      (.hit c i.key area ((W.store.retained r y).referencesOf r))) := by
  obtain ⟨-, -, -, found⟩ := h.lookup_of_hit hs hit hy
  rw [Store.request, found, Fault.ok_bind]
  rfl

/-- A request that no published buffer is found for. -/
theorem request_of_miss (h : W.Sound) (hs : W.store.caches.get? c = some s)
    (miss : W.store.hit? c i.key area = none) :
    W.store.request c i area = (W.store.count c .addMiss).acquire c i area := by
  rw [Store.request, h.lookup_of_miss hs miss, Fault.ok_bind]

/-- A published buffer is found. -/
theorem exchange_of_hit (h : W.Sound) (e : Exchanging W b x s i area)
    (hit : W.store.hit? b.cache i.key area = some r) :
    Store.Agree b.cache (W.store.exchange b.cache (some b) i area)
      (W.store.dropHandle b >>= fun w => w.request b.cache i area) := by
  obtain ⟨y, hy, -⟩ := h.exists_listed (Store.mem_of_hit? hit).1
  obtain ⟨origin, image, encloses, found⟩ := h.lookup_of_hit e.hs hit hy
  have other : r ≠ b.record := by
    rintro rfl
    obtain rfl := Option.some.inj (hy.symm.trans e.hx)
    simp [e.outside] at encloses
  -- The exchange counts the hit, and gives up the handle then.
  have counted := (h.retain (b := ⟨r, b.cache, i.key⟩) hy image origin).count b.cache .addHit
  obtain ⟨v₁, -, parted₁, dropped₁, -⟩ := counted.exists_parted (b := b) (x := x)
    (Multiset.mem_cons_of_mem e.held)
    (by simp [Store.retained, Table.get?_update, other.symm, e.hx])
  -- The request finds the same buffer, as it was.
  obtain ⟨v₂, H, parted₂, dropped₂, sound⟩ := h.exists_parted e.held e.hx
  obtain ⟨u, parted, same⟩ := parted₂.hitAt (y := y) other (by simp [e.hs])
  obtain rfl := parted₁.unique parted
  obtain ⟨s₂, hs₂⟩ := parted₂.exists_cache e.hs
  have found₂ := sound.request_of_hit hs₂
    ((sound.hit?_parted parted₂ e.hx e.outside i.key).trans hit)
    ((parted₂.get?_of_ne other).trans hy)
  have left : W.store.exchange b.cache (some b) i area = .ok (.ok ⟨r, b.cache, i.key⟩, v₁) := by
    rw [exchange_eq_replace e, Store.replace, found, Fault.ok_bind]
    dsimp only at dropped₁ ⊢
    rw [dropped₁]
    rfl
  have right : (W.store.dropHandle b >>= fun w => w.request b.cache i area)
      = .ok (.ok ⟨r, b.cache, i.key⟩, ((v₂.retained r y).count b.cache .addHit).emit
          (.hit b.cache i.key area ((v₂.retained r y).referencesOf r))) := by
    rw [dropped₂, Fault.ok_bind]
    exact found₂
  exact .given left right (by simp [same]; rfl)

/-- The buffer has other holders, and a new one is acquired for it. -/
theorem exchange_of_shared (h : W.Sound) (e : Exchanging W b x s i area)
    (miss : W.store.hit? b.cache i.key area = none) (shared : x.references ≠ 1) :
    Store.Agree b.cache (W.store.exchange b.cache (some b) i area)
      (W.store.dropHandle b >>= fun w => w.request b.cache i area) := by
  obtain ⟨v, H, parted, dropped, sound⟩ := h.exists_parted e.held e.hx
  obtain ⟨s', hs'⟩ := parted.exists_cache e.hs
  have missed := sound.request_of_miss hs'
    ((sound.hit?_parted parted e.hx e.outside i.key).trans miss)
  obtain ⟨r, -, -, outcome, u, -, -, run⟩ := (sound.count b.cache .addMiss).acquire_eq
    (Store.get?_caches_count hs' .addMiss) i area
  have left : W.store.exchange b.cache (some b) i area
      = .ok (Store.asRefusal (u.acquired b.cache i area r outcome).1,
          (u.acquired b.cache i area r outcome).2) := by
    rw [exchange_eq_replace e, Store.replace, h.lookup_of_miss e.hs miss, Fault.ok_bind]
    simp only [Store.referencesOf_of_get? e.hx, shared, if_false, dropped, Fault.ok_bind,
      Store.acquireMissed]
    rw [run]
    rfl
  have right : (W.store.dropHandle b >>= fun w => w.request b.cache i area)
      = .ok (u.acquired b.cache i area r outcome) := by
    rw [dropped, Fault.ok_bind]
    exact missed.trans run
  cases outcome with
  | ok => exact .given left right rfl
  | error => exact .failed left right

/-- A record taken again for the image that it was bound to. -/
theorem takenFor_parked (image : x.image = some i.key)
    (bytesPerPixel : x.bytesPerPixel = i.bytesPerPixel) (sole : x.references = 1)
    (undone : x.published = false) (publisher : x.publisher = none) :
    x.parked.takenFor i = x.withoutArea := by
  simp [Record.parked, Record.takenFor, Record.withoutArea, image, bytesPerPixel, sole, undone,
    publisher]

/-- The buffer has no other holder: the exchange moves it, and the request takes it from the reserve
to move it. -/
theorem exchange_of_sole (h : W.Sound) (owned : b.cache ∈ W.shares) (e : Exchanging W b x s i area)
    (miss : W.store.hit? b.cache i.key area = none) (sole : x.references = 1)
    (bytesPerPixel : x.bytesPerPixel = i.bytesPerPixel)
    (room : s.reserve.slots.length < s.reserve.cap) :
    Store.Agree b.cache (W.store.exchange b.cache (some b) i area)
      (W.store.dropHandle b >>= fun w => w.request b.cache i area) := by
  have hc := h.at_record e.hx
  obtain ⟨y, v, outcome, u, withdrawn, fits, resized⟩ := h.resize_eq e.held e.hx sole area
  obtain ⟨lists, hv⟩ := withdrawn.exists_cache e.hs
  have hy := withdrawn.get? e.hx
  -- Giving up the handle puts the buffer into the reserve.
  obtain ⟨u₂, H, parted, dropped, sound⟩ := h.exists_parted e.held e.hx
  obtain rfl := parted.unique (.kept sole withdrawn hv room)
  obtain ⟨s₂, hs₂⟩ := parted.exists_cache e.hs
  have missed := sound.request_of_miss hs₂
    ((sound.hit?_parted parted e.hx e.outside i.key).trans miss)
  -- The request takes it out again.
  have hs₃ := Store.get?_caches_count hs₂ .addMiss
  obtain ⟨r, z, v', outcome', u', taken, fits', acquired⟩ :=
    (sound.count b.cache .addMiss).acquire_eq hs₃ i area
  obtain ⟨rfl, rfl, allocators, left⟩ := taken.of_shelved (w := v.setRecord b.record y.parked)
    (x := y.parked) hv (by simp [Table.get?_update, hy]) hs₃
  obtain ⟨undone, references, image, bytes, -, source, storage⟩ := withdrawn.same
  have publisher : y.publisher = none := by
    cases withdrawn with
    | undone => simp [hc.publisher, undone]
    | done => rfl
  have again : y.parked.takenFor i = y.withoutArea :=
    takenFor_parked (by rw [image, (hc.holders b e.held rfl).2, e.image])
      (by rw [bytes, bytesPerPixel]) (by rw [references, sole]) undone publisher
  rw [again] at fits' left
  rw [Store.uncounted_setRecord, Store.setRecord_setRecord] at left
  have host := congrArg Store.host left
  obtain ⟨rfl, same⟩ := fits.agree fits' allocators host rfl rfl rfl
  have right : (W.store.dropHandle b >>= fun w => w.request b.cache i area)
      = .ok (u'.acquired b.cache i area b.record outcome') := by
    rw [dropped, Fault.ok_bind]
    exact missed.trans acquired
  have moved : W.store.exchange b.cache (some b) i area
      = Store.afterMove b (u.resized b.cache b area outcome') := by
    rw [exchange_eq_replace e, Store.replace, h.lookup_of_miss e.hs miss, Fault.ok_bind]
    simp only [Store.referencesOf_of_get? e.hx, sole, if_true, resized, Fault.ok_bind]
  cases outcome' with
  | ok newBlock =>
    obtain ⟨allocators, storage, rfl, rfl⟩ := same newBlock rfl
    have handle : (⟨b.record, b.cache, i.key⟩ : Handle) = b := by rw [← e.image]
    rw [Store.acquired, handle] at right
    refine .given moved right ?_
    simp only [Store.resized, Store.uncounted_count, Store.uncounted_emit,
      Store.uncounted_setRecord, Store.uncounted_allocators, left]
    exact (Store.setRecord_setRecord ({ v.uncounted b.cache with allocators } : Store) b.record
      y.withoutArea _).symm
  | error refusal =>
    -- Exchanges run through, so the handle can be given up in the end.
    obtain ⟨H, others⟩ := Multiset.exists_cons_of_mem e.held
    have runs : W.Does (fun _ => True) (W.store.exchange b.cache (some b) i area) _ :=
      exchangeSome_does h any_quiet owned others (allowsTaking_any _ _)
        fun _ _ _ => ⟨trivial, trivial⟩
    obtain ⟨answer, -, run, -⟩ := runs
    rw [moved] at run
    dsimp only [Store.afterMove, Store.resized] at moved run
    cases dropped₃ : (u.emit (.resizeFailed b.cache b.image area refusal)).dropHandle b with
    | error fault => simp [dropped₃] at run
    | ok v₃ => exact .failed (moved.trans (by rw [dropped₃]; rfl)) right

/-- Exchanging nothing is requesting, but for the events. -/
theorem exchangeNone_eq (h : W.Sound) (hs : W.store.caches.get? c = some s) (i : Image)
    (area : Rect) :
    ∃ outcome v v', W.store.exchange c none i area = .ok (Store.asRefusal outcome, v) ∧
      W.store.request c i area = .ok (outcome, v') ∧
      { v with log := [] } = { v' with log := [] } := by
  rcases h.lookup_eq hs i area with ⟨miss, found⟩ | ⟨r, x, hit, hx, -, -, -, -, found⟩
  · obtain ⟨r, -, -, outcome, u, -, -, run⟩ := (h.count c .addMiss).acquire_eq (c := c)
      (Store.get?_caches_count hs .addMiss) i area
    refine ⟨(u.acquired c i area r outcome).1, (u.acquired c i area r outcome).2,
      (u.acquired c i area r outcome).2, ?_, ?_, rfl⟩
    · simp only [Store.exchange, found, Fault.ok_bind, Store.acquireMissed]
      dsimp only at run
      rw [run]
      rfl
    · exact (h.request_of_miss hs miss).trans run
  · refine ⟨.ok ⟨r, c, i.key⟩, (W.store.retained r x).count c .addHit,
      ((W.store.retained r x).count c .addHit).emit
        (.hit c i.key area ((W.store.retained r x).referencesOf r)), ?_, ?_, rfl⟩
    · rw [Store.exchange, found]
      rfl
    · exact h.request_of_hit hs hit hx

end World.Sound

namespace Session

/-! ## 7. Reachable sessions -/

/-- In every session that acts lead to, exchanging a buffer does what giving it up and then
requesting one does, if the buffer's area does not enclose the one asked for and, should it be the
buffer itself that is moved, there is room for it in the reserve. And exchanging nothing is
requesting: the answer and the store are the same, but for the events. -/
theorem Reachable.exchange_eq_request {s : Session} (h : s.Reachable) {c : CacheId} {z : Cache}
    (alive : s.store.caches.get? c = some z) (i : Image) (area : Rect) :
    (∀ b x, b ∈ s.handles → b.cache = c → b.image = i.key →
      s.store.records.get? b.record = some x → x.bytesPerPixel = i.bytesPerPixel →
      x.area.encloses area = false →
      (x.references = 1 → (∀ r ∈ s.store.listOf c i.key, (s.store.areaOf r).encloses area = false) →
        z.reserve.slots.length < z.reserve.cap) →
      Store.Agree c (s.store.exchange c (some b) i area)
        (s.store.dropHandle b >>= fun w => w.request c i area)) ∧
    ∃ outcome v v', s.store.exchange c none i area = .ok (Store.asRefusal outcome, v) ∧
      s.store.request c i area = .ok (outcome, v') ∧
      { v with log := [] } = { v' with log := [] } := by
  obtain ⟨out, sound⟩ := h.sound
  refine ⟨?_, sound.world.exchangeNone_eq alive i area⟩
  rintro b x held rfl image hx bytesPerPixel outside room
  have e : World.Exchanging (s.world out) b x z i area := ⟨held, hx, alive, image, outside⟩
  cases hit : s.store.hit? b.cache i.key area with
  | some r => exact sound.world.exchange_of_hit e hit
  | none =>
    by_cases sole : x.references = 1
    · refine sound.world.exchange_of_sole ?_ e hit sole bytesPerPixel (room sole fun r hr => ?_)
      · exact sound.world.alive_iff.1 (by simp [world, alive])
      · simpa using List.find?_eq_none.1 hit r hr
    · exact sound.world.exchange_of_shared e hit sole

/-- After the short run the published buffer is exchanged for a larger area: it is moved. -/
theorem exchange_eq_request_sample :
    sample.Reachable ∧ ∃ v v',
      sample.store.exchange 1 (some ⟨0, 1, .explicit 1⟩) ⟨.explicit 1, 1⟩ ⟨0, 0, 3, 3⟩
        = .ok (.ok ⟨0, 1, .explicit 1⟩, v) ∧
      (sample.store.dropHandle ⟨0, 1, .explicit 1⟩ >>= fun w =>
        w.request 1 ⟨.explicit 1, 1⟩ ⟨0, 0, 3, 3⟩) = .ok (.ok ⟨0, 1, .explicit 1⟩, v') ∧
      v.uncounted 1 = v'.uncounted 1 := by
  have reachable : sample.Reachable := ⟨_, sampleActs, .fresh none, rfl⟩
  have moved : ∃ v, sample.store.exchange 1 (some ⟨0, 1, .explicit 1⟩) ⟨.explicit 1, 1⟩ ⟨0, 0, 3, 3⟩
      = .ok (.ok ⟨0, 1, .explicit 1⟩, v) := ⟨_, rfl⟩
  obtain ⟨v₁, moved⟩ := moved
  have agree := (reachable.exchange_eq_request (c := 1) rfl ⟨.explicit 1, 1⟩ ⟨0, 0, 3, 3⟩).1
    ⟨0, 1, .explicit 1⟩ _ (by decide) rfl rfl rfl rfl rfl fun _ _ => by decide
  cases agree with
  | failed left => simp [moved] at left
  | given left right same =>
    rw [moved, Except.ok.injEq, Prod.mk.injEq, Except.ok.injEq] at left
    obtain ⟨rfl, rfl⟩ := left
    exact ⟨reachable, v₁, _, moved, right, same⟩

end Session

end PixelPool
