import PixelPool.Proofs.Hits
import PixelPool.Proofs.Swaps

/-!
What an acquisition leaves behind that fails.

Storage goes back on one of two ways. If the area has no size the buffer still has its old storage
when it ends, and that returns then. Else the old storage returned before the allocator was asked,
and the buffer ends with none. `Store.Fits.allocators_acquired` shows that both ways come to the
same, but for the request that the allocator refused on the second one. Main statement:
`Session.failures_discard`, for direct acquisitions, for requests, and for exchanges that go on to
acquire a buffer.
-/

namespace PixelPool

/-- How many requests an allocator has refused by the time of an error. An area without a size is
not asked for. -/
def StorageError.refusals : StorageError → Nat
  | .invalidArea .. => 0
  | _ => 1

theorem Allocator.refusals_of_error {a after : Allocator} {n : Nat} {e : StorageError}
    (refused : a.allocate heap n = (.error e, after)) : e.refusals = 1 := by
  rcases allocate_eq_error refused with rfl | ⟨limit, -, rfl⟩ <;> rfl

namespace Store

variable {w v u : Store} {c : CacheId} {z : Cache} {i : Image} {r j : RecordId} {x : Record}
  {area : Rect} {a : Allocator} {e : StorageError} {t : Stats} {old : Option Handle}
  {out : Multiset Loan}

/-! ## 1. The storage of a buffer that ends -/

/-- If a buffer cannot be moved and ends, its storage goes back once. -/
theorem Fits.allocators_acquired (fits : w.Fits r x area (.error e) u)
    (hx : w.records.get? r = some x) (ha : w.allocators.get? x.allocator = some a) :
    (u.acquired c i area r (.error e)).2.allocators
      = w.allocators.update x.allocator fun _ => { a with
        frees := a.frees + x.storage.toList.length
        live := a.live - x.capacity
        failed := a.failed + e.refusals } := by
  cases fits with
  | invalid =>
    simp only [acquired, without, records_emit, records_count, hx, allocators_emit,
      allocators_count, Record.capacity]
    cases x.storage with
    | none =>
      have same := Table.update_congr (f := fun _ => a) (g := id) ha rfl
      rw [Table.update_id] at same
      exact same.symm
    | some block => exact Table.update_congr (f := (·.free block)) ha rfl
  | @lost n s after e size lacking source refused =>
    obtain rfl := Option.some.inj (ha.symm.trans source)
    have totals : after = { a with
        frees := a.frees + x.storage.toList.length
        live := a.live - x.capacity
        failed := a.failed + 1 } := by
      rw [Allocator.refused_eq refused]
      unfold lowered Record.capacity
      cases x.storage <;> rfl
    rw [Allocator.refusals_of_error refused, ← totals]
    simp [acquired, without, Table.get?_update, hx]

/-- The area has no size, or the allocator has refused as many bytes as it takes. -/
theorem Fits.cause (fits : w.Fits r x area (.error e) u)
    (ha : w.allocators.get? x.allocator = some a) :
    (byteSize? area x.bytesPerPixel = none ∧ e = .invalidArea area x.bytesPerPixel) ∨
    ∃ n, byteSize? area x.bytesPerPixel = some n ∧
      (e = .outOfMemory n ∨
        ∃ limit, a.limit = some limit ∧ e = .limitExceeded n (a.live - x.capacity) limit) := by
  cases fits with
  | invalid size => exact .inl ⟨size, rfl⟩
  | lost size lacking source refused =>
    obtain rfl := Option.some.inj (ha.symm.trans source)
    right
    refine ⟨_, size, ?_⟩
    rw [← live_lowered, ← limit_lowered a x]
    exact Allocator.allocate_eq_error refused

/-- What a buffer stores is part of its allocator's live bytes. -/
theorem Balanced.capacity_le (h : w.Balanced out) (hx : w.records.get? r = some x)
    (ha : w.allocators.get? x.allocator = some a) : x.capacity ≤ a.live := by
  have own : x.sizes.sum = x.capacity := by
    unfold Record.sizes Record.capacity
    cases x.storage <;> simp
  rw [(h.known _ a ha).live, sizes_of_get? hx, sizesOn, if_pos rfl, Multiset.sum_add, own]
  exact Nat.le_add_right _ _

/-! ## 2. What a failure leaves -/

/-- The block of the buffer on top of a reserve, if there is such a buffer and it has one. -/
def topBlock (w : Store) (z : Cache) : Option Block := z.reserve.slots.head?.bind w.blockOf

/-- The bytes that the buffer on top of a reserve stores. -/
def topCapacity (w : Store) (z : Cache) : Nat := ((w.topBlock z).map Block.size).getD 0

/-- An acquisition failed with the error `e`: what it makes of the store `w`, in which the cache `c`
is `z` but for its counts `t`, and the allocator of the cache is `a`. -/
structure Discards (w : Store) (c : CacheId) (z : Cache) (a : Allocator) (t : Stats) (i : Image)
    (area : Rect) (e : StorageError) (v : Store) : Prop where
  /-- The reserve loses its top. One buffer is counted as made or as reused, and one failure. -/
  caches : v.caches = w.caches.update c fun _ => { z with
    reserve := { z.reserve with slots := z.reserve.slots.tail }
    stats := (if z.reserve.slots = [] then t.addMade else t.addReused).addFailure }
  /-- The buffer is gone, and all others are as they were. -/
  records : ∀ r, v.records.get? r
    = if z.reserve.slots.head? = some r then none else w.records.get? r
  /-- Its storage went back once, if it had any, and was live until then. A refusal is counted if
  the allocator was asked. -/
  live : w.topCapacity z ≤ a.live
  allocators : v.allocators = w.allocators.update z.allocator fun _ => { a with
    frees := a.frees + (w.topBlock z).toList.length
    live := a.live - w.topCapacity z
    failed := a.failed + e.refusals }
  /-- The allocator was asked if the area has a size, and once the storage was back. -/
  cause : (byteSize? area i.bytesPerPixel = none ∧ e = .invalidArea area i.bytesPerPixel) ∨
    ∃ n, byteSize? area i.bytesPerPixel = some n ∧
      (e = .outOfMemory n ∨
        ∃ limit, a.limit = some limit ∧ e = .limitExceeded n (a.live - w.topCapacity z) limit)
  reported : v.log = .acquisitionFailed c i.key area e :: w.log
  apart : v.apart = w.apart

/-- What was counted before an acquisition is counted after it. -/
theorem Discards.of_count {f : Stats → Stats}
    (h : (w.count c f).Discards c { z with stats := f z.stats } a t i area e v) :
    w.Discards c z a t i area e v where
  caches := by rw [h.caches, caches_count, Table.update_update]
  records := h.records
  live := h.live
  allocators := h.allocators
  cause := h.cause
  reported := h.reported
  apart := h.apart

namespace Taken

theorem storage_eq_topBlock (h : Taken w c z i r x v) : x.storage = w.topBlock z := by
  rw [h.storage]
  rcases h.source with ⟨rest, old, top, -, -⟩ | ⟨empty, none, -⟩
  · simp [topBlock, top]
  · simp [topBlock, empty, blockOf, none]

theorem caches_stats (h : Taken w c z i r x v) (hs : w.caches.get? c = some z) :
    v.caches = w.caches.update c fun _ => { z with
      reserve := { z.reserve with slots := z.reserve.slots.tail }
      stats := if z.reserve.slots = [] then z.stats.addMade else z.stats.addReused } := by
  cases h with
  | reused top => simp [top, Table.update_update]
  | made empty =>
    have same : ({ z.reserve with slots := z.reserve.slots.tail } : Reserve) = z.reserve := by
      rw [empty, List.tail_nil, ← empty]
    simp only [same, if_pos empty]
    exact caches_count_of_get? hs .addMade

theorem get?_without (h : Taken w c z i r x v) (j : RecordId) :
    (if j = r then none else v.records.get? j)
      = if z.reserve.slots.head? = some j then none else w.records.get? j := by
  by_cases same : j = r
  · subst same
    rcases h.source with ⟨rest, old, top, -, -⟩ | ⟨empty, none, -⟩
    · simp [top]
    · simp [empty, none]
  · rw [if_neg same, h.get?_of_ne same]
    rcases h.source with ⟨rest, old, top, -, -⟩ | ⟨empty, none, -⟩
    · simp [top, Ne.symm same]
    · simp [empty]

theorem log (h : Taken w c z i r x v) : v.log = w.log := by
  cases h <;> rfl

theorem apart (h : Taken w c z i r x v) : v.apart = w.apart := by
  cases h <;> rfl

end Taken

theorem Fits.log {outcome : Except StorageError Bool} (fits : w.Fits r x area outcome v) :
    v.log = w.log := by
  cases fits <;> rfl

theorem Fits.apart {outcome : Except StorageError Bool} (fits : w.Fits r x area outcome v) :
    v.apart = w.apart := by
  cases fits <;> rfl

/-- What is left if the buffer that a cache took cannot be moved. -/
theorem Taken.discards (taken : Taken w c z i r x v) (fits : v.Fits r x area (.error e) u)
    (hs : w.caches.get? c = some z) (ha : w.allocators.get? z.allocator = some a)
    (source : x.allocator = z.allocator) (live : w.topCapacity z ≤ a.live) :
    w.Discards c z a z.stats i area e (u.acquired c i area r (.error e)).2 := by
  have stored : x.capacity = w.topCapacity z := by
    rw [topCapacity, ← taken.storage_eq_topBlock]
    rfl
  have ha' : v.allocators.get? x.allocator = some a := by rw [taken.allocators, source, ha]
  constructor
  · rw [caches_acquired, fits.caches, taken.caches_stats hs, Table.update_update]
    rfl
  · intro j
    rw [← taken.get?_without j]
    by_cases same : j = r
    · simp [acquired, get?_records_without, same]
    · rw [get?_acquired_of_ne _ _ _ _ _ same, fits.get?_of_ne same, if_neg same]
  · exact live
  · rw [fits.allocators_acquired taken.get? ha', stored, taken.storage_eq_topBlock,
      taken.allocators, source]
  · have cause := fits.cause ha'
    rwa [taken.bound.2.1, stored] at cause
  · show (((u.count c .addFailure).emit (.acquisitionFailed c i.key area e)).without r).log = _
    rw [log_without, ← taken.log, ← fits.log]
    rfl
  · simp only [acquired, apart_without]
    exact fits.apart.trans taken.apart

/-- The store once a handle was given up, if there was one, on a buffer that others hold too. -/
def leftBy (w : Store) : Option Handle → Store
  | none => w
  | some b => { w with
      records := w.records.update b.record fun x => { x with references := x.references - 1 } }

/-- A handle on a buffer that others hold too is given up: there is one reference less. -/
theorem GivenUp.eq_leftBy (left : w.GivenUp old u)
    (shared : ∀ b, old = some b → w.referencesOf b.record ≠ 1) : u = w.leftBy old := by
  cases left with
  | nothing => rfl
  | @handle b x _ hx parted =>
    have many : x.references ≠ 1 := by
      rw [← referencesOf_of_get? hx]
      exact shared b rfl
    cases parted with
    | more =>
      have same := Table.update_congr (f := fun _ => { x with references := x.references - 1 })
        (g := fun x => { x with references := x.references - 1 }) hx rfl
      rw [leftBy, ← same]
      rfl
    | kept last | freed last | outlived last => exact absurd last many

theorem Balanced.leftBy (h : w.Balanced out) (old : Option Handle) :
    (w.leftBy old).Balanced out := by
  cases old with
  | none => exact h
  | some b => exact h.of_same rfl fun a => Table.total_update_self _ _ _ fun _ => rfl

theorem Rooted.leftBy (h : w.Rooted) (old : Option Handle) : (w.leftBy old).Rooted := by
  cases old with
  | none => exact h
  | some b =>
    refine h.of_same rfl (fun _ => rfl) ?_
    intro r y hy
    simp only [Store.leftBy, Table.get?_update] at hy
    split at hy
    · obtain ⟨x, hx, rfl⟩ := Option.map_eq_some_iff.1 hy
      exact ⟨x, hx, rfl, rfl⟩
    · exact ⟨y, hy, rfl, rfl⟩

theorem caches_leftBy (w : Store) (old : Option Handle) : (w.leftBy old).caches = w.caches := by
  cases old <;> rfl

theorem allocators_leftBy (w : Store) (old : Option Handle) :
    (w.leftBy old).allocators = w.allocators := by
  cases old <;> rfl

end Store

/-! ## 3. Operations that acquire a buffer -/

namespace World.Sound

variable {W : World} {c : CacheId} {z : Cache} {i : Image} {area : Rect} {a : Allocator} {v : Store}
  {e : StorageError} {out : Multiset Loan} {old : Option Handle}

theorem topCapacity_le (h : W.Sound) (rooted : W.store.Rooted) (balanced : W.store.Balanced out)
    (hs : W.store.caches.get? c = some z) (ha : W.store.allocators.get? z.allocator = some a) :
    W.store.topCapacity z ≤ a.live := by
  cases slots : z.reserve.slots with
  | nil => simp [Store.topCapacity, Store.topBlock, slots]
  | cons r rest =>
    obtain ⟨x, hx, source⟩ := h.source_of_slot rooted hs r (by simp [slots])
    have stored : W.store.topCapacity z = x.capacity := by
      simp [Store.topCapacity, Store.topBlock, slots, Store.blockOf, hx, Record.capacity]
    rw [stored]
    exact balanced.capacity_le hx (by rw [source, ha])

theorem acquire_discards (h : W.Sound) (rooted : W.store.Rooted) (balanced : W.store.Balanced out)
    (hs : W.store.caches.get? c = some z) (ha : W.store.allocators.get? z.allocator = some a)
    (run : W.store.acquire c i area = .ok (.error e, v)) :
    W.store.Discards c z a z.stats i area e v := by
  obtain ⟨r, x, w, outcome, u, taken, fits, run'⟩ := h.acquire_eq hs i area
  rw [run'] at run
  cases outcome with
  | ok newBlock => cases run
  | error e' =>
    cases run
    exact taken.discards fits hs ha (h.allocator_of_taken rooted hs taken)
      (h.topCapacity_le rooted balanced hs ha)

/-- An acquisition after a miss: what is left if it fails is said of the store before the miss. -/
theorem missed_discards {w : Store} {H : Multiset Handle}
    (sound : ({ W with store := w.count c .addMiss, handles := H } : World).Sound)
    (rooted : w.Rooted) (balanced : w.Balanced out) (hs : w.caches.get? c = some z)
    (ha : w.allocators.get? z.allocator = some a)
    (run : (w.count c .addMiss).acquire c i area = .ok (.error e, v)) :
    w.Discards c z a z.stats.addMiss i area e v := by
  have counted : (w.count c .addMiss).Balanced out := balanced.of_same rfl fun _ => rfl
  exact (sound.acquire_discards (rooted.count c .addMiss) counted
    (Store.get?_caches_count hs .addMiss) ha run).of_count

theorem exists_acquire (h : W.Sound) (hs : W.store.caches.get? c = some z) (i : Image)
    (area : Rect) : ∃ outcome v, W.store.acquire c i area = .ok (outcome, v) := by
  obtain ⟨r, -, -, outcome, u, -, -, run⟩ := h.acquire_eq hs i area
  exact ⟨_, _, run⟩

theorem exists_request (h : W.Sound) (hs : W.store.caches.get? c = some z) (i : Image)
    (area : Rect) : ∃ outcome v, W.store.request c i area = .ok (outcome, v) := by
  rcases h.lookup_eq hs i area with ⟨miss, -⟩ | ⟨r, x, hit, hx, -⟩
  · rw [h.request_of_miss hs miss]
    exact (h.count c .addMiss).exists_acquire (Store.get?_caches_count hs .addMiss) i area
  · exact ⟨_, _, h.request_of_hit hs hit hx⟩

theorem request_discards (h : W.Sound) (rooted : W.store.Rooted) (balanced : W.store.Balanced out)
    (hs : W.store.caches.get? c = some z) (ha : W.store.allocators.get? z.allocator = some a)
    (run : W.store.request c i area = .ok (.error e, v)) :
    W.store.Discards c z a z.stats.addMiss i area e v := by
  rcases h.lookup_eq hs i area with ⟨miss, -⟩ | ⟨r, x, hit, hx, -⟩
  · rw [h.request_of_miss hs miss] at run
    exact missed_discards (h.count c .addMiss) rooted balanced hs ha run
  · rw [h.request_of_hit hs hit hx] at run
    cases run

/-- An exchange that goes on to acquire a buffer: the old one has other holders. -/
theorem exchange_discards (h : W.Sound) (rooted : W.store.Rooted) (balanced : W.store.Balanced out)
    (hs : W.store.caches.get? c = some z) (ha : W.store.allocators.get? z.allocator = some a)
    (held : ∀ b, old = some b → b ∈ W.handles)
    (shared : ∀ b, old = some b → W.store.referencesOf b.record ≠ 1)
    (run : W.store.exchange c old i area = .ok (.error (.allocation e), v)) :
    (W.store.leftBy old).Discards c z a z.stats.addMiss i area e v := by
  have own : ∀ b, old = some b → b ∈ W.handles ∧ b.cache = c ∧ b.image = i.key := by
    rintro b rfl
    exact ⟨held b rfl, Store.own_of_exchange run nofun⟩
  obtain ⟨outcome, v', run', swaps⟩ := h.exchange_swaps hs own area
  obtain ⟨answered, rfl⟩ := Prod.mk.inj (Except.ok.inj (run'.symm.trans run))
  cases swaps with
  | kept | found | moved => cases answered
  | refused given _ _ hx sole =>
    exact absurd ((Store.referencesOf_of_get? hx).trans sole) (shared _ given)
  | @missed u _ H s answer _ _ _ left sound _ run =>
    obtain rfl := left.eq_leftBy shared
    cases answer with
    | ok b => cases answered
    | error e' =>
      cases answered
      exact missed_discards sound (rooted.leftBy old) (balanced.leftBy old)
        (by rw [Store.caches_leftBy, hs]) (by rw [Store.allocators_leftBy, ha]) run

end World.Sound

namespace Session

variable {s : Session} {c : CacheId} {z : Cache}

/-- In every session that disciplined acts lead to, acquiring a buffer and requesting one run
through. If no buffer is given, then of all that an acquisition does only this is left: the reserve
is without its top, and that buffer is gone; its storage, if it had any, went back to the allocator
once; one buffer is counted as made or as reused, and one failure; a refusal is counted if the
allocator was asked, and it was unless the area has no size. A request counts a miss as well, and so
does an exchange that goes on to acquire a buffer, since the old one, if there is one, has other
holders; these see that there is one reference less. -/
theorem failures_discard {w : Store} (initial : w.Initial) (acts : List Act)
    (proper : (start w).Disciplined acts) (now : s = (start w).run acts)
    (alive : s.store.caches.get? c = some z) (i : Image) (area : Rect) :
    ∃ a, s.store.allocators.get? z.allocator = some a ∧
      (∃ outcome v, s.store.acquire c i area = .ok (outcome, v) ∧
        ∀ e, outcome = .error e → s.store.Discards c z a z.stats i area e v) ∧
      (∃ outcome v, s.store.request c i area = .ok (outcome, v) ∧
        ∀ e, outcome = .error e → s.store.Discards c z a z.stats.addMiss i area e v) ∧
      ∀ old e v, (∀ b, old = some b → b ∈ s.handles ∧ s.store.referencesOf b.record ≠ 1) →
        s.store.exchange c old i area = .ok (.error (.allocation e), v) →
        (s.store.leftBy old).Discards c z a z.stats.addMiss i area e v := by
  subst now
  have sound := ((sound_start initial).run acts).world
  have rooted := (sound_start initial).run_rooted acts (rooted_start initial)
  have balanced := (sound_start initial).run_balanced proper (balanced_start initial)
  obtain ⟨a, ha⟩ := Option.isSome_iff_exists.1 (sound.tidy c z alive).source
  refine ⟨a, ha, ?acquire, ?request, ?exchange⟩
  case acquire =>
    obtain ⟨outcome, v, run⟩ := sound.exists_acquire alive i area
    refine ⟨outcome, v, run, ?_⟩
    rintro e rfl
    exact sound.acquire_discards rooted balanced alive ha run
  case request =>
    obtain ⟨outcome, v, run⟩ := sound.exists_request alive i area
    refine ⟨outcome, v, run, ?_⟩
    rintro e rfl
    exact sound.request_discards rooted balanced alive ha run
  case exchange =>
    intro old e v given run
    exact sound.exchange_discards rooted balanced alive ha (fun b hb => (given b hb).1)
      (fun b hb => (given b hb).2) run

/-- A run that leaves one idle buffer of four bytes, on an allocator that is held to eight. -/
def idlingActs : List Act :=
  [.newAllocator "allocator" (some 8), .newCache "cache" (some "allocator") none,
    .newImage "image" 1 (some 1), .acquire "cache" "image" ⟨0, 0, 2, 2⟩ "buffer",
    .dropHandle "buffer"]

/-- The session after that run. -/
def idling : Session := (start (.fresh none)).run idlingActs

/-- Nine bytes are not to be had, and an area with a negative extent has no size. Either way the
idle buffer is gone and its four bytes went back, but only the nine bytes were refused. -/
theorem failures_discard_idling :
    (start (.fresh none)).Disciplined idlingActs ∧
    (∃ v, idling.store.acquire 1 ⟨.explicit 1, 1⟩ ⟨0, 0, 3, 3⟩
        = .ok (.error (.limitExceeded 9 0 8), v) ∧ v.records.get? 0 = none ∧
      v.allocators.get? 0 = some ⟨some 8, 1, 1, 1, 0, 4⟩) ∧
    ∃ v, idling.store.request 1 ⟨.explicit 1, 1⟩ ⟨0, 0, -3, 3⟩
        = .ok (.error (.invalidArea ⟨0, 0, -3, 3⟩ 1), v) ∧ v.records.get? 0 = none ∧
      v.allocators.get? 0 = some ⟨some 8, 1, 1, 0, 0, 4⟩ := by
  have proper : (start (.fresh none)).Disciplined idlingActs :=
    ⟨nofun, nofun, nofun, nofun, nofun, trivial⟩
  have initial : (Store.fresh none).Initial := .fresh none
  refine ⟨proper, ?_, ?_⟩
  · obtain ⟨a, ha, ⟨outcome, v, run, fails⟩, -⟩ := failures_discard initial idlingActs proper
      (s := idling) rfl (c := 1) rfl ⟨.explicit 1, 1⟩ ⟨0, 0, 3, 3⟩
    have answer : ∃ v, idling.store.acquire 1 ⟨.explicit 1, 1⟩ ⟨0, 0, 3, 3⟩
        = .ok (.error (.limitExceeded 9 0 8), v) := ⟨_, rfl⟩
    obtain ⟨v', answer⟩ := answer
    obtain ⟨rfl, rfl⟩ := Prod.mk.inj (Except.ok.inj (run.symm.trans answer))
    obtain rfl : (⟨some 8, 1, 0, 0, 4, 4⟩ : Allocator) = a := Option.some.inj ha
    have discards := fails _ rfl
    refine ⟨v, run, discards.records 0, ?_⟩
    rw [discards.allocators]
    rfl
  · obtain ⟨a, ha, -, ⟨outcome, v, run, fails⟩, -⟩ := failures_discard initial idlingActs proper
      (s := idling) rfl (c := 1) rfl ⟨.explicit 1, 1⟩ ⟨0, 0, -3, 3⟩
    have answer : ∃ v, idling.store.request 1 ⟨.explicit 1, 1⟩ ⟨0, 0, -3, 3⟩
        = .ok (.error (.invalidArea ⟨0, 0, -3, 3⟩ 1), v) := ⟨_, rfl⟩
    obtain ⟨v', answer⟩ := answer
    obtain ⟨rfl, rfl⟩ := Prod.mk.inj (Except.ok.inj (run.symm.trans answer))
    obtain rfl : (⟨some 8, 1, 0, 0, 4, 4⟩ : Allocator) = a := Option.some.inj ha
    have discards := fails _ rfl
    refine ⟨v, run, discards.records 0, ?_⟩
    rw [discards.allocators]
    rfl

end Session

end PixelPool
