import PixelPool.Proofs.Acquisitions
import PixelPool.Proofs.Teardown

/-!
What a cache frees at once: by emptying its reserve, or by ending.

The bytes are summed up before the buffers end, and they come back as each of them ends. Both go
along the reserve; what is promised is about the idle buffers of the cache. They are the same
buffers, each of them once (`World.Sound.perm_idle`), and a buffer without storage adds nothing to
either sum. That nothing is subtracted from the live bytes that was not in them is the accounts'
concern. Main statement: `Session.emptying_frees_idle`.
-/

namespace PixelPool

/-- The values under the keys of which `p` holds. -/
theorem Table.filter_values_eq {α : Type} (p : α → Bool) (t : Table α) :
    t.values.filter p = (t.keysOf p).filterMap t.get? := by
  have found : ∀ e ∈ t.entries.filter fun e => p e.2, t.get? e.1 = some e.2 := by
    intro e he
    exact Table.mem_entries_iff.1 (List.mem_filter.1 he).1
  rw [Table.keysOf, List.filterMap_map, List.filterMap_congr (g := fun e => some e.2) found,
    Table.values, List.filter_map]
  simp [Function.comp_def]

namespace Store

variable {w v : Store} {c : CacheId} {z : Cache} {rs : List RecordId}

/-! ## 1. Idle buffers -/

/-- The idle buffers that a cache made. -/
def idleOf (w : Store) (c : CacheId) : List Record :=
  w.records.values.filter fun x => x.isIdle && x.origin == c

theorem sum_capacity (xs : List Record) :
    (xs.map Record.capacity).sum = ((xs.filterMap (·.storage)).map Block.size).sum := by
  induction xs with
  | nil => rfl
  | cons x xs ih =>
    cases stored : x.storage <;> simp [Record.capacity, stored, ← ih]

theorem blocksOf_eq (w : Store) (rs : List RecordId) :
    w.blocksOf rs = (rs.filterMap w.records.get?).filterMap (·.storage) := by
  rw [List.filterMap_filterMap]
  rfl

end Store

namespace World.Sound

variable {W : World} {c : CacheId} {z : Cache} {r : RecordId} {a : Allocator} {out : Multiset Loan}

theorem mem_slots_iff (h : W.Sound) (hs : W.store.caches.get? c = some z) : r ∈ z.reserve.slots ↔
    ∃ x, W.store.records.get? r = some x ∧ x.isIdle = true ∧ x.origin = c := by
  constructor
  · intro hr
    obtain ⟨x, hx, hc, origin, image, -⟩ := h.idle_of_slot hs hr
    exact ⟨x, hx, by simp [Record.isIdle, image, hc.bound.1 image], origin⟩
  · rintro ⟨x, hx, idle, rfl⟩
    have image : x.image = none := by
      simp only [Record.isIdle, Bool.and_eq_true, Option.isNone_iff_eq_none] at idle
      exact idle.1
    rw [← Store.shelf_of_get? hs]
    exact ((h.at_record hx).shelved _).2 ⟨rfl, image⟩

/-- The reserve of a cache holds the idle buffers of the cache, each of them once. -/
theorem perm_idle (h : W.Sound) (hs : W.store.caches.get? c = some z) :
    (W.store.idleOf c).Perm (z.reserve.slots.filterMap W.store.records.get?) := by
  rw [Store.idleOf, Table.filter_values_eq]
  apply List.Perm.filterMap
  apply (List.perm_ext_iff_of_nodup (Table.nodup_keysOf _ _) (h.tidy c z hs).distinct).2
  intro r
  rw [Table.mem_keysOf, h.mem_slots_iff hs]
  simp

theorem reserveBytes_eq (h : W.Sound) (hs : W.store.caches.get? c = some z) :
    W.store.reserveBytes z = ((W.store.idleOf c).map Record.capacity).sum := by
  rw [Store.sum_capacity, Store.reserveBytes, Store.blocksOf_eq]
  exact (((h.perm_idle hs).filterMap _).map _).sum_eq.symm

theorem length_blocksOf_slots (h : W.Sound) (hs : W.store.caches.get? c = some z) :
    (W.store.blocksOf z.reserve.slots).length
      = (W.store.idleOf c).countP (·.storage.isSome) := by
  rw [Store.blocksOf_eq, ← List.length_filterMap_eq_countP]
  exact ((h.perm_idle hs).filterMap _).length_eq.symm

end World.Sound

/-! ## 2. Emptying a reserve -/

namespace Store

variable {w v : Store} {c : CacheId} {z : Cache}

/-- The store `v` is `w` after the cache `c` freed its idle buffers, which stored so many bytes. The
cache was `z`, its allocator was `a`, and `H` are the handles that are held. -/
structure ReserveFreed (w v : Store) (H : Multiset Handle) (c : CacheId) (z : Cache)
    (a : Allocator) (bytes : Nat) : Prop where
  amount : bytes = ((w.idleOf c).map Record.capacity).sum
  /-- The cache has no idle buffers any more. Its lists, its counts and its owners are the same. -/
  none_idle : v.idleOf c = []
  caches : v.caches = w.caches.update c fun _ =>
    { z with reserve := { z.reserve with slots := [] } }
  /-- The allocator got back one block for each of them that had storage, and all the bytes were
  live until then. Its peak and its other totals are the same. -/
  live : bytes ≤ a.live
  allocators : v.allocators = w.allocators.update z.allocator fun _ => { a with
    frees := a.frees + (w.idleOf c).countP (·.storage.isSome)
    live := a.live - bytes }
  /-- The idle buffers are gone, and all others are as they were; so are those of handles. -/
  records : ∀ r, v.records.get? r = if r ∈ z.reserve.slots then none else w.records.get? r
  handles : ∀ b ∈ H, v.records.get? b.record = w.records.get? b.record
  lists : ∀ d k, v.listOf d k = w.listOf d k ∧ Session.listing v d k = Session.listing w d k
  reported : v.log = .reserveShrunk c bytes :: w.log
  apart : v.apart = w.apart

theorem setCache_self (hs : w.caches.get? c = some z) : w.setCache c z = w := by
  have same : w.caches.update c (fun _ => z) = w.caches.update c id := Table.update_congr hs rfl
  rw [setCache, same, Table.update_id]

theorem get?_caches_emptied (hs : w.caches.get? c = some z) :
    (w.emptied c z).caches.get? c = some { z with reserve := z.reserve.clear } := by
  simp [Table.get?_update, hs]

theorem emptied_of_nil (hs : w.caches.get? c = some z) (empty : z.reserve.slots = []) :
    w.emptied c z = w.emit (.reserveShrunk c 0) := by
  have same : ({ z with reserve := z.reserve.clear } : Cache) = z := by
    rw [Reserve.clear, ← empty]
  rw [emptied, same, setCache_self hs, empty]
  rfl

end Store

namespace World.Sound

variable {W : World} {c : CacheId} {z : Cache} {r : RecordId} {a : Allocator} {out : Multiset Loan}

theorem emptyReserve_eq (h : W.Sound) (hs : W.store.caches.get? c = some z) :
    W.store.emptyReserve c = .ok (W.store.reserveBytes z, W.store.emptied c z) := by
  have run := Store.emptyReserve_eq h.calm hs (h.tidy c z hs).distinct (h.known_slots hs)
  rwa [Store.totalCapacity_eq] at run

/-- Nothing is left to be freed. -/
theorem emptyReserve_of_nil (h : W.Sound) (hs : W.store.caches.get? c = some z)
    (empty : z.reserve.slots = []) :
    W.store.emptyReserve c = .ok (0, W.store.emit (.reserveShrunk c 0)) := by
  rw [h.emptyReserve_eq hs, Store.emptied_of_nil hs empty, Store.reserveBytes, empty]
  rfl

theorem reserveFreed (h : W.Sound) (rooted : W.store.Rooted)
    (hs : W.store.caches.get? c = some z) (ha : W.store.allocators.get? z.allocator = some a)
    (owes : a.Owes (W.store.sizes out z.allocator)) :
    W.store.ReserveFreed (W.store.emptied c z) W.handles c z a (W.store.reserveBytes z) where
  amount := h.reserveBytes_eq hs
  none_idle := (h.emptied hs).perm_idle (Store.get?_caches_emptied hs) |>.eq_nil
  caches := Store.caches_emptied ..
  live := Store.blocks_le owes (h.tidy c z hs).distinct (h.source_of_slot rooted hs)
  allocators := by
    rw [← h.length_blocksOf_slots hs]
    exact Store.allocators_withoutAll_of_get?
      (w := W.store.setCache c { z with reserve := z.reserve.clear }) ha
      (h.tidy c z hs).distinct (h.source_of_slot rooted hs)
  records := Store.get?_records_emptied _ _ _
  handles b held := by
    rw [Store.get?_records_emptied, if_neg (h.not_slot_of_held hs held)]
  lists d k := by
    have caches := Store.caches_emptied W.store c z
    have same : ∀ s, W.store.caches.get? c = some s → z.lists = s.lists := by
      intro s hs'
      rw [Option.some.inj (hs.symm.trans hs')]
    refine ⟨Store.listOf_update caches same d k, Store.listing_congr h.calm (h.emptied hs).calm
      (Store.lists?_update caches same d) ?_⟩
    intro r hr
    obtain ⟨x, hx, -, -, image, -⟩ := h.exists_listed hr
    have unshelved : r ∉ z.reserve.slots := by
      intro shelved
      obtain ⟨y, hy, -, -, none, -⟩ := h.idle_of_slot hs shelved
      obtain rfl := Option.some.inj (hx.symm.trans hy)
      simp [image] at none
    rw [Store.areaOf, Store.areaOf, Store.get?_records_emptied, if_neg unshelved]
  reported := by
    rw [Store.reserveBytes, ← Store.totalCapacity_eq]
    exact congrArg _ (Store.log_withoutAll ..)
  apart := Store.apart_withoutAll ..

/-! ## 3. The end of the cache -/

/-- A cache that ends after its reserve was emptied leaves the same buffers and caches, and its
allocator as it is. -/
theorem tornDown_emptied (h : W.Sound) (rooted : W.store.Rooted)
    (hs : W.store.caches.get? c = some z) :
    let v := W.store.emptied c z
    let u := v.tornDown c { z with reserve := z.reserve.clear }
    u.allocators = v.allocators ∧ (W.store.tornDown c z).allocators = v.allocators ∧
      u.caches = (W.store.tornDown c z).caches ∧
      (∀ r, u.records.get? r = (W.store.tornDown c z).records.get? r) ∧
      u.log = .cacheTornDown c (W.store.publishedBy c) 0 :: v.log := by
  intro v u
  obtain ⟨a, ha⟩ := Option.isSome_iff_exists.1 (h.tidy c z hs).source
  have alive : v.caches.get? c = some { z with reserve := z.reserve.clear } :=
    Store.get?_caches_emptied hs
  refine ⟨rfl, ?_, ?_, ?_, ?_⟩
  · rw [h.allocators_tornDown rooted hs ha]
    exact (Store.allocators_withoutAll_of_get?
      (w := W.store.setCache c { z with reserve := z.reserve.clear }) ha
      (h.tidy c z hs).distinct (h.source_of_slot rooted hs)).symm
  · simp [u, v, Table.erase_update]
  · intro r
    rw [Store.get?_records_tornDown, Store.get?_records_tornDown, Store.get?_records_emptied]
    by_cases shelved : r ∈ z.reserve.slots <;> simp [Reserve.clear, shelved]
  · have before := h.length_lists hs
    have after := (h.emptied hs).length_lists alive
    have published : v.publishedBy c = W.store.publishedBy c := after.symm.trans before
    rw [(h.emptied hs).log_tornDown alive, ← published]
    rfl

end World.Sound

namespace Session

variable {s : Session} {c : CacheId} {z : Cache}

/-- In every session that acts lead to, emptying the reserve of a cache runs through and answers the
bytes that the idle buffers of the cache store, if the accounts of the allocator are balanced: it
owes just the blocks that buffers store and those that are lent. `Store.ReserveFreed` says what is
left. Emptying it again answers that there was nothing, and only reports that. If the cache has one
owner left and that one leaves instead, as many bytes are reported, and the allocator is the same as
if the reserve had been emptied first; so are the buffers and the other caches. -/
theorem emptying_frees_idle {w : Store} (initial : w.Initial) (acts : List Act)
    (now : s = (start w).run acts) (alive : s.store.caches.get? c = some z)
    (balanced : ∀ a, s.store.allocators.get? z.allocator = some a →
      a.Owes (s.store.sizes ((start w).owing 0 acts) z.allocator)) :
    ∃ a bytes v, s.store.allocators.get? z.allocator = some a ∧
      s.store.emptyReserve c = .ok (bytes, v) ∧
      s.store.ReserveFreed v s.handles c z a bytes ∧
      v.emptyReserve c = .ok (0, v.emit (.reserveShrunk c 0)) ∧
      (z.owners = 1 → ∃ u u', s.store.dropOwner c = .ok u ∧ v.dropOwner c = .ok u' ∧
        u.log = .cacheTornDown c (s.store.publishedBy c) bytes :: s.store.log ∧
        u'.log = .cacheTornDown c (s.store.publishedBy c) 0 :: v.log ∧
        u.allocators = v.allocators ∧ u'.allocators = u.allocators ∧ u'.caches = u.caches ∧
        ∀ r, u'.records.get? r = u.records.get? r) := by
  subst now
  have sound := ((sound_start initial).run acts).world
  have rooted := (sound_start initial).run_rooted acts (rooted_start initial)
  obtain ⟨a, ha⟩ := Option.isSome_iff_exists.1 (sound.tidy c z alive).source
  have emptied := sound.emptied alive
  have still := Store.get?_caches_emptied alive
  refine ⟨a, _, _, ha, sound.emptyReserve_eq alive, sound.reserveFreed rooted alive ha
    (balanced a ha), ?again, ?ends⟩
  case again =>
    exact emptied.emptyReserve_of_nil still rfl
  case ends =>
    intro last
    rcases World.dropOwner_eq sound alive with ⟨-, run⟩ | ⟨more, -⟩
    · rcases World.dropOwner_eq emptied still with ⟨-, run'⟩ | ⟨more, -⟩
      · obtain ⟨kept, freed, caches, records, log⟩ := sound.tornDown_emptied rooted alive
        exact ⟨_, _, run, run', sound.log_tornDown alive, log, freed, kept.trans freed.symm,
          caches, records⟩
      · exact absurd last (Nat.ne_of_gt more)
    · exact absurd last (Nat.ne_of_gt more)

/-- A run that leaves two idle buffers. One of them lost its storage when it was to be resized. -/
def hollowActs : List Act :=
  [.newAllocator "heap" (some 20), .newCache "cache" (some "heap") none,
    .newImage "image" 1 (some 1), .acquire "cache" "image" ⟨0, 0, 2, 2⟩ "small",
    .acquire "cache" "image" ⟨0, 0, 3, 3⟩ "large", .resize "cache" "large" ⟨0, 0, 10, 10⟩ false,
    .dropHandle "large", .dropHandle "small"]

/-- The session after that run. -/
def hollow : Session := (start (.fresh none)).run hollowActs

/-- Four bytes are freed, and one block for the two buffers. -/
theorem emptying_frees_idle_hollow :
    (start (.fresh none)).Disciplined hollowActs ∧ (hollow.store.idleOf 1).length = 2 ∧
      ∃ v u, hollow.store.emptyReserve 1 = .ok (4, v) ∧ v.emptyReserve 1
        = .ok (0, v.emit (.reserveShrunk 1 0)) ∧
      v.allocators.get? 0 = some ⟨some 20, 2, 2, 1, 0, 13⟩ ∧
      hollow.store.dropOwner 1 = .ok u ∧ u.allocators = v.allocators := by
  have proper : (start (.fresh none)).Disciplined hollowActs :=
    ⟨nofun, nofun, nofun, nofun, nofun, nofun, nofun, nofun, trivial⟩
  have initial : (Store.fresh none).Initial := .fresh none
  have balanced := (sound_start initial).run_balanced proper (balanced_start initial)
  obtain ⟨a, bytes, v, ha, run, freed, again, ends⟩ := emptying_frees_idle initial hollowActs
    (s := hollow) rfl (c := 1) rfl (fun a ha => balanced.known _ a ha)
  obtain rfl : (⟨some 20, 2, 1, 1, 4, 13⟩ : Allocator) = a := Option.some.inj ha
  obtain rfl : bytes = 4 := freed.amount
  obtain ⟨u, u', dropped, -, -, -, same, -⟩ := ends rfl
  refine ⟨proper, by decide, v, u, run, again, ?_, dropped, same⟩
  rw [freed.allocators]
  rfl

end Session

end PixelPool
