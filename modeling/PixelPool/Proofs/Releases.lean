import Mathlib.Data.List.Forall2
import PixelPool.Proofs.Accounting
import PixelPool.Proofs.Exchanges

/-!
The reserve of a cache as a stack of bounded height.

Giving up the last handle on a buffer puts the buffer into the reserve while there is room, and ends
it otherwise. What that does to the cache, the records and the allocator is `Store.Disposed`, a
relation that composes along lists of buffers (`Store.Disposed.trans`), so several releases in a row
come down to single ones (`World.Sound.partAll_eq`). Acquiring takes the buffers out again, the last
one first (`World.Sound.acquireAll_eq`). Main statement: `Session.Reachable.reserve_is_stack`.
-/

namespace PixelPool

/-- The ways to give up a handle: by itself, or through the cache that its buffer is of. -/
inductive Parting where
  | direct
  | throughCache

/-- How many more buffers a reserve takes. -/
def Reserve.room (v : Reserve) : Nat := v.cap - v.slots.length

namespace Store

variable {w u v : Store} {c : CacheId} {s z : Cache} {r j : RecordId} {x y : Record} {b : Handle}
  {kept ended kept' ended' : List RecordId}

/-- Gives up a handle, in one of the ways to do so. -/
def part (w : Store) (how : Parting) (b : Handle) : Except Fault Store :=
  match how with
  | .direct => w.dropHandle b
  | .throughCache => do
    let (_, w) ← w.release b.cache b
    return w

/-- Gives up several handles, one after another. -/
def partAll (w : Store) : List (Parting × Handle) → Except Fault Store
  | [] => .ok w
  | (how, b) :: rest => do
    let w ← w.part how b
    w.partAll rest

/-- Acquires a buffer for each of several areas of images, one after another. -/
def acquireAll (w : Store) (c : CacheId) :
    List (Image × Rect) → Except Fault (List (Except StorageError Handle) × Store)
  | [] => .ok ([], w)
  | (i, area) :: rest => do
    let (outcome, w) ← w.acquire c i area
    let (outcomes, w) ← w.acquireAll c rest
    return (outcome :: outcomes, w)

/-- Both ways to give up a handle are the same to the store. -/
theorem part_eq (w : Store) (how : Parting) (b : Handle) : w.part how b = w.dropHandle b := by
  cases how with
  | direct => rfl
  | throughCache =>
    rw [part, release]
    cases w.dropHandle b <;> rfl

/-! ## 1. What releases do -/

/-- The blocks that several buffers store. -/
def blocksOf (w : Store) (rs : List RecordId) : List Block :=
  rs.filterMap fun r => (w.records.get? r).bind (·.storage)

/-- Between `w` and `v` the buffers `kept` were put into the reserve of a cache, one after another,
and the buffers `ended` came to their end. The cache was `z` before; its lists may differ now. -/
structure Disposed (w v : Store) (c : CacheId) (z : Cache) (kept ended : List RecordId) :
    Prop where
  cache : ∃ lists, v.caches.get? c = some { z with
    lists
    reserve := { z.reserve with slots := kept.reverse ++ z.reserve.slots }
    stats := { z.stats with
      kept := z.stats.kept + kept.length, freed := z.stats.freed + ended.length } }
  idle : ∀ r ∈ kept, ∃ x y, w.records.get? r = some x ∧ v.records.get? r = some y ∧
    y.isIdle = true ∧ y.storage = x.storage
  gone : ∀ r ∈ ended, v.records.get? r = none
  others : ∀ r, r ∉ kept → r ∉ ended → v.records.get? r = w.records.get? r
  allocators : v.allocators
    = w.allocators.update z.allocator fun a => (w.blocksOf ended).foldl Allocator.free a

theorem Disposed.nil (hs : w.caches.get? c = some z) : Disposed w w c z [] [] where
  cache := ⟨z.lists, hs⟩
  idle := nofun
  gone := nofun
  others _ _ _ := rfl
  allocators := (Table.update_id ..).symm

theorem blocksOf_congr {rs : List RecordId}
    (same : ∀ r ∈ rs, v.records.get? r = w.records.get? r) : v.blocksOf rs = w.blocksOf rs :=
  List.filterMap_congr fun r hr => by rw [same r hr]

/-- What was done to other buffers before adds up. -/
theorem Disposed.trans (h : Disposed w u c z kept ended) (hs : u.caches.get? c = some s)
    (h' : Disposed u v c s kept' ended')
    (apart : ∀ r, r ∈ kept ∨ r ∈ ended → r ∉ kept' ∧ r ∉ ended') :
    Disposed w v c z (kept ++ kept') (ended ++ ended') := by
  obtain ⟨lists, hs'⟩ := h.cache
  obtain rfl := Option.some.inj (hs.symm.trans hs')
  obtain ⟨lists', after⟩ := h'.cache
  have fresh : ∀ r, r ∈ kept' ∨ r ∈ ended' → u.records.get? r = w.records.get? r := by
    intro r hr
    refine h.others r (fun hk => ?_) fun he => ?_
    · exact hr.elim (apart r (.inl hk)).1 (apart r (.inl hk)).2
    · exact hr.elim (apart r (.inr he)).1 (apart r (.inr he)).2
  refine ⟨⟨lists', ?_⟩, fun r hr => ?_, fun r hr => ?_, fun r hk he => ?_, ?_⟩
  · simp [after, Nat.add_assoc]
  · rcases List.mem_append.1 hr with hr | hr
    · obtain ⟨x, y, hx, hy, idle⟩ := h.idle r hr
      obtain ⟨hk, he⟩ := apart r (.inl hr)
      exact ⟨x, y, hx, (h'.others r hk he).trans hy, idle⟩
    · obtain ⟨x, y, hx, hy, idle⟩ := h'.idle r hr
      exact ⟨x, y, (fresh r (.inl hr)).symm.trans hx, hy, idle⟩
  · rcases List.mem_append.1 hr with hr | hr
    · obtain ⟨hk, he⟩ := apart r (.inr hr)
      exact (h'.others r hk he).trans (h.gone r hr)
    · exact h'.gone r hr
  · simp only [List.mem_append, not_or] at hk he
    exact (h'.others r hk.2 he.2).trans (h.others r hk.1 he.1)
  · rw [h'.allocators, h.allocators, Table.update_update]
    have blocks : w.blocksOf (ended ++ ended') = w.blocksOf ended ++ u.blocksOf ended' := by
      rw [blocksOf_congr fun r hr => fresh r (.inr hr)]
      exact List.filterMap_append
    simp only [blocks, List.foldl_append]

theorem Withdrawn.allocators (h : Withdrawn w c r x y v) : v.allocators = w.allocators := by
  cases h <;> rfl

/-- Giving up the last handle on a buffer keeps the buffer if there is room, and else ends it. -/
theorem Parted.disposed (h : Parted w b x v) (hx : w.records.get? b.record = some x)
    (last : x.references = 1) (hs : w.caches.get? b.cache = some z)
    (source : x.allocator = z.allocator) :
    Disposed w v b.cache z ([b.record].take z.reserve.room) ([b.record].drop z.reserve.room) := by
  have others : ∀ r, r ≠ b.record → v.records.get? r = w.records.get? r :=
    fun r other => h.get?_of_ne other
  cases h with
  | more more => omega
  | outlived _ _ dead => simp [hs] at dead
  | @kept u y s' _ withdrawn hs' room =>
    obtain ⟨lists, hz⟩ := withdrawn.exists_cache hs
    obtain rfl := Option.some.inj (hs'.symm.trans hz)
    have hy := withdrawn.get? hx
    obtain ⟨undone, -, -, -, -, -, storage⟩ := withdrawn.same
    obtain ⟨n, left⟩ : ∃ n, z.reserve.room = n + 1 :=
      ⟨_, (Nat.succ_pred_eq_of_pos (Nat.sub_pos_of_lt room)).symm⟩
    simp only [left, List.take_succ_cons, List.take_nil, List.drop_succ_cons, List.drop_nil]
    refine ⟨⟨lists, ?_⟩, ?_, nofun, fun r hr _ => others r (by simpa using hr), ?_⟩
    · simp [shelved, Table.get?_update, hs', Stats.addKept]
    · intro r hr
      obtain rfl := List.mem_singleton.1 hr
      exact ⟨x, y.parked, hx, by simp [shelved, Table.get?_update, hy], rfl, storage⟩
    · simp [shelved, withdrawn.allocators, blocksOf, ← Function.id_def]
  | @freed u y s' _ withdrawn hs' full =>
    obtain ⟨lists, hz⟩ := withdrawn.exists_cache hs
    obtain rfl := Option.some.inj (hs'.symm.trans hz)
    have hy := withdrawn.get? hx
    obtain ⟨-, -, -, -, -, allocator, storage⟩ := withdrawn.same
    have left : z.reserve.room = 0 := Nat.sub_eq_zero_of_le full
    simp only [left, List.take_zero, List.drop_zero]
    refine ⟨⟨lists, ?_⟩, nofun, ?_, fun r _ hr => others r (by simpa using hr), ?_⟩
    · simp [crowdedOut, Table.get?_update, hs', Stats.addFreed]
    · intro r hr
      obtain rfl := List.mem_singleton.1 hr
      simp [crowdedOut, get?_records_without]
    · have hy : ((u.count b.cache .addFreed).emit (.reserveFull b.cache y.capacity)).records.get?
          b.record = some y := hy
      simp only [crowdedOut, without, hy, storage, allocator, source, blocksOf]
      cases stored : x.storage with
      | none => simp [hx, stored, withdrawn.allocators, ← Function.id_def]
      | some block => simp [hx, stored, withdrawn.allocators]

end Store

namespace World.Sound

variable {W : World} {c : CacheId} {z : Cache} {x : Record} {b : Handle}

/-! ## 2. Releases one after another -/

/-- Giving up the only handle on a buffer, in either way. -/
theorem part_disposed (h : W.Sound) {H : Multiset Handle} (held : W.handles = b ::ₘ H)
    (hs : W.store.caches.get? b.cache = some z) (hx : W.store.records.get? b.record = some x)
    (last : x.references = 1) (source : x.allocator = z.allocator) (how : Parting) :
    ∃ v, W.store.part how b = .ok v ∧ ({ W with store := v, handles := H } : World).Sound ∧
      W.store.Disposed v b.cache z ([b.record].take z.reserve.room)
        ([b.record].drop z.reserve.room) := by
  obtain ⟨v, parted, run⟩ := h.dropHandle_eq (by simp [held]) hx
  obtain ⟨_, moves, rfl, -⟩ := (dropHandle_does h any_quiet held).reaches run
  exact ⟨v, (W.store.part_eq how b).trans run, h.reaches moves, parted.disposed hx last hs source⟩

/-- What fits into a reserve of several buffers, and what does not, one buffer at a time. -/
theorem take_drop_room (room : Nat) (r : RecordId) (rs : List RecordId) :
    (r :: rs).take room = [r].take room ++ rs.take (room - ([r].take room).length) ∧
      (r :: rs).drop room = [r].drop room ++ rs.drop (room - ([r].take room).length) := by
  cases room <;> simp

/-- Giving up the only handles on several buffers: the first ones fill the reserve, and the others
end. -/
theorem partAll_eq (h : W.Sound) (hs : W.store.caches.get? c = some z)
    (given : List (Parting × Handle)) (distinct : (given.map (·.2.record)).Nodup)
    (sole : ∀ e ∈ given, e.2 ∈ W.handles ∧ e.2.cache = c ∧ ∃ x,
      W.store.records.get? e.2.record = some x ∧ x.references = 1 ∧
        x.allocator = z.allocator) :
    ∃ v H, W.store.partAll given = .ok v ∧ ({ W with store := v, handles := H } : World).Sound ∧
      W.store.Disposed v c z ((given.map (·.2.record)).take z.reserve.room)
        ((given.map (·.2.record)).drop z.reserve.room) := by
  induction given generalizing W z with
  | nil => exact ⟨_, _, rfl, h, by simpa using .nil hs⟩
  | cons e rest ih =>
    obtain ⟨how, b⟩ := e
    obtain ⟨fresh, distinct⟩ := List.nodup_cons.1 distinct
    obtain ⟨held, rfl, x, hx, last, source⟩ := sole _ List.mem_cons_self
    obtain ⟨H, held⟩ := Multiset.exists_cons_of_mem held
    obtain ⟨u, run, sound, disposed⟩ := h.part_disposed held hs hx last source how
    obtain ⟨lists, hz⟩ := disposed.cache
    have only : ∀ r, r ∈ [b.record].take z.reserve.room ∨ r ∈ [b.record].drop z.reserve.room →
        r = b.record := by
      intro r hr
      exact List.mem_singleton.1 (hr.elim List.mem_of_mem_take List.mem_of_mem_drop)
    -- The other buffers are as before, and the handles on them are still held.
    have others : ∀ e ∈ rest, e.2 ∈ H ∧ e.2.cache = b.cache ∧ ∃ x,
        u.records.get? e.2.record = some x ∧ x.references = 1 ∧ x.allocator = z.allocator := by
      intro e he
      obtain ⟨held', own, y, hy, last', source'⟩ := sole e (List.mem_cons_of_mem _ he)
      have other : e.2.record ≠ b.record := fun same => fresh (List.mem_map.2 ⟨e, he, same⟩)
      have spared := disposed.others e.2.record (fun hr => other (only _ (.inl hr)))
        fun hr => other (only _ (.inr hr))
      rw [held] at held'
      refine ⟨(Multiset.mem_cons.1 held').resolve_left ?_, own, y, spared.trans hy, last', source'⟩
      intro same
      exact other (congrArg Handle.record same)
    obtain ⟨v, H', run', sound', after⟩ := ih sound hz distinct others
    refine ⟨v, H', by simp [Store.partAll, run, run'], sound', ?_⟩
    have both := disposed.trans hz after fun r hr => ?_
    · obtain ⟨first, second⟩ := take_drop_room z.reserve.room b.record (rest.map (·.2.record))
      have left : z.reserve.room - ([b.record].take z.reserve.room).length = z.reserve.cap
          - (([b.record].take z.reserve.room).reverse ++ z.reserve.slots).length := by
        simp only [Reserve.room, List.length_append, List.length_reverse]
        omega
      rw [List.map_cons, first, second, left]
      exact both
    · obtain rfl := only r hr
      exact ⟨fun hr => fresh (List.mem_of_mem_take hr), fun hr => fresh (List.mem_of_mem_drop hr)⟩

end World.Sound

/-! ## 3. Acquisitions one after another -/

/-- What became of a buffer that was taken out of a reserve: it was handed out, or it ended since no
storage could be had. -/
inductive Store.Consumed (u : Store) (c : CacheId) (r : RecordId) :
    Except StorageError Handle → Prop where
  | handed (k : ImageKey) : Consumed u c r (.ok ⟨r, c, k⟩)
  | ended (e : StorageError) (gone : u.records.get? r = none) : Consumed u c r (.error e)

theorem Store.Consumed.of_same {u v : Store} {c : CacheId} {r : RecordId}
    {outcome : Except StorageError Handle} (h : u.Consumed c r outcome)
    (same : v.records.get? r = u.records.get? r) : v.Consumed c r outcome := by
  cases h with
  | handed k => exact .handed k
  | ended e gone => exact .ended e (same.trans gone)

namespace World.Sound

variable {W : World} {c : CacheId} {z : Cache} {r : RecordId} {rest : List RecordId}

/-- Acquiring takes the top of the reserve, whether it succeeds or fails. -/
theorem acquire_pops (h : W.Sound) (hs : W.store.caches.get? c = some z)
    (top : z.reserve.slots = r :: rest) (i : Image) (area : Rect) :
    ∃ outcome u z' H, W.store.acquire c i area = .ok (outcome, u) ∧
      ({ W with store := u, handles := H } : World).Sound ∧ u.caches.get? c = some z' ∧
      z'.reserve = { z.reserve with slots := rest } ∧
      z'.stats.reused = z.stats.reused + 1 ∧ u.Consumed c r outcome ∧
      ∀ j, j ≠ r → u.records.get? j = W.store.records.get? j := by
  obtain ⟨r', x, v, outcome, u, taken, fits, run⟩ := h.acquire_eq hs i area
  have owned : c ∈ W.shares := h.alive_iff.1 (by simp [hs])
  obtain ⟨V, moves, rfl⟩ := (acquire_does h any_quiet owned (allowsTaking_any _ _)).reaches run
  have others : ∀ j, j ≠ r' → u.records.get? j = W.store.records.get? j := by
    intro j other
    rw [fits.get?_of_ne other, taken.get?_of_ne other]
  cases taken with
  | made empty => simp [top] at empty
  | @reused _ rest' x top' hx =>
    obtain ⟨rfl, rfl⟩ := List.cons.inj (top.symm.trans top')
    have found : u.caches.get? c = some { z with
        reserve := { z.reserve with slots := rest }, stats := z.stats.addReused } := by
      simp [fits.caches, Table.get?_update, hs]
    cases outcome with
    | ok newBlock =>
      have after : ((u.count c (·.addAllocation newBlock)).emit
          (.acquired c i.key area (u.capacityOf r))).caches.get? c = some { z with
            reserve := { z.reserve with slots := rest }
            stats := z.stats.addReused.addAllocation newBlock } := by
        simp [Table.get?_update, found]
      exact ⟨_, _, _, _, run, h.reaches moves, after, rfl, by cases newBlock <;> rfl,
        .handed i.key, others⟩
    | error e =>
      have after : (((u.count c .addFailure).emit
          (.acquisitionFailed c i.key area e)).without r).caches.get? c = some { z with
            reserve := { z.reserve with slots := rest }
            stats := z.stats.addReused.addFailure } := by
        simp [Table.get?_update, found]
      refine ⟨_, _, _, _, run, h.reaches moves, after, rfl, rfl, .ended e ?_, fun j other => ?_⟩
      · simp [Store.get?_records_without]
      · simp [Store.get?_records_without, other, others j other]

/-- Acquiring several times takes as many buffers from the top of the reserve. -/
theorem acquireAll_eq (h : W.Sound) (hs : W.store.caches.get? c = some z)
    (requests : List (Image × Rect)) (taken : List RecordId)
    (count : requests.length = taken.length) (top : z.reserve.slots = taken ++ rest) :
    ∃ outcomes u z', W.store.acquireAll c requests = .ok (outcomes, u) ∧
      u.caches.get? c = some z' ∧ z'.reserve = { z.reserve with slots := rest } ∧
      z'.stats.reused = z.stats.reused + taken.length ∧
      List.Forall₂ (u.Consumed c) taken outcomes ∧
      ∀ j, j ∉ taken → u.records.get? j = W.store.records.get? j := by
  induction requests generalizing W z taken with
  | nil =>
    obtain rfl := List.length_eq_zero_iff.1 count.symm
    obtain rfl : z.reserve.slots = rest := top
    exact ⟨_, _, z, rfl, hs, rfl, rfl, .nil, fun _ _ => rfl⟩
  | cons request requests ih =>
    obtain ⟨i, area⟩ := request
    cases taken with
    | nil => simp at count
    | cons r taken =>
      have distinct := (h.tidy c z hs).distinct
      rw [top] at distinct
      have fresh : r ∉ taken := by
        have := (List.nodup_append.1 distinct).1
        exact (List.nodup_cons.1 this).1
      obtain ⟨outcome, u, z', H, run, sound, hz, reserve, reused, consumed, others⟩ :=
        h.acquire_pops hs top i area
      obtain ⟨outcomes, v, z'', run', hz', reserve', reused', consumed', others'⟩ :=
        ih sound hz taken (by simpa using count) (by simp [reserve])
      refine ⟨outcome :: outcomes, v, z'', by simp [Store.acquireAll, run, run'], hz', ?_, ?_,
        .cons (consumed.of_same (others' r fresh)) consumed', fun j hj => ?_⟩
      · rw [reserve', reserve]
      · rw [reused', reused, List.length_cons]
        omega
      · rw [List.mem_cons, not_or] at hj
        rw [others' j hj.2, others j hj.1]

end World.Sound

namespace Session

/-! ## 4. Reachable sessions -/

/-- In every session that acts lead to, no reserve is above its cap. Giving up the only handles on
several buffers of a cache, one after another and each in either way, puts the first ones into the
reserve with their storage, up to the cap, and ends the others, whose storage goes back block by
block. Acquiring as many times then takes the kept buffers, the last one first, whether it succeeds
or fails. -/
theorem Reachable.reserve_is_stack {s : Session} (h : s.Reachable) {c : CacheId} {z : Cache}
    (alive : s.store.caches.get? c = some z) :
    z.reserve.slots.length ≤ z.reserve.cap ∧
    ∀ given : List (Parting × Handle), (given.map (·.2.record)).Nodup →
      (∀ e ∈ given, e.2 ∈ s.handles ∧ e.2.cache = c ∧
        ∃ x, s.store.records.get? e.2.record = some x ∧ x.references = 1) →
      ∀ kept ended,
        kept = (given.map (·.2.record)).take (z.reserve.cap - z.reserve.slots.length) →
        ended = (given.map (·.2.record)).drop (z.reserve.cap - z.reserve.slots.length) →
        ∃ v, s.store.partAll given = .ok v ∧ s.store.Disposed v c z kept ended ∧
          (∃ y, v.caches.get? c = some y ∧ y.reserve.slots.length
            = min z.reserve.cap (z.reserve.slots.length + given.length)) ∧
          ∀ requests : List (Image × Rect), requests.length ≤ kept.length →
            ∃ outcomes u y, v.acquireAll c requests = .ok (outcomes, u) ∧
              u.caches.get? c = some y ∧
              y.reserve.slots = kept.reverse.drop requests.length ++ z.reserve.slots ∧
              y.stats.reused = z.stats.reused + requests.length ∧
              List.Forall₂ (u.Consumed c) (kept.reverse.take requests.length) outcomes := by
  obtain ⟨w, acts, initial, rfl⟩ := h
  have sound := (sound_start initial).run acts
  have rooted := (sound_start initial).run_rooted acts (rooted_start initial)
  have bounded := (sound.world.tidy c z alive).bounded
  refine ⟨bounded, ?_⟩
  intro given distinct sole kept ended hkept hended
  have sole : ∀ e ∈ given, e.2 ∈ ((start w).run acts).handles ∧ e.2.cache = c ∧
      ∃ x, ((start w).run acts).store.records.get? e.2.record = some x ∧ x.references = 1 ∧
        x.allocator = z.allocator := by
    intro e he
    obtain ⟨held, own, x, hx, last⟩ := sole e he
    have origin := ((sound.world.at_record hx).holders e.2 held rfl).1
    have source := (rooted _ x hx).2
    rw [← origin, own, Store.allocatorOf_of_get? alive, Option.some.injEq] at source
    exact ⟨held, own, x, hx, last, source.symm⟩
  obtain ⟨v, H, run, sound', disposed⟩ := sound.world.partAll_eq alive given distinct sole
  rw [Reserve.room, ← hkept, ← hended] at disposed
  obtain ⟨lists, hz⟩ := disposed.cache
  refine ⟨v, run, disposed, ⟨_, hz, ?_⟩, fun requests enough => ?_⟩
  · have length : kept.length = min (z.reserve.cap - z.reserve.slots.length) given.length := by
      rw [hkept, List.length_take, List.length_map]
    simp only [List.length_append, List.length_reverse, length]
    omega
  · have top : kept.reverse ++ z.reserve.slots = kept.reverse.take requests.length
        ++ (kept.reverse.drop requests.length ++ z.reserve.slots) := by
      rw [← List.append_assoc, List.take_append_drop]
    obtain ⟨outcomes, u, y, run', hy, reserve, reused, consumed, -⟩ :=
      sound'.acquireAll_eq hz requests _ (by simpa using enough) top
    refine ⟨outcomes, u, y, run', hy, by rw [reserve], ?_, consumed⟩
    rw [reused, List.length_take, List.length_reverse, Nat.min_eq_left enough]

/-- A run that leaves two buffers, of which one is published, on a cache whose reserve takes one. -/
def crowdingActs : List Act :=
  [.newCache "cache" none (some 1), .newImage "image" 1 (some 1),
    .acquire "cache" "image" ⟨0, 0, 2, 2⟩ "first", .publish "cache" "first",
    .acquire "cache" "image" ⟨0, 0, 3, 3⟩ "second"]

/-- The first of the two buffers to be given up is kept and taken again, the other one ends. -/
theorem reserve_is_stack_crowding :
    ∃ v u b, ((start (.fresh none)).run crowdingActs).store.partAll
        [(.throughCache, ⟨0, 1, .explicit 1⟩), (.direct, ⟨1, 1, .explicit 1⟩)] = .ok v ∧
      v.records.get? 1 = none ∧ v.acquireAll 1 [(⟨.explicit 2, 1⟩, ⟨0, 0, 1, 1⟩)] = .ok ([b], u) ∧
      u.Consumed 1 0 b := by
  have reachable : ((start (.fresh none)).run crowdingActs).Reachable :=
    ⟨_, crowdingActs, .fresh none, rfl⟩
  obtain ⟨-, releases⟩ := reachable.reserve_is_stack (c := 1) rfl
  obtain ⟨v, run, disposed, -, acquires⟩ := releases
    [(.throughCache, ⟨0, 1, .explicit 1⟩), (.direct, ⟨1, 1, .explicit 1⟩)] (by decide)
    (fun e he => by
      rcases List.mem_pair.1 he with rfl | rfl
      · exact ⟨by decide, rfl, _, rfl, rfl⟩
      · exact ⟨by decide, rfl, _, rfl, rfl⟩) [0] [1] rfl rfl
  obtain ⟨outcomes, u, y, run', -, -, -, consumed⟩ := acquires [(⟨.explicit 2, 1⟩, ⟨0, 0, 1, 1⟩)]
    (by decide)
  obtain ⟨b, _, first, none, rfl⟩ := List.forall₂_cons_left_iff.1 consumed
  obtain rfl := List.forall₂_nil_left_iff.1 none
  exact ⟨v, u, b, run, disposed.gone 1 (by decide), run', first⟩

end Session

end PixelPool
