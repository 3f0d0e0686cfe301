import Mathlib.Algebra.GroupWithZero.Nat
import Mathlib.Algebra.Order.BigOperators.Group.List
import PixelPool.Proofs.Listings
import PixelPool.Proofs.Releases
import PixelPool.Proofs.Violations

/-!
The end of a cache, and the buffers that outlive it.

With its last owner a cache goes, and its reserve with it. Buffers in use stay as they are but for
their mark (`Store.CacheEnded`); what the allocator gets back and what is reported follows from the
accounts. From then on such a buffer is nobody's: `Store.Orphan` lists what each operation makes of
it. Main statement: `Session.teardown_leaves_orphans`, for the act that ends the cache and for all
acts after it.
-/

namespace PixelPool

/-! ## 1. Giving back several blocks -/

/-- An allocator that gets several blocks back, one after another. -/
theorem Allocator.foldl_free (a : Allocator) (blocks : List Block) :
    blocks.foldl Allocator.free a = { a with
      frees := a.frees + blocks.length, live := a.live - (blocks.map Block.size).sum } := by
  induction blocks generalizing a with
  | nil => rfl
  | cons b blocks ih =>
    rw [List.foldl_cons, ih]
    simp only [Allocator.free, List.length_cons, List.map_cons, List.sum_cons, Nat.sub_sub,
      Nat.add_assoc, Nat.add_comm 1]

namespace Store

variable {w v : Store} {c : CacheId} {s : Cache} {r : RecordId} {x : Record} {rs : List RecordId}
  {A : AllocatorId} {a : Allocator} {out : Multiset Loan}

theorem blocksOf_cons (hx : w.records.get? r = some x) :
    w.blocksOf (r :: rs) = x.storage.toList ++ w.blocksOf rs := by
  cases stored : x.storage <;> simp [blocksOf, hx, stored]

/-- The storage of several buffers that end goes back to their allocator. -/
theorem allocators_withoutAll (distinct : rs.Nodup)
    (known : ∀ r ∈ rs, ∃ x, w.records.get? r = some x ∧ x.allocator = A) :
    (w.withoutAll rs).allocators
      = w.allocators.update A fun a => (w.blocksOf rs).foldl Allocator.free a := by
  induction rs generalizing w with
  | nil => exact (Table.update_id ..).symm
  | cons r rs ih =>
    obtain ⟨fresh, distinct⟩ := List.nodup_cons.1 distinct
    obtain ⟨x, hx, source⟩ := known r List.mem_cons_self
    have others : ∀ j ∈ rs, (w.without r).records.get? j = w.records.get? j := by
      intro j hj
      rw [get?_records_without, if_neg]
      intro same
      exact fresh (same ▸ hj)
    rw [withoutAll_cons, ih distinct fun j hj => by
      rw [others j hj]
      exact known j (List.mem_cons_of_mem _ hj)]
    rw [blocksOf_congr others, blocksOf_cons hx]
    cases stored : x.storage with
    | none => simp [without, hx, stored]
    | some b =>
      simp only [without, hx, stored, Option.elim_some, source, Table.update_update]
      rfl

/-- An allocator gets back the storage of several buffers that end, block by block. -/
theorem allocators_withoutAll_of_get? (ha : w.allocators.get? A = some a) (distinct : rs.Nodup)
    (known : ∀ r ∈ rs, ∃ x, w.records.get? r = some x ∧ x.allocator = A) :
    (w.withoutAll rs).allocators = w.allocators.update A fun _ => { a with
      frees := a.frees + (w.blocksOf rs).length
      live := a.live - ((w.blocksOf rs).map Block.size).sum } := by
  rw [allocators_withoutAll distinct known]
  exact Table.update_congr ha (a.foldl_free _)

/-- What several buffers store on an allocator is part of its live bytes. -/
theorem blocks_le (owes : a.Owes (w.sizes out A)) (distinct : rs.Nodup)
    (known : ∀ r ∈ rs, ∃ x, w.records.get? r = some x ∧ x.allocator = A) :
    ((w.blocksOf rs).map Block.size).sum ≤ a.live := by
  rw [owes.live, sizes, Multiset.sum_add]
  apply Nat.le_add_right_of_le
  clear owes
  induction rs generalizing w with
  | nil => exact Nat.zero_le _
  | cons r rs ih =>
    obtain ⟨fresh, distinct⟩ := List.nodup_cons.1 distinct
    obtain ⟨x, hx, source⟩ := known r List.mem_cons_self
    have others : ∀ j ∈ rs, (w.records.erase r).get? j = w.records.get? j := by
      intro j hj
      rw [Table.get?_erase, if_neg]
      intro same
      exact fresh (same ▸ hj)
    have rest := ih (w := { w with records := w.records.erase r }) distinct fun j hj => by
      rw [others j hj]
      exact known j (List.mem_cons_of_mem _ hj)
    rw [blocksOf_congr others] at rest
    rw [blocksOf_cons hx, Table.total_erase (sizesOn A) hx, Multiset.sum_add, List.map_append,
      List.sum_append]
    refine Nat.add_le_add (Nat.le_of_eq ?_) rest
    cases stored : x.storage <;> simp [sizesOn, source, Record.sizes, stored]

theorem totalCapacity_eq (w : Store) (rs : List RecordId) :
    w.totalCapacity rs = ((w.blocksOf rs).map Block.size).sum := by
  induction rs with
  | nil => rfl
  | cons r rs ih =>
    rw [totalCapacity, List.foldr_cons, ← totalCapacity, ih]
    cases hx : w.records.get? r with
    | none => simp [blocksOf, capacityOf, hx]
    | some x =>
      rw [blocksOf_cons hx]
      cases stored : x.storage <;> simp [capacityOf, hx, Record.capacity, stored]

/-- Marks do not matter to what is stored. -/
theorem blocksOf_unmarkAll (w : Store) (marked rs : List RecordId) :
    (w.unmarkAll marked).blocksOf rs = w.blocksOf rs := by
  unfold blocksOf
  congr 1
  funext r
  rw [get?_records_unmarkAll]
  split
  · cases w.records.get? r <;> rfl
  · rfl

/-! ## 2. The end of a cache -/

/-- The number of buffers that a cache has published. -/
def publishedBy (w : Store) (c : CacheId) : Nat :=
  (w.records.values.filter fun x => x.published && x.publisher == some c).length

/-- The bytes that the buffers of a reserve store. -/
def reserveBytes (w : Store) (z : Cache) : Nat :=
  ((w.blocksOf z.reserve.slots).map Block.size).sum

/-- What the end of the cache `z` makes of the store `w`, on which handles are held. -/
structure CacheEnded (w v : Store) (H : Multiset Handle) (c : CacheId) (z : Cache) : Prop where
  gone : v.caches.Past c
  spared : ∀ d, d ≠ c → v.caches.get? d = w.caches.get? d
  /-- Buffers of the reserve end, and those of other caches are as they were. -/
  destroyed : ∀ r ∈ z.reserve.slots, v.records.get? r = none
  others : ∀ r, (∀ x, w.records.get? r = some x → x.origin ≠ c) →
    v.records.get? r = w.records.get? r
  /-- A buffer in use loses its mark and nothing else. -/
  unmarked : ∀ b ∈ H, b.cache = c → ∃ x, w.records.get? b.record = some x ∧
    v.records.get? b.record = some { x with published := false, publisher := none }
  /-- The allocator gets back each block of the reserve. -/
  freed : ∃ a, w.allocators.get? z.allocator = some a ∧ w.reserveBytes z ≤ a.live ∧
    v.allocators = w.allocators.update z.allocator fun _ => { a with
      frees := a.frees + (w.blocksOf z.reserve.slots).length
      live := a.live - w.reserveBytes z }
  reported : v.log = .cacheTornDown c (w.publishedBy c) (w.reserveBytes z) :: w.log

end Store

namespace World.Sound

variable {W : World} {c : CacheId} {s : Cache} {r : RecordId} {x : Record} {b : Handle}
  {out : Multiset Loan}

/-- The lists of a cache hold the buffers that it has published. -/
theorem mem_lists_iff (h : W.Sound) (hs : W.store.caches.get? c = some s) : r ∈ s.lists.all ↔
    ∃ x, W.store.records.get? r = some x ∧ x.published = true ∧ x.origin = c := by
  rw [Lists.mem_all_iff]
  constructor
  · intro ⟨k, hk⟩
    obtain ⟨x, hx, -, origin, -, done⟩ := h.exists_listed (c := c) (k := k) (r := r)
      (by rwa [Store.listOf_of_get? hs])
    exact ⟨x, hx, done, origin⟩
  · intro ⟨x, hx, done, origin⟩
    obtain ⟨k, z, -, hz, hr⟩ := h.exists_publisher hx done
    rw [origin, hs] at hz
    exact ⟨k, Option.some.inj hz ▸ hr⟩

/-- No buffer is twice in the lists of a cache: each of them is in the list of its image only. -/
theorem nodup_lists (h : W.Sound) (hs : W.store.caches.get? c = some s) : s.lists.all.Nodup := by
  have image : ∀ {r k}, r ∈ s.lists.members k →
      ∃ x, W.store.records.get? r = some x ∧ x.image = some k := by
    intro r k hr
    obtain ⟨x, hx, -, -, image, -⟩ := h.exists_listed (c := c) (k := k) (r := r)
      (by rwa [Store.listOf_of_get? hs])
    exact ⟨x, hx, image⟩
  apply List.nodup_iff_count_le_one.2
  intro r
  by_cases hr : r ∈ s.lists.all
  · obtain ⟨k, hk⟩ := Lists.mem_all_iff.1 hr
    obtain ⟨x, hx, ofImage⟩ := image hk
    rw [Lists.count_all fun j hj => ?_]
    · exact List.nodup_iff_count_le_one.1 ((h.tidy c s hs).lists k) r
    · obtain ⟨y, hy, ofImage'⟩ := image hj
      obtain rfl := Option.some.inj (hx.symm.trans hy)
      exact Option.some.inj (ofImage'.symm.trans ofImage)
  · rw [List.count_eq_zero.2 hr]
    exact Nat.zero_le _

/-- The lists of a cache hold as many buffers as the cache has published. -/
theorem length_lists (h : W.Sound) (hs : W.store.caches.get? c = some s) :
    s.lists.all.length = W.store.publishedBy c := by
  -- The published records and their numbers are counted alike.
  have count : W.store.publishedBy c = ((W.store.records.entries.filter fun e =>
      e.2.published && e.2.publisher == some c).map (·.1)).length := by
    simp only [Store.publishedBy, Table.values, List.filter_map, List.length_map]
    rfl
  rw [count]
  apply List.Perm.length_eq
  have keys : (W.store.records.entries.map (·.1)).Nodup :=
    List.pairwise_map.2 (W.store.records.descending.imp fun lt => (Nat.ne_of_lt lt).symm)
  apply (List.perm_ext_iff_of_nodup (h.nodup_lists hs)
    (keys.sublist (List.filter_sublist.map _))).2
  intro r
  simp only [h.mem_lists_iff hs, List.mem_map, List.mem_filter, Bool.and_eq_true, beq_iff_eq]
  constructor
  · intro ⟨x, hx, done, origin⟩
    have publisher := (h.at_record hx).publisher
    exact ⟨(r, x), ⟨Table.mem_entries_iff.2 hx, done, by simp [publisher, done, origin]⟩, rfl⟩
  · intro ⟨e, ⟨he, done, publisher⟩, same⟩
    subst same
    have hx := Table.mem_entries_iff.1 he
    have origin : c = e.2.origin := by
      simpa [done, publisher] using (h.at_record hx).publisher
    exact ⟨e.2, hx, done, origin.symm⟩

/-- When a cache ends, its allocator gets back each block of the reserve. -/
theorem allocators_tornDown {a : Allocator} (h : W.Sound) (rooted : W.store.Rooted)
    (hs : W.store.caches.get? c = some s) (ha : W.store.allocators.get? s.allocator = some a) :
    (W.store.tornDown c s).allocators = W.store.allocators.update s.allocator fun _ => { a with
      frees := a.frees + (W.store.blocksOf s.reserve.slots).length
      live := a.live - W.store.reserveBytes s } := by
  have marked : ∀ r ∈ s.reserve.slots, ∃ x,
      (W.store.unmarkAll s.lists.all).records.get? r = some x ∧ x.allocator = s.allocator := by
    intro r hr
    obtain ⟨x, hx, source⟩ := h.source_of_slot rooted hs r hr
    rw [Store.get?_records_unmarkAll, hx]
    split
    · exact ⟨x.unmark, rfl, source⟩
    · exact ⟨x, rfl, source⟩
  have allocators := Store.allocators_withoutAll_of_get? (w := W.store.unmarkAll s.lists.all) ha
    (h.tidy c s hs).distinct marked
  rwa [Store.blocksOf_unmarkAll] at allocators

theorem log_tornDown (h : W.Sound) (hs : W.store.caches.get? c = some s) :
    (W.store.tornDown c s).log
      = .cacheTornDown c (W.store.publishedBy c) (W.store.reserveBytes s) :: W.store.log := by
  have log : ((W.store.unmarkAll s.lists.all).withoutAll s.reserve.slots).log = W.store.log :=
    Store.log_withoutAll _ _
  simp only [Store.tornDown, Store.emit, log, h.length_lists hs, Store.totalCapacity_eq,
    Store.blocksOf_unmarkAll, Store.reserveBytes]

theorem cacheEnded (h : W.Sound) (rooted : W.store.Rooted) (balanced : W.store.Balanced out)
    (hs : W.store.caches.get? c = some s) :
    W.store.CacheEnded (W.store.tornDown c s) W.handles c s where
  gone := ⟨by simpa using Table.lt_next_of_get? hs, by simp [Table.get?_erase]⟩
  spared d other := by simp [Table.get?_erase, other]
  destroyed r hr := by rw [Store.get?_records_tornDown, if_pos hr]
  others r foreign := by
    have unshelved : r ∉ s.reserve.slots := by
      intro hr
      obtain ⟨x, hx, -, origin, -⟩ := h.idle_of_slot hs hr
      exact foreign x hx origin
    have unlisted : r ∉ s.lists.all := by
      intro hr
      obtain ⟨x, hx, -, origin⟩ := (h.mem_lists_iff hs).1 hr
      exact foreign x hx origin
    rw [Store.get?_records_tornDown, if_neg unshelved, if_neg unlisted]
  unmarked b held own := by
    obtain ⟨x, hx, hc, origin, image, -⟩ := h.exists_record held
    refine ⟨x, hx, ?_⟩
    rw [Store.get?_records_tornDown, if_neg (h.not_slot_of_held hs held)]
    split
    · rw [hx]
      rfl
    · next unlisted =>
      have undone : x.published = false := by
        by_contra done
        exact unlisted ((h.mem_lists_iff hs).2 ⟨x, hx, by simpa using done, origin.symm.trans own⟩)
      have publisher : x.publisher = none := by simp [hc.publisher, undone]
      rw [hx, ← undone, ← publisher]
  freed := by
    obtain ⟨a, ha⟩ := Option.isSome_iff_exists.1 (h.tidy c s hs).source
    have distinct := (h.tidy c s hs).distinct
    have known := h.source_of_slot rooted hs
    exact ⟨a, ha, Store.blocks_le (balanced.known _ a ha) distinct known,
      h.allocators_tornDown rooted hs ha⟩
  reported := h.log_tornDown hs

end World.Sound

namespace World

variable {W W' V : World} {m : Move} {c : CacheId} {P : Move → Prop}

/-- A cache goes only by being torn down. -/
theorem Step.alive (move : Step m W W') (other : m ≠ .tearDown c)
    (alive : (W.store.caches.get? c).isSome = true) :
    (W'.store.caches.get? c).isSome = true := by
  induction move with
  | publish | withdraw | keep | share | unshare | tally | reuse | make =>
    simpa [Store.enlisted, Store.withdrawn, Store.shelved] using alive
  | refit hx undone sole fits => cases fits <;> simpa using alive
  | refitFailed hx undone sole fails => cases fails <;> simpa using alive
  | free | outlive | discard => simpa [Store.crowdedOut] using alive
  | retire withdrawn parted how withdraws parts =>
    refine parts ?_ (withdraws (by simp) alive)
    rintro rfl
    simp at how
  | addCache =>
    simp only [Store.createCache, Store.emit, Table.get?_add]
    split
    · rfl
    · exact alive
  | @tearDown W O d s held hs last =>
    have apart : c ≠ d := by
      intro same
      exact other (by rw [same])
    simpa [Table.get?_erase, apart] using alive
  | emptyReserve => simpa using alive
  | _ => exact alive

/-- Moves after which a cache is gone have torn it down. -/
theorem Reaches.exists_tearDown (moves : W.Reaches P V)
    (alive : (W.store.caches.get? c).isSome = true) (gone : V.store.caches.get? c = none) :
    ∃ W₁ W₂, W.Reaches P W₁ ∧ Step (.tearDown c) W₁ W₂ ∧ W₂.Reaches P V := by
  induction moves with
  | refl => simp [gone] at alive
  | @tail m W₁ W₂ before allowed step ih =>
    by_cases there : (W₁.store.caches.get? c).isSome = true
    · by_cases last : m = .tearDown c
      · subst last
        exact ⟨W₁, W₂, before, step, .refl⟩
      · have stays := step.alive last there
        simp [gone] at stays
    · obtain ⟨U₁, U₂, first, torn, rest⟩ := ih (by simpa using there)
      exact ⟨U₁, U₂, first, torn, rest.tail allowed step⟩

end World

/-! ## 3. Buffers that outlive their cache -/

/-- What can be done with a handle on a buffer, with the record `x`, whose cache is gone. -/
structure Store.Orphan (w : Store) (b : Handle) (x : Record) : Prop where
  found : w.records.get? b.record = some x
  /-- It is not published, and no cache finds it. -/
  undone : x.published = false
  unlisted : ∀ d k, b.record ∉ w.listOf d k
  unfound : ∀ d i area b' v, (w.caches.get? d).isSome = true →
    w.lookup d i area = .ok (some b', v) → b'.record ≠ b.record
  /-- Publishing and withdrawing it in its own cache is ignored. -/
  publishOwn : w.publishOwn b = .ok (.ok (), w.emit (.publishIgnored b.image))
  unpublishOwn : w.unpublishOwn b = .ok (.ok (), w.emit (.unpublishIgnored b.image))
  /-- Through other caches all is refused. -/
  publish : ∀ d, (w.caches.get? d).isSome = true →
    w.publish d b = .ok (.error (.violation .foreignCache), w)
  unpublish : ∀ d, (w.caches.get? d).isSome = true →
    w.unpublish d b = .ok (.error (.violation .foreignCache), w)
  resize : ∀ d area viewHeld, (w.caches.get? d).isSome = true →
    w.resize d b area viewHeld = .ok (.error (.violation .foreignCache), w)
  release : ∀ d v, (w.caches.get? d).isSome = true → w.dropHandle b = .ok v →
    w.release d b = .ok (.error (.violation .foreignCache), v)
  exchange : ∀ d v i area, (w.caches.get? d).isSome = true → w.dropHandle b = .ok v →
    w.exchange d (some b) i area = .ok (.error (.violation .foreignCache), v)
  /-- Its references are counted, and with the last one it ends: its storage goes back. -/
  copied : w.copyHandle b
    = .ok (b, w.setRecord b.record { x with references := x.references + 1 })
  dropped : 1 < x.references →
    w.dropHandle b = .ok (w.setRecord b.record { x with references := x.references - 1 })
  ended : x.references = 1 → ∃ v, w.dropHandle b = .ok v ∧ v.caches = w.caches ∧
    v.records = w.records.erase b.record ∧ v.allocators = x.storage.elim w.allocators fun block =>
      w.allocators.update x.allocator (·.free block)

namespace World.Sound

variable {W : World} {c : CacheId} {r : RecordId} {x : Record} {b : Handle}

/-- A buffer whose cache is gone is not published, and no list has it. -/
theorem undone_of_gone (h : W.Sound) (gone : W.store.caches.get? c = none)
    (hx : W.store.records.get? r = some x) (origin : x.origin = c) :
    x.published = false ∧ ∀ d k, r ∉ W.store.listOf d k := by
  have undone : x.published = false := by
    by_contra done
    obtain ⟨k, s, -, hs, -⟩ := h.exists_publisher hx (by simpa using done)
    simp [origin, gone] at hs
  refine ⟨undone, fun d k hr => ?_⟩
  obtain ⟨-, -, done⟩ := ((h.at_record hx).listed d k).1 hr
  simp [undone] at done

theorem orphan (h : W.Sound) (held : b ∈ W.handles) (gone : W.store.caches.get? b.cache = none) :
    ∃ x, W.store.Orphan b x ∧ x.references = W.handles.countP (·.record = b.record) := by
  obtain ⟨x, hx, hc, origin, image, used⟩ := h.exists_record held
  obtain ⟨undone, unlisted⟩ := h.undone_of_gone gone hx origin.symm
  have dead : W.store.isAlive b.cache = false := by simp [Store.isAlive, gone]
  have foreign : ∀ {d}, (W.store.caches.get? d).isSome = true → b.cache ≠ d := by
    rintro d alive rfl
    simp [gone] at alive
  refine ⟨x, ?_, hc.references⟩
  exact
    { found := hx
      undone := undone
      unlisted := unlisted
      unfound := fun d i area b' v alive run => by
        obtain ⟨s, hs⟩ := Option.isSome_iff_exists.1 alive
        rcases h.lookup_eq hs i area with ⟨-, none⟩ | ⟨r, y, hit, -, -, -, -, -, some⟩
        · simp [none] at run
        · have listed := (Store.mem_of_hit? hit).1
          rw [some, Except.ok.injEq, Prod.mk.injEq, Option.some.injEq] at run
          rw [← run.1]
          rintro rfl
          exact unlisted d i.key listed
      publishOwn := by simp [Store.publishOwn, dead]
      unpublishOwn := by simp [Store.unpublishOwn, dead]
      publish := fun d alive => Store.publish_of_foreign (foreign alive)
      unpublish := fun d alive => Store.unpublish_of_foreign (foreign alive)
      resize := fun d area viewHeld alive =>
        Store.resize_of_foreign (foreign alive) area viewHeld
      release := fun d v alive => Store.release_of_foreign (foreign alive)
      exchange := fun d v i area alive drop =>
        Store.exchange_of_foreign (foreign alive) drop i area
      copied := by
        simp [Store.copyHandle, Store.record_of_get? hx, Record.retain, image]
      dropped := fun more => dropHandle_of_more hx more
      ended := fun last => by
        obtain ⟨v, parted, run⟩ := h.dropHandle_eq held hx
        refine ⟨v, run, ?_⟩
        cases parted with
        | more more => omega
        | kept last withdrawn hs | freed last withdrawn hs =>
          simp [withdrawn.eq_of_undone undone, gone] at hs
        | outlived =>
          refine ⟨by simp, ?_, ?_⟩
          · simp [Store.without, hx]
          · simp [Store.without, hx] }

end World.Sound

namespace Session

variable {s : Session} {out : Multiset Loan} {c : CacheId} {z : Cache} {act : Act}

/-! ## 4. Runs -/

theorem disciplined_append {acts rest : List Act} (h : s.Disciplined (acts ++ rest)) :
    s.Disciplined acts ∧ (s.run acts).Disciplined rest := by
  induction acts generalizing s with
  | nil => exact ⟨trivial, h⟩
  | cons act acts ih =>
    obtain ⟨first, h⟩ := h
    obtain ⟨proper, after⟩ := ih h
    exact ⟨⟨first, proper⟩, after⟩

/-- On the way from `W` to `W'` the last owner of the cache leaves. -/
def EndsCache (P : Move → Prop) (W W' : World) (c : CacheId) : Prop :=
  ∃ (V V' : World) (y : Cache), W.Reaches P V ∧ V.store.caches.get? c = some y ∧ y.owners = 1 ∧
    V.store.dropOwner c = .ok V'.store ∧ V'.handles = V.handles ∧
    V.store.CacheEnded V'.store V.handles c y ∧ V'.Reaches P W'

/-- An act after which a cache is gone has torn the cache down. -/
theorem Sound.step_endsCache (h : s.Sound out) (rooted : s.store.Rooted)
    (balanced : s.store.Balanced out) (proper : ¬ s.Misfrees act)
    (alive : (s.store.caches.get? c).isSome = true)
    (gone : (s.step act).2.store.caches.get? c = none) :
    EndsCache (s.Permits act) (s.world out)
      ((s.step act).2.world (s.ledger act (s.step act).1 out)) c := by
  have moves := (h.reaches act).mono (Q := s.Permits act) fun _ made => made.1
  obtain ⟨V, V', before, torn, after⟩ := moves.exists_tearDown alive gone
  obtain ⟨sound, rooted, balanced⟩ := before.keeps
    (I := fun V => V.Sound ∧ V.store.Rooted ∧ V.store.Balanced V.loans)
    (fun m U U' allowed move ⟨sound, rooted, balanced⟩ =>
      ⟨sound.step move, move.rooted rooted, move.balanced (by
        rintro a rfl
        exact proper allowed) balanced⟩) ⟨h.world, rooted, balanced⟩
  cases torn with
  | @tearDown _ O _ y held hs last =>
    refine ⟨V, { V with store := V.store.tornDown c y, shares := O }, y, before, hs, last, ?_, rfl,
      sound.cacheEnded rooted balanced hs, after⟩
    rcases World.dropOwner_eq sound hs with ⟨-, run⟩ | ⟨more, -⟩
    · exact run
    · omega

theorem owing_concat (acts : List Act) : s.owing out (acts ++ [act])
    = (s.run acts).ledger act ((s.run acts).step act).1 (s.owing out acts) := by
  induction acts generalizing s out with
  | nil => rfl
  | cons first acts ih => exact ih

theorem Sound.past_of_gone (h : s.Sound out) (alive : s.store.caches.get? c = some z)
    (gone : (s.step act).2.store.caches.get? c = none) :
    (s.step act).2.store.caches.Past c := by
  have grown := h.step_keeps act (I := fun V => s.store.caches.next ≤ V.store.caches.next)
    (fun _ _ _ _ _ move le => le.trans move.next_caches_le) (le_refl _)
  exact ⟨Nat.lt_of_lt_of_le (Table.lt_next_of_get? alive) grown, gone⟩

/-- When the last owner of a cache leaves, the buffers of its reserve end and their storage goes
back to the allocator block by block, as many bytes as are reported; as many buffers as are reported
were published; and every handle keeps its buffer as it is but for the mark. Whatever the act, a
cache that is gone after it went in this way. From then on no act publishes a buffer of the cache
and no lookup finds one; a handle on it can be copied and given up, which ends the buffer with the
last handle, and all other calls are ignored or refused. -/
theorem teardown_leaves_orphans {w : Store} (initial : w.Initial) (acts : List Act) (act : Act)
    (proper : (start w).Disciplined (acts ++ [act])) {s s' : Session}
    (now : s = (start w).run acts) (next : s' = (s.step act).2)
    (alive : s.store.caches.get? c = some z) :
    (z.owners = 1 → ∃ v, s.store.dropOwner c = .ok v ∧ s.store.CacheEnded v s.handles c z) ∧
    (s'.store.caches.get? c = none →
      EndsCache (s.Permits act) (s.world ((start w).owing 0 acts))
        (s'.world ((start w).owing 0 (acts ++ [act]))) c ∧
      ∀ rest u, u = s'.run rest → u.store.caches.get? c = none ∧
        (∀ r x, u.store.records.get? r = some x → x.origin = c →
          x.published = false ∧ ∀ d k, r ∉ u.store.listOf d k) ∧
        ∀ b ∈ u.handles, b.cache = c → ∃ x, u.store.Orphan b x ∧
          x.references = u.handles.countP (·.record = b.record)) := by
  subst now next
  obtain ⟨before, last, -⟩ := disciplined_append proper
  have sound := (sound_start initial).run acts
  have rooted := (sound_start initial).run_rooted acts (rooted_start initial)
  have balanced := (sound_start initial).run_balanced before (balanced_start initial)
  have known : (((start w).run acts).store.caches.get? c).isSome = true := by simp [alive]
  refine ⟨fun owners => ?_, fun gone => ⟨?_, fun rest u later => ?_⟩⟩
  · rcases World.dropOwner_eq sound.world alive with ⟨-, run⟩ | ⟨more, -⟩
    · exact ⟨_, run, sound.world.cacheEnded rooted balanced alive⟩
    · omega
  · rw [owing_concat]
    exact sound.step_endsCache rooted balanced last known gone
  · subst later
    have sound' := (sound.step act).run rest
    have past := (sound.step act).run_past rest (sound.past_of_gone alive gone)
    refine ⟨past.2, fun r x hx origin => sound'.world.undone_of_gone past.2 hx origin, ?_⟩
    intro b hb own
    exact sound'.world.orphan hb (own ▸ past.2)

/-- A run that leaves a published buffer and an idle one on a cache with an allocator of its own. -/
def closingActs : List Act :=
  [.newAllocator "heap" none, .newCache "cache" (some "heap") none, .newImage "image" 1 (some 1),
    .acquire "cache" "image" ⟨0, 0, 2, 2⟩ "buffer", .publish "cache" "buffer",
    .acquire "cache" "image" ⟨0, 0, 3, 3⟩ "spare", .dropHandle "spare"]

/-- The session after that run. -/
def closing : Session := (start (.fresh none)).run closingActs

/-- Once the cache is dropped the idle buffer is gone, and nine bytes with it; the other buffer is
nobody's, but counts the handles on it. -/
theorem teardown_leaves_orphans_closing :
    (start (.fresh none)).Disciplined (closingActs ++ [.dropCache "cache"]) ∧
      (∃ v, closing.store.dropOwner 1 = .ok v ∧ v.records.get? 1 = none ∧
        v.log = .cacheTornDown 1 1 9 :: closing.store.log ∧
        ∃ x, v.records.get? 0 = some x ∧ x.published = false ∧ x.references = 1) ∧
      ∃ x, ((closing.step (.dropCache "cache")).2.run [.copyHandle "buffer" "copy"]).store.Orphan
        ⟨0, 1, .explicit 1⟩ x ∧ x.references = 2 := by
  have proper : (start (.fresh none)).Disciplined (closingActs ++ [.dropCache "cache"]) :=
    ⟨nofun, nofun, nofun, nofun, nofun, nofun, nofun, nofun, trivial⟩
  obtain ⟨now, later⟩ := teardown_leaves_orphans (w := .fresh none) (.fresh none) closingActs
    (.dropCache "cache") proper (s := closing) rfl rfl (c := 1) rfl
  obtain ⟨v, run, ended⟩ := now rfl
  obtain ⟨x, hx, hv⟩ := ended.unmarked ⟨0, 1, .explicit 1⟩ (by decide) rfl
  obtain ⟨-, after⟩ := later rfl
  obtain ⟨-, -, orphans⟩ := after [.copyHandle "buffer" "copy"] _ rfl
  obtain ⟨y, orphan, references⟩ := orphans ⟨0, 1, .explicit 1⟩ (by decide) rfl
  refine ⟨proper, ⟨v, run, ended.destroyed 1 (by decide), ended.reported, _, hv, rfl, ?_⟩, y,
    orphan, references⟩
  obtain rfl := Option.some.inj (hx.symm.trans rfl)
  rfl

end Session

end PixelPool
