import PixelPool.Proofs.Runs

/-!
The accounts of allocators: what an allocator has handed out and not got back is what its buffers
store and what was lent directly, to the byte.

`Allocator.Owes` says this of one allocator and the sizes of its blocks, and `Store.Balanced` of a
store and the blocks that are out. Every move keeps a store balanced, except one that gives back a
block that is not the allocator's (`World.Step.balanced`). A buffer's storage is on the allocator
of the cache that made it, also when that cache is gone (`Store.Rooted`), so the accounts can be
read by cache. Main statement: `Session.accounts`.
-/

namespace PixelPool

/-! ## 1. One allocator -/

namespace Allocator

variable {s after : Allocator} {heap : Heap} {b : Block} {n : Nat} {sizes : Multiset Nat}

/-- The blocks of these sizes are those that the allocator has not got back. -/
structure Owes (s : Allocator) (sizes : Multiset Nat) : Prop where
  count : s.allocations = s.frees + sizes.card
  live : s.live = sizes.sum

theorem owes_new (limit : Option Nat) : (withLimit limit).Owes 0 := ⟨rfl, rfl⟩

/-- What an allocator that grants a request makes of its totals. -/
theorem granted_eq (h : s.allocate heap n = (.ok b, after)) : b.size = n ∧ after = s.grant n := by
  unfold allocate allocateIf at h
  split at h
  · cases h
  · split at h
    · cases h
    · split at h
      · cases h
        exact ⟨Block.size_zeroed n, rfl⟩
      · cases h

theorem refused_eq {e : StorageError} (h : s.allocate heap n = (.error e, after)) :
    after = s.refuse := by
  unfold allocate allocateIf at h
  split at h
  · exact (Prod.mk.inj h).2.symm
  · split at h
    · exact (Prod.mk.inj h).2.symm
    · split at h
      · cases h
      · exact (Prod.mk.inj h).2.symm

theorem Owes.granted (h : s.Owes sizes) (granted : s.allocate heap n = (.ok b, after)) :
    after.Owes (b.size ::ₘ sizes) := by
  obtain ⟨rfl, rfl⟩ := granted_eq granted
  constructor
  · simp [grant, h.count, add_assoc]
  · simp [grant, h.live, add_comm]

theorem Owes.refused {e : StorageError} (h : s.Owes sizes)
    (refused : s.allocate heap n = (.error e, after)) : after.Owes sizes := by
  rw [refused_eq refused]
  exact ⟨h.count, h.live⟩

/-- A block that is owed can be given back: the subtraction is exact. -/
theorem Owes.freed (h : s.Owes (b.size ::ₘ sizes)) : (s.free b).Owes sizes := by
  have count := h.count
  have live := h.live
  rw [Multiset.card_cons] at count
  rw [Multiset.sum_cons] at live
  constructor
  · simp only [free]
    omega
  · simp only [free]
    omega

end Allocator

/-- The size of the record's storage, if it has any. -/
def Record.sizes (x : Record) : Multiset Nat := x.storage.elim 0 fun b => {b.size}

theorem Allocator.Owes.lowered {s : Allocator} {x : Record} {sizes : Multiset Nat}
    (h : s.Owes (x.sizes + sizes)) : (Store.lowered s x).Owes sizes := by
  unfold Store.lowered
  cases stored : x.storage with
  | none => simpa [Record.sizes, stored] using h
  | some b =>
    refine Owes.freed (b := b) ?_
    simpa [Record.sizes, stored] using h

/-! ## 2. Balanced stores -/

namespace Store

/-- The sizes of what a record stores on an allocator. -/
def sizesOn (a : AllocatorId) (x : Record) : Multiset Nat := if x.allocator = a then x.sizes else 0

/-- The sizes of all blocks of an allocator: those that buffers store, and those that are out. -/
def sizes (w : Store) (out : Multiset Loan) (a : AllocatorId) : Multiset Nat :=
  w.records.total (sizesOn a) + (out.filter (·.source = a)).map (·.block.size)

/-- Every allocator owes exactly its blocks, and there are no others. -/
structure Balanced (w : Store) (out : Multiset Loan) : Prop where
  known : ∀ a s, w.allocators.get? a = some s → s.Owes (w.sizes out a)
  unknown : ∀ a, w.allocators.get? a = none → w.sizes out a = 0

variable {w v : Store} {out : Multiset Loan} {r : RecordId} {x y : Record} {a : AllocatorId}

theorem Balanced.of_same (h : w.Balanced out) (allocators : v.allocators = w.allocators)
    (sizes : ∀ a, v.records.total (sizesOn a) = w.records.total (sizesOn a)) : v.Balanced out where
  known a s hs := by
    have := h.known a s (allocators ▸ hs)
    rwa [Store.sizes, ← sizes] at this
  unknown a ha := by
    have := h.unknown a (allocators ▸ ha)
    rwa [Store.sizes, ← sizes] at this

/-- A record may change if its storage keeps its size. -/
theorem Balanced.setRecord (h : w.Balanced out) (hx : w.records.get? r = some x)
    (allocator : y.allocator = x.allocator) (sizes : y.sizes = x.sizes) :
    (w.setRecord r y).Balanced out :=
  h.of_same rfl fun a => Table.total_update_eq _ _ hx (by simp [sizesOn, allocator, sizes])

/-- An allocator and its blocks may change together. -/
theorem Balanced.change {s after : Allocator} {out' : Multiset Loan} (h : w.Balanced out)
    (hs : w.allocators.get? a = some s)
    (allocators : v.allocators = w.allocators.update a fun _ => after)
    (here : s.Owes (w.sizes out a) → after.Owes (v.sizes out' a))
    (others : ∀ d, d ≠ a → v.sizes out' d = w.sizes out d) : v.Balanced out' where
  known d z hz := by
    rw [allocators, Table.get?_update] at hz
    by_cases hd : d = a
    · subst hd
      simp only [if_true, hs, Option.map_some, Option.some.injEq] at hz
      exact hz ▸ here (h.known d s hs)
    · rw [others d hd]
      exact h.known d z (by simpa [hd] using hz)
  unknown d hd := by
    have none : w.allocators.get? d = none := by
      rw [← Option.isNone_iff_eq_none, ← Option.not_isSome, ← Table.isSome_get?_update,
        ← allocators, hd]
      simp
    have hne : d ≠ a := fun same => by simp [same, hs] at none
    rw [others d hne]
    exact h.unknown d none

/-- What a record stores and what the others do. -/
theorem sizes_of_get? (hx : w.records.get? r = some x) (out : Multiset Loan) (a : AllocatorId) :
    w.sizes out a = sizesOn a x + ((w.records.erase r).total (sizesOn a) +
      (out.filter (·.source = a)).map (·.block.size)) := by
  rw [sizes, Table.total_erase _ hx, add_assoc]

theorem Balanced.without (h : w.Balanced out) (r : RecordId) : (w.without r).Balanced out := by
  cases hx : w.records.get? r with
  | none => simpa [Store.without, hx] using h
  | some x =>
    have records : (w.without r).records = w.records.erase r := by simp [Store.without, hx]
    cases stored : x.storage with
    | none =>
      apply h.of_same (by simp [Store.without, hx, stored])
      intro a
      rw [records, Table.total_erase (sizesOn a) hx]
      simp [sizesOn, Record.sizes, stored]
    | some b =>
      cases hs : w.allocators.get? x.allocator with
      | none =>
        have := h.unknown _ hs
        simp [sizes_of_get? hx, sizesOn, Record.sizes, stored] at this
      | some s =>
        have allocators : (w.without r).allocators
            = w.allocators.update x.allocator fun _ => s.free b := by
          simp only [Store.without, hx, stored, Option.elim_some]
          exact Table.update_congr hs rfl
        refine h.change hs allocators (fun owed => ?_) fun d hd => ?_
        · rw [sizes_of_get? hx, sizesOn, if_pos rfl, Record.sizes, stored, Option.elim_some,
            Multiset.singleton_add] at owed
          rw [Store.sizes, records]
          exact owed.freed
        · rw [sizes_of_get? hx, sizesOn, if_neg (Ne.symm hd), zero_add, Store.sizes, records]

theorem Balanced.withoutAll (h : w.Balanced out) (rs : List RecordId) :
    (w.withoutAll rs).Balanced out := by
  induction rs generalizing w with
  | nil => exact h
  | cons r rs ih => exact ih (h.without r)

theorem Balanced.unmarkAll (h : w.Balanced out) (rs : List RecordId) :
    (w.unmarkAll rs).Balanced out := by
  refine h.of_same rfl ?_
  intro a
  simp only [Store.unmarkAll]
  generalize w.records = t
  induction rs generalizing t with
  | nil => rfl
  | cons r rs ih => exact (ih _).trans (Table.total_update_self _ _ _ fun _ => rfl)

/-- A record that is moved to an area takes its storage from its allocator. -/
theorem Balanced.fits {area : Rect} {outcome : Except StorageError Bool} (h : w.Balanced out)
    (hx : w.records.get? r = some x) (fits : w.Fits r x area outcome v) : v.Balanced out := by
  have own : sizesOn x.allocator x = x.sizes := if_pos rfl
  -- In both cases that allocate, the old storage has gone back before the request.
  have replaced : ∀ {s after : Allocator} {newArea : Rect} {storage : Option Block},
      w.allocators.get? x.allocator = some s →
      (∀ sizes, (lowered s x).Owes sizes →
        after.Owes (({ x with area := newArea, storage } : Record).sizes + sizes)) →
      ((w.setAllocator x.allocator after).setRecord r
        { x with area := newArea, storage }).Balanced out := by
    intro s after newArea storage hs changed
    have hy : ((w.setAllocator x.allocator after).setRecord r
        { x with area := newArea, storage }).records.get? r
          = some { x with area := newArea, storage } := by
      simp [Table.get?_update, hx]
    refine h.change hs rfl (fun owed => ?_) fun d hd => ?_
    · rw [sizes_of_get? hx, own] at owed
      rw [sizes_of_get? hy, records_setRecord, Table.erase_update, sizesOn, if_pos rfl]
      exact changed _ owed.lowered
    · rw [sizes_of_get? hx, sizes_of_get? hy, records_setRecord, Table.erase_update, sizesOn,
        sizesOn, if_neg (Ne.symm hd), if_neg (Ne.symm hd)]
      rfl
  cases fits with
  | invalid => exact h
  | kept => exact h.setRecord hx rfl rfl
  | renewed size lacking source granted =>
    exact replaced source fun sizes owed => by
      simpa [Record.sizes] using owed.granted granted
  | lost size lacking source refused =>
    exact replaced source fun sizes owed => by
      simpa [Record.sizes] using owed.refused refused

end Store

/-! ## 3. Balanced worlds -/

namespace World

variable {W W' : World} {m : Move}

/-- Every move keeps the accounts, unless it gives back what is not the allocator's. -/
theorem Step.balanced (move : Step m W W') (proper : ∀ a, m ≠ .misfree a)
    (h : W.store.Balanced W.loans) : W'.store.Balanced W'.loans := by
  induction move with
  | retain hx => exact h.setRecord hx rfl rfl
  | letGo held hx => exact h.setRecord hx rfl rfl
  | @publish W b x s held hx undone hs =>
    exact (h.setRecord (y := x.markPublished b.cache) hx rfl rfl).of_same rfl fun _ => rfl
  | @withdraw W r x s k hx =>
    exact (h.setRecord (y := x.unmark.withoutArea) hx rfl rfl).of_same rfl fun _ => rfl
  | refit hx undone sole fits => exact (h.fits hx fits).of_same rfl fun _ => rfl
  | refitFailed hx undone sole fails => exact h.fits hx fails
  | @write W b x y n fill held hx written =>
    obtain ⟨-, -, block, stored, rfl⟩ := Record.write_eq written
    exact h.setRecord hx rfl (by simp [Record.sizes, stored])
  | @reuse W c s r rest x i hs top hx =>
    exact (h.setRecord (y := x.takenFor i) hx rfl rfl).of_same rfl fun _ => rfl
  | make =>
    refine h.of_same rfl ?_
    intro a
    simp [Table.total_add, Store.sizesOn, Record.sizes, Record.takenFor]
  | @keep W H b x s held hx =>
    exact (h.setRecord (y := x.parked) hx rfl rfl).of_same rfl fun _ => rfl
  | @free W H b x s held hx =>
    have counted : ((W.store.count b.cache .addFreed).emit
        (.reserveFull b.cache x.capacity)).Balanced W.loans := h.of_same rfl fun _ => rfl
    exact counted.without b.record
  | @outlive W H b x held hx =>
    have told : (W.store.emit (.outlivedCache b.image)).Balanced W.loans :=
      h.of_same rfl fun _ => rfl
    exact told.without b.record
  | @discard W H b x area e held hx =>
    have counted : ((W.store.count b.cache .addFailure).emit
        (.acquisitionFailed b.cache b.image area e)).Balanced W.loans := h.of_same rfl fun _ => rfl
    exact counted.without b.record
  | retire withdrawn parted how withdraws parts =>
    refine parts (fun a ha => ?_) (withdraws (by simp) h)
    rcases how with rfl | rfl <;> cases ha
  | addAllocator =>
    refine ⟨fun a s hs => ?_, fun a ha => ?_⟩
    · simp only [Store.createAllocator, Table.get?_add] at hs
      split at hs
      · next new =>
        cases hs
        have none := h.unknown a (by simp [new])
        exact none ▸ Allocator.owes_new _
      · exact h.known a s hs
    · simp only [Store.createAllocator, Table.get?_add] at ha
      split at ha
      · cases ha
      · exact h.unknown a ha
  | @tearDown W O c s held hs last =>
    exact ((h.unmarkAll s.lists.all).withoutAll s.reserve.slots).of_same rfl fun _ => rfl
  | @emptyReserve W c s hs =>
    have cleared : (W.store.setCache c { s with reserve := s.reserve.clear }).Balanced W.loans :=
      h.of_same rfl fun _ => rfl
    exact (cleared.withoutAll s.reserve.slots).of_same rfl fun _ => rfl
  | @lend W a s after n block hs granted =>
    refine h.change hs rfl (fun owed => ?_) fun d hd => ?_
    · have := owed.granted granted
      simpa [Store.sizes] using this
    · simp [Store.sizes, Ne.symm hd]
  | refuse hs refused => exact h.change hs rfl (fun owed => owed.refused refused) fun _ _ => rfl
  | @repay W L l s held hs =>
    refine h.change hs rfl (fun owed => ?_) fun d hd => ?_
    · refine Allocator.Owes.freed (b := l.block) ?_
      simpa [Store.sizes, held] using owed
    · simp [Store.sizes, held, Ne.symm hd]
  | misfree => exact absurd rfl (proper _)
  | _ => exact h.of_same rfl fun _ => rfl

end World

/-! ## 4. Buffers and the allocators of their caches -/

namespace Store

/-- The allocator that a cache is built on, also of one that is gone. -/
def allocatorOf (w : Store) (c : CacheId) : Option AllocatorId :=
  ((w.caches.get? c).or ((w.ended.find? fun e => e.1 == c).map (·.2))).map (·.allocator)

/-- The storage of a buffer is on the allocator that the cache which made it is built on. -/
def Rooted (w : Store) : Prop :=
  ∀ r x, w.records.get? r = some x → x.origin < w.caches.next ∧
    w.allocatorOf x.origin = some x.allocator

variable {w v : Store} {r : RecordId} {x y : Record} {c : CacheId} {s : Cache}

theorem allocatorOf_of_get? (hs : w.caches.get? c = some s) :
    w.allocatorOf c = some s.allocator := by
  simp [allocatorOf, hs]

/-- Buffers stay rooted if each of them is an old one and their caches stay on their allocators. -/
theorem Rooted.of_same (h : w.Rooted) (next : v.caches.next = w.caches.next)
    (caches : ∀ c, v.allocatorOf c = w.allocatorOf c)
    (records : ∀ r y, v.records.get? r = some y → ∃ x, w.records.get? r = some x ∧
      y.origin = x.origin ∧ y.allocator = x.allocator) : v.Rooted := by
  intro r y hy
  obtain ⟨x, hx, origin, allocator⟩ := records r y hy
  rw [next, caches, origin, allocator]
  exact h r x hx

theorem allocatorOf_update {f : Cache → Cache} (caches : v.caches = w.caches.update c f)
    (ended : v.ended = w.ended)
    (same : ∀ s, w.caches.get? c = some s → (f s).allocator = s.allocator) (d : CacheId) :
    v.allocatorOf d = w.allocatorOf d := by
  unfold allocatorOf
  rw [caches, ended, Table.get?_update]
  split
  · next hd =>
    subst hd
    cases hs : w.caches.get? d with
    | none => simp
    | some s => simp [same s hs]
  · rfl

/-- Buffers stay rooted if neither they nor their caches change. -/
theorem Rooted.of_kept (h : w.Rooted) (caches : v.caches = w.caches) (ended : v.ended = w.ended)
    (records : v.records = w.records) : v.Rooted :=
  h.of_same (congrArg _ caches) (fun c => by simp only [allocatorOf, caches, ended])
    fun _ y hy => ⟨y, records ▸ hy, rfl, rfl⟩

theorem Rooted.setCache {z : Cache} (h : w.Rooted) (hs : w.caches.get? c = some s)
    (same : z.allocator = s.allocator) : (w.setCache c z).Rooted := by
  refine h.of_same rfl (allocatorOf_update (caches_setCache ..) rfl fun y hy => ?_)
    fun _ y hy => ⟨y, hy, rfl, rfl⟩
  obtain rfl := Option.some.inj (hs.symm.trans hy)
  exact same

theorem Rooted.count (h : w.Rooted) (c : CacheId) (f : Stats → Stats) : (w.count c f).Rooted :=
  h.of_same rfl (allocatorOf_update (caches_count ..) rfl fun _ _ => rfl)
    fun _ y hy => ⟨y, hy, rfl, rfl⟩

theorem Rooted.setRecord (h : w.Rooted) (hx : w.records.get? r = some x)
    (origin : y.origin = x.origin) (allocator : y.allocator = x.allocator) :
    (w.setRecord r y).Rooted := by
  refine h.of_same rfl (fun _ => rfl) fun j z hz => ?_
  rw [records_setRecord, Table.get?_update] at hz
  split at hz
  · next hj =>
    subst hj
    rw [hx, Option.map_some, Option.some.injEq] at hz
    exact ⟨x, hx, hz ▸ origin, hz ▸ allocator⟩
  · exact ⟨z, hz, rfl, rfl⟩

theorem ended_without (w : Store) (r : RecordId) : (w.without r).ended = w.ended := by
  unfold without
  split <;> rfl

theorem Rooted.withoutAll (h : w.Rooted) (rs : List RecordId) : (w.withoutAll rs).Rooted := by
  refine h.of_same (by simp) (fun c => ?_) fun j y hy => ?_
  · simp [allocatorOf, withoutAll_keeps (·.ended) ended_without]
  · rw [get?_records_withoutAll] at hy
    split at hy
    · cases hy
    · exact ⟨y, hy, rfl, rfl⟩

theorem Rooted.without (h : w.Rooted) (r : RecordId) : (w.without r).Rooted := h.withoutAll [r]

theorem Rooted.unmarkAll (h : w.Rooted) (rs : List RecordId) : (w.unmarkAll rs).Rooted := by
  refine h.of_same rfl (fun _ => rfl) fun j y hy => ?_
  rw [get?_records_unmarkAll] at hy
  split at hy
  · obtain ⟨x, hx, rfl⟩ := Option.map_eq_some_iff.1 hy
    exact ⟨x, hx, rfl, rfl⟩
  · exact ⟨y, hy, rfl, rfl⟩

theorem Rooted.fits {area : Rect} {outcome : Except StorageError Bool} (h : w.Rooted)
    (hx : w.records.get? r = some x) (fits : w.Fits r x area outcome v) : v.Rooted := by
  cases fits with
  | invalid => exact h
  | kept => exact h.setRecord hx rfl rfl
  | @renewed n s after | @lost n s after =>
    exact (h.of_kept (v := w.setAllocator _ after) rfl rfl rfl).setRecord hx rfl rfl

end Store

/-- Every move leaves buffers on the allocators of their caches. -/
theorem World.Step.rooted {W W' : World} {m : Move} (move : Step m W W') (h : W.store.Rooted) :
    W'.store.Rooted := by
  induction move with
  | retain hx => exact h.setRecord hx rfl rfl
  | letGo held hx => exact h.setRecord hx rfl rfl
  | @publish W b x s held hx undone hs =>
    have listed := h.setCache hs
      (z := { s with lists := s.lists.put b.image (b.record :: s.lists.members b.image) }) rfl
    exact ((listed.setRecord (y := x.markPublished b.cache) hx rfl rfl).count
      b.cache .addPublish).of_kept rfl rfl rfl
  | @withdraw W r x s k hx done image hs =>
    have delisted := h.setCache hs
      (z := { s with lists := s.lists.put k ((s.lists.members k).erase r) }) rfl
    exact (delisted.setRecord (y := x.unmark.withoutArea) hx rfl rfl).of_kept rfl rfl rfl
  | refit hx undone sole fits => exact (h.fits hx fits).count _ _
  | refitFailed hx undone sole fails => exact h.fits hx fails
  | @write W b x y n fill held hx written =>
    obtain ⟨-, -, block, -, rfl⟩ := Record.write_eq written
    exact h.setRecord hx rfl rfl
  | @reuse W c s r rest x i hs top hx =>
    have taken := h.setCache hs (z := { s with reserve := { s.reserve with slots := rest } }) rfl
    exact (taken.count c .addReused).setRecord (y := x.takenFor i) hx rfl rfl
  | @make W c s i hs empty =>
    intro r x hx
    simp only [Table.get?_add] at hx
    have counted := h.count c .addMade
    split at hx
    · cases hx
      have same := Store.allocatorOf_update (Store.caches_count W.store c .addMade) rfl
        (fun _ _ => rfl) c
      exact ⟨Table.lt_next_of_get? (t := W.store.caches) hs,
        same.trans (Store.allocatorOf_of_get? hs)⟩
    · exact counted r x hx
  | @keep W H b x s held hx undone last hs =>
    exact ((h.setRecord (y := x.parked) hx rfl rfl).setCache
      (z := { s with reserve := { s.reserve with slots := b.record :: s.reserve.slots } })
      hs rfl).count b.cache .addKept
  | @free W H b x s held hx =>
    exact ((h.count b.cache .addFreed).of_kept
      (v := (W.store.count b.cache .addFreed).emit (.reserveFull b.cache x.capacity))
      rfl rfl rfl).without b.record
  | @outlive W H b x held hx =>
    exact (h.of_kept (v := W.store.emit (.outlivedCache b.image)) rfl rfl rfl).without b.record
  | @discard W H b x area e held hx =>
    exact ((h.count b.cache .addFailure).of_kept
      (v := (W.store.count b.cache .addFailure).emit
        (.acquisitionFailed b.cache b.image area e)) rfl rfl rfl).without b.record
  | retire withdrawn parted how withdraws parts => exact parts (withdraws h)
  | tally => exact h.count _ _
  | @addCache W t config a known =>
    intro r x hx
    obtain ⟨below, source⟩ := h r x hx
    refine ⟨Nat.lt_succ_of_lt below, ?_⟩
    have old : x.origin ≠ W.store.caches.next := Nat.ne_of_lt below
    simpa [Store.allocatorOf, Store.createCache, Store.emit, Table.get?_add, old] using source
  | @share W c alive =>
    exact h.of_same rfl (Store.allocatorOf_update (Store.caches_addOwner ..) rfl fun _ _ => rfl)
      fun _ y hy => ⟨y, hy, rfl, rfl⟩
  | unshare held hs more => exact h.setCache hs rfl
  | @tearDown W O c s held hs last =>
    refine ((h.unmarkAll s.lists.all).withoutAll s.reserve.slots).of_same ?_ (fun d => ?_)
      fun _ y hy => ⟨y, hy, rfl, rfl⟩
    · rfl
    · by_cases hd : d = c
      · subst hd
        simp [Store.allocatorOf, Store.tornDown, Store.emit, Table.get?_erase, Store.unmarkAll, hs]
      · simp [Store.allocatorOf, Store.tornDown, Store.emit, Table.get?_erase, Store.unmarkAll, hd,
          Ne.symm hd, Store.withoutAll_keeps (·.ended) Store.ended_without]
  | @emptyReserve W c s hs =>
    exact ((h.setCache (z := { s with reserve := s.reserve.clear }) hs rfl).withoutAll
      s.reserve.slots).of_kept rfl rfl rfl
  | _ => exact h.of_kept rfl rfl rfl

theorem World.Reaches.rooted {P : Move → Prop} {W V : World} (moves : W.Reaches P V)
    (h : W.store.Rooted) : V.store.Rooted :=
  moves.keeps (I := fun V => V.store.Rooted) (fun _ _ _ _ move => move.rooted) h

/-- Buffers of a reserve are on the allocator of its cache. -/
theorem World.Sound.source_of_slot {W : World} {c : CacheId} {s : Cache} (h : W.Sound)
    (rooted : W.store.Rooted) (hs : W.store.caches.get? c = some s) :
    ∀ r ∈ s.reserve.slots, ∃ x, W.store.records.get? r = some x ∧ x.allocator = s.allocator := by
  intro r hr
  obtain ⟨x, hx, -, origin, -⟩ := h.idle_of_slot hs hr
  have source := (rooted r x hx).2
  rw [origin, Store.allocatorOf_of_get? hs, Option.some.injEq] at source
  exact ⟨x, hx, source.symm⟩

/-! ## 5. Runs -/

namespace Session

variable {s : Session} {out : Multiset Loan} {A : AllocatorId} {a : Allocator}

/-- In the run no act gives back a block that was shortened, or gives one to an allocator that it
did not come from. -/
def Disciplined (s : Session) : List Act → Prop
  | [] => True
  | act :: rest => ¬ s.Misfrees act ∧ (s.step act).2.Disciplined rest

theorem Sound.run_balanced (h : s.Sound out) {acts : List Act} (proper : s.Disciplined acts)
    (balanced : s.store.Balanced out) : (s.run acts).store.Balanced (s.owing out acts) := by
  induction acts generalizing s out with
  | nil => exact balanced
  | cons act rest ih =>
    obtain ⟨first, proper⟩ := proper
    refine ih (h.step act) proper (h.step_keeps act (I := fun V => V.store.Balanced V.loans)
      (fun m V V' _ allowed move holds => move.balanced ?_ holds) balanced)
    rintro a rfl
    exact first allowed

theorem Sound.run_rooted (h : s.Sound out) (acts : List Act) (rooted : s.store.Rooted) :
    (s.run acts).store.Rooted := by
  exact h.run_keeps acts (I := fun V => V.store.Rooted) (fun _ _ _ _ move => move.rooted) rooted

theorem balanced_start {w : Store} (h : w.Initial) : w.Balanced 0 := by
  obtain ⟨environment, host, rfl | rfl⟩ := h
  · exact ⟨nofun, fun _ _ => rfl⟩
  · refine ⟨fun a s hs => ?_, fun _ _ => rfl⟩
    simp only [Store.on, Store.settled, Store.createAllocator, Table.get?_add] at hs
    split at hs
    · cases hs
      exact Allocator.owes_new none
    · cases hs

theorem rooted_start {w : Store} (h : w.Initial) : w.Rooted := by
  obtain ⟨environment, host, rfl | rfl⟩ := h <;> exact nofun

/-- The blocks of the buffers whose caches are built on an allocator: of those in use, of the idle
ones, and of those whose cache is gone. -/
def storedOn (s : Session) (A : AllocatorId) : Multiset Block :=
  s.store.records.total fun x =>
    if s.store.allocatorOf x.origin = some A then x.storage.elim 0 ({·}) else 0

/-- Of the blocks that are out, those that came from an allocator. -/
def lentFrom (out : Multiset Loan) (A : AllocatorId) : Multiset Block :=
  (out.filter (·.source = A)).map (·.block)

/-- No handle, no cache and no block that is out concerns the allocator. -/
structure Abandoned (s : Session) (out : Multiset Loan) (A : AllocatorId) : Prop where
  handles : ∀ b ∈ s.handles, s.store.allocatorOf b.cache ≠ some A
  caches : ∀ c cache, s.store.caches.get? c = some cache → cache.allocator ≠ A
  blocks : ∀ l ∈ out, l.source ≠ A

theorem sizes_eq (rooted : s.store.Rooted) (out : Multiset Loan) (A : AllocatorId) :
    s.store.sizes out A = (s.storedOn A + lentFrom out A).map Block.size := by
  have stored : s.store.records.total (Store.sizesOn A) = (s.storedOn A).map Block.size := by
    rw [storedOn, ← Multiset.coe_mapAddMonoidHom, Table.map_total]
    apply Table.total_congr
    intro r x hx
    simp only [Store.sizesOn, (rooted r x hx).2, Record.sizes, Option.some.injEq]
    split
    · cases x.storage <;> rfl
    · rfl
  rw [Store.sizes, stored, Multiset.map_add, lentFrom, Multiset.map_map]
  rfl

/-- On an abandoned allocator nothing is stored: a buffer there would be held by a handle, or idle
in a reserve of a cache. -/
theorem Sound.storedOn_eq_zero (h : s.Sound out) (abandoned : s.Abandoned out A) :
    s.storedOn A = 0 := by
  apply Table.total_eq_zero _
  intro r x hx
  apply if_neg
  intro source
  have hc : (s.world out).Consistent r x := h.world.at_record hx
  cases image : x.image with
  | none =>
    have shelved : r ∈ s.store.shelf x.origin := (hc.shelved x.origin).2 ⟨rfl, image⟩
    cases hs : s.store.caches.get? x.origin with
    | none => simp [Store.shelf, hs] at shelved
    | some cache =>
      rw [Store.allocatorOf_of_get? hs, Option.some.injEq] at source
      exact abandoned.caches x.origin cache hs source
  | some k =>
    have used : 0 < s.handles.countP (·.record = r) := by
      have referenced : x.references ≠ 0 := fun zero => by simp [hc.bound.2 zero] at image
      have count : x.references = s.handles.countP (·.record = r) := hc.references
      omega
    obtain ⟨b, hb, hr⟩ := Multiset.countP_pos.1 used
    exact abandoned.handles b hb ((hc.holders b hb hr).1 ▸ source)

/-- At every point of a run, what an allocator has handed out and not got back are the blocks of the
buffers of its caches and those that are out, and its live bytes are the bytes of these blocks. Once
all of them are gone, and the handles and caches too, it has got back all that it handed out. -/
theorem accounts {w : Store} (initial : w.Initial) (acts : List Act)
    (proper : (start w).Disciplined acts)
    (found : ((start w).run acts).store.allocators.get? A = some a) :
    (a.allocations = a.frees
        + (((start w).run acts).storedOn A + lentFrom ((start w).owing 0 acts) A).card ∧
      a.live = ((((start w).run acts).storedOn A
        + lentFrom ((start w).owing 0 acts) A).map Block.size).sum) ∧
    (((start w).run acts).Abandoned ((start w).owing 0 acts) A →
      a.live = 0 ∧ a.frees = a.allocations) := by
  have start := sound_start initial
  have sound := start.run acts
  have rooted := start.run_rooted acts (rooted_start initial)
  have balanced := start.run_balanced proper (balanced_start initial)
  have owes := balanced.known A a found
  rw [sizes_eq rooted] at owes
  have books := And.intro (owes.count.trans (by rw [Multiset.card_map])) owes.live
  refine ⟨books, fun abandoned => ?_⟩
  have lent : lentFrom ((Session.start w).owing 0 acts) A = 0 := by
    rw [lentFrom, Multiset.filter_eq_nil.2 abandoned.blocks, Multiset.map_zero]
  rw [sound.storedOn_eq_zero abandoned, lent] at books
  exact ⟨by simpa using books.2, by simpa using books.1.symm⟩

/-- A run in which a cache on an allocator of its own goes before the last handle on its buffer. -/
def outlivingActs : List Act :=
  [.newAllocator "heap" none, .newCache "cache" (some "heap") none, .newImage "image" 1 (some 1),
    .acquire "cache" "image" ⟨0, 0, 2, 2⟩ "buffer", .publish "cache" "buffer", .dropCache "cache",
    .dropHandle "buffer"]

/-- At the end of that run the allocator has got back the one block that it handed out. -/
theorem accounts_outliving :
    (start (.fresh none)).Disciplined outlivingActs ∧
      ((start (.fresh none)).run outlivingActs).Abandoned 0 0 ∧
      ∃ a, ((start (.fresh none)).run outlivingActs).store.allocators.get? 0 = some a ∧
        a.allocations = 1 ∧ a.live = 0 ∧ a.frees = a.allocations := by
  have proper : (start (.fresh none)).Disciplined outlivingActs :=
    ⟨nofun, nofun, nofun, nofun, nofun, nofun, nofun, trivial⟩
  have found : ((start (.fresh none)).run outlivingActs).store.allocators.get? 0
      = some ⟨none, 1, 1, 0, 0, 4⟩ := by rfl
  have unheld : ((start (.fresh none)).run outlivingActs).handles = 0 := by rfl
  have uncached : ((start (.fresh none)).run outlivingActs).store.caches.entries = [] := by rfl
  have settled : (start (.fresh none)).owing 0 outlivingActs = 0 := by rfl
  have abandoned : ((start (.fresh none)).run outlivingActs).Abandoned 0 0 := by
    refine ⟨by simp [unheld], ?_, by simp⟩
    intro c cache hc
    simp [Table.get?, uncached] at hc
  have books := accounts (.fresh none) outlivingActs proper found
  rw [settled] at books
  exact ⟨proper, abandoned, _, found, rfl, books.2 abandoned⟩

end Session

end PixelPool
