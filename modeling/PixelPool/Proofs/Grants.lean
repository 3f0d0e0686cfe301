import Mathlib
import PixelPool.Proofs.Accounting
import PixelPool.Proofs.Tracking

/-!
What allocators granted, and to whom.

An allocator counts the blocks that it granted, and each cache those that it got for its buffers.
The rest of an allocator's count (`Store.direct`) is changed by no act but one that has a block
handed out directly: a buffer gets its storage from the allocator of the cache that made it, which
counts it. Main statements: that rest is how many such acts there were
(`Session.granted_eq_tallied`), and no cache that was ever made is left out of the account
(`Session.numbered_run`).
-/

namespace PixelPool

/-- How many blocks a cache got for its buffers from an allocator. -/
def Cache.allocatedOn (A : AllocatorId) (z : Cache) : Nat :=
  if z.allocator = A then z.stats.allocations else 0

namespace Store

variable {w v u : Store} {A a : AllocatorId} {c : CacheId} {r : RecordId} {x : Record} {s t : Cache}
  {area : Rect}

/-! ## 1. Counts of allocators and caches -/

/-- All caches that were ever made; those that are gone as they were at their end. -/
def created (w : Store) : List (CacheId × Cache) := w.caches.entries ++ w.ended

/-- A value of caches, summed over all caches that were ever made. -/
def summed {M : Type} [AddCommMonoid M] (w : Store) (f : Cache → M) : M :=
  (w.created.map fun e => f e.2).sum

/-- How many blocks all caches together got from an allocator. -/
def allocatedOn (w : Store) (A : AllocatorId) : Nat :=
  (w.created.map fun e => e.2.allocatedOn A).sum

/-- How many blocks an allocator granted. -/
def granted (w : Store) (A : AllocatorId) : Nat :=
  ((w.allocators.get? A).map (·.allocations)).getD 0

/-- The blocks that an allocator granted and no cache got for its buffers. -/
def direct (w : Store) (A : AllocatorId) : Int := w.granted A - w.allocatedOn A

theorem allocatedOn_eq_summed (w : Store) (A : AllocatorId) :
    w.allocatedOn A = w.summed (Cache.allocatedOn A) := rfl

section Sums

variable {M : Type} [AddCommMonoid M] {g : Cache → M}

theorem summed_eq (w : Store) (g : Cache → M) :
    w.summed g = w.caches.total g + (w.ended.map fun e => g e.2).sum := by
  rw [summed, created, List.map_append, List.sum_append]
  rfl

theorem summed_of_same (caches : v.caches = w.caches) (ended : v.ended = w.ended) :
    v.summed g = w.summed g := by
  rw [summed, summed, created, created, caches, ended]

/-- A cache's part in the sum is exchanged for that of its new state. -/
theorem summed_update {f : Cache → Cache} (caches : v.caches = w.caches.update c f)
    (ended : v.ended = w.ended) (hs : w.caches.get? c = some s) :
    v.summed g + g s = w.summed g + g (f s) := by
  rw [summed_eq, summed_eq, caches, ended, Table.total_update _ _ hs, Table.total_erase _ hs]
  abel

/-- A change of a cache does not matter that leaves its part in the sum. -/
theorem summed_of_update {f : Cache → Cache} (caches : v.caches = w.caches.update c f)
    (ended : v.ended = w.ended) (same : ∀ s, w.caches.get? c = some s → g (f s) = g s) :
    v.summed g = w.summed g := by
  cases hs : w.caches.get? c with
  | none => exact summed_of_same (caches.trans (Table.update_of_none hs f)) ended
  | some s =>
    rw [summed_eq, summed_eq, caches, ended, Table.total_update _ _ hs, Table.total_erase _ hs,
      same s hs]

/-- A cache that ends keeps its part in the sum. -/
theorem summed_of_ended (hs : w.caches.get? c = some s) (caches : v.caches = w.caches.erase c)
    (ended : v.ended = (c, s) :: w.ended) : v.summed g = w.summed g := by
  rw [summed_eq, summed_eq, caches, ended, List.map_cons, List.sum_cons, Table.total_erase _ hs,
    ← add_assoc, add_comm (Table.total ..)]

end Sums

theorem direct_of_update {f : Cache → Cache} (caches : v.caches = w.caches.update c f)
    (ended : v.ended = w.ended) (allocators : v.allocators = w.allocators)
    (same : ∀ s, w.caches.get? c = some s → (f s).allocatedOn A = s.allocatedOn A) :
    v.direct A = w.direct A := by
  rw [direct, direct, allocatedOn_eq_summed, summed_of_update caches ended same, granted,
    allocators, granted]
  rfl

theorem direct_of_set (caches : v.caches = w.caches.update c fun _ => t) (ended : v.ended = w.ended)
    (allocators : v.allocators = w.allocators) (hs : w.caches.get? c = some s)
    (same : t.allocatedOn A = s.allocatedOn A) : v.direct A = w.direct A :=
  direct_of_update caches ended allocators fun _ hy => Option.some.inj (hs.symm.trans hy) ▸ same

@[simp] theorem ended_tornDown (w : Store) (c : CacheId) (s : Cache) :
    (w.tornDown c s).ended = (c, s) :: w.ended := by
  simp [tornDown, emit, unmarkAll, withoutAll_keeps (·.ended) ended_without]

theorem granted_setAllocator {s after : Allocator} {n : Nat} (hs : w.allocators.get? a = some s)
    (more : after.allocations = s.allocations + n) (A : AllocatorId) :
    (w.setAllocator a after).granted A = w.granted A + if A = a then n else 0 := by
  by_cases same : A = a
  · simp [granted, Table.get?_update, same, hs, more]
  · simp [granted, Table.get?_update, same]

theorem granted_without (w : Store) (r : RecordId) (A : AllocatorId) :
    (w.without r).granted A = w.granted A := by
  unfold without
  split
  · rfl
  · next x _ =>
    cases x.storage with
    | none => rfl
    | some b =>
      simp only [granted, Option.elim_some, Table.get?_update]
      split
      · cases w.allocators.get? A <;> rfl
      · rfl

theorem direct_without (w : Store) (r : RecordId) (A : AllocatorId) :
    (w.without r).direct A = w.direct A := by
  rw [direct, granted_without, allocatedOn, created, caches_without, ended_without]
  rfl

theorem direct_withoutAll (w : Store) (rs : List RecordId) (A : AllocatorId) :
    (w.withoutAll rs).direct A = w.direct A :=
  withoutAll_keeps (·.direct A) (fun v r => direct_without v r A) w rs

/-- A change of an allocator does not matter that leaves its count. -/
theorem direct_setAllocator {s after : Allocator} (hs : w.allocators.get? a = some s)
    (same : after.allocations = s.allocations) (A : AllocatorId) :
    (w.setAllocator a after).direct A = w.direct A := by
  have granted := granted_setAllocator (n := 0) hs same A
  rw [ite_self, add_zero] at granted
  rw [direct, granted]
  rfl

/-- How many blocks an allocator granted by an answer. -/
def grantedBy {α : Type} : Except StorageError α → Nat
  | .ok _ => 1
  | .error _ => 0

/-- A block that is granted is counted by its allocator and by no cache. -/
theorem direct_allocate {s after : Allocator} {heap : Heap} {n : Nat}
    {outcome : Except StorageError Block}
    (hs : w.allocators.get? a = some s) (answer : s.allocate heap n = (outcome, after))
    (A : AllocatorId) :
    (w.setAllocator a after).direct A = w.direct A + if A = a then grantedBy outcome else 0 := by
  have more : after.allocations = s.allocations + grantedBy outcome := by
    cases outcome with
    | ok b =>
      rw [(Allocator.granted_eq answer).2]
      rfl
    | error e =>
      rw [Allocator.refused_eq answer]
      rfl
  have kept : (w.setAllocator a after).allocatedOn A = w.allocatedOn A := rfl
  rw [direct, direct, granted_setAllocator hs more, kept]
  omega

end Store

/-! ## 2. Storage of a buffer -/

/-- How many blocks were granted to a buffer as it was moved to an area. -/
def newBlocks : Except StorageError Bool → Nat
  | .ok true => 1
  | _ => 0

namespace Store

variable {w v u : Store} {A : AllocatorId} {c : CacheId} {r : RecordId} {x y : Record} {s : Cache}
  {area : Rect} {outcome : Except StorageError Bool} {i : Image} {b : Handle}

theorem allocations_fitted (outcome : Except StorageError Bool) (t : Stats) :
    (fitted outcome t).allocations = t.allocations + newBlocks outcome := by
  rcases outcome with e | newBlock
  · rfl
  · cases newBlock <;> rfl

theorem allocations_lowered (s : Allocator) (x : Record) :
    (lowered s x).allocations = s.allocations := by
  unfold lowered
  split <;> rfl

/-- What fitting has granted: the block of new storage, if there is one. -/
theorem Fits.granted (fits : w.Fits r x area outcome v) (A : AllocatorId) :
    v.granted A = w.granted A + if A = x.allocator then newBlocks outcome else 0 := by
  cases fits with
  | invalid | kept => simp [newBlocks, Store.granted]
  | renewed _ _ source granted =>
    refine granted_setAllocator source ?_ A
    rw [(Allocator.granted_eq granted).2]
    exact congrArg (· + 1) (allocations_lowered ..)
  | lost _ _ source refused =>
    refine granted_setAllocator source ?_ A
    rw [Allocator.refused_eq refused]
    exact allocations_lowered ..

theorem Fits.ended (fits : w.Fits r x area outcome v) : v.ended = w.ended := by
  cases fits <;> rfl

/-- Storage that a buffer gets is counted by its cache, if it is from the cache's allocator. -/
theorem direct_fitted {f : Cache → Cache} (fits : w.Fits r x area outcome v)
    (hs : w.caches.get? c = some s) (source : x.allocator = s.allocator)
    (granted : u.granted A = v.granted A) (ended : u.ended = v.ended)
    (caches : u.caches = v.caches.update c f) (allocator : (f s).allocator = s.allocator)
    (counted : (f s).stats.allocations = s.stats.allocations + newBlocks outcome) :
    u.direct A = w.direct A := by
  have bought := summed_update (g := Cache.allocatedOn A) (fits.caches ▸ caches)
    (ended.trans fits.ended) hs
  rw [← allocatedOn_eq_summed, ← allocatedOn_eq_summed] at bought
  rw [direct, direct, granted, fits.granted]
  simp only [Cache.allocatedOn, allocator, counted, ← source] at bought
  by_cases same : A = x.allocator
  · rw [if_pos same.symm, if_pos same.symm] at bought
    rw [if_pos same]
    omega
  · rw [if_neg (Ne.symm same), if_neg (Ne.symm same)] at bought
    rw [if_neg same]
    omega

/-- Acquiring a buffer has no block granted but to the cache's buffers. -/
theorem direct_acquired (taken : w.Taken c s i r x v) (hs : w.caches.get? c = some s)
    (fits : v.Fits r x area outcome u) (source : x.allocator = s.allocator) (A : AllocatorId) :
    (u.acquired c i area r outcome).2.direct A = w.direct A := by
  obtain ⟨t, f, caches, allocator, stats, counted⟩ := taken.caches hs
  have same : t.allocatedOn A = s.allocatedOn A := by
    simp only [Cache.allocatedOn, allocator, stats]
    rcases counted with rfl | rfl <;> rfl
  have before : v.direct A = w.direct A := by
    refine direct_of_set caches ?_ ?_ hs same <;> cases taken <;> rfl
  refine (direct_fitted fits (s := t) (c := c) ?_ (source.trans allocator.symm) ?_ ?_
    (caches_acquired ..) rfl (allocations_fitted ..)).trans before
  · simp [caches, Table.get?_update, hs]
  · cases outcome with
    | ok => rfl
    | error => exact granted_without ..
  · cases outcome with
    | ok => rfl
    | error => exact ended_without ..

/-- A buffer that a cache takes stores on the cache's allocator. -/
theorem Taken.allocator (taken : w.Taken c s i r x v) (rooted : w.Rooted)
    (hs : w.caches.get? c = some s) (origin : x.origin = c) : x.allocator = s.allocator := by
  cases taken with
  | made => rfl
  | @reused _ rest x top hx =>
    have source := (rooted _ x hx).2
    rw [show x.origin = c from origin, allocatorOf_of_get? hs] at source
    exact (Option.some.inj source).symm

theorem Withdrawn.direct (h : w.Withdrawn c r x y v) (A : AllocatorId) :
    v.direct A = w.direct A := by
  cases h with
  | undone => rfl
  | done _ _ hs => exact direct_of_set (caches_setCache ..) rfl rfl hs rfl

/-- Resizing a buffer has no block granted but to the cache's buffers. -/
theorem direct_resized (fits : v.Fits r y area outcome u) (hs : v.caches.get? c = some s)
    (source : y.allocator = s.allocator) (A : AllocatorId) :
    (u.resized c b area outcome).2.direct A = v.direct A := by
  cases outcome with
  | error e =>
    refine direct_fitted (u := u.emit (.resizeFailed c b.image area e)) (f := id) fits hs source rfl
      rfl ?_ rfl rfl
    rw [Table.update_id]
    rfl
  | ok newBlock =>
    refine direct_fitted fits hs source rfl rfl (caches_count ..) rfl ?_
    cases newBlock <;> rfl

end Store

/-! ## 3. Moves -/

/-- The move has no block granted. -/
def Move.GrantsNone : Move → Prop
  | .refit _ | .lend _ => False
  | .tally _ f => ∀ t : Stats, (f t).allocations = t.allocations
  | _ => True

theorem Move.Quiet.grantsNone {m : Move} (quiet : m.Quiet) : m.GrantsNone := by
  cases m <;> first | exact trivial | exact quiet.elim

namespace World

variable {W V : World} {m : Move} {c : CacheId} {b : Handle} {i : Image} {area : Rect}

/-- A move by which no block is granted leaves the blocks that were granted directly. -/
theorem Step.direct (move : Step m W V) (allowed : m.GrantsNone) (A : AllocatorId) :
    V.store.direct A = W.store.direct A := by
  induction move with
  | refit | refitFailed | lend => exact allowed.elim
  | publish _ _ _ hs | reuse hs | keep _ _ _ _ hs =>
    exact Store.direct_of_set (Store.caches_count_setCache ..) rfl rfl hs rfl
  | withdraw _ _ _ hs | unshare _ hs =>
    exact Store.direct_of_set (Store.caches_setCache ..) rfl rfl hs rfl
  | make => exact Store.direct_of_update (Store.caches_count ..) rfl rfl fun _ _ => rfl
  | share => exact Store.direct_of_update (Store.caches_addOwner ..) rfl rfl fun _ _ => rfl
  | @tally W c f =>
    refine Store.direct_of_update (Store.caches_count ..) rfl rfl fun y _ => ?_
    simp only [Cache.allocatedOn, allowed y.stats]
  | free | discard =>
    refine (Store.direct_without ..).trans ?_
    exact Store.direct_of_update (Store.caches_count ..) rfl rfl fun _ _ => rfl
  | outlive =>
    exact Store.direct_without ..
  | retire withdrawn parted how withdraws parts =>
    refine (parts ?_).trans (withdraws trivial)
    rcases how with rfl | rfl <;> trivial
  | @addAllocator W limit =>
    have none : W.store.granted W.store.allocators.next = 0 := by simp [Store.granted]
    have granted : (W.store.createAllocator limit).2.granted A = W.store.granted A := by
      by_cases new : A = W.store.allocators.next
      · rw [new, none]
        simp [Store.granted, Store.createAllocator, Table.get?_add, Allocator.withLimit]
      · simp [Store.granted, Store.createAllocator, Table.get?_add, new]
    rw [Store.direct, granted]
    rfl
  | @addCache W t config a known =>
    simp [Store.direct, Store.granted, Store.allocatedOn, Store.created, Store.createCache,
      Store.emit, Table.add, Cache.allocatedOn]
  | @tearDown W O c s held hs last =>
    have granted : (W.store.tornDown c s).granted A = W.store.granted A :=
      Store.withoutAll_keeps (·.granted A) (fun v r => Store.granted_without v r A)
        (W.store.unmarkAll s.lists.all) s.reserve.slots
    rw [Store.direct, granted, Store.allocatedOn_eq_summed,
      Store.summed_of_ended hs (Store.caches_tornDown ..) (Store.ended_tornDown ..)]
    rfl
  | @emptyReserve W c s hs =>
    refine (Store.direct_withoutAll (W.store.setCache c _) s.reserve.slots A).trans ?_
    exact Store.direct_of_set (Store.caches_setCache ..) rfl rfl hs rfl
  | refuse hs refused =>
    exact Store.direct_setAllocator hs (by rw [Allocator.refused_eq refused]; rfl) A
  | repay _ hs | misfree hs =>
    refine Store.direct_setAllocator hs ?_ A
    rfl
  | _ => rfl

/-- Acquiring a buffer leaves the blocks that were granted directly. -/
theorem acquire_direct (h : W.Sound) (rooted : W.store.Rooted) (owned : c ∈ W.shares)
    {a : Except StorageError Handle × Store} (run : W.store.acquire c i area = .ok a)
    (A : AllocatorId) : a.2.direct A = W.store.direct A := by
  obtain ⟨s, hs, -⟩ := h.exists_cache owned
  obtain ⟨r, x, v, outcome, u, taken, fits, run'⟩ := h.acquire_eq hs i area
  obtain rfl := Except.ok.inj (run'.symm.trans run)
  obtain ⟨-, origin, -, -⟩ := h.of_taken hs taken
  exact Store.direct_acquired taken hs fits (taken.allocator rooted hs origin) A

/-- Resizing a buffer leaves the blocks that were granted directly. -/
theorem resize_direct (h : W.Sound) (rooted : W.store.Rooted) (held : b ∈ W.handles)
    (owned : c ∈ W.shares) {viewHeld : Bool} {a : Except Refusal Unit × Store}
    (run : W.store.resize c b area viewHeld = .ok a) (A : AllocatorId) :
    a.2.direct A = W.store.direct A := by
  obtain ⟨x, hx, -, origin, -⟩ := h.exists_record held
  by_cases foreign : b.cache ≠ c
  · simp only [Store.resize, if_pos foreign, Fault.pure_eq] at run
    rw [← Except.ok.inj run]
  obtain rfl := not_not.1 foreign
  by_cases shared : x.references ≠ 1
  · simp only [Store.resize, ne_eq, not_true_eq_false, if_false, Store.record_of_get? hx,
      Fault.ok_bind, if_pos shared, Fault.pure_eq] at run
    rw [← Except.ok.inj run]
  obtain ⟨s, hs, -⟩ := h.exists_cache owned
  obtain ⟨y, v, withdrawn, withdraws⟩ := h.withdraw_eq hx
  rw [← origin] at withdrawn withdraws
  simp only [Store.resize, ne_eq, not_true_eq_false, if_false, Store.record_of_get? hx,
    Fault.ok_bind, shared, withdraws] at run
  have before := withdrawn.direct A
  split at run
  · rw [← Except.ok.inj run]
    exact before
  · obtain ⟨undone, -, -, -, -, source, -⟩ := withdrawn.same
    have rooted' := (rooted _ x hx).2
    rw [← origin, Store.allocatorOf_of_get? hs, Option.some.injEq] at rooted'
    obtain ⟨lists, hs'⟩ := withdrawn.exists_cache hs
    obtain ⟨outcome, u, moved, fits⟩ := Store.fit_fits (withdrawn.get? hx) undone
      (withdrawn.source (h.at_record hx).source) area
    have resized := Store.direct_resized (b := b) fits hs' (source.trans rooted'.symm) A
    rw [moved, Fault.ok_bind] at run
    rw [← before, ← resized]
    cases outcome <;> rw [← Except.ok.inj run] <;> rfl

theorem Reaches.direct (moves : W.Reaches Move.GrantsNone V) (A : AllocatorId) :
    V.store.direct A = W.store.direct A :=
  moves.keeps (I := fun V => V.store.direct A = W.store.direct A)
    (fun _ _ _ allowed move same => (move.direct allowed A).trans same) rfl

/-- Whatever requests are made of, they leave the blocks that were granted directly. -/
theorem direct_tracks (A : AllocatorId) (i : Image) : Tracks i fun W V =>
    W.store.Rooted → V.store.Rooted ∧ V.store.direct A = W.store.direct A where
  refl _ rooted := ⟨rooted, rfl⟩
  trans h h' rooted := by
    obtain ⟨rooted, before⟩ := h rooted
    obtain ⟨rooted, after⟩ := h' rooted
    exact ⟨rooted, after.trans before⟩
  move _ quiet move rooted := ⟨move.rooted rooted, move.direct quiet.grantsNone A⟩
  hit W c rooted := ⟨rooted.count c .addHit,
    (Reaches.refl.tally (P := Move.GrantsNone) (f := .addHit) fun _ => rfl).direct A⟩
  moved W c rooted := ⟨rooted.count c .addMoved,
    (Reaches.refl.tally (P := Move.GrantsNone) (f := .addMoved) fun _ => rfl).direct A⟩
  missed {W c area a} h owned run rooted := by
    have missed : W.Reaches Move.GrantsNone { W with store := W.store.count c .addMiss } :=
      Reaches.refl.tally fun _ => rfl
    have sound := h.reaches missed
    obtain ⟨_, moves, rfl⟩ :=
      (acquire_does sound any_quiet owned (allowsTaking_any _ _)).reaches run
    have rooted := missed.rooted rooted
    exact ⟨moves.rooted rooted,
      (acquire_direct sound rooted owned run A).trans (missed.direct A)⟩
  resized {W b area a} h held owned run rooted := by
    obtain ⟨_, moves, rfl, -⟩ :=
      (resize_does h any_quiet held (fun _ _ _ => ⟨trivial, trivial⟩) false).reaches run
    exact ⟨moves.rooted rooted, resize_direct h rooted held owned run A⟩

end World

/-! ## 4. The caches ever made -/

namespace Store

variable {w v : Store} {c : CacheId} {s : Cache}

/-- The caches that were made are numbered from one, without gaps or repetitions. -/
structure Numbered (w : Store) : Prop where
  first : 1 ≤ w.caches.next
  ids : (w.created.map (·.1)).Perm (List.range' 1 (w.caches.next - 1))

theorem Numbered.of_same (h : w.Numbered)
    (created : (v.created.map (·.1)).Perm (w.created.map (·.1)))
    (next : v.caches.next = w.caches.next) : v.Numbered :=
  ⟨next ▸ h.first, next ▸ created.trans h.ids⟩

theorem Numbered.of_update {f : Cache → Cache} (h : w.Numbered)
    (caches : v.caches = w.caches.update c f) (ended : v.ended = w.ended) : v.Numbered := by
  refine h.of_same (.of_eq ?_) (by rw [caches, Table.next_update])
  rw [created, created, List.map_append, List.map_append, caches, ended, Table.map_fst_update]

theorem Numbered.of_kept (h : w.Numbered) (caches : v.caches = w.caches)
    (ended : v.ended = w.ended) : v.Numbered :=
  h.of_same (.of_eq (by rw [created, created, caches, ended])) (by rw [caches])

theorem Numbered.without (h : w.Numbered) (r : RecordId) : (w.without r).Numbered :=
  h.of_kept (caches_without ..) (ended_without ..)

theorem Numbered.withoutAll (h : w.Numbered) (rs : List RecordId) : (w.withoutAll rs).Numbered :=
  h.of_kept (caches_withoutAll ..) (withoutAll_keeps (·.ended) ended_without w rs)

theorem Numbered.tornDown (h : w.Numbered) (hs : w.caches.get? c = some s) :
    (w.tornDown c s).Numbered := by
  refine h.of_same ?_ (by simp)
  have moved := (Table.perm_erase hs).append_right w.ended
  rw [created, caches_tornDown, ended_tornDown]
  exact (List.perm_middle.trans moved.symm).map _

theorem Numbered.createCache (h : w.Numbered) (t : ThreadId) (config : Config)
    (a : AllocatorId) : (w.createCache t config a).2.Numbered := by
  obtain ⟨n, next⟩ := Nat.exists_eq_add_of_le h.first
  have after : (w.createCache t config a).2.caches.next - 1 = n + 1 := by
    simp [Store.createCache, emit, next, add_comm]
  have old := h.ids
  rw [next, Nat.add_sub_cancel_left] at old
  refine ⟨Nat.le_succ_of_le h.first, ?_⟩
  rw [after, List.range'_1_concat, ← next]
  exact (old.cons w.caches.next).trans (List.perm_append_singleton ..).symm

end Store

theorem World.Step.numbered {W V : World} {m : Move} (move : Step m W V) (h : W.store.Numbered) :
    V.store.Numbered := by
  induction move with
  | addCache => exact h.createCache ..
  | tearDown _ hs => exact h.tornDown hs
  | retire withdrawn parted how withdraws parts => exact parts (withdraws h)
  | refit _ _ _ fits =>
    exact (h.of_kept fits.caches fits.ended).of_update (Store.caches_count ..) rfl
  | refitFailed _ _ _ fails => exact h.of_kept fails.caches fails.ended
  | publish | reuse | keep => exact h.of_update (Store.caches_count_setCache ..) rfl
  | withdraw | unshare => exact h.of_update (Store.caches_setCache ..) rfl
  | make | tally => exact h.of_update (Store.caches_count ..) rfl
  | share => exact h.of_update (Store.caches_addOwner ..) rfl
  | free | discard =>
    refine Store.Numbered.without ?_ _
    exact h.of_update (Store.caches_count ..) rfl
  | outlive =>
    refine Store.Numbered.without ?_ _
    exact h.of_kept rfl rfl
  | @emptyReserve W c s hs =>
    have cleared := (h.of_update (v := W.store.setCache c { s with reserve := s.reserve.clear })
      (Store.caches_setCache ..) rfl).withoutAll s.reserve.slots
    exact cleared.of_kept rfl rfl
  | _ => exact h.of_kept rfl rfl

/-! ## 5. Acts -/

namespace Session

variable {s : Session} {act : Act} {out : Multiset Loan} {A : AllocatorId}

/-- Whether an act has an allocator hand out a block directly, as a number. -/
def lentBy (A : AllocatorId) (s : Session) (act : Act) : Nat :=
  match act, (s.step act).1 with
  | .allocateBlock allocator _ _, .block _ => if s.allocators.get? allocator = some A then 1 else 0
  | .allocateShared _, .block _ => if s.store.sharedAllocator.1 = A then 1 else 0
  | _, _ => 0

theorem lentBy_eq_zero (silent : act.borrows = false) : s.lentBy A act = 0 := by
  unfold lentBy
  split <;> first | rfl | cases silent

/-- An act that borrows nothing leaves the blocks that were granted directly. -/
theorem Sound.step_direct_of_silent (h : s.Sound out) (rooted : s.store.Rooted)
    (silent : act.borrows = false) (A : AllocatorId) :
    (s.step act).2.store.direct A = s.store.direct A := by
  by_cases resizes : ∃ cache buffer area viewHeld, act = .resize cache buffer area viewHeld
  · obtain ⟨cache, buffer, area, viewHeld, rfl⟩ := resizes
    have run := h.perform_eq (.resize cache buffer area viewHeld)
    simp only [perform, withCache, withHandle] at run
    split at run
    · next c hc =>
      split at run
      · next b hb =>
        have does : (s.world out).Does (fun _ => True) (s.store.resize c b area viewHeld) _ :=
          World.resize_does h.world World.any_quiet (mem_handles hb)
            (fun _ _ _ => ⟨trivial, trivial⟩) viewHeld
        obtain ⟨a, _, resized, -⟩ := does
        rw [resized] at run
        rw [← Except.ok.inj run]
        exact World.resize_direct h.world rooted (mem_handles hb) (mem_shares hc) resized A
      · rw [← Except.ok.inj run]
    · rw [← Except.ok.inj run]
  by_cases direct : ∃ cache image area name, act = .acquire cache image area name
  · obtain ⟨cache, image, area, name, rfl⟩ := direct
    rcases h.acquire_step cache image area name with
      ⟨-, idle⟩ | ⟨d, i, a, hd, -, run, -, moves⟩
    · rw [idle]
    · have named := (moves.mono fun _ => Move.Quiet.grantsNone).direct A
      exact named.trans (World.acquire_direct h.world rooted (mem_shares hd) run A)
  cases acquires : act.acquires with
  | true =>
    rcases h.asked_tracks (World.direct_tracks A) acquires
      (fun _ _ _ _ same => direct ⟨_, _, _, _, same⟩) with idle | ⟨i, -, kept⟩
    · rw [idle]
    · exact (kept rooted).2
  | false =>
    refine ((h.reaches act).mono fun m made => ?_).direct A
    cases m with
    | lend l => simp [made.2] at silent
    | tally d f => simp [made.2.1] at acquires
    | refit r =>
      rcases made.1 with moves | takes
      · cases moves with
        | resize => exact absurd ⟨_, _, _, _, rfl⟩ resizes
        | exchange | exchangeOwn => cases acquires
      · simp [takes.acquires] at acquires
    | _ => trivial

theorem Sound.step_direct_allocateBlock (h : s.Sound out) (allocator : String) (size : Nat)
    (name : String) (A : AllocatorId) :
    (s.step (.allocateBlock allocator size name)).2.store.direct A
      = s.store.direct A + s.lentBy A (.allocateBlock allocator size name) := by
  have run := h.perform_eq (.allocateBlock allocator size name)
  simp only [perform, withAllocator] at run
  cases ha : s.allocators.get? allocator with
  | none =>
    rw [ha] at run
    simp only [lentBy, ← Except.ok.inj run]
    exact (add_zero _).symm
  | some a =>
    obtain ⟨source, hs⟩ := Option.isSome_iff_exists.1 (h.known allocator a ha)
    cases answer : source.allocate s.store.host.heap size with
    | mk outcome after =>
      have counted := Store.direct_allocate hs answer A
      simp only [ha, Session.allocateBlock, Store.allocator_of_get? hs, Fault.ok_bind, answer,
        Fault.pure_eq] at run
      cases outcome with
      | error e =>
        simp only [lentBy, ← Except.ok.inj run]
        simpa [Store.grantedBy, withStore] using counted
      | ok b =>
        simp only [lentBy, ← Except.ok.inj run, ha, Option.some.injEq]
        simpa [Store.grantedBy, withStore, withBlocks, eq_comm] using counted

theorem Sound.step_direct_allocateShared (h : s.Sound out) (size : Nat) (A : AllocatorId) :
    (s.step (.allocateShared size)).2.store.direct A
      = s.store.direct A + s.lentBy A (.allocateShared size) := by
  have run := h.perform_eq (.allocateShared size)
  obtain ⟨moves, known⟩ := World.sharedAllocator_reaches (P := Move.GrantsNone) h.world
    fun _ => Move.Quiet.grantsNone
  have before : s.store.sharedAllocator.2.direct A = s.store.direct A := moves.direct A
  change (s.store.sharedAllocator.2.allocators.get? s.store.sharedAllocator.1).isSome = true
    at known
  obtain ⟨source, hs⟩ := Option.isSome_iff_exists.1 known
  cases answer : source.allocate s.store.sharedAllocator.2.host.heap size with
  | mk outcome after =>
    have counted := Store.direct_allocate hs answer A
    simp only [perform, Session.allocateBlock, withStore, Store.allocator_of_get? hs, Fault.ok_bind,
      answer, Fault.pure_eq] at run
    cases outcome with
    | error e =>
      simp only [lentBy, ← Except.ok.inj run]
      simpa [Store.grantedBy, before] using counted
    | ok b =>
      have found : (s.store.sharedAllocator.2.setAllocator s.store.sharedAllocator.1
          after).allocators.get? s.store.sharedAllocator.1 = some after := by
        simp [Table.get?_update, hs]
      have same : (after.free b).allocations = after.allocations := rfl
      have returned := Store.direct_setAllocator found same A
      simp only [Store.giveBack, Store.allocator_of_get? found, Fault.ok_bind, Fault.pure_eq] at run
      simp only [lentBy, ← Except.ok.inj run]
      rw [returned]
      simpa [Store.grantedBy, before, eq_comm] using counted

/-- Exactly the acts that have a block handed out directly add to the blocks granted directly. -/
theorem Sound.step_direct (h : s.Sound out) (rooted : s.store.Rooted) (act : Act)
    (A : AllocatorId) : (s.step act).2.store.direct A = s.store.direct A + s.lentBy A act := by
  cases silent : act.borrows with
  | false =>
    rw [h.step_direct_of_silent rooted silent, lentBy_eq_zero silent]
    exact (add_zero _).symm
  | true =>
    cases act with
    | allocateBlock allocator size name => exact h.step_direct_allocateBlock allocator size name A
    | allocateShared size => exact h.step_direct_allocateShared size A
    | _ => cases silent

/-- Along a run, the blocks that an allocator granted directly are those that acts had handed
out. -/
theorem Sound.run_direct (h : s.Sound out) (rooted : s.store.Rooted) (acts : List Act)
    (A : AllocatorId) :
    (s.run acts).store.direct A = s.store.direct A + s.tallied (lentBy A) acts := by
  induction acts generalizing s out with
  | nil => exact (add_zero _).symm
  | cons act rest ih =>
    rw [run_cons, ih (h.step act) (h.run_rooted [act] rooted), h.step_direct rooted, tallied]
    omega

/-- In every run the caches that were made are all there, or were kept as they were at their end. -/
theorem numbered_run {w : Store} (initial : w.Initial) (acts : List Act) :
    ((start w).run acts).store.Numbered := by
  refine (sound_start initial).run_keeps acts (I := fun V => V.store.Numbered)
    (fun _ _ _ _ move => move.numbered) ?_
  obtain ⟨environment, host, rfl | rfl⟩ := initial <;> exact ⟨le_refl 1, .refl _⟩

/-- In every run, what an allocator granted went to the buffers of caches on it, or was handed out
directly. -/
theorem granted_eq_tallied {w : Store} (initial : w.Initial) (acts : List Act) (A : AllocatorId) :
    ((start w).run acts).store.granted A
      = ((start w).run acts).store.allocatedOn A + (start w).tallied (lentBy A) acts := by
  have none : w.direct A = 0 := by
    obtain ⟨environment, host, rfl | rfl⟩ := initial
    · rfl
    · by_cases same : A = 0
      · subst same
        rfl
      · have granted : ((Store.settled environment).on host).granted A = 0 := by
          rw [Store.granted, Store.on, Store.settled, Store.createAllocator]
          simp only [Table.get?_add]
          rw [if_neg (show A ≠ (Store.fresh environment).allocators.next from same)]
          rfl
        rw [Store.direct, granted]
        rfl
  have sum := (sound_start initial).run_direct (rooted_start initial) acts A
  rw [show (start w).store.direct A = 0 from none, Store.direct] at sum
  omega

end Session

end PixelPool
