import PixelPool.Proofs.Tables
import PixelPool.Store.Shared
import PixelPool.Store.Swap

/-!
What the primitive operations of a store do, as equations.

Sections 2 and 3 say what is found after a part of the store was replaced. The later ones say of
each primitive operation what it makes of a store on which it can run: `fit` and `destroy` by the
cases they distinguish, the operations that work within a part of a cache by the store they give.
Later proofs cite these and do not open the operations again.
-/

namespace PixelPool

/-! ## 1. Programs that may fault -/

namespace Fault

variable {α β : Type}

@[simp] theorem ok_bind (a : α) (f : α → Except Fault β) : (Except.ok a >>= f) = f a := rfl
@[simp] theorem error_bind (e : Fault) (f : α → Except Fault β) :
    (Except.error e >>= f) = .error e := rfl
@[simp] theorem pure_eq (a : α) : (pure a : Except Fault α) = .ok a := rfl
@[simp] theorem throw_eq (e : Fault) : (throw e : Except Fault α) = .error e := rfl

end Fault

namespace Record

/-- The record taken into use for an image, with one reference. -/
def takenFor (x : Record) (i : Image) : Record :=
  { x with
    image := some i.key, bytesPerPixel := i.bytesPerPixel, references := 1, published := false,
    publisher := none }

/-- The record with nobody using it; it keeps its storage. -/
def parked (x : Record) : Record :=
  { x with image := none, area := .zero, references := 0, publisher := none }

/-- Only an unpublished record with one reference can be written, and only its bytes change. -/
theorem write_eq {x y : Record} {fill : Nat → UInt8} {n : Nat} (h : x.write fill = some (n, y)) :
    x.references = 1 ∧ x.published = false ∧ ∃ b, x.storage = some b ∧
      y = { x with storage := some (b.overwrite x.contentSize fill) } := by
  unfold write at h
  split at h
  · cases h
  · next allowed =>
    obtain ⟨b, stored, h⟩ := Option.bind_eq_some_iff.1 h
    split at h
    · cases h
      exact ⟨by omega, by simpa using (not_or.1 allowed).2, b, stored, rfl⟩
    · cases h

end Record

namespace Store

variable {w : Store} {c d : CacheId} {r j : RecordId} {a : AllocatorId} {s : Cache} {x : Record}

/-! ## 2. Replaced parts -/

section Parts

variable (w c r a s x)

@[simp] theorem records_setRecord :
    (w.setRecord r x).records = w.records.update r fun _ => x := rfl
@[simp] theorem records_setCache : (w.setCache c s).records = w.records := rfl
@[simp] theorem records_setAllocator (s : Allocator) :
    (w.setAllocator a s).records = w.records := rfl
@[simp] theorem records_count (f : Stats → Stats) : (w.count c f).records = w.records := rfl
@[simp] theorem records_emit (e : Event) : (w.emit e).records = w.records := rfl

@[simp] theorem caches_setRecord : (w.setRecord r x).caches = w.caches := rfl
@[simp] theorem caches_setCache :
    (w.setCache c s).caches = w.caches.update c fun _ => s := rfl
@[simp] theorem caches_setAllocator (s : Allocator) :
    (w.setAllocator a s).caches = w.caches := rfl
@[simp] theorem caches_count (f : Stats → Stats) : (w.count c f).caches
    = w.caches.update c fun y => { y with stats := f y.stats } := rfl
@[simp] theorem caches_addOwner : (w.addOwner c).caches
    = w.caches.update c fun y => { y with owners := y.owners + 1 } := rfl
@[simp] theorem caches_emit (e : Event) : (w.emit e).caches = w.caches := rfl

@[simp] theorem allocators_setRecord : (w.setRecord r x).allocators = w.allocators := rfl
@[simp] theorem allocators_setCache : (w.setCache c s).allocators = w.allocators := rfl
@[simp] theorem allocators_setAllocator (s : Allocator) :
    (w.setAllocator a s).allocators = w.allocators.update a fun _ => s := rfl
@[simp] theorem allocators_count (f : Stats → Stats) :
    (w.count c f).allocators = w.allocators := rfl
@[simp] theorem allocators_emit (e : Event) : (w.emit e).allocators = w.allocators := rfl

@[simp] theorem inside_setRecord : (w.setRecord r x).inside = w.inside := rfl
@[simp] theorem inside_setCache : (w.setCache c s).inside = w.inside := rfl
@[simp] theorem inside_setAllocator (s : Allocator) :
    (w.setAllocator a s).inside = w.inside := rfl
@[simp] theorem inside_count (f : Stats → Stats) : (w.count c f).inside = w.inside := rfl
@[simp] theorem inside_emit (e : Event) : (w.emit e).inside = w.inside := rfl

@[simp] theorem settings_setRecord : (w.setRecord r x).settings = w.settings := rfl
@[simp] theorem settings_setCache : (w.setCache c s).settings = w.settings := rfl
@[simp] theorem settings_setAllocator (s : Allocator) :
    (w.setAllocator a s).settings = w.settings := rfl
@[simp] theorem settings_count (f : Stats → Stats) : (w.count c f).settings = w.settings := rfl
@[simp] theorem settings_emit (e : Event) : (w.emit e).settings = w.settings := rfl

@[simp] theorem host_setRecord : (w.setRecord r x).host = w.host := rfl
@[simp] theorem host_setCache : (w.setCache c s).host = w.host := rfl
@[simp] theorem host_setAllocator (s : Allocator) : (w.setAllocator a s).host = w.host := rfl
@[simp] theorem host_count (f : Stats → Stats) : (w.count c f).host = w.host := rfl
@[simp] theorem host_emit (e : Event) : (w.emit e).host = w.host := rfl

end Parts

/-- Of two replacements of a record the later one counts. -/
@[simp] theorem setRecord_setRecord (w : Store) (r : RecordId) (x y : Record) :
    (w.setRecord r x).setRecord r y = w.setRecord r y := by
  simp [setRecord, Table.update_update]

theorem get?_caches_count (hs : w.caches.get? c = some s) (f : Stats → Stats) :
    (w.count c f).caches.get? c = some { s with stats := f s.stats } := by
  simp [Table.get?_update, hs]

theorem caches_count_setCache (w : Store) (c : CacheId) (s : Cache) (f : Stats → Stats) :
    ((w.setCache c s).count c f).caches
      = w.caches.update c fun _ => { s with stats := f s.stats } := by
  rw [caches_count, caches_setCache, Table.update_update]

/-! ## 3. Shelves and lists -/

/-- The reserve of a cache, empty for a cache that does not exist. -/
def shelf (w : Store) (c : CacheId) : List RecordId :=
  ((w.caches.get? c).map fun s => s.reserve.slots).getD []

/-- The members of an image's list in a cache, none for a cache that does not exist. -/
def listOf (w : Store) (c : CacheId) (k : ImageKey) : List RecordId :=
  ((w.caches.get? c).map fun s => s.lists.members k).getD []

theorem shelf_of_get? (hs : w.caches.get? c = some s) : w.shelf c = s.reserve.slots := by
  simp [shelf, hs]

theorem listOf_of_get? (hs : w.caches.get? c = some s) (k : ImageKey) :
    w.listOf c k = s.lists.members k := by
  simp [listOf, hs]

@[simp] theorem shelf_setRecord (w : Store) (r : RecordId) (x : Record) (c : CacheId) :
    (w.setRecord r x).shelf c = w.shelf c := rfl
@[simp] theorem shelf_setAllocator (w : Store) (a : AllocatorId) (s : Allocator) (c : CacheId) :
    (w.setAllocator a s).shelf c = w.shelf c := rfl
@[simp] theorem shelf_emit (w : Store) (e : Event) (c : CacheId) :
    (w.emit e).shelf c = w.shelf c := rfl
@[simp] theorem listOf_setRecord (w : Store) (r : RecordId) (x : Record) (c : CacheId)
    (k : ImageKey) : (w.setRecord r x).listOf c k = w.listOf c k := rfl
@[simp] theorem listOf_setAllocator (w : Store) (a : AllocatorId) (s : Allocator) (c : CacheId)
    (k : ImageKey) : (w.setAllocator a s).listOf c k = w.listOf c k := rfl
@[simp] theorem listOf_emit (w : Store) (e : Event) (c : CacheId) (k : ImageKey) :
    (w.emit e).listOf c k = w.listOf c k := rfl

/-- A change of a cache that spares what is read of it. -/
theorem map_get?_update {α : Type} {v : Store} {f : Cache → Cache} (read : Cache → α)
    (caches : v.caches = w.caches.update c f)
    (same : ∀ s, w.caches.get? c = some s → read (f s) = read s) (d : CacheId) :
    (v.caches.get? d).map read = (w.caches.get? d).map read := by
  rw [caches, Table.get?_update]
  split
  · next hd =>
    subst hd
    cases hs : w.caches.get? d with
    | none => rfl
    | some s => simp [same s hs]
  · rfl

/-- A change of a cache that spares its reserve. -/
theorem shelf_update {v : Store} {f : Cache → Cache} (caches : v.caches = w.caches.update c f)
    (same : ∀ s, w.caches.get? c = some s → (f s).reserve.slots = s.reserve.slots)
    (d : CacheId) : v.shelf d = w.shelf d := by
  rw [shelf, map_get?_update _ caches same, shelf]

/-- A change of a cache that spares its lists. -/
theorem listOf_update {v : Store} {f : Cache → Cache} (caches : v.caches = w.caches.update c f)
    (same : ∀ s, w.caches.get? c = some s → (f s).lists = s.lists)
    (d : CacheId) (k : ImageKey) : v.listOf d k = w.listOf d k := by
  rw [listOf, map_get?_update _ caches fun s hs => by rw [same s hs], listOf]

@[simp] theorem shelf_count (w : Store) (c : CacheId) (f : Stats → Stats) (d : CacheId) :
    (w.count c f).shelf d = w.shelf d := shelf_update (caches_count w c f) (fun _ _ => rfl) d

@[simp] theorem listOf_count (w : Store) (c : CacheId) (f : Stats → Stats) (d : CacheId)
    (k : ImageKey) : (w.count c f).listOf d k = w.listOf d k :=
  listOf_update (caches_count w c f) (fun _ _ => rfl) d k

theorem shelf_setCache (hs : (w.caches.get? c).isSome = true) (d : CacheId) :
    (w.setCache c s).shelf d = if d = c then s.reserve.slots else w.shelf d := by
  obtain ⟨y, hy⟩ := Option.isSome_iff_exists.1 hs
  by_cases h : d = c <;> simp [shelf, Table.get?_update, h, hy]

theorem listOf_setCache (hs : (w.caches.get? c).isSome = true) (d : CacheId) (k : ImageKey) :
    (w.setCache c s).listOf d k = if d = c then s.lists.members k else w.listOf d k := by
  obtain ⟨y, hy⟩ := Option.isSome_iff_exists.1 hs
  by_cases h : d = c <;> simp [listOf, Table.get?_update, h, hy]

/-! ## 4. Looking up -/

theorem record_of_get? (hx : w.records.get? r = some x) : w.record r = .ok x := by
  simp [record, hx]

theorem cache_of_get? (hs : w.caches.get? c = some s) : w.cache c = .ok s := by
  simp [cache, hs]

theorem allocator_of_get? {s : Allocator} (hs : w.allocators.get? a = some s) :
    w.allocator a = .ok s := by
  simp [allocator, hs]

theorem cacheAt_of_get? (calm : w.inside = []) (hs : w.caches.get? c = some s)
    (part : Section) : w.cacheAt c part = .ok s := by
  simp [cacheAt, calm, cache_of_get? hs]

/-- Work on a part of a cache between calls. -/
theorem within_of_calm {α : Type} (calm : w.inside = []) (c : CacheId) (part : Section)
    (body : Store → Except Fault (α × Store)) :
    w.within c part body = (body { w with inside := [(c, part)] }).map fun r =>
      (r.1, { r.2 with inside := [] }) := by
  simp only [within, calm, List.not_mem_nil, if_false]
  cases body { w with inside := [(c, part)] } <;> rfl

/-! ## 5. Storage -/

/-- The allocator of a record after the record's block, if it has one, went back to it. -/
def lowered (s : Allocator) (x : Record) : Allocator :=
  match x.storage with
  | none => s
  | some b => s.free b

/-- What becomes of a record whose storage is replaced, by the answer of its allocator. -/
def renew (w : Store) (r : RecordId) (x : Record) (area : Rect) :
    Except StorageError Block × Allocator → Except Fault (Except StorageError Bool × Store)
  | (.ok b, after) => .ok (.ok true,
      (w.setAllocator x.allocator after).setRecord r { x with area, storage := some b })
  | (.error e, after) => .ok (.error e,
      (w.setAllocator x.allocator after).setRecord r { x with area := .zero, storage := none })

/-- The ways in which a record can be moved to an area. -/
inductive Fits (w : Store) (r : RecordId) (x : Record) (area : Rect) :
    Except StorageError Bool → Store → Prop where
  /-- The area has no size. -/
  | invalid (size : byteSize? area x.bytesPerPixel = none) :
      Fits w r x area (.error (.invalidArea area x.bytesPerPixel)) w
  /-- The storage is large enough. -/
  | kept {n : Nat} (size : byteSize? area x.bytesPerPixel = some n)
      (stored : x.storage.isSome = true) (enough : n ≤ x.capacity) :
      Fits w r x area (.ok false) (w.setRecord r { x with area })
  /-- The storage is replaced. -/
  | renewed {n : Nat} {s after : Allocator} {b : Block}
      (size : byteSize? area x.bytesPerPixel = some n)
      (lacking : ¬ (x.storage.isSome = true ∧ n ≤ x.capacity))
      (source : w.allocators.get? x.allocator = some s)
      (granted : (lowered s x).allocate w.host.heap n = (.ok b, after)) :
      Fits w r x area (.ok true)
        ((w.setAllocator x.allocator after).setRecord r { x with area, storage := some b })
  /-- The storage is given back, and there is no other. -/
  | lost {n : Nat} {s after : Allocator} {e : StorageError}
      (size : byteSize? area x.bytesPerPixel = some n)
      (lacking : ¬ (x.storage.isSome = true ∧ n ≤ x.capacity))
      (source : w.allocators.get? x.allocator = some s)
      (refused : (lowered s x).allocate w.host.heap n = (.error e, after)) :
      Fits w r x area (.error e)
        ((w.setAllocator x.allocator after).setRecord r { x with area := .zero, storage := none })

theorem Fits.host {w v : Store} {outcome : Except StorageError Bool}
    (fits : w.Fits r x area outcome v) : v.host = w.host := by
  cases fits <;> rfl

/-- What fitting an unpublished record does: it succeeds or fails in one of four ways. -/
theorem fit_fits (hx : w.records.get? r = some x) (undone : x.published = false)
    (source : (w.allocators.get? x.allocator).isSome = true) (area : Rect) :
    ∃ outcome w', w.fit r area = .ok (outcome, w') ∧ Fits w r x area outcome w' := by
  obtain ⟨s, hs⟩ := Option.isSome_iff_exists.1 source
  cases size : byteSize? area x.bytesPerPixel with
  | none =>
    refine ⟨_, _, ?_, .invalid size⟩
    simp [fit, record_of_get? hx, undone, storageSize, size]
  | some n =>
    by_cases enough : x.storage.isSome = true ∧ n ≤ x.capacity
    · refine ⟨_, _, ?_, .kept size enough.1 enough.2⟩
      simp [fit, record_of_get? hx, undone, storageSize, size, enough]
    · cases outcome : (lowered s x).allocate w.host.heap n with
      | mk answer after =>
        cases answer with
        | ok b =>
          refine ⟨_, _, ?_, .renewed size enough hs outcome⟩
          cases stored : x.storage <;>
            simp_all [fit, record_of_get? hx, storageSize, allocator_of_get? hs, lowered]
        | error e =>
          refine ⟨_, _, ?_, .lost size enough hs outcome⟩
          cases stored : x.storage <;>
            simp_all [fit, record_of_get? hx, storageSize, allocator_of_get? hs, lowered]

/-- The store without a buffer, whose storage went back to its allocator. -/
def without (w : Store) (r : RecordId) : Store :=
  match w.records.get? r with
  | none => w
  | some x =>
    { w with
      allocators := x.storage.elim w.allocators fun b => w.allocators.update x.allocator (·.free b)
      records := w.records.erase r }

theorem destroy_eq (hx : w.records.get? r = some x)
    (source : (w.allocators.get? x.allocator).isSome = true) :
    w.destroy r = .ok (w.without r) := by
  obtain ⟨s, hs⟩ := Option.isSome_iff_exists.1 source
  cases stored : x.storage with
  | none => simp [destroy, without, record_of_get? hx, hx, stored]
  | some b =>
    have same : w.allocators.update x.allocator (fun _ => s.free b)
        = w.allocators.update x.allocator (·.free b) := Table.update_congr hs rfl
    simp [destroy, without, record_of_get? hx, hx, stored, giveBack, allocator_of_get? hs,
      setAllocator, same]

/-- Only the storage of a buffer that ends matters. -/
theorem without_setRecord {y : Record} (hx : w.records.get? r = some x)
    (storage : y.storage = x.storage) (source : y.allocator = x.allocator) :
    (w.setRecord r y).without r = w.without r := by
  simp [without, hx, setRecord, Table.get?_update, Table.erase_update, storage, source]

theorem get?_records_without (w : Store) (r j : RecordId) :
    (w.without r).records.get? j = if j = r then none else w.records.get? j := by
  unfold without
  split
  · next h => by_cases hj : j = r <;> simp [hj, h]
  · simp [Table.get?_erase]

theorem isSome_allocators_without (w : Store) (r : RecordId) (a : AllocatorId) :
    ((w.without r).allocators.get? a).isSome = (w.allocators.get? a).isSome := by
  unfold without
  split
  · rfl
  · next x _ =>
    cases x.storage with
    | none => rfl
    | some b => by_cases h : a = x.allocator <;> simp [Table.get?_update, h]

@[simp] theorem caches_without (w : Store) (r : RecordId) : (w.without r).caches = w.caches := by
  unfold without
  split <;> rfl
@[simp] theorem inside_without (w : Store) (r : RecordId) : (w.without r).inside = w.inside := by
  unfold without
  split <;> rfl
@[simp] theorem settings_without (w : Store) (r : RecordId) :
    (w.without r).settings = w.settings := by
  unfold without
  split <;> rfl
@[simp] theorem host_without (w : Store) (r : RecordId) : (w.without r).host = w.host := by
  unfold without
  split <;> rfl
@[simp] theorem next_records_without (w : Store) (r : RecordId) :
    (w.without r).records.next = w.records.next := by
  unfold without
  split <;> rfl
theorem log_without (w : Store) (r : RecordId) : (w.without r).log = w.log := by
  unfold without
  split <;> rfl

/-- What a store holds apart from its tables and its log. -/
def apart (w : Store) : Settings × Nat × List (CacheId × Cache) × List (CacheId × Section) :=
  (w.settings, w.freshKeys, w.ended, w.inside)

theorem apart_without (w : Store) (r : RecordId) : (w.without r).apart = w.apart := by
  unfold without
  split <;> rfl

/-- The store without several buffers. -/
def withoutAll (w : Store) (rs : List RecordId) : Store := rs.foldl without w

@[simp] theorem withoutAll_nil (w : Store) : w.withoutAll [] = w := rfl
@[simp] theorem withoutAll_cons (w : Store) (r : RecordId) (rs : List RecordId) :
    w.withoutAll (r :: rs) = (w.without r).withoutAll rs := rfl

/-- What no buffer's end changes, no row of them changes. -/
theorem withoutAll_keeps {α : Type} (f : Store → α) (one : ∀ v r, f (without v r) = f v)
    (w : Store) (rs : List RecordId) : f (w.withoutAll rs) = f w := by
  induction rs generalizing w with
  | nil => rfl
  | cons r rs ih => rw [withoutAll_cons, ih, one]

@[simp] theorem caches_withoutAll (w : Store) (rs : List RecordId) :
    (w.withoutAll rs).caches = w.caches := withoutAll_keeps (·.caches) caches_without w rs
@[simp] theorem inside_withoutAll (w : Store) (rs : List RecordId) :
    (w.withoutAll rs).inside = w.inside := withoutAll_keeps (·.inside) inside_without w rs
@[simp] theorem settings_withoutAll (w : Store) (rs : List RecordId) :
    (w.withoutAll rs).settings = w.settings := withoutAll_keeps (·.settings) settings_without w rs
@[simp] theorem host_withoutAll (w : Store) (rs : List RecordId) :
    (w.withoutAll rs).host = w.host := withoutAll_keeps (·.host) host_without w rs
@[simp] theorem next_records_withoutAll (w : Store) (rs : List RecordId) :
    (w.withoutAll rs).records.next = w.records.next :=
  withoutAll_keeps (·.records.next) next_records_without w rs
theorem log_withoutAll (w : Store) (rs : List RecordId) : (w.withoutAll rs).log = w.log :=
  withoutAll_keeps (·.log) log_without w rs
theorem apart_withoutAll (w : Store) (rs : List RecordId) : (w.withoutAll rs).apart = w.apart :=
  withoutAll_keeps apart apart_without w rs

theorem isSome_allocators_withoutAll (w : Store) (rs : List RecordId) (a : AllocatorId) :
    ((w.withoutAll rs).allocators.get? a).isSome = (w.allocators.get? a).isSome :=
  withoutAll_keeps (fun v => (v.allocators.get? a).isSome)
    (fun v r => isSome_allocators_without v r a) w rs

theorem get?_records_withoutAll (w : Store) (rs : List RecordId) (j : RecordId) :
    (w.withoutAll rs).records.get? j = if j ∈ rs then none else w.records.get? j := by
  induction rs generalizing w with
  | nil => simp
  | cons r rs ih =>
    rw [withoutAll_cons, ih, get?_records_without]
    by_cases hr : j = r <;> by_cases hrs : j ∈ rs <;> simp [hr, hrs]

theorem destroyAll_eq {rs : List RecordId} (distinct : rs.Nodup)
    (known : ∀ r ∈ rs, ∃ x, w.records.get? r = some x ∧
      (w.allocators.get? x.allocator).isSome = true) :
    w.destroyAll rs = .ok (w.withoutAll rs) := by
  induction rs generalizing w with
  | nil => rfl
  | cons r rs ih =>
    obtain ⟨fresh, distinct⟩ := List.nodup_cons.1 distinct
    obtain ⟨x, hx, source⟩ := known r List.mem_cons_self
    have rest : ∀ j ∈ rs, ∃ y, (w.without r).records.get? j = some y ∧
        ((w.without r).allocators.get? y.allocator).isSome = true := by
      intro j hj
      obtain ⟨y, hy, source⟩ := known j (List.mem_cons_of_mem _ hj)
      have hne : j ≠ r := fun h => fresh (h ▸ hj)
      exact ⟨y, by simp [get?_records_without, hne, hy],
        by simp [isSome_allocators_without, source]⟩
    simp [destroyAll, destroy_eq hx source, ih distinct rest]

/-! ## 6. Marks -/

/-- The store with several buffers no longer marked as published. -/
def unmarkAll (w : Store) (rs : List RecordId) : Store :=
  { w with records := rs.foldl (fun t r => t.update r Record.unmark) w.records }

theorem get?_foldl_unmark (t : Table Record) (rs : List RecordId) (j : RecordId) :
    (rs.foldl (fun t r => t.update r Record.unmark) t).get? j
      = if j ∈ rs then (t.get? j).map Record.unmark else t.get? j := by
  induction rs generalizing t with
  | nil => simp
  | cons r rs ih =>
    have twice : Record.unmark ∘ Record.unmark = Record.unmark := rfl
    rw [List.foldl_cons, ih, Table.get?_update]
    by_cases hr : j = r
    · subst hr
      by_cases hrs : j ∈ rs <;> simp [hrs, twice]
    · simp [hr]

theorem get?_records_unmarkAll (w : Store) (rs : List RecordId) (j : RecordId) :
    (w.unmarkAll rs).records.get? j
      = if j ∈ rs then (w.records.get? j).map Record.unmark else w.records.get? j :=
  get?_foldl_unmark w.records rs j

theorem detachAll_eq {rs : List RecordId} (known : ∀ r ∈ rs, (w.records.get? r).isSome = true) :
    w.detachAll rs = .ok (w.unmarkAll rs) := by
  induction rs generalizing w with
  | nil => rfl
  | cons r rs ih =>
    obtain ⟨x, hx⟩ := Option.isSome_iff_exists.1 (known r List.mem_cons_self)
    have same : w.setRecord r x.unmark
        = { w with records := w.records.update r Record.unmark } := by
      simp [setRecord, Table.update_congr hx (f := fun _ => x.unmark) (g := Record.unmark) rfl]
    have rest : ∀ j ∈ rs, ((w.setRecord r x.unmark).records.get? j).isSome = true := by
      intro j hj
      have := known j (List.mem_cons_of_mem _ hj)
      by_cases h : j = r <;> simp_all [Table.get?_update]
    rw [detachAll, record_of_get? hx, Fault.ok_bind, ih rest, same]
    rfl

/-! ## 7. Lists and reserves -/

/-- The store after a published buffer was withdrawn. -/
def withdrawn (w : Store) (c : CacheId) (s : Cache) (r : RecordId) (x : Record) (k : ImageKey) :
    Store :=
  ((w.setCache c { s with lists := s.lists.put k ((s.lists.members k).erase r) }).setRecord r
    x.unmark.withoutArea).emit (.unpublished c k)

/-- The store after an idle buffer was put into a reserve that had room. -/
def shelved (w : Store) (c : CacheId) (s : Cache) (r : RecordId) : Store :=
  (w.setCache c { s with
    reserve := { s.reserve with slots := r :: s.reserve.slots } }).count c .addKept

/-- The store after an idle buffer ended since the reserve was full. -/
def crowdedOut (w : Store) (c : CacheId) (r : RecordId) (x : Record) : Store :=
  ((w.count c .addFreed).emit (.reserveFull c x.capacity)).without r

theorem withdraw_of_undone (hx : w.records.get? r = some x) (undone : x.published = false) :
    w.withdraw c r = .ok w := by
  simp [withdraw, record_of_get? hx, undone]

theorem withdraw_of_done {k : ImageKey} (calm : w.inside = []) (hx : w.records.get? r = some x)
    (done : x.published = true) (owner : x.publisher = some c) (image : x.image = some k)
    (hs : w.caches.get? c = some s) (listed : r ∈ s.lists.members k) :
    w.withdraw c r = .ok (w.withdrawn c s r x k) := by
  have removed : s.lists.remove k r = .ok (s.lists.put k ((s.lists.members k).erase r)) := by
    simp [Lists.remove, listed]
  simp [withdraw, record_of_get? hx, done, owner, image, within_of_calm calm, cache, hs, removed,
    withdrawn, setCache, setRecord, emit, calm, Except.map]

/-- A buffer put into a reserve with room. -/
theorem keepOrFree_of_room (calm : w.inside = []) (hx : w.records.get? r = some x)
    (idle : x.isIdle = true) (hs : w.caches.get? c = some s)
    (room : s.reserve.slots.length < s.reserve.cap) :
    w.keepOrFree c r = .ok (w.shelved c s r) := by
  simp [keepOrFree, within_of_calm calm, cache, hs, Reserve.push?, Nat.not_le.2 room, record, hx,
    idle, shelved, setCache, count, calm, Except.map]

/-- A buffer that a full reserve turns away. -/
theorem keepOrFree_of_full (calm : w.inside = []) (hx : w.records.get? r = some x)
    (source : (w.allocators.get? x.allocator).isSome = true) (hs : w.caches.get? c = some s)
    (full : s.reserve.cap ≤ s.reserve.slots.length) :
    w.keepOrFree c r = .ok (w.crowdedOut c r x) := by
  have same : { w with inside := [] } = w := by rw [← calm]
  have gone : ((w.count c .addFreed).emit (.reserveFull c x.capacity)).destroy r
      = .ok (w.crowdedOut c r x) := destroy_eq hx source
  simp [keepOrFree, within_of_calm calm, cache, hs, Reserve.push?, full, Except.map, same, gone,
    capacityOf, hx]

theorem takeIdle_of_cons {rest : List RecordId} (calm : w.inside = [])
    (hs : w.caches.get? c = some s) (top : s.reserve.slots = r :: rest) :
    w.takeIdle c = .ok (r, (w.setCache c { s with
      reserve := { s.reserve with slots := rest } }).count c .addReused) := by
  simp [takeIdle, within_of_calm calm, cache, hs, Reserve.pop, top, Except.map, setCache, count,
    calm]

theorem takeIdle_of_nil (calm : w.inside = []) (hs : w.caches.get? c = some s)
    (empty : s.reserve.slots = []) :
    w.takeIdle c = .ok (w.records.next, { w.count c .addMade with
      records := w.records.add { origin := c, allocator := s.allocator } }) := by
  have same : w.caches.update c (fun _ => s) = w.caches :=
    (Table.update_congr hs (f := fun _ => s) (g := id) rfl).trans (Table.update_id _ _)
  simp [takeIdle, within_of_calm calm, cache, hs, Reserve.pop, empty, Except.map, setCache, count,
    calm, same]

/-- The store after a reference was added to a buffer. -/
def retained (w : Store) (r : RecordId) (x : Record) : Store :=
  w.setRecord r { x with references := x.references + 1 }

theorem lookup_of_none {i : Image} {area : Rect} (calm : w.inside = [])
    (hs : w.caches.get? c = some s)
    (miss : (s.lists.members i.key).find? (fun r => (w.areaOf r).encloses area) = none) :
    w.lookup c i area = .ok (none, w) := by
  have same : { w with inside := [] } = w := by rw [← calm]
  simp only [areaOf] at miss
  simp [lookup, within_of_calm calm, cache, hs, areaOf, -List.find?_eq_none, miss, Except.map, same]

theorem lookup_of_some {i : Image} {area : Rect} {k : ImageKey} (calm : w.inside = [])
    (hs : w.caches.get? c = some s)
    (hit : (s.lists.members i.key).find? (fun r => (w.areaOf r).encloses area) = some r)
    (hx : w.records.get? r = some x) (image : x.image = some k) :
    w.lookup c i area = .ok (some ⟨r, c, k⟩, w.retained r x) := by
  simp only [areaOf] at hit
  simp [lookup, within_of_calm calm, cache, hs, areaOf, hit, Except.map, record, hx, Record.retain,
    image, handOut, setRecord, Table.get?_update, retained, calm]

theorem handOut_of_get? {k : ImageKey} (hx : w.records.get? r = some x)
    (image : x.image = some k) : w.handOut c r = .ok ⟨r, c, k⟩ := by
  simp [handOut, record_of_get? hx, image]

/-- The store after an unpublished buffer was published. -/
def enlisted (w : Store) (b : Handle) (s : Cache) (x : Record) : Store :=
  (((w.setCache b.cache { s with
    lists := s.lists.put b.image (b.record :: s.lists.members b.image) }).setRecord b.record
    (x.markPublished b.cache)).count b.cache .addPublish).emit (.published b.cache b.image x.area)

theorem publish_of_foreign {b : Handle} (foreign : b.cache ≠ c) :
    w.publish c b = .ok (.error (.violation .foreignCache), w) := if_pos foreign

theorem publish_of_done {b : Handle} (hx : w.records.get? b.record = some x)
    (done : x.published = true) : w.publish b.cache b = .ok (.ok (), w) := by
  simp [publish, record_of_get? hx, done]

theorem publish_of_undone {b : Handle} (calm : w.inside = [])
    (hx : w.records.get? b.record = some x) (undone : x.published = false)
    (hs : w.caches.get? b.cache = some s) (fresh : b.record ∉ s.lists.members b.image) :
    w.publish b.cache b = .ok (.ok (), w.enlisted b s x) := by
  have added : s.lists.add b.image b.record
      = .ok (s.lists.put b.image (b.record :: s.lists.members b.image)) := by
    simp [Lists.add, fresh]
  simp [publish, record_of_get? hx, undone, within_of_calm calm, cache, hs, added, Except.map,
    enlisted, setCache, setRecord, count, emit, calm]

/-! ## 8. The end of caches and reserves -/

theorem without_inside (w : Store) (i : List (CacheId × Section)) (r : RecordId) :
    without { w with inside := i } r = { w.without r with inside := i } := by
  unfold without
  cases w.records.get? r <;> rfl

theorem withoutAll_inside (w : Store) (i : List (CacheId × Section)) (rs : List RecordId) :
    withoutAll { w with inside := i } rs = { w.withoutAll rs with inside := i } := by
  induction rs generalizing w with
  | nil => rfl
  | cons r rs ih => rw [withoutAll_cons, without_inside, ih, withoutAll_cons]

/-- The store after the reserve of a cache was emptied. -/
def emptied (w : Store) (c : CacheId) (s : Cache) : Store :=
  ((w.setCache c { s with reserve := s.reserve.clear }).withoutAll s.reserve.slots).emit
    (.reserveShrunk c (w.totalCapacity s.reserve.slots))

@[simp] theorem caches_emptied (w : Store) (c : CacheId) (s : Cache) : (w.emptied c s).caches
    = w.caches.update c fun _ => { s with reserve := s.reserve.clear } := by
  simp [emptied]

theorem get?_records_emptied (w : Store) (c : CacheId) (s : Cache) (j : RecordId) :
    (w.emptied c s).records.get? j
      = if j ∈ s.reserve.slots then none else w.records.get? j := by
  simp [emptied, get?_records_withoutAll]

@[simp] theorem isSome_allocators_emptied (w : Store) (c : CacheId) (s : Cache) (a : AllocatorId) :
    ((w.emptied c s).allocators.get? a).isSome = (w.allocators.get? a).isSome := by
  simp [emptied, isSome_allocators_withoutAll]

theorem shelf_emptied (hs : w.caches.get? c = some s) (d : CacheId) :
    (w.emptied c s).shelf d = if d = c then [] else w.shelf d := by
  have alive : (w.caches.get? c).isSome = true := by simp [hs]
  have cleared := shelf_setCache (s := { s with reserve := s.reserve.clear }) alive d
  rwa [shelf, caches_setCache, ← caches_emptied] at cleared

theorem emptyReserve_eq (calm : w.inside = []) (hs : w.caches.get? c = some s)
    (distinct : s.reserve.slots.Nodup)
    (known : ∀ r ∈ s.reserve.slots, ∃ x, w.records.get? r = some x ∧
      (w.allocators.get? x.allocator).isSome = true) :
    w.emptyReserve c = .ok (w.totalCapacity s.reserve.slots, w.emptied c s) := by
  have gone := destroyAll_eq
    (w := { w.setCache c { s with reserve := s.reserve.clear } with inside := [(c, .reserve)] })
    distinct known
  have same : { (w.setCache c { s with reserve := s.reserve.clear }) with inside := [] }
      = w.setCache c { s with reserve := s.reserve.clear } := by simp [setCache, calm]
  rw [withoutAll_inside] at gone
  simp only [emptyReserve, within_of_calm calm, cache, hs, Fault.ok_bind]
  erw [gone]
  simp only [Fault.ok_bind, Fault.pure_eq, Except.map, ← withoutAll_inside, same]
  rfl

/-- The store after a cache was torn down. -/
def tornDown (w : Store) (c : CacheId) (s : Cache) : Store :=
  let v := (w.unmarkAll s.lists.all).withoutAll s.reserve.slots
  { v with caches := v.caches.erase c, ended := (c, s) :: v.ended }.emit
    (.cacheTornDown c s.lists.all.length
      ((w.unmarkAll s.lists.all).totalCapacity s.reserve.slots))

@[simp] theorem caches_tornDown (w : Store) (c : CacheId) (s : Cache) :
    (w.tornDown c s).caches = w.caches.erase c := by
  simp [tornDown, unmarkAll]

theorem get?_records_tornDown (w : Store) (c : CacheId) (s : Cache) (j : RecordId) :
    (w.tornDown c s).records.get? j
      = if j ∈ s.reserve.slots then none
        else if j ∈ s.lists.all then (w.records.get? j).map Record.unmark
        else w.records.get? j := by
  simp [tornDown, get?_records_withoutAll, get?_records_unmarkAll]

@[simp] theorem isSome_allocators_tornDown (w : Store) (c : CacheId) (s : Cache) (a : AllocatorId) :
    ((w.tornDown c s).allocators.get? a).isSome = (w.allocators.get? a).isSome := by
  simp [tornDown, isSome_allocators_withoutAll, unmarkAll]

theorem shelf_tornDown (w : Store) (c : CacheId) (s : Cache) (d : CacheId) :
    (w.tornDown c s).shelf d = if d = c then [] else w.shelf d := by
  by_cases hd : d = c <;> simp [shelf, Table.get?_erase, hd]

theorem listOf_tornDown (w : Store) (c : CacheId) (s : Cache) (d : CacheId) (k : ImageKey) :
    (w.tornDown c s).listOf d k = if d = c then [] else w.listOf d k := by
  by_cases hd : d = c <;> simp [listOf, Table.get?_erase, hd]

theorem tearDown_eq (hs : w.caches.get? c = some s)
    (members : ∀ r ∈ s.lists.all, (w.records.get? r).isSome = true)
    (distinct : s.reserve.slots.Nodup)
    (known : ∀ r ∈ s.reserve.slots, ∃ x, w.records.get? r = some x ∧
      (w.allocators.get? x.allocator).isSome = true) :
    w.tearDown c = .ok (w.tornDown c s) := by
  have gone : (w.unmarkAll s.lists.all).destroyAll s.reserve.slots
      = .ok ((w.unmarkAll s.lists.all).withoutAll s.reserve.slots) := by
    apply destroyAll_eq distinct
    intro r hr
    obtain ⟨x, hx, source⟩ := known r hr
    rw [get?_records_unmarkAll, hx]
    split
    · exact ⟨x.unmark, rfl, source⟩
    · exact ⟨x, rfl, source⟩
  simp [tearDown, cache_of_get? hs, detachAll_eq members, gone, tornDown]

end Store

end PixelPool
