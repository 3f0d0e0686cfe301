import PixelPool.Proofs.Acquisitions
import PixelPool.Proofs.TwinRequests

/-!
What resizing a buffer leaves, whichever way it ends.

A resize withdraws the buffer, finds out how many bytes the area takes, gives the old block back if
that is too small, and asks for another one. It can stop at each of these points, and leaves another
state each time. All of these are the old store with the same few parts replaced (`Store.moved`):
withdrawing comes to that form (`Store.Withdrawn.eq_moved`), and what follows stays in it. Which way
is gone depends on the size, the block and the allocator only (`Store.Fits.unique`). Main statement:
`Session.Reachable.resize_effect`.
-/

namespace PixelPool

/-- The record withdrawn, with another area and other storage. -/
def Record.rebound (x : Record) (area : Rect) (storage : Option Block) : Record :=
  { x with area, storage, published := false, publisher := none }

namespace Store

variable {w v v' : Store} {b : Handle} {r : RecordId} {x y : Record} {area : Rect}
  {outcome outcome' : Except StorageError Bool}

/-! ## 1. Moving goes one way -/

/-- A record is moved in one way. -/
theorem Fits.unique (fits : w.Fits r x area outcome v) (fits' : w.Fits r x area outcome' v') :
    outcome = outcome' ∧ v = v' := by
  cases fits with
  | invalid size =>
    cases fits' with
    | invalid => exact ⟨rfl, rfl⟩
    | kept size' | renewed size' | lost size' => simp [size] at size'
  | kept size stored enough =>
    cases fits' with
    | invalid size' => simp [size] at size'
    | kept => exact ⟨rfl, rfl⟩
    | renewed size' lacking | lost size' lacking =>
      obtain rfl := Option.some.inj (size.symm.trans size')
      exact absurd ⟨stored, enough⟩ lacking
  | renewed size lacking source granted =>
    cases fits' with
    | invalid size' => simp [size] at size'
    | kept size' stored enough =>
      obtain rfl := Option.some.inj (size.symm.trans size')
      exact absurd ⟨stored, enough⟩ lacking
    | renewed size' _ source' granted' =>
      obtain rfl := Option.some.inj (size.symm.trans size')
      obtain rfl := Option.some.inj (source.symm.trans source')
      obtain ⟨same, rfl⟩ := Prod.mk.inj (granted.symm.trans granted')
      obtain rfl := Except.ok.inj same
      exact ⟨rfl, rfl⟩
    | lost size' _ source' refused =>
      obtain rfl := Option.some.inj (size.symm.trans size')
      obtain rfl := Option.some.inj (source.symm.trans source')
      simp [granted] at refused
  | lost size lacking source refused =>
    cases fits' with
    | invalid size' => simp [size] at size'
    | kept size' stored enough =>
      obtain rfl := Option.some.inj (size.symm.trans size')
      exact absurd ⟨stored, enough⟩ lacking
    | renewed size' _ source' granted =>
      obtain rfl := Option.some.inj (size.symm.trans size')
      obtain rfl := Option.some.inj (source.symm.trans source')
      simp [granted] at refused
    | lost size' _ source' refused' =>
      obtain rfl := Option.some.inj (size.symm.trans size')
      obtain rfl := Option.some.inj (source.symm.trans source')
      obtain ⟨same, rfl⟩ := Prod.mk.inj (refused.symm.trans refused')
      obtain rfl := Except.error.inj same
      exact ⟨rfl, rfl⟩

/-- The live bytes of an allocator once the block of a record, if it has one, went back to it. -/
theorem live_lowered (s : Allocator) (x : Record) : (lowered s x).live = s.live - x.capacity := by
  unfold lowered Record.capacity
  cases x.storage <;> simp [Allocator.free]

/-! ## 2. Stores in which one buffer was moved -/

/-- The store after the buffer of `b`, with the record `x`, left its list, if it was published, and
got an area and storage, where the allocators became `t`, the counts of its cache changed by `f`,
and the events are those of `log`. Nothing else is changed. -/
def moved (w : Store) (b : Handle) (x : Record) (area : Rect) (storage : Option Block)
    (t : Table Allocator) (f : Stats → Stats) (log : List Event) : Store :=
  { w with
    allocators := t
    caches := w.caches.update b.cache fun s =>
      { s with
        lists := if x.published then s.lists.put b.image ((s.lists.members b.image).erase b.record)
          else s.lists
        stats := f s.stats }
    records := w.records.update b.record fun _ => x.rebound area storage
    log }

section Moved

variable (w b x area) (storage : Option Block) (t : Table Allocator) (f : Stats → Stats)
  (log : List Event)

theorem get?_moved (hx : w.records.get? b.record = some x) :
    (w.moved b x area storage t f log).records.get? b.record = some (x.rebound area storage) := by
  simp [moved, Table.get?_update, hx]

theorem get?_moved_of_ne {r : RecordId} (other : r ≠ b.record) :
    (w.moved b x area storage t f log).records.get? r = w.records.get? r := by
  simp [moved, Table.get?_update, other]

theorem get?_caches_moved {z : Cache} (hs : w.caches.get? b.cache = some z) :
    (w.moved b x area storage t f log).caches.get? b.cache = some { z with
      lists := if x.published then z.lists.put b.image ((z.lists.members b.image).erase b.record)
        else z.lists
      stats := f z.stats } := by
  simp [moved, Table.get?_update, hs]

theorem moved_setRecord (area' : Rect) (storage' : Option Block) :
    (w.moved b x area storage t f log).setRecord b.record (x.rebound area' storage')
      = w.moved b x area' storage' t f log := by
  simp [moved, setRecord, Table.update_update]

theorem moved_count (g : Stats → Stats) :
    (w.moved b x area storage t f log).count b.cache g
      = w.moved b x area storage t (fun stats => g (f stats)) log := by
  simp [moved, count, Table.update_update]

theorem resized_moved_ok (area' : Rect) (storage' : Option Block) (newBlock : Bool) :
    ((w.moved b x area storage t f log).setRecord b.record (x.rebound area' storage')).resized
        b.cache b area' (.ok newBlock)
      = (.ok (), w.moved b x area' storage' t (fun s => (f s).addAllocation newBlock) log) := by
  simp only [resized, moved_setRecord, moved_count]

theorem resized_moved_error (area' : Rect) (e : StorageError) :
    (w.moved b x area storage t f log).resized b.cache b area' (.error e)
      = (.error (.allocation e), w.moved b x area storage t f
          (.resizeFailed b.cache b.image area' e :: log)) := rfl

theorem resized_lost (area' : Rect) (storage' : Option Block) (asked : Rect) (e : StorageError) :
    ((w.moved b x area storage t f log).setRecord b.record (x.rebound area' storage')).resized
        b.cache b asked (.error e)
      = (.error (.allocation e), w.moved b x area' storage' t f
          (.resizeFailed b.cache b.image asked e :: log)) := by
  rw [moved_setRecord, resized_moved_error]

end Moved

/-- A buffer that was withdrawn, and one that needed no withdrawing, was moved to the area that it
has then. -/
theorem Withdrawn.eq_moved (h : Withdrawn w b.cache b.record x y v)
    (hx : w.records.get? b.record = some x) (image : x.image = some b.image)
    (publisher : x.publisher = if x.published then some x.origin else none) :
    y = x.rebound (if x.published then .zero else x.area) x.storage ∧
      ∃ log, v = w.moved b x (if x.published then .zero else x.area) x.storage w.allocators id
        log := by
  cases h with
  | undone undone =>
    have same : x.rebound x.area x.storage = x := by
      cases x
      simp_all [Record.rebound]
    have records : w.records.update b.record (fun _ => x) = w.records :=
      (Table.update_congr hx (f := fun _ => x) (g := id) rfl).trans (Table.update_id _ _)
    refine ⟨by simp [undone, same], w.log, ?_⟩
    simp only [moved, undone, Bool.false_eq_true, if_false, same, records, id_eq]
    exact (congrArg (fun caches => { w with caches }) (Table.update_id w.caches b.cache)).symm
  | @done s k done image' hs =>
    obtain rfl := Option.some.inj (image.symm.trans image')
    have caches : w.caches.update b.cache (fun s => { s with
          lists := s.lists.put b.image ((s.lists.members b.image).erase b.record) })
        = w.caches.update b.cache fun _ => { s with
          lists := s.lists.put b.image ((s.lists.members b.image).erase b.record) } :=
      Table.update_congr hs rfl
    refine ⟨by simp [done, Record.rebound, Record.unmark, Record.withoutArea],
      (.unpublished b.cache b.image) :: w.log, ?_⟩
    simp [moved, done, caches, withdrawn, setCache, setRecord, emit, Record.rebound, Record.unmark,
      Record.withoutArea]

/-! ## 3. Moving a withdrawn buffer -/

section Ways

variable {a : Rect} {log : List Event} {u : Store} {n : Nat} {source after : Allocator}
  {block : Block} {e : StorageError}
  (fits : (w.moved b x a x.storage w.allocators id log).Fits b.record (x.rebound a x.storage) area
    outcome u)

include fits

/-- The block is large enough. -/
theorem Fits.resized_of_enough (size : byteSize? area x.bytesPerPixel = some n)
    (stored : x.storage = some block) (enough : n ≤ block.size) :
    ∃ log, u.resized b.cache b area outcome
      = (.ok (), w.moved b x area x.storage w.allocators id log) := by
  have enough : n ≤ x.capacity := by simpa [Record.capacity, stored] using enough
  obtain ⟨rfl, rfl⟩ := fits.unique (.kept size (by simp [Record.rebound, stored]) enough)
  exact ⟨log, resized_moved_ok w b x a x.storage w.allocators id log area x.storage false⟩

/-- The block is missing or too small, and the allocator grants another one. -/
theorem Fits.resized_of_granted (size : byteSize? area x.bytesPerPixel = some n)
    (short : ∀ block, x.storage = some block → block.size < n)
    (hs : w.allocators.get? x.allocator = some source)
    (granted : (x.storage.elim source source.free).allocate w.host.heap n = (.ok block, after)) :
    ∃ log, u.resized b.cache b area outcome
      = (.ok (), w.moved b x area (some block) (w.allocators.update x.allocator fun _ => after)
          (·.addAllocation true) log) := by
  obtain ⟨rfl, rfl⟩ := fits.unique (.renewed size (lacking_iff.2 short) hs
    ((congrArg (·.allocate w.host.heap n) (lowered_eq ..)).trans granted))
  exact ⟨log, resized_moved_ok w b x a x.storage _ id log area (some block) true⟩

/-- The block is missing or too small, and the allocator grants no other one. -/
theorem Fits.resized_of_refused (size : byteSize? area x.bytesPerPixel = some n)
    (short : ∀ block, x.storage = some block → block.size < n)
    (hs : w.allocators.get? x.allocator = some source)
    (refused : (x.storage.elim source source.free).allocate w.host.heap n = (.error e, after)) :
    ∃ log, u.resized b.cache b area outcome
      = (.error (.allocation e), w.moved b x .zero none
          (w.allocators.update x.allocator fun _ => after) id log) := by
  obtain ⟨rfl, rfl⟩ := fits.unique (.lost size (lacking_iff.2 short) hs
    ((congrArg (·.allocate w.host.heap n) (lowered_eq ..)).trans refused))
  exact ⟨_, resized_lost w b x a x.storage _ id log .zero none area e⟩

/-- The area has no size. -/
theorem Fits.resized_of_invalid (size : byteSize? area x.bytesPerPixel = none) :
    ∃ log, u.resized b.cache b area outcome
      = (.error (.allocation (.invalidArea area x.bytesPerPixel)),
          w.moved b x a x.storage w.allocators id log) := by
  obtain ⟨rfl, rfl⟩ := fits.unique (.invalid size)
  exact ⟨_, resized_moved_error ..⟩

/-- In any case the buffer was moved, and to the area if this succeeded. -/
theorem Fits.resized_moved : ∃ answer a storage t newBlock log,
    u.resized b.cache b area outcome
      = (answer, w.moved b x a storage t (·.addAllocation newBlock) log) ∧
    (answer = .ok () → a = area) := by
  cases fits with
  | invalid => exact ⟨_, a, x.storage, _, false, _, resized_moved_error .., nofun⟩
  | kept =>
    exact ⟨_, area, x.storage, _, false, log,
      resized_moved_ok w b x a x.storage _ id log area x.storage false, fun _ => rfl⟩
  | @renewed _ _ _ block =>
    exact ⟨_, area, some block, _, true, log,
      resized_moved_ok w b x a x.storage _ id log area (some block) true, fun _ => rfl⟩
  | @lost _ _ _ e =>
    exact ⟨_, .zero, none, _, false, _,
      resized_lost w b x a x.storage _ id log .zero none area e, nofun⟩

end Ways

end Store

/-! ## 4. Resizes -/

namespace World.Sound

variable {W : World} {b : Handle} {x : Record}

/-- Resizing the buffer of the only handle on it: it is withdrawn, and then moved. -/
theorem resize_fits (h : W.Sound) (held : b ∈ W.handles)
    (hx : W.store.records.get? b.record = some x) (sole : x.references = 1) (area : Rect)
    {viewHeld : Bool} (unviewed : (viewHeld && x.pixels.isSome) = false) :
    ∃ log outcome u,
      (W.store.moved b x (if x.published then .zero else x.area) x.storage W.store.allocators id
        log).Fits b.record (x.rebound (if x.published then .zero else x.area) x.storage) area
        outcome u ∧
      W.store.resize b.cache b area viewHeld = .ok (u.resized b.cache b area outcome) := by
  have hc := h.at_record hx
  obtain ⟨y, v, outcome, u, withdrawn, fits, run⟩ := h.resize_eq held hx sole area
  obtain ⟨rfl, log, rfl⟩ := withdrawn.eq_moved hx (hc.holders b held rfl).2 hc.publisher
  refine ⟨log, outcome, u, fits, ?_⟩
  rw [Store.resize_of_unviewed hx (by simp [Store.Viewed, unviewed]), run]

/-- Whichever way a resize ends, only its buffer was moved, and if it succeeds the buffer has the
area. -/
theorem resize_moved (h : W.Sound) (held : b ∈ W.handles)
    (hx : W.store.records.get? b.record = some x) (sole : x.references = 1) {area : Rect}
    {outcome : Except Refusal Unit} {v : Store}
    (run : W.store.resize b.cache b area false = .ok (outcome, v)) :
    ∃ a storage t newBlock log,
      v = W.store.moved b x a storage t (·.addAllocation newBlock) log ∧
      (outcome = .ok () → a = area) := by
  obtain ⟨log, moved, u, fits, run'⟩ := h.resize_fits held hx sole area (Bool.false_and _)
  obtain ⟨answer, a, storage, t, newBlock, log, resized, done⟩ := fits.resized_moved
  rw [run', resized] at run
  cases run
  exact ⟨a, storage, t, newBlock, log, rfl, done⟩

end World.Sound

namespace Session

variable {s : Session} {b : Handle} {x : Record}

/-- In every session that acts lead to, a buffer with a single handle is resized as follows, be it
published or not, with storage or without, if its pixels are not being viewed. It leaves its list.
If the area has a size and the block is large enough, the buffer gets the area and keeps the block;
no allocator is asked. If the block is too small or missing, it goes back first, and the allocator
is asked for another one then: with it, which holds zeros, the buffer gets the area; without it the
buffer has neither area nor storage, and the error is the allocator's own, by which the block that
went back is not live any more. If the area has no size, the buffer keeps its storage, and its area
too unless it was published. -/
theorem Reachable.resize_effect (h : s.Reachable) (held : b ∈ s.handles)
    (sole : s.handles.countP (·.record = b.record) = 1)
    (hx : s.store.records.get? b.record = some x) (area : Rect) (viewHeld : Bool)
    (unviewed : (viewHeld && x.pixels.isSome) = false) :
    ∃ source outcome v, s.store.allocators.get? x.allocator = some source ∧
      s.store.resize b.cache b area viewHeld = .ok (outcome, v) ∧
      (∀ n, storageSize area x.bytesPerPixel = .ok n →
        (∀ block, x.storage = some block → n ≤ block.size → outcome = .ok () ∧
          v = s.store.moved b x area x.storage s.store.allocators id v.log) ∧
        ((∀ block, x.storage = some block → block.size < n) →
          (∀ block after,
            (x.storage.elim source source.free).allocate s.store.host.heap n = (.ok block, after) →
            outcome = .ok () ∧ block = .zeroed n ∧
            v = s.store.moved b x area (some block)
              (s.store.allocators.update x.allocator fun _ => after) (·.addAllocation true) v.log) ∧
          ∀ e after,
            (x.storage.elim source source.free).allocate s.store.host.heap n = (.error e, after) →
            outcome = .error (.allocation e) ∧
            (e = .outOfMemory n ∨ ∃ limit, source.limit = some limit ∧
              e = .limitExceeded n (source.live - x.capacity) limit) ∧
            v = s.store.moved b x .zero none
              (s.store.allocators.update x.allocator fun _ => after) id v.log)) ∧
      ∀ e, storageSize area x.bytesPerPixel = .error e →
        e = .invalidArea area x.bytesPerPixel ∧ outcome = .error (.allocation e) ∧
        v = s.store.moved b x (if x.published then .zero else x.area) x.storage s.store.allocators
          id v.log := by
  obtain ⟨out, sound⟩ := h.sound
  have hc := sound.world.at_record hx
  obtain ⟨source, hs⟩ := Option.isSome_iff_exists.1 hc.source
  obtain ⟨log, outcome, u, fits, run⟩ :=
    sound.world.resize_fits held hx (hc.references.trans sole) area unviewed
  obtain ⟨⟨answer, v⟩, resized⟩ : ∃ a, u.resized b.cache b area outcome = a := ⟨_, rfl⟩
  rw [resized] at run
  refine ⟨source, answer, v, hs, run, fun n size => ?_, fun e invalid => ?_⟩
  · rw [storageSize_eq_ok_iff] at size
    refine ⟨fun block stored enough => ?_, fun short => ⟨fun block after granted => ?_,
      fun e after refused => ?_⟩⟩
    · obtain ⟨log, same⟩ := fits.resized_of_enough size stored enough
      obtain ⟨rfl, rfl⟩ := Prod.mk.inj (resized.symm.trans same)
      exact ⟨rfl, rfl⟩
    · obtain ⟨log, same⟩ := fits.resized_of_granted size short hs granted
      obtain ⟨rfl, rfl⟩ := Prod.mk.inj (resized.symm.trans same)
      exact ⟨rfl, (Allocator.allocate_eq_ok granted).1, rfl⟩
    · obtain ⟨log, same⟩ := fits.resized_of_refused size short hs refused
      obtain ⟨rfl, rfl⟩ := Prod.mk.inj (resized.symm.trans same)
      refine ⟨rfl, ?_, rfl⟩
      rw [← Store.lowered_eq] at refused
      rw [← Store.live_lowered, ← Store.limit_lowered source x]
      exact Allocator.allocate_eq_error refused
  · unfold storageSize at invalid
    split at invalid
    · cases invalid
    · next size =>
      cases invalid
      obtain ⟨log, same⟩ := fits.resized_of_invalid size
      obtain ⟨rfl, rfl⟩ := Prod.mk.inj (resized.symm.trans same)
      exact ⟨rfl, rfl, rfl⟩

/-- A run after which a buffer of four bytes is published, whose allocator is held to eight. -/
def tightActs : List Act :=
  [.newAllocator "allocator" (some 8), .newCache "cache" (some "allocator") none,
    .newImage "image" 1 (some 1), .acquire "cache" "image" ⟨0, 0, 2, 2⟩ "buffer",
    .publish "cache" "buffer"]

/-- The session after that run. -/
def tight : Session := (start (.fresh none)).run tightActs

/-- Nine bytes are not to be had. The four bytes went back by the time that they were asked for, and
the buffer has none. -/
theorem resize_effect_sample :
    tight.Reachable ∧ ∃ v x,
      tight.store.resize 1 ⟨0, 1, .explicit 1⟩ ⟨0, 0, 3, 3⟩ false
        = .ok (.error (.allocation (.limitExceeded 9 0 8)), v) ∧
      v.records.get? 0 = some x ∧ x.published = false ∧ x.area = .zero ∧ x.storage = none := by
  have reachable : tight.Reachable := ⟨_, tightActs, .fresh none, rfl⟩
  obtain ⟨x, hx, stored, allocator, bytesPerPixel⟩ : ∃ x, tight.store.records.get? 0 = some x ∧
      x.storage = some (.zeroed 4) ∧ x.allocator = 0 ∧ x.bytesPerPixel = 1 :=
    ⟨_, rfl, rfl, rfl, rfl⟩
  obtain ⟨source, outcome, v, hs, run, sized, -⟩ := reachable.resize_effect
    (b := ⟨0, 1, .explicit 1⟩) (by decide) (by decide) hx ⟨0, 0, 3, 3⟩ false rfl
  rw [allocator] at hs
  obtain rfl : (⟨some 8, 1, 0, 0, 4, 4⟩ : Allocator) = source := Option.some.inj hs
  rw [stored, bytesPerPixel] at sized
  obtain ⟨rfl, -, moved⟩ := ((sized 9 (by decide)).2 (by rintro _ ⟨⟩; decide)).2
    (.limitExceeded 9 0 8) _ rfl
  refine ⟨reachable, v, x.rebound .zero none, run, ?_, rfl, rfl, rfl⟩
  rw [moved]
  exact Store.get?_moved _ ⟨0, 1, .explicit 1⟩ _ _ _ _ _ _ hx

end Session

end PixelPool
