import PixelPool.Proofs.Operations

/-!
The operations of a store by their results.

Where `World.Does` says which moves an operation makes, the lemmas here say which store it leaves.
An operation that can go several ways has a type of these ways (`Store.Taken`, `Store.Withdrawn`,
`Store.Parted`, next to `Store.Fits`), and one lemma which says that it goes one of them; callers
take these apart and never open the operation.
-/

namespace PixelPool

namespace Store

variable {w v : Store} {c : CacheId} {s : Cache} {i : Image} {r j : RecordId} {x y : Record}
  {b : Handle} {area : Rect}

/-! ## 1. Moving a buffer and looking one up -/

theorem Fits.get?_of_ne {outcome : Except StorageError Bool} (fits : w.Fits r x area outcome v)
    (other : j ≠ r) : v.records.get? j = w.records.get? j := by
  cases fits <;> simp [Table.get?_update, other]

theorem Fits.caches {outcome : Except StorageError Bool} (fits : w.Fits r x area outcome v) :
    v.caches = w.caches := by
  cases fits <;> rfl

/-- A record that was moved has the area and storage for it, and is otherwise bound as it was. -/
theorem Fits.moved {newBlock : Bool} (fits : w.Fits r x area (.ok newBlock) v)
    (hx : w.records.get? r = some x) :
    ∃ block, v.records.get? r = some { x with area, storage := some block } := by
  cases fits with
  | kept _ stored =>
    obtain ⟨block, stored⟩ := Option.isSome_iff_exists.1 stored
    exact ⟨block, by simp [Table.get?_update, hx, ← stored]⟩
  | renewed => exact ⟨_, by simp [Table.get?_update, hx]; rfl⟩

/-- The first published buffer of an image that encloses the area. -/
def hit? (w : Store) (c : CacheId) (k : ImageKey) (area : Rect) : Option RecordId :=
  (w.listOf c k).find? fun r => (w.areaOf r).encloses area

theorem mem_of_hit? {k : ImageKey} (hit : w.hit? c k area = some r) :
    r ∈ w.listOf c k ∧ (w.areaOf r).encloses area = true :=
  ⟨List.mem_of_find?_eq_some hit,
    List.find?_some (p := fun r => (w.areaOf r).encloses area) hit⟩

theorem hit?_eq_none_iff {k : ImageKey} : w.hit? c k area = none ↔
    ∀ r ∈ w.listOf c k, (w.areaOf r).encloses area = false := by
  simp [hit?]

theorem areaOf_of_get? (hx : w.records.get? r = some x) : w.areaOf r = x.area := by
  simp [areaOf, hx]

theorem referencesOf_of_get? (hx : w.records.get? r = some x) :
    w.referencesOf r = x.references := by
  simp [referencesOf, hx]

/-! ## 2. Taking a buffer into use -/

/-- The ways in which a cache comes by a buffer for an image: `Taken w c s i r x v` says that it is
`r`, with the record `x`, in the store `v`. -/
inductive Taken (w : Store) (c : CacheId) (s : Cache) (i : Image) :
    RecordId → Record → Store → Prop where
  /-- The buffer is the top of the reserve. -/
  | reused {r : RecordId} {rest : List RecordId} {x : Record} (top : s.reserve.slots = r :: rest)
      (hx : w.records.get? r = some x) :
      Taken w c s i r (x.takenFor i) (((w.setCache c { s with
        reserve := { s.reserve with slots := rest } }).count c .addReused).setRecord r
          (x.takenFor i))
  /-- The reserve is empty, and the buffer is new. -/
  | made (empty : s.reserve.slots = []) :
      Taken w c s i w.records.next (Record.takenFor { origin := c, allocator := s.allocator } i)
        { w.count c .addMade with
          records := w.records.add (Record.takenFor { origin := c, allocator := s.allocator } i) }

namespace Taken

theorem get? (h : Taken w c s i r x v) : v.records.get? r = some x := by
  cases h with
  | reused top hx => simp [Table.get?_update, hx]
  | made => simp [Table.get?_add]

theorem get?_of_ne (h : Taken w c s i r x v) (other : j ≠ r) :
    v.records.get? j = w.records.get? j := by
  cases h with
  | reused => simp [Table.get?_update, other]
  | made => simp [Table.get?_add, other]

theorem bound (h : Taken w c s i r x v) : x.image = some i.key ∧
    x.bytesPerPixel = i.bytesPerPixel ∧ x.references = 1 ∧ x.published = false := by
  cases h <;> exact ⟨rfl, rfl, rfl, rfl⟩

/-- What taking a buffer makes of the cache: its reserve may be shorter, one thing is counted. -/
theorem caches (h : Taken w c s i r x v) (hs : w.caches.get? c = some s) :
    ∃ t f, v.caches = w.caches.update c (fun _ => t) ∧ t.allocator = s.allocator ∧
      t.stats = f s.stats ∧ (f = Stats.addReused ∨ f = Stats.addMade) := by
  cases h with
  | @reused _ rest =>
    refine ⟨{ s with
      reserve := { s.reserve with slots := rest }
      stats := s.stats.addReused }, .addReused, ?_, rfl, rfl, .inl rfl⟩
    rw [caches_setRecord, caches_count, caches_setCache, Table.update_update]
  | made =>
    have counted : w.caches.update c (fun y => { y with stats := y.stats.addMade })
        = w.caches.update c fun _ => { s with stats := s.stats.addMade } :=
      Table.update_congr hs rfl
    exact ⟨_, .addMade, counted, rfl, rfl, .inr rfl⟩

end Taken

/-- The counts once the buffer that was taken was moved, or could not be. -/
def fitted (outcome : Except StorageError Bool) (t : Stats) : Stats :=
  match outcome with
  | .ok newBlock => t.addAllocation newBlock
  | .error _ => t.addFailure

/-- What a cache answers once it moved the buffer that it took, or could not move it. -/
def acquired (u : Store) (c : CacheId) (i : Image) (area : Rect) (r : RecordId) :
    Except StorageError Bool → Except StorageError Handle × Store
  | .ok newBlock =>
    (.ok ⟨r, c, i.key⟩, (u.count c (·.addAllocation newBlock)).emit
      (.acquired c i.key area (u.capacityOf r)))
  | .error e =>
    (.error e, ((u.count c .addFailure).emit (.acquisitionFailed c i.key area e)).without r)

theorem caches_acquired (u : Store) (c : CacheId) (i : Image) (area : Rect) (r : RecordId)
    (outcome : Except StorageError Bool) : (u.acquired c i area r outcome).2.caches
      = u.caches.update c fun y => { y with stats := fitted outcome y.stats } := by
  cases outcome <;> simp [acquired, fitted]

theorem fitTaken_eq (hx : w.records.get? r = some x) (image : x.image = some i.key)
    (undone : x.published = false) (source : (w.allocators.get? x.allocator).isSome = true)
    (c : CacheId) (area : Rect) :
    ∃ outcome u, w.Fits r x area outcome u ∧
      w.fitTaken c i area r = .ok (u.acquired c i area r outcome) := by
  obtain ⟨outcome, u, moved, fits⟩ := fit_fits hx undone source area
  obtain ⟨area', storage, hy⟩ := World.fits_record fits hx
  refine ⟨outcome, u, fits, ?_⟩
  rw [fitTaken, moved, Fault.ok_bind]
  cases outcome with
  | ok newBlock =>
    have out := handOut_of_get? (c := c) (w := (u.count c (·.addAllocation newBlock)).emit
      (.acquired c i.key area (u.capacityOf r))) hy image
    dsimp only
    rw [out]
    rfl
  | error e =>
    have known : (u.allocators.get? x.allocator).isSome = true := by
      cases fits with
      | invalid => exact source
      | lost => simpa using source
    have gone := destroy_eq
      (w := (u.count c .addFailure).emit (.acquisitionFailed c i.key area e)) hy known
    dsimp only
    rw [gone]
    rfl

/-! ## 3. Withdrawing and resizing -/

/-- The ways in which a record `x` is seen to be withdrawn, as the record `y`. -/
inductive Withdrawn (w : Store) (c : CacheId) (r : RecordId) (x : Record) :
    Record → Store → Prop where
  | undone (undone : x.published = false) : Withdrawn w c r x x w
  | done {s : Cache} {k : ImageKey} (done : x.published = true) (image : x.image = some k)
      (hs : w.caches.get? c = some s) :
      Withdrawn w c r x x.unmark.withoutArea (w.withdrawn c s r x k)

namespace Withdrawn

theorem get? (h : Withdrawn w c r x y v) (hx : w.records.get? r = some x) :
    v.records.get? r = some y := by
  cases h with
  | undone => exact hx
  | done => simp [Store.withdrawn, Table.get?_update, hx]

theorem get?_of_ne (h : Withdrawn w c r x y v) (other : j ≠ r) :
    v.records.get? j = w.records.get? j := by
  cases h with
  | undone => rfl
  | done => simp [Store.withdrawn, Table.get?_update, other]

/-- A buffer that is not published needs no withdrawing. -/
theorem eq_of_undone (h : Withdrawn w c r x y v) (undone : x.published = false) : v = w := by
  cases h with
  | undone => rfl
  | done done => simp [undone] at done

/-- Withdrawing leaves a record as it is, but for the area. -/
theorem same (h : Withdrawn w c r x y v) : y.published = false ∧ y.references = x.references ∧
    y.image = x.image ∧ y.bytesPerPixel = x.bytesPerPixel ∧ y.origin = x.origin ∧
    y.allocator = x.allocator ∧ y.storage = x.storage := by
  cases h with
  | undone undone => exact ⟨undone, rfl, rfl, rfl, rfl, rfl, rfl⟩
  | done => exact ⟨rfl, rfl, rfl, rfl, rfl, rfl, rfl⟩

theorem source (h : Withdrawn w c r x y v) (known : (w.allocators.get? x.allocator).isSome = true) :
    (v.allocators.get? y.allocator).isSome = true := by
  cases h <;> exact known

/-- Withdrawing a buffer changes nothing of its cache but the list of its image. -/
theorem exists_cache (h : Withdrawn w c r x y v) (hs : w.caches.get? c = some s) :
    ∃ lists, v.caches.get? c = some { s with lists } := by
  cases h with
  | undone => exact ⟨s.lists, hs⟩
  | done _ _ hz =>
    obtain rfl := Option.some.inj (hs.symm.trans hz)
    exact ⟨_, by simp [Store.withdrawn, Table.get?_update, hs]; rfl⟩

end Withdrawn

/-- What a cache answers once it moved a buffer for its holder, or could not move it. -/
def resized (u : Store) (c : CacheId) (b : Handle) (area : Rect) :
    Except StorageError Bool → Except Refusal Unit × Store
  | .ok newBlock => (.ok (), u.count c (·.addAllocation newBlock))
  | .error e => (.error (.allocation e), u.emit (.resizeFailed c b.image area e))

/-! ## 4. Giving up a handle -/

/-- The ways in which a handle on the record `x` is given up. -/
inductive Parted (w : Store) (b : Handle) (x : Record) : Store → Prop where
  | more (more : 1 < x.references) :
      Parted w b x (w.setRecord b.record { x with references := x.references - 1 })
  | kept {v : Store} {y : Record} {s : Cache} (last : x.references = 1)
      (withdrawn : Withdrawn w b.cache b.record x y v) (hs : v.caches.get? b.cache = some s)
      (room : s.reserve.slots.length < s.reserve.cap) :
      Parted w b x ((v.setRecord b.record y.parked).shelved b.cache s b.record)
  | freed {v : Store} {y : Record} {s : Cache} (last : x.references = 1)
      (withdrawn : Withdrawn w b.cache b.record x y v) (hs : v.caches.get? b.cache = some s)
      (full : s.reserve.cap ≤ s.reserve.slots.length) :
      Parted w b x (v.crowdedOut b.cache b.record y)
  | outlived (last : x.references = 1) (undone : x.published = false)
      (dead : w.caches.get? b.cache = none) :
      Parted w b x ((w.emit (.outlivedCache b.image)).without b.record)

theorem Parted.next_records (h : Parted w b x v) : v.records.next = w.records.next := by
  cases h with
  | more | outlived => simp
  | kept last withdrawn => cases withdrawn <;> simp [shelved, Store.withdrawn]
  | freed last withdrawn => cases withdrawn <;> simp [crowdedOut, Store.withdrawn]

theorem Parted.get?_of_ne (h : Parted w b x v) (other : j ≠ b.record) :
    v.records.get? j = w.records.get? j := by
  cases h with
  | more => simp [Table.get?_update, other]
  | kept last withdrawn =>
    simp [shelved, Table.get?_update, other, withdrawn.get?_of_ne other]
  | freed last withdrawn =>
    simp [crowdedOut, get?_records_without, other, withdrawn.get?_of_ne other]
  | outlived => simp [get?_records_without, other]

/-! ## 5. Exchanging -/

/-- The end of an exchange once the buffer was moved for its only holder, or could not be. -/
def afterMove (b : Handle) (a : Except Refusal Unit × Store) :
    Except Fault (Except Refusal Handle × Store) :=
  match a.1 with
  | .ok () => .ok (.ok b, a.2.count b.cache .addMoved)
  | .error e => do
    let w ← a.2.dropHandle b
    return (.error e, w)

/-- An exchange of a handle on a buffer that does not enclose the area. -/
def replace (w : Store) (b : Handle) (i : Image) (area : Rect) :
    Except Fault (Except Refusal Handle × Store) := do
  let (found, w) ← w.lookup b.cache i area
  match found with
  | some hit =>
    let w ← (w.count b.cache .addHit).dropHandle b
    return (.ok hit, w)
  | none =>
    if w.referencesOf b.record = 1 then
      let a ← w.resize b.cache b area false
      afterMove b a
    else
      let w ← w.dropHandle b
      w.acquireMissed b.cache i area

/-- An exchange through the handle's own cache for another area of its image. -/
theorem exchange_own (w : Store) (image : b.image = i.key) (area : Rect) :
    w.exchange b.cache (some b) i area =
      if (w.areaOf b.record).encloses area then .ok (.ok b, w) else w.replace b i area :=
  (if_neg (not_not.2 rfl)).trans (if_neg (not_not.2 image))

end Store

namespace World

variable {W : World} {c : CacheId} {s : Cache} {i : Image} {r : RecordId} {x : Record} {b : Handle}
  {area : Rect}

/-! ## 6. Operations on sound worlds -/

namespace Sound

theorem lookup_eq (h : W.Sound) (hs : W.store.caches.get? c = some s) (i : Image) (area : Rect) :
    (W.store.hit? c i.key area = none ∧ W.store.lookup c i area = .ok (none, W.store)) ∨
    ∃ r x, W.store.hit? c i.key area = some r ∧ W.store.records.get? r = some x ∧
      x.origin = c ∧ x.image = some i.key ∧ x.published = true ∧ x.area.encloses area = true ∧
      W.store.lookup c i area = .ok (some ⟨r, c, i.key⟩, W.store.retained r x) := by
  have list := Store.listOf_of_get? hs i.key
  cases hit : W.store.hit? c i.key area with
  | none =>
    refine .inl ⟨rfl, Store.lookup_of_none h.calm hs ?_⟩
    rw [← list]
    exact hit
  | some r =>
    obtain ⟨listed, encloses⟩ := Store.mem_of_hit? hit
    obtain ⟨x, hx, hc, origin, image, done⟩ := h.exists_listed listed
    rw [Store.areaOf_of_get? hx] at encloses
    refine .inr ⟨r, x, rfl, hx, origin, image, done, encloses, ?_⟩
    refine Store.lookup_of_some h.calm hs ?_ hx image
    rw [← list]
    exact hit

/-- The buffer that a cache takes was not in use, and its allocator exists. -/
theorem of_taken {v : Store} (h : W.Sound) (hs : W.store.caches.get? c = some s)
    (taken : W.store.Taken c s i r x v) :
    (∀ y, W.store.records.get? r = some y → y.image = none) ∧ x.origin = c ∧ x.area = .zero ∧
      (v.allocators.get? x.allocator).isSome = true := by
  cases taken with
  | @reused _ rest x top hx =>
    obtain ⟨y, hy, hc, origin, image, -⟩ := h.idle_of_slot (r := r) hs (by simp [top])
    obtain rfl := Option.some.inj (hx.symm.trans hy)
    refine ⟨fun z hz => ?_, origin, (hc.idle image).1, hc.source⟩
    rw [← Option.some.inj (hx.symm.trans hz)]
    exact image
  | made empty => exact ⟨by simp, rfl, rfl, (h.tidy c s hs).source⟩

/-- Acquiring a buffer: one is taken and then moved to the area. -/
theorem acquire_eq (h : W.Sound) (hs : W.store.caches.get? c = some s) (i : Image) (area : Rect) :
    ∃ r x v outcome u, W.store.Taken c s i r x v ∧ v.Fits r x area outcome u ∧
      W.store.acquire c i area = .ok (u.acquired c i area r outcome) := by
  cases slots : s.reserve.slots with
  | cons r rest =>
    obtain ⟨x, hx, hc, -, image, -⟩ := h.idle_of_slot (r := r) hs (by simp [slots])
    have taken : W.store.Taken c s i r _ _ := .reused slots hx
    obtain ⟨outcome, u, fits, run⟩ :=
      Store.fitTaken_eq taken.get? rfl rfl (h.of_taken hs taken).2.2.2 c area
    refine ⟨r, _, _, outcome, u, taken, fits, ?_⟩
    have assigned : x.assign r i = .ok (x.takenFor i) := by
      simp [Record.assign, Record.isIdle, image, hc.bound.1 image, Record.takenFor]
    have found : (((W.store.setCache c { s with
        reserve := { s.reserve with slots := rest } }).count c .addReused).record r) = .ok x :=
      Store.record_of_get? hx
    simp only [Store.acquire, Store.takeIdle_of_cons h.calm hs slots, Fault.ok_bind,
      found, assigned]
    exact run
  | nil =>
    have taken : W.store.Taken c s i _ _ _ := .made slots
    obtain ⟨outcome, u, fits, run⟩ :=
      Store.fitTaken_eq taken.get? rfl rfl (h.of_taken hs taken).2.2.2 c area
    refine ⟨_, _, _, outcome, u, taken, fits, ?_⟩
    have assigned : ({ origin := c, allocator := s.allocator } : Record).assign
        W.store.records.next i
          = .ok (Record.takenFor { origin := c, allocator := s.allocator } i) := rfl
    have found : ({ W.store.count c .addMade with
        records := W.store.records.add { origin := c, allocator := s.allocator } } : Store).record
          W.store.records.next = .ok { origin := c, allocator := s.allocator } := by
      simp [Store.record, Table.get?_add]
    simp only [Store.acquire, Store.takeIdle_of_nil h.calm hs slots, Fault.ok_bind,
      found, assigned,
      Store.setRecord, Table.update_add]
    exact run

/-- What an acquisition makes of the counts of its cache: a buffer is taken from the reserve or
made, and then moved or not. -/
theorem acquire_stats (h : W.Sound) (hs : W.store.caches.get? c = some s)
    {a : Except StorageError Handle × Store} (run : W.store.acquire c i area = .ok a) :
    ∃ t f outcome, a.2.caches = W.store.caches.update c (fun _ => t) ∧
      t.stats = Store.fitted outcome (f s.stats) ∧ (f = Stats.addReused ∨ f = Stats.addMade) := by
  obtain ⟨r, x, v, outcome, u, taken, fits, run'⟩ := h.acquire_eq hs i area
  obtain rfl := Except.ok.inj (run'.symm.trans run)
  obtain ⟨t, f, caches, -, stats, counted⟩ := taken.caches hs
  refine ⟨{ t with stats := Store.fitted outcome t.stats }, f, outcome, ?_, ?_, counted⟩
  · rw [Store.caches_acquired, fits.caches, caches, Table.update_update]
  · simp only [stats]

/-- Withdrawing a buffer in its own cache. -/
theorem withdraw_eq (h : W.Sound) (hx : W.store.records.get? r = some x) :
    ∃ y v, W.store.Withdrawn x.origin r x y v ∧ W.store.withdraw x.origin r = .ok v := by
  have hc := h.at_record hx
  by_cases done : x.published = true
  · obtain ⟨k, s, image, hs, listed⟩ := h.exists_publisher hx done
    have owner : x.publisher = some x.origin := by simp [hc.publisher, done]
    exact ⟨_, _, .done done image hs,
      Store.withdraw_of_done h.calm hx done owner image hs listed⟩
  · have undone : x.published = false := by simpa using done
    exact ⟨_, _, .undone undone, Store.withdraw_of_undone hx undone⟩

/-- Resizing the buffer of a handle that is its only one, without a view of its pixels. -/
theorem resize_eq (h : W.Sound) (held : b ∈ W.handles)
    (hx : W.store.records.get? b.record = some x) (sole : x.references = 1) (area : Rect) :
    ∃ y v outcome u, W.store.Withdrawn b.cache b.record x y v ∧
      v.Fits b.record y area outcome u ∧
      W.store.resize b.cache b area false = .ok (u.resized b.cache b area outcome) := by
  have hc := h.at_record hx
  obtain ⟨origin, -⟩ := hc.holders b held rfl
  obtain ⟨y, v, withdrawn, run⟩ := h.withdraw_eq hx
  obtain ⟨outcome, u, moved, fits⟩ :=
    Store.fit_fits (withdrawn.get? hx) withdrawn.same.1 (withdrawn.source hc.source) area
  rw [← origin] at run withdrawn
  refine ⟨y, v, outcome, u, withdrawn, fits, ?_⟩
  simp only [Store.resize, ne_eq, not_true_eq_false, if_false, Store.record_of_get? hx,
    Fault.ok_bind, sole, Bool.false_and, Bool.false_eq_true, false_and, run, moved]
  cases outcome <;> rfl

/-- Giving up a handle. -/
theorem dropHandle_eq (h : W.Sound) (held : b ∈ W.handles)
    (hx : W.store.records.get? b.record = some x) :
    ∃ v, W.store.Parted b x v ∧ W.store.dropHandle b = .ok v := by
  have hc := h.at_record hx
  obtain ⟨origin, image⟩ := hc.holders b held rfl
  have used : x.references ≠ 0 := by
    intro zero
    simp [hc.bound.2 zero] at image
  by_cases more : 1 < x.references
  · exact ⟨_, .more more, dropHandle_of_more hx more⟩
  have last : x.references = 1 := by omega
  cases hs : W.store.caches.get? b.cache with
  | none =>
    have undone : x.published = false := by
      by_contra done
      obtain ⟨k, s, -, alive, -⟩ := h.exists_publisher hx (by simpa using done)
      simp [← origin, hs] at alive
    refine ⟨_, .outlived last undone hs, ?_⟩
    simp only [Store.dropHandle, Store.isAlive, hs, Option.isSome_none, Bool.false_eq_true,
      if_false]
    exact releaseOrphan_of_last h hx last
  | some s =>
    simp only [Store.dropHandle, Store.isAlive, hs, Option.isSome_some, if_true]
    have zero : (W.store.setRecord b.record { x with references := 0 }).records.get? b.record
        = some { x with references := 0 } := by simp [Table.get?_update, hx]
    -- Withdrawing does not look at the references, which are gone already.
    obtain ⟨y, v, withdrawn, calm, parting⟩ : ∃ y v, W.store.Withdrawn b.cache b.record x y v ∧
        v.inside = [] ∧ W.store.releaseRecord b.cache b.record
          = (v.setRecord b.record y.parked).keepOrFree b.cache b.record := by
      by_cases done : x.published = true
      · have listed : b.record ∈ s.lists.members b.image := by
          rw [← Store.listOf_of_get? hs, hc.listed]
          exact ⟨origin, image, done⟩
        have owner : x.publisher = some b.cache := by simp [hc.publisher, done, origin]
        refine ⟨_, _, .done done image hs, h.calm, ?_⟩
        rw [releaseRecord_of_last hx last (Store.withdraw_of_done
          (w := W.store.setRecord b.record { x with references := 0 }) h.calm zero done owner image
          hs listed) (y := ({ x with references := 0 } : Record).unmark.withoutArea)
          (by simp [Store.withdrawn, Table.get?_update, hx]) rfl rfl]
        simp [Store.withdrawn, Store.setRecord, Store.setCache, Store.emit, Table.update_update,
          Record.parked, Record.unmark, Record.withoutArea]
      · have undone : x.published = false := by simpa using done
        refine ⟨_, _, .undone undone, h.calm, ?_⟩
        rw [releaseRecord_of_last hx last (Store.withdraw_of_undone (c := b.cache) zero undone) zero
          rfl undone, Store.setRecord_setRecord]
        rfl
    obtain ⟨lists, hz⟩ := withdrawn.exists_cache hs
    have hy := withdrawn.get? hx
    have parked : (v.setRecord b.record y.parked).records.get? b.record = some y.parked := by
      simp [Table.get?_update, hy]
    rw [parting]
    by_cases room : s.reserve.slots.length < s.reserve.cap
    · exact ⟨_, .kept last withdrawn hz room, Store.keepOrFree_of_room calm parked rfl hz room⟩
    · have known := withdrawn.source hc.source
      have gone : (v.setRecord b.record y.parked).crowdedOut b.cache b.record y.parked
          = v.crowdedOut b.cache b.record y :=
        Store.without_setRecord
          (w := (v.count b.cache .addFreed).emit (.reserveFull b.cache y.capacity)) hy rfl rfl
      refine ⟨_, .freed last withdrawn hz (Nat.le_of_not_lt room), ?_⟩
      rw [← gone]
      exact Store.keepOrFree_of_full calm parked known hz (Nat.le_of_not_lt room)

end Sound

end World

end PixelPool
