import PixelPool.Proofs.Releases
import PixelPool.Proofs.Resizes

/-!
What an exchange promises, whichever way it goes.

An exchange has five ways to go (`World.Swaps`): the old buffer stays as it is; a published buffer
is found; the old buffer is moved, or cannot be moved; or a buffer is acquired. The promises concern
the answer, the handle that is given up, the other buffers, the allocators and the counts; each is
proved by going through the ways. Giving up a handle is the same part of three of them
(`Store.GivenUp`). Main statement: `Session.Reachable.exchange_contract`.
-/

namespace PixelPool

/-- The counts of which an exchange raises one at most: hits, misses and moves. -/
def Stats.answers (t : Stats) : Nat × Nat × Nat := (t.hits, t.misses, t.movedInPlace)

namespace Store

variable {w v : Store} {c d : CacheId} {z : Cache} {i : Image} {r j : RecordId} {x y : Record}
  {b : Handle} {k : ImageKey} {area : Rect} {old : Option Handle}

/-! ## 1. Counts and requests -/

/-- The hits, misses and moves that a cache counted. -/
def answersOf (w : Store) (c : CacheId) : Option (Nat × Nat × Nat) :=
  (w.caches.get? c).map (·.stats.answers)

theorem answersOf_of_get? (hs : w.caches.get? c = some z) :
    w.answersOf c = some z.stats.answers := by
  simp [answersOf, hs]

theorem answersOf_update {f : Cache → Cache} (caches : v.caches = w.caches.update c f)
    (same : ∀ s, w.caches.get? c = some s → (f s).stats.answers = s.stats.answers)
    (d : CacheId) : v.answersOf d = w.answersOf d := map_get?_update _ caches same d

theorem answersOf_count (w : Store) (f : Stats → Stats)
    (same : ∀ t, (f t).answers = t.answers) (d : CacheId) :
    (w.count c f).answersOf d = w.answersOf d :=
  answersOf_update (caches_count w c f) (fun _ _ => same _) d

theorem answersOf_moved (hs : w.caches.get? b.cache = some z) (a : Rect) (storage : Option Block)
    (t : Table Allocator) (f : Stats → Stats) (log : List Event) :
    (w.moved b x a storage t f log).answersOf b.cache = some (f z.stats).answers :=
  answersOf_of_get? (get?_caches_moved w b x a storage t f log hs)

/-- How many requests an allocator granted, and how many it refused. -/
def requestsOf (w : Store) (a : AllocatorId) : Option (Nat × Nat) :=
  (w.allocators.get? a).map fun s => (s.allocations, s.failed)

theorem requestsOf_without (w : Store) (r : RecordId) (a : AllocatorId) :
    (w.without r).requestsOf a = w.requestsOf a := by
  unfold without
  split
  · rfl
  · next x _ =>
    cases x.storage with
    | none => rfl
    | some block =>
      by_cases same : a = x.allocator
      · subst same
        cases hs : w.allocators.get? x.allocator <;>
          simp [requestsOf, Table.get?_update, hs, Allocator.free]
      · simp [requestsOf, Table.get?_update, same]

/-! ## 2. Giving up a handle -/

theorem Withdrawn.answersOf (h : Withdrawn w c r x y v) (d : CacheId) :
    v.answersOf d = w.answersOf d := by
  cases h with
  | undone => rfl
  | @done s k _ _ hs =>
    refine answersOf_update (v := w.withdrawn c s r x k) (caches_setCache w c _)
      (fun s' hs' => ?_) d
    rw [Option.some.inj (hs.symm.trans hs')]

/-- Giving up a handle is neither a hit nor a miss nor a move. -/
theorem Parted.answersOf (h : Parted w b x v) (d : CacheId) : v.answersOf d = w.answersOf d := by
  cases h with
  | more => rfl
  | @kept u y s _ withdrawn hs =>
    rw [← withdrawn.answersOf d]
    refine answersOf_update (v := (u.setRecord b.record y.parked).shelved b.cache s b.record)
      (caches_count_setCache _ _ _ _) (fun s' hs' => ?_) d
    rw [← Option.some.inj (hs.symm.trans hs')]
    rfl
  | @freed u y s _ withdrawn =>
    rw [← withdrawn.answersOf d]
    rw [← answersOf_count (c := b.cache) u .addFreed (fun _ => rfl) d]
    simp [crowdedOut, Store.answersOf]
  | outlived => simp [Store.answersOf]

/-- Giving up a handle asks no allocator for anything. -/
theorem Parted.requestsOf (h : Parted w b x v) (a : AllocatorId) :
    v.requestsOf a = w.requestsOf a := by
  cases h with
  | more => rfl
  | kept _ withdrawn => exact congrArg (fun t => (Table.get? t a).map _) withdrawn.allocators
  | freed _ withdrawn =>
    rw [crowdedOut, requestsOf_without]
    exact congrArg (fun t => (Table.get? t a).map _) withdrawn.allocators
  | outlived => exact requestsOf_without ..

/-- A buffer of which the last handle went is idle on top of the reserve of its cache, which was in
the state `z`, or it is gone, since the reserve was full. -/
def Retired (v : Store) (c : CacheId) (z : Cache) (r : RecordId) : Prop :=
  if z.reserve.slots.length < z.reserve.cap then
    (∃ y, v.records.get? r = some y ∧ y.isIdle = true) ∧ v.shelf c = r :: z.reserve.slots
  else v.records.get? r = none ∧ v.shelf c = z.reserve.slots

theorem Parted.retired (h : Parted w b x v) (hx : w.records.get? b.record = some x)
    (last : x.references = 1) (hs : w.caches.get? b.cache = some z)
    (source : x.allocator = z.allocator) : v.Retired b.cache z b.record := by
  have disposed := h.disposed hx last hs source
  obtain ⟨lists, cache⟩ := disposed.cache
  have shelf := shelf_of_get? cache
  unfold Retired
  split
  · next room =>
    obtain ⟨n, left⟩ : ∃ n, z.reserve.room = n + 1 :=
      ⟨_, (Nat.succ_pred_eq_of_pos (Nat.sub_pos_of_lt room)).symm⟩
    simp only [left, List.take_succ_cons, List.take_nil] at disposed shelf
    obtain ⟨-, y, -, hy, idle, -⟩ := disposed.idle b.record (by simp)
    exact ⟨⟨y, hy, idle⟩, shelf⟩
  · next full =>
    have left : z.reserve.room = 0 := Nat.sub_eq_zero_of_le (Nat.le_of_not_lt full)
    simp only [left, List.take_zero, List.drop_zero] at disposed shelf
    exact ⟨disposed.gone b.record (by simp), shelf⟩

/-- A handle is given up, if there is one. -/
inductive GivenUp (w : Store) : Option Handle → Store → Prop where
  | nothing : GivenUp w none w
  | handle {b : Handle} {x : Record} {v : Store} (hx : w.records.get? b.record = some x)
      (parted : Parted w b x v) : GivenUp w (some b) v

namespace GivenUp

theorem get?_of_ne (h : GivenUp w old v) (other : ∀ b, old = some b → b.record ≠ j) :
    v.records.get? j = w.records.get? j := by
  cases h with
  | nothing => rfl
  | handle _ parted => exact parted.get?_of_ne (other _ rfl).symm

theorem answersOf (h : GivenUp w old v) (d : CacheId) : v.answersOf d = w.answersOf d := by
  cases h with
  | nothing => rfl
  | handle _ parted => exact parted.answersOf d

theorem requestsOf (h : GivenUp w old v) (a : AllocatorId) : v.requestsOf a = w.requestsOf a := by
  cases h with
  | nothing => rfl
  | handle _ parted => exact parted.requestsOf a

/-- The other holders of a buffer see no change but that there is one reference less. -/
theorem get?_of_shared (h : GivenUp w (some b) v) (hx : w.records.get? b.record = some x)
    (shared : 1 < x.references) :
    v.records.get? b.record = some { x with references := x.references - 1 } := by
  cases h with
  | handle hx' parted =>
    obtain rfl := Option.some.inj (hx'.symm.trans hx)
    cases parted with
    | more => simp [Table.get?_update, hx]
    | kept last | freed last | outlived last => omega

theorem retired (h : GivenUp w (some b) v) (hx : w.records.get? b.record = some x)
    (last : x.references = 1) (hs : w.caches.get? b.cache = some z)
    (source : x.allocator = z.allocator) : v.Retired b.cache z b.record := by
  cases h with
  | handle hx' parted =>
    obtain rfl := Option.some.inj (hx'.symm.trans hx)
    exact parted.retired hx last hs source

end GivenUp

/-! ## 3. The ways of an exchange -/

/-- The buffer that is to be exchanged, if there is one, does not enclose the area. -/
def Outside (w : Store) (old : Option Handle) (area : Rect) : Prop :=
  ∀ b, old = some b → (w.areaOf b.record).encloses area = false

/-- A published buffer of the image encloses the area. -/
def Offers (w : Store) (c : CacheId) (k : ImageKey) (area : Rect) : Prop :=
  ∃ r ∈ w.listOf c k, (w.areaOf r).encloses area = true

theorem offers_of_hit (hit : w.hit? c k area = some r) : w.Offers c k area :=
  ⟨r, mem_of_hit? hit⟩

theorem get?_hitAt_of_ne (w : Store) (c : CacheId) (y : Record) (other : j ≠ r) :
    (w.hitAt c r y).records.get? j = w.records.get? j := by
  simp [hitAt, retained, Table.get?_update, other]

theorem not_offers_of_miss (miss : w.hit? c k area = none) : ¬ w.Offers c k area := by
  rintro ⟨r, listed, encloses⟩
  simp [hit?_eq_none_iff.1 miss r listed] at encloses

/-- The handle is the only one on its buffer, no published buffer encloses the area, and the buffer
can be moved to it. -/
def Movable (w : Store) (c : CacheId) (b : Handle) (i : Image) (area : Rect) : Prop :=
  w.referencesOf b.record = 1 ∧ ¬ w.Offers c i.key area ∧
    ∃ v, w.resize c b area false = .ok (.ok (), v)

end Store

namespace World

variable {W : World} {c : CacheId} {z : Cache} {i : Image} {area : Rect} {old : Option Handle}
  {outcome : Except Refusal Handle} {v : Store} {b : Handle} {x : Record}

/-- The ways in which a cache exchanges `old`, if there is one, for a buffer that encloses an area
of the image. -/
inductive Swaps (W : World) (c : CacheId) (old : Option Handle) (i : Image) (area : Rect) :
    Except Refusal Handle → Store → Prop where
  /-- The buffer encloses the area already. -/
  | kept {b : Handle} (given : old = some b)
      (encloses : (W.store.areaOf b.record).encloses area = true) :
      Swaps W c old i area (.ok b) W.store
  /-- A published buffer is found, and the handle is given up. -/
  | found {r : RecordId} {y : Record} {v : Store} (outside : W.store.Outside old area)
      (hit : W.store.hit? c i.key area = some r) (hy : W.store.records.get? r = some y)
      (left : (W.store.hitAt c r y).GivenUp old v) :
      Swaps W c old i area (.ok ⟨r, c, i.key⟩) v
  /-- The buffer is moved. -/
  | moved {b : Handle} {x : Record} {u : Store} (given : old = some b)
      (outside : W.store.Outside old area) (miss : W.store.hit? c i.key area = none)
      (hx : W.store.records.get? b.record = some x) (sole : x.references = 1)
      (run : W.store.resize c b area false = .ok (.ok (), u)) :
      Swaps W c old i area (.ok b) (u.count c .addMoved)
  /-- The buffer cannot be moved, and the handle is given up. -/
  | refused {b : Handle} {x : Record} {u v : Store} {e : Refusal} (given : old = some b)
      (outside : W.store.Outside old area) (miss : W.store.hit? c i.key area = none)
      (hx : W.store.records.get? b.record = some x) (sole : x.references = 1)
      (run : W.store.resize c b area false = .ok (.error e, u))
      (left : u.GivenUp (some b) v) :
      Swaps W c old i area (.error e) v
  /-- The handle is given up, and then a buffer is acquired or not. -/
  | missed {u v : Store} {H : Multiset Handle} {s : Cache} {answer : Except StorageError Handle}
      (outside : W.store.Outside old area) (miss : W.store.hit? c i.key area = none)
      (shared : ∀ b, old = some b → W.store.referencesOf b.record ≠ 1)
      (left : W.store.GivenUp old u)
      (sound : ({ W with store := u.count c .addMiss, handles := H } : World).Sound)
      (hs : (u.count c .addMiss).caches.get? c = some s)
      (run : (u.count c .addMiss).acquire c i area = .ok (answer, v)) :
      Swaps W c old i area (Store.asRefusal answer) v

namespace Sound

theorem resize_sound (h : W.Sound) (held : b ∈ W.handles) {viewHeld : Bool}
    {answer : Except Refusal Unit}
    (run : W.store.resize c b area viewHeld = .ok (answer, v)) :
    ({ W with store := v } : World).Sound := by
  obtain ⟨V, moves, rfl, -⟩ :=
    (resize_does h any_quiet held (fun _ _ _ => ⟨trivial, trivial⟩) viewHeld).reaches run
  exact h.reaches moves

/-- An acquisition that follows a miss runs through. -/
theorem exists_acquireMissed (h : W.Sound) (hs : W.store.caches.get? c = some z) (i : Image)
    (area : Rect) : ∃ s answer v, (W.store.count c .addMiss).caches.get? c = some s ∧
      (W.store.count c .addMiss).acquire c i area = .ok (answer, v) ∧
      W.store.acquireMissed c i area = .ok (Store.asRefusal answer, v) := by
  have counted := Store.get?_caches_count hs .addMiss
  obtain ⟨r, -, -, moved, u, -, -, run⟩ := (h.count c .addMiss).acquire_eq (c := c) counted i area
  refine ⟨_, _, _, counted, run, ?_⟩
  dsimp only at run
  rw [Store.acquireMissed, run]
  rfl

/-- Acquiring a buffer is neither a hit nor a miss nor a move. -/
theorem acquire_answersOf (h : W.Sound) (hs : W.store.caches.get? c = some z)
    {answer : Except StorageError Handle} (run : W.store.acquire c i area = .ok (answer, v))
    (d : CacheId) : v.answersOf d = W.store.answersOf d := by
  obtain ⟨t, f, moved, caches, stats, counted⟩ := h.acquire_stats hs run
  refine Store.answersOf_update caches (fun s hs' => ?_) d
  obtain rfl := Option.some.inj (hs.symm.trans hs')
  have taken : (f z.stats).answers = z.stats.answers := by
    rcases counted with rfl | rfl <;> rfl
  rw [stats, ← taken]
  cases moved with
  | ok newBlock => cases newBlock <;> rfl
  | error e => rfl

theorem exchangeNone_swaps (h : W.Sound) (hs : W.store.caches.get? c = some z) (i : Image)
    (area : Rect) : ∃ outcome v, W.store.exchange c none i area = .ok (outcome, v) ∧
      W.Swaps c none i area outcome v := by
  rcases h.lookup_eq hs i area with ⟨miss, found⟩ | ⟨r, y, hit, hy, -, -, -, -, found⟩
  · obtain ⟨s, answer, v, counted, run, missed⟩ := h.exists_acquireMissed hs i area
    refine ⟨_, _, ?_, .missed nofun miss nofun .nothing (h.count c .addMiss) counted run⟩
    rw [Store.exchange, found, Fault.ok_bind]
    exact missed
  · refine ⟨_, _, ?_, .found nofun hit hy .nothing⟩
    rw [Store.exchange, found]
    rfl

theorem exchangeSome_swaps (h : W.Sound) (hs : W.store.caches.get? b.cache = some z)
    (held : b ∈ W.handles) (image : b.image = i.key) (area : Rect) :
    ∃ outcome v, W.store.exchange b.cache (some b) i area = .ok (outcome, v) ∧
      W.Swaps b.cache (some b) i area outcome v := by
  obtain ⟨x, hx, -⟩ := h.exists_record held
  rw [Store.exchange_own _ image]
  by_cases encloses : (W.store.areaOf b.record).encloses area = true
  · exact ⟨_, _, by rw [if_pos encloses], .kept rfl encloses⟩
  rw [if_neg encloses]
  have outside : W.store.Outside (some b) area := by
    rintro d ⟨⟩
    simpa using encloses
  rcases h.lookup_eq hs i area with ⟨miss, found⟩ | ⟨r, y, hit, hy, origin, bound, -, fits, found⟩
  · rw [Store.replace, found, Fault.ok_bind]
    dsimp only
    rw [Store.referencesOf_of_get? hx]
    -- Nothing is found: a buffer with a single handle is moved, a shared one is left to the others.
    by_cases sole : x.references = 1
    · obtain ⟨y, u, moved, u', -, -, run⟩ := h.resize_eq held hx sole area
      obtain ⟨⟨answer, u⟩, resized⟩ : ∃ a, u'.resized b.cache b area moved = a := ⟨_, rfl⟩
      rw [resized] at run
      rw [if_pos sole, run, Fault.ok_bind]
      cases answer with
      | ok => exact ⟨_, _, rfl, .moved rfl outside miss hx sole run⟩
      | error e =>
        have sound := h.resize_sound held run
        obtain ⟨x', hx', -⟩ := sound.exists_record held
        obtain ⟨v, parted, dropped⟩ := sound.dropHandle_eq held hx'
        refine ⟨_, _, ?_, .refused rfl outside miss hx sole run (.handle hx' parted)⟩
        simp only [Store.afterMove]
        dsimp only at dropped
        rw [dropped]
        rfl
    · obtain ⟨u, H, parted, dropped, sound⟩ := h.exists_parted held hx
      obtain ⟨s, hs'⟩ := parted.exists_cache hs
      obtain ⟨s, answer, v, counted, run, missed⟩ := sound.exists_acquireMissed hs' i area
      have shared : ∀ d, some b = some d → W.store.referencesOf d.record ≠ 1 := by
        rintro d ⟨⟩
        rwa [Store.referencesOf_of_get? hx]
      refine ⟨_, _, ?_, .missed outside miss shared (.handle hx parted)
        (sound.count b.cache .addMiss) counted run⟩
      rw [if_neg sole, dropped, Fault.ok_bind]
      exact missed
  · -- What is found is another buffer, since the old one does not enclose the area.
    have other : b.record ≠ r := by
      rintro rfl
      rw [Store.areaOf_of_get? hy] at encloses
      exact encloses fits
    have counted := (h.retain (b := ⟨r, b.cache, i.key⟩) hy bound origin).count b.cache .addHit
    have hx' : (W.store.hitAt b.cache r y).records.get? b.record = some x :=
      (Store.get?_hitAt_of_ne _ _ y other).trans hx
    obtain ⟨v, parted, dropped⟩ :=
      counted.dropHandle_eq (Multiset.mem_cons_of_mem held) hx'
    refine ⟨_, _, ?_, .found outside hit hy (.handle hx' parted)⟩
    rw [Store.replace, found, Fault.ok_bind]
    dsimp only at dropped ⊢
    rw [dropped]
    rfl

end Sound

/-! ## 4. What holds in each way -/

theorem countP_singleton (b : Handle) (j : RecordId) :
    ({b} : Multiset Handle).countP (·.record = j) = if b.record = j then 1 else 0 := by
  rw [← Multiset.cons_zero, Multiset.countP_cons, Multiset.countP_zero, Nat.zero_add]

namespace Swaps

/-- The buffer stays as it is, or it does not enclose the area. -/
theorem kept_or_outside (swaps : W.Swaps c old i area outcome v) :
    (∃ b, old = some b ∧ (W.store.areaOf b.record).encloses area = true ∧ outcome = .ok b ∧
      v = W.store) ∨ W.store.Outside old area := by
  cases swaps with
  | kept given encloses => exact .inl ⟨_, given, encloses, rfl, rfl⟩
  | found outside | moved _ outside | refused _ outside | missed outside => exact .inr outside

/-- Only what cannot be answered with the old buffer or a published one is asked of an allocator, or
refused. -/
theorem unasked (swaps : W.Swaps c old i area outcome v)
    (asked : (∃ e, outcome = .error e) ∨ ∃ a, v.requestsOf a ≠ W.store.requestsOf a) :
    W.store.Outside old area ∧ ¬ W.store.Offers c i.key area := by
  cases swaps with
  | kept => simp at asked
  | found _ _ _ left =>
    rcases asked with ⟨e, error⟩ | ⟨a, differs⟩
    · cases error
    · exact absurd (left.requestsOf a) differs
  | moved _ outside miss | refused _ outside miss | missed outside miss =>
    exact ⟨outside, Store.not_offers_of_miss miss⟩

/-- A miss is counted if a buffer has to be acquired. -/
theorem answersOf_of_misses (hs : W.store.caches.get? c = some z)
    (swaps : W.Swaps c old i area outcome v) (outside : W.store.Outside old area)
    (none : ¬ W.store.Offers c i.key area)
    (shared : ∀ d, old = some d → W.store.referencesOf d.record ≠ 1) :
    v.answersOf c = some (z.stats.hits, z.stats.misses + 1, z.stats.movedInPlace) := by
  cases swaps with
  | kept given encloses => simp [outside _ given] at encloses
  | found _ hit => exact absurd (Store.offers_of_hit hit) none
  | moved given _ _ hx sole | refused given _ _ hx sole =>
    exact absurd ((Store.referencesOf_of_get? hx).trans sole) (shared _ given)
  | @missed u v H s answer _ _ _ left sound hs' run =>
    rw [sound.acquire_answersOf hs' run c]
    obtain ⟨s', hu, answers⟩ := Option.map_eq_some_iff.1
      ((left.answersOf c).trans (Store.answersOf_of_get? hs))
    rw [Store.answersOf_of_get? (Store.get?_caches_count hu .addMiss)]
    obtain ⟨hits, misses, moves⟩ : s'.stats.hits = z.stats.hits ∧
        s'.stats.misses = z.stats.misses ∧ s'.stats.movedInPlace = z.stats.movedInPlace := by
      simpa [Stats.answers] using answers
    simp [Stats.answers, Stats.addMiss, hits, misses, moves]

/-- A hit is counted if a published buffer encloses the area. -/
theorem answersOf_of_offers (hs : W.store.caches.get? c = some z)
    (swaps : W.Swaps c old i area outcome v) (outside : W.store.Outside old area)
    (offers : W.store.Offers c i.key area) :
    v.answersOf c = some (z.stats.hits + 1, z.stats.misses, z.stats.movedInPlace) := by
  cases swaps with
  | kept given encloses => simp [outside _ given] at encloses
  | found _ _ _ left =>
    rw [left.answersOf c]
    exact Store.answersOf_of_get? (Store.get?_caches_count (w := W.store.retained _ _) hs .addHit)
  | moved _ _ miss | refused _ _ miss | missed _ miss =>
    exact absurd offers (Store.not_offers_of_miss miss)

section Old

variable (own : ∀ b, old = some b → b ∈ W.handles ∧ b.cache = c ∧ b.image = i.key)

include own

theorem cache_eq (swaps : W.Swaps c old i area outcome v) (given : outcome = .ok b) :
    b.cache = c := by
  cases swaps with
  | kept own' | moved own' =>
    cases given
    exact (own _ own').2.1
  | found =>
    cases given
    rfl
  | refused => cases given
  | @missed u v H s answer _ _ _ left sound hs' run =>
    cases answer with
    | error e => cases given
    | ok d =>
      cases given
      exact (sound.acquire_own hs' run).1

/-- A buffer in use, but for the old one, has one reference more for each handle that is given on
it, and is otherwise as it was. -/
theorem get?_of_ne (h : W.Sound) (hs : W.store.caches.get? c = some z)
    (swaps : W.Swaps c old i area outcome v) {j : RecordId} {y : Record}
    (hy : W.store.records.get? j = some y) (used : y.image ≠ none)
    (other : ∀ b, old = some b → b.record ≠ j) :
    v.records.get? j
      = some { y with references := y.references + (given outcome).countP (·.record = j) } := by
  cases swaps with
  | kept own' => simp [countP_singleton, other _ own', hy]
  | @found r x v _ hit hx left =>
    rw [left.get?_of_ne other]
    by_cases same : r = j
    · subst same
      obtain rfl := Option.some.inj (hx.symm.trans hy)
      simp [countP_singleton, Store.hitAt, Store.retained, Table.get?_update, hx]
    · rw [Store.get?_hitAt_of_ne _ _ _ (Ne.symm same), hy]
      simp [countP_singleton, same]
  | @moved b x u own' _ _ hx sole run =>
    obtain ⟨held, rfl, image⟩ := own b own'
    obtain ⟨a, storage, t, newBlock, log, rfl, -⟩ := h.resize_moved held hx sole run
    rw [Store.moved_count, Store.get?_moved_of_ne _ _ _ _ _ _ _ _ (other b own').symm, hy]
    simp [countP_singleton, other b own']
  | @refused b x u v e own' _ _ hx sole run left =>
    obtain ⟨held, rfl, image⟩ := own b own'
    obtain ⟨a, storage, t, newBlock, log, rfl, -⟩ := h.resize_moved held hx sole run
    rw [left.get?_of_ne (own' ▸ other), Store.get?_moved_of_ne _ _ _ _ _ _ _ _ (other b own').symm,
      hy, given_error, Multiset.countP_zero, Nat.add_zero]
  | @missed u v H s answer _ _ _ left sound hs' run =>
    have hy' : u.records.get? j = some y := (left.get?_of_ne other).trans hy
    rw [sound.acquire_get? hs' run hy' used]
    cases answer with
    | error e => simp [Store.asRefusal]
    | ok b =>
      have fresh : b.record ≠ j := by
        rintro rfl
        exact used ((sound.acquire_own hs' run).2 y hy')
      simp [countP_singleton, Store.asRefusal, fresh]

/-- What is given is on the old buffer only if that encloses the area or was moved. -/
theorem record_eq_iff (h : W.Sound) (swaps : W.Swaps c old i area outcome v) (d : Handle)
    (hd : old = some d) : (∃ b, outcome = .ok b ∧ b.record = d.record) ↔
      (W.store.areaOf d.record).encloses area = true ∨ W.store.Movable c d i area := by
  subst hd
  cases swaps with
  | kept own' encloses =>
    cases own'
    exact iff_of_true ⟨_, rfl, rfl⟩ (.inl encloses)
  | @found r y v outside hit hy =>
    refine iff_of_false ?_ ?_
    · rintro ⟨b, ⟨⟩, same⟩
      have encloses := (Store.mem_of_hit? hit).2
      simp [show r = d.record from same, outside d rfl] at encloses
    · rintro (encloses | ⟨-, none, -⟩)
      · simp [outside d rfl] at encloses
      · exact none (Store.offers_of_hit hit)
  | @moved b x u own' _ miss hx sole run =>
    cases own'
    exact iff_of_true ⟨_, rfl, rfl⟩ (.inr ⟨(Store.referencesOf_of_get? hx).trans sole,
      Store.not_offers_of_miss miss, u, run⟩)
  | @refused b x u v e own' outside _ hx _ run =>
    cases own'
    refine iff_of_false (by simp) ?_
    rintro (encloses | ⟨-, -, u', run'⟩)
    · simp [outside _ rfl] at encloses
    · cases run.symm.trans run'
  | @missed u v H s answer outside _ shared left sound hs' run =>
    refine iff_of_false ?_ ?_
    · rintro ⟨b, hb, same⟩
      cases answer with
      | error e => cases hb
      | ok b' =>
        cases hb
        obtain ⟨x, hx, -, -, image, used⟩ := h.exists_record (own d rfl).1
        have more : 1 < x.references := by
          have := shared d rfl
          rw [Store.referencesOf_of_get? hx] at this
          omega
        have idle := (sound.acquire_own hs' run).2 _ (same ▸ left.get?_of_shared hx more)
        simp [image] at idle
    · rintro (encloses | ⟨sole, -⟩)
      · simp [outside d rfl] at encloses
      · exact shared d rfl sole

/-- The other holders of the old buffer see that one reference is gone, and nothing else. -/
theorem get?_of_shared (h : W.Sound) (swaps : W.Swaps c old i area outcome v) (d : Handle)
    (hd : old = some d) (hx : W.store.records.get? d.record = some x) (shared : 1 < x.references)
    (apart : ∀ b, outcome = .ok b → b.record ≠ d.record) :
    v.records.get? d.record = some { x with references := x.references - 1 } := by
  subst hd
  obtain ⟨held, -, -⟩ := own d rfl
  have used : x.image ≠ none := by
    simp [((h.at_record hx).holders d held rfl).2]
  cases swaps with
  | kept own' | moved own' =>
    cases own'
    exact absurd rfl (apart _ rfl)
  | @found r y v _ _ hy left =>
    have hx' := (Store.get?_hitAt_of_ne W.store c y (apart _ rfl).symm).trans hx
    exact left.get?_of_shared hx' shared
  | refused own' _ _ hx' sole =>
    cases own'
    cases hx'.symm.trans hx
    omega
  | @missed u v H s answer _ _ _ left sound hs' run =>
    exact sound.acquire_get? hs' run (left.get?_of_shared hx shared) used

/-- The old buffer goes out of use with its last reference. -/
theorem retired (h : W.Sound) (hs : W.store.caches.get? c = some z)
    (swaps : W.Swaps c old i area outcome v) (d : Handle) (hd : old = some d)
    (hx : W.store.records.get? d.record = some x) (source : x.allocator = z.allocator)
    (last : x.references = 1) (apart : ∀ b, outcome = .ok b → b.record ≠ d.record) :
    v.Retired c z d.record := by
  subst hd
  obtain ⟨held, rfl, -⟩ := own d rfl
  cases swaps with
  | kept own' | moved own' =>
    cases own'
    exact absurd rfl (apart _ rfl)
  | @found r y v _ _ hy left =>
    have hx' := (Store.get?_hitAt_of_ne W.store d.cache y (apart _ rfl).symm).trans hx
    have hz := Store.get?_caches_count (w := W.store.retained r y) hs .addHit
    have retired := left.retired hx' last hz source
    exact retired
  | @refused b x' u v e own' _ _ hx' sole run left =>
    cases own'
    obtain ⟨a, storage, t, newBlock, log, rfl, -⟩ := h.resize_moved held hx' sole run
    cases hx'.symm.trans hx
    have record := Store.get?_moved W.store d x a storage t (·.addAllocation newBlock) log hx
    have hz := Store.get?_caches_moved W.store d x a storage t (·.addAllocation newBlock) log hs
    have retired := left.retired record last hz source
    exact retired
  | missed _ _ shared =>
    exact absurd ((Store.referencesOf_of_get? hx).trans last) (shared d rfl)

/-- A buffer that can be moved is given with the area, unpublished and with one reference, and a
move is counted. -/
theorem moved_of_movable (h : W.Sound) (hs : W.store.caches.get? c = some z)
    (swaps : W.Swaps c old i area outcome v) (d : Handle) (hd : old = some d)
    (outside : W.store.Outside old area) (movable : W.store.Movable c d i area) :
    outcome = .ok d ∧
      (∃ y, v.records.get? d.record = some y ∧ y.area = area ∧ y.published = false ∧
        y.references = 1) ∧
      v.answersOf c = some (z.stats.hits, z.stats.misses, z.stats.movedInPlace + 1) := by
  subst hd
  obtain ⟨held, rfl, -⟩ := own d rfl
  obtain ⟨sole, none, u', run'⟩ := movable
  cases swaps with
  | kept given encloses => simp [outside _ given] at encloses
  | found _ hit => exact absurd (Store.offers_of_hit hit) none
  | @moved b x u own' _ _ hx sole run =>
    cases own'
    obtain ⟨a, storage, t, newBlock, log, rfl, moved⟩ := h.resize_moved held hx sole run
    obtain rfl := moved rfl
    have record := Store.get?_moved W.store d x a storage t (·.addAllocation newBlock) log hx
    refine ⟨rfl, ⟨x.rebound a storage, record, rfl, rfl, sole⟩, ?_⟩
    rw [Store.moved_count, Store.answersOf_moved hs]
    cases newBlock <;> rfl
  | refused own' _ _ _ _ run =>
    cases own'
    cases run.symm.trans run'
  | missed _ _ shared => exact absurd sole (shared d rfl)

/-- If a buffer with a single handle cannot be moved, the refusal is the answer, and nothing is
counted. -/
theorem refused_of_unmovable (h : W.Sound) (hs : W.store.caches.get? c = some z)
    (swaps : W.Swaps c old i area outcome v) (d : Handle) (hd : old = some d)
    (outside : W.store.Outside old area) (sole : W.store.referencesOf d.record = 1)
    (none : ¬ W.store.Offers c i.key area) (unmovable : ¬ W.store.Movable c d i area) :
    ∃ e u, W.store.resize c d area false = .ok (.error e, u) ∧ outcome = .error e ∧
      v.answersOf c = some (z.stats.hits, z.stats.misses, z.stats.movedInPlace) := by
  subst hd
  obtain ⟨held, rfl, -⟩ := own d rfl
  cases swaps with
  | kept given encloses => simp [outside _ given] at encloses
  | found _ hit => exact absurd (Store.offers_of_hit hit) none
  | moved own' _ _ _ _ run =>
    cases own'
    exact absurd ⟨sole, none, _, run⟩ unmovable
  | @refused b x u v e own' _ _ hx sole run left =>
    cases own'
    refine ⟨e, u, run, rfl, ?_⟩
    obtain ⟨a, storage, t, newBlock, log, rfl, -⟩ := h.resize_moved held hx sole run
    rw [left.answersOf d.cache, Store.answersOf_moved hs]
    cases newBlock <;> rfl
  | missed _ _ shared => exact absurd sole (shared d rfl)

end Old

end Swaps

/-! ## 5. Worlds after an exchange -/

/-- A buffer that is out of use is in no list. -/
theorem Sound.unlisted_of_retired (h : W.Sound) {r : RecordId} (retired : W.store.Retired c z r)
    (d : CacheId) (k : ImageKey) : r ∉ W.store.listOf d k := by
  intro listed
  obtain ⟨x, hx, -, -, image, -⟩ := h.exists_listed listed
  unfold Store.Retired at retired
  split at retired
  · obtain ⟨⟨y, hy, idle⟩, -⟩ := retired
    obtain rfl := Option.some.inj (hx.symm.trans hy)
    simp [Record.isIdle, image] at idle
  · simp [hx] at retired

section Old

variable (h : W.Sound) (hs : W.store.caches.get? c = some z)
  (own : ∀ b, old = some b → b ∈ W.handles ∧ b.cache = c ∧ b.image = i.key)

include h hs own

theorem Sound.exchange_swaps (area : Rect) :
    ∃ outcome v, W.store.exchange c old i area = .ok (outcome, v) ∧
      W.Swaps c old i area outcome v := by
  cases old with
  | none => exact h.exchangeNone_swaps hs i area
  | some b =>
    obtain ⟨held, rfl, image⟩ := own b rfl
    exact h.exchangeSome_swaps hs held image area

theorem Sound.exchange_sound (run : W.store.exchange c old i area = .ok (outcome, v)) :
    ∃ H, ({ W with store := v, handles := World.given outcome + H } : World).Sound := by
  obtain ⟨H, handles⟩ : ∃ H, W.handles = old.toList + H := by
    cases old with
    | none => exact ⟨W.handles, by simp⟩
    | some b =>
      obtain ⟨H, others⟩ := Multiset.exists_cons_of_mem (own b rfl).1
      exact ⟨H, by simpa using others⟩
  have owned : c ∈ W.shares := h.alive_iff.1 (by simp [hs])
  obtain ⟨V, moves, rfl, -⟩ := (exchange_does h any_quiet owned handles (allowsTaking_any _ _)
    fun _ _ _ _ _ => ⟨trivial, trivial⟩).reaches run
  exact ⟨H, h.reaches moves⟩

/-- What is given is a handle of the cache on a buffer of the image that encloses the area. -/
theorem Sound.exchange_given (run : W.store.exchange c old i area = .ok (.ok b, v))
    (swaps : W.Swaps c old i area (.ok b) v) : b.cache = c ∧ b.image = i.key ∧
      ∃ x, v.records.get? b.record = some x ∧ x.origin = c ∧ x.area.encloses area = true := by
  obtain ⟨image, x, hx, -, encloses, -⟩ : W.store.Gives i area b v := by
    cases old with
    | none => exact h.exchangeNone_gives hs run
    | some d =>
      obtain ⟨held, cache, image⟩ := own d rfl
      exact h.exchangeSome_gives held cache image hs run
  obtain ⟨H, sound⟩ := h.exchange_sound hs own run
  have cache := swaps.cache_eq own rfl
  obtain ⟨origin, -⟩ := (sound.at_record hx).holders b (by simp) rfl
  exact ⟨cache, image, x, hx, by rw [← origin, cache], encloses⟩

end Old

end World

/-- What holds of an exchange of `old`, if there is one, through the cache `c` with the state `z`,
if it is answered with `outcome` and leaves the store `v`. -/
structure Store.Exchanged (w : Store) (c : CacheId) (z : Cache) (old : Option Handle) (i : Image)
    (area : Rect) (outcome : Except Refusal Handle) (v : Store) : Prop where
  /-- What is given is a handle of the cache on a buffer of the image that encloses the area. -/
  given : ∀ b, outcome = .ok b → b.cache = c ∧ b.image = i.key ∧
    ∃ x, v.records.get? b.record = some x ∧ x.origin = c ∧ x.area.encloses area = true
  /-- It is on the old buffer exactly if that encloses the area or can be moved to it. -/
  same : ∀ d, old = some d → ((∃ b, outcome = .ok b ∧ b.record = d.record) ↔
    (w.areaOf d.record).encloses area = true ∨ w.Movable c d i area)
  /-- If the old buffer encloses the area, its handle is given, and nothing is changed. -/
  kept : ∀ d, old = some d → (w.areaOf d.record).encloses area = true →
    outcome = .ok d ∧ v = w
  /-- If it does not but can be moved, its handle is given once it was moved, and that is
  counted. -/
  moved : ∀ d, old = some d → w.Outside old area → w.Movable c d i area →
    outcome = .ok d ∧
    (∃ y, v.records.get? d.record = some y ∧ y.area = area ∧ y.published = false ∧
      y.references = 1) ∧
    v.answersOf c = some (z.stats.hits, z.stats.misses, z.stats.movedInPlace + 1)
  /-- If it has a single handle and cannot be moved, that is refused, and nothing is counted. -/
  refused : ∀ d, old = some d → w.Outside old area → w.referencesOf d.record = 1 →
    ¬ w.Offers c i.key area → ¬ w.Movable c d i area →
    ∃ e u, w.resize c d area false = .ok (.error e, u) ∧ outcome = .error e ∧
      v.answersOf c = some (z.stats.hits, z.stats.misses, z.stats.movedInPlace)
  /-- If a published buffer encloses the area and the old one does not, a hit is counted. -/
  hit : w.Outside old area → w.Offers c i.key area →
    v.answersOf c = some (z.stats.hits + 1, z.stats.misses, z.stats.movedInPlace)
  /-- If none encloses the area and there is no old one or it has several handles, a miss is
  counted. -/
  missed : w.Outside old area → ¬ w.Offers c i.key area →
    (∀ d, old = some d → w.referencesOf d.record ≠ 1) →
    v.answersOf c = some (z.stats.hits, z.stats.misses + 1, z.stats.movedInPlace)
  /-- Unless what is given is on the old buffer, its handle is given up: if there are others they
  see one reference less, and no other change. -/
  shared : ∀ d x, old = some d → (∀ b, outcome = .ok b → b.record ≠ d.record) →
    w.records.get? d.record = some x → 1 < x.references →
    v.records.get? d.record = some { x with references := x.references - 1 }
  /-- If there are none, the old buffer is in no list any more, and it is in the reserve or gone. -/
  last : ∀ d x, old = some d → (∀ b, outcome = .ok b → b.record ≠ d.record) →
    w.records.get? d.record = some x → x.references = 1 →
    v.Retired c z d.record ∧ ∀ e k, d.record ∉ v.listOf e k
  /-- Other buffers in use have one reference more if they are given, and else do not change. -/
  others : ∀ j y, w.records.get? j = some y → y.image ≠ none →
    (∀ d, old = some d → d.record ≠ j) → v.records.get? j
      = some { y with references := y.references + (World.given outcome).countP (·.record = j) }
  /-- An error, and a request to an allocator, come only if neither the old buffer nor a published
  one encloses the area. -/
  unasked : ((∃ e, outcome = .error e) ∨ ∃ a, v.requestsOf a ≠ w.requestsOf a) →
    w.Outside old area ∧ ¬ w.Offers c i.key area

variable {c : CacheId} {z : Cache} {i : Image} {area : Rect} {old : Option Handle}

namespace World

variable {W : World} {outcome : Except Refusal Handle} {v : Store} {x : Record}

/-- If the last handle on a buffer is given up, that buffer is in no list, and in the reserve or
gone. -/
theorem Sound.exchange_last (h : W.Sound) (rooted : W.store.Rooted)
    (hs : W.store.caches.get? c = some z)
    (own : ∀ b, old = some b → b ∈ W.handles ∧ b.cache = c ∧ b.image = i.key)
    (run : W.store.exchange c old i area = .ok (outcome, v))
    (swaps : W.Swaps c old i area outcome v) (d : Handle) (hd : old = some d)
    (apart : ∀ b, outcome = .ok b → b.record ≠ d.record)
    (hx : W.store.records.get? d.record = some x) (last : x.references = 1) :
    v.Retired c z d.record ∧ ∀ e k, d.record ∉ v.listOf e k := by
  obtain ⟨held, cache, -⟩ := own d hd
  have origin : x.origin = c := by rw [← cache, ((h.at_record hx).holders d held rfl).1]
  have source : x.allocator = z.allocator := by
    have allocators := (rooted d.record x hx).2.symm.trans (origin ▸ Store.allocatorOf_of_get? hs)
    exact Option.some.inj allocators
  have retired : v.Retired c z d.record := swaps.retired own h hs d hd hx source last apart
  obtain ⟨H, sound⟩ := h.exchange_sound hs own run
  exact ⟨retired, fun e k => sound.unlisted_of_retired retired e k⟩

/-- An exchange through a cache runs through, and keeps what it promises. -/
theorem Sound.exchange_exchanged (h : W.Sound) (rooted : W.store.Rooted)
    (hs : W.store.caches.get? c = some z)
    (own : ∀ b, old = some b → b ∈ W.handles ∧ b.cache = c ∧ b.image = i.key) (area : Rect) :
    ∃ outcome v, W.store.exchange c old i area = .ok (outcome, v) ∧
      W.store.Exchanged c z old i area outcome v := by
  obtain ⟨outcome, v, run, swaps⟩ := h.exchange_swaps hs own area
  refine ⟨outcome, v, run, ?_⟩
  exact
    { given := by
        rintro b rfl
        exact h.exchange_given hs own run swaps
      same := fun d hd => swaps.record_eq_iff own h d hd
      kept := fun d hd encloses => by
        rcases swaps.kept_or_outside with ⟨b, hb, -, rfl, rfl⟩ | outside
        · cases hb.symm.trans hd
          exact ⟨rfl, rfl⟩
        · simp [outside d hd] at encloses
      moved := fun d hd outside movable =>
        swaps.moved_of_movable own h hs d hd outside movable
      refused := fun d hd outside sole none unmovable =>
        swaps.refused_of_unmovable own h hs d hd outside sole none unmovable
      hit := fun outside offers => swaps.answersOf_of_offers hs outside offers
      missed := fun outside none shared => swaps.answersOf_of_misses hs outside none shared
      shared := fun d x hd apart hx more => swaps.get?_of_shared own h d hd hx more apart
      last := fun d x hd apart hx last =>
        h.exchange_last rooted hs own run swaps d hd apart hx last
      others := fun j y hy used other => swaps.get?_of_ne own h hs hy used other
      unasked := fun asked => swaps.unasked asked }

end World

namespace Session

variable {s : Session}

/-- In every session that acts lead to, an exchange through a cache runs through, with no handle or
with one of the cache and the image, and what it gives, gives up and counts is as it should be. -/
theorem Reachable.exchange_contract (h : s.Reachable) (hs : s.store.caches.get? c = some z)
    (old : Option Handle) (i : Image)
    (own : ∀ b, old = some b → b ∈ s.handles ∧ b.cache = c ∧ b.image = i.key) (area : Rect) :
    ∃ outcome v, s.store.exchange c old i area = .ok (outcome, v) ∧
      s.store.Exchanged c z old i area outcome v := by
  obtain ⟨out, sound⟩ := h.sound
  exact sound.world.exchange_exchanged h.rooted hs own area

/-- A run after which a larger buffer is published beside the one of the short run. -/
def offeringActs : List Act :=
  sampleActs ++ [.acquire "cache" "image" ⟨0, 0, 4, 4⟩ "large", .publish "cache" "large"]

/-- The session after that run. -/
def offering : Session := (start (.fresh none)).run offeringActs

/-- The handle on the small buffer is exchanged for one on the larger, and a hit is counted. The
small buffer is in no list any more. -/
theorem exchange_contract_sample :
    offering.Reachable ∧ ∃ v,
      offering.store.exchange 1 (some ⟨0, 1, .explicit 1⟩) ⟨.explicit 1, 1⟩ ⟨0, 0, 3, 3⟩
        = .ok (.ok ⟨1, 1, .explicit 1⟩, v) ∧
      v.answersOf 1 = some (1, 0, 0) ∧ v.shelf 1 = [0] ∧
      (∃ y, v.records.get? 1 = some y ∧ y.references = 2) ∧ ∀ e k, 0 ∉ v.listOf e k := by
  have reachable : offering.Reachable := ⟨_, offeringActs, .fresh none, rfl⟩
  obtain ⟨outcome, v, run, exchanged⟩ := reachable.exchange_contract (c := 1) rfl
    (some ⟨0, 1, .explicit 1⟩) ⟨.explicit 1, 1⟩ (by rintro b ⟨⟩; exact ⟨by decide, rfl, rfl⟩)
    ⟨0, 0, 3, 3⟩
  have answer : ∃ v, offering.store.exchange 1 (some ⟨0, 1, .explicit 1⟩) ⟨.explicit 1, 1⟩
      ⟨0, 0, 3, 3⟩ = .ok (.ok ⟨1, 1, .explicit 1⟩, v) := ⟨_, rfl⟩
  obtain ⟨v', answer⟩ := answer
  obtain ⟨rfl, rfl⟩ := Prod.mk.inj (Except.ok.inj (run.symm.trans answer))
  have outside : offering.store.Outside (some ⟨0, 1, .explicit 1⟩) ⟨0, 0, 3, 3⟩ := by
    rintro b ⟨⟩
    rfl
  have offers : offering.store.Offers 1 (.explicit 1) ⟨0, 0, 3, 3⟩ :=
    Store.offers_of_hit (r := 1) rfl
  have apart : ∀ b : Handle, (.ok ⟨1, 1, .explicit 1⟩ : Except Refusal Handle) = .ok b →
      b.record ≠ 0 := by
    rintro b ⟨⟩
    decide
  obtain ⟨retired, unlisted⟩ := exchanged.last _ _ rfl apart rfl rfl
  refine ⟨reachable, v, run, exchanged.hit outside offers, ?_, ?_, unlisted⟩
  · exact retired.2
  · exact ⟨_, exchanged.others 1 _ rfl (by decide) (by rintro d ⟨⟩; decide), rfl⟩

end Session

end PixelPool
