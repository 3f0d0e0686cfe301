import PixelPool.Proofs.TwinStores

/-!
Getting, publishing, moving and exchanging buffers on two stores that are twins.

One side may take a buffer from a reserve where the other makes a new one; the renaming relates
these two from then on (`Store.Twins.Gives`). The two sides may differ in what they refuse only if
the heap would have had room for what is refused, so all is said of outcomes that are due
(`Store.Twins.Due`).
-/

namespace PixelPool

variable {heap : Heap} {f : RecordId → RecordId} {r : RecordId} {c : CacheId} {i : Image}
  {area : Rect} {b : Handle}

/-! ## 1. Getting a buffer -/

/-- Nobody can take the buffer into use: it is in use, or it is gone. -/
def Store.Engaged (w : Store) (r : RecordId) : Prop :=
  r < w.records.next ∧ ∀ x, w.records.get? r = some x → x.image ≠ none

namespace Store.Twins

variable {w v : Store} {H : Multiset Handle} {O : Multiset CacheId}

/-- No refusal of storage that an outcome tells of is undue. -/
def Due {α : Type} (heap : Heap) (outcome : Except Refusal α) : Prop :=
  ∀ e, outcome = .error (.allocation e) → e.IsDue heap

/-- Two operations refuse alike or give handles on buffers that look the same, under whatever name,
and leave twins; the handles held before keep their names, and so do the buffers that could not be
taken in the store `u`. -/
def Gives (heap : Heap) (u : Store) (f : RecordId → RecordId) (H : Multiset Handle)
    (O : Multiset CacheId) (a a' : Except Refusal Handle × Store) : Prop :=
  Due heap a.1 → Due heap a'.1 → ∃ f', (∀ b ∈ H, b.rename f' = b.rename f) ∧
    (∀ r, u.Engaged r → f' r = f r) ∧ a'.1 = a.1.map (Handle.rename f') ∧
    Twins heap f' (World.given a.1 + H) O a.2 a'.2

end Store.Twins

namespace Store

variable {w v u : Store} {s : Cache} {x : Record}

/-- What is seen of a buffer that was acquired: neither where it comes from nor its storage. -/
theorem view_acquired {newBlock : Bool} (taken : Taken w c s i r x v)
    (fits : Fits v r x area (.ok newBlock) u) (hs : w.caches.get? c = some s) :
    (u.acquired c i area r (.ok newBlock)).2.view
      = (w.view.touch c (Face.counted .addMade)).put r
          (some ⟨i.key, i.bytesPerPixel, area, 1, false, true⟩) := by
  obtain ⟨image, bytesPerPixel, references, published⟩ := taken.bound
  have seen : x.sight.map (Sight.moved area (.ok newBlock))
      = some ⟨i.key, i.bytesPerPixel, area, 1, false, true⟩ := by
    simp [Record.sight, Sight.moved, image, bytesPerPixel, references, published]
  rw [acquired, view_emit, view_count_id (.addAllocation newBlock), fits.view taken.get?,
    taken.view hs, seen, View.put_put]

/-- What is seen of a buffer that could not be had: that it was counted. -/
theorem view_acquired_error {e : StorageError} (taken : Taken w c s i r x v)
    (fits : Fits v r x area (.error e) u) (hs : w.caches.get? c = some s)
    (unused : w.view.sight r = none) :
    (u.acquired c i area r (.error e)).2.view
      = (w.view.touch c (Face.counted .addMade)).touch c (Face.counted .addFailure) := by
  rw [acquired, view_without, view_emit, view_count .addFailure, fits.view taken.get?,
    taken.view hs, View.put_put, View.touch_put, View.put_put]
  exact View.put_self unused

theorem sight_of_idle (idle : ∀ y, w.records.get? r = some y → y.image = none) :
    w.view.sight r = none := by
  cases hx : w.records.get? r with
  | none => simp [view, hx]
  | some x => simp [view, hx, Record.sight, idle x hx]

theorem Engaged.of_same (engaged : w.Engaged r) (same : v.records = w.records) : v.Engaged r := by
  rwa [Engaged, same]

theorem engaged_of_used (used : w.view.sight r ≠ none) : w.Engaged r := by
  cases hx : w.records.get? r with
  | none => exact absurd (by simp [view, hx]) used
  | some x =>
    refine ⟨Table.lt_next_of_get? hx, fun y hy image => used ?_⟩
    obtain rfl := Option.some.inj (hx.symm.trans hy)
    rw [sight_of_get? hx, Record.sight, image]
    rfl

theorem Taken.not_engaged (taken : Taken w c s i r x v)
    (idle : ∀ y, w.records.get? r = some y → y.image = none) : ¬ w.Engaged r := by
  cases taken with
  | reused top hx => exact fun engaged => engaged.2 _ hx (idle _ hx)
  | made => exact fun engaged => Nat.lt_irrefl _ engaged.1

/-- A buffer that cannot be taken still cannot once a handle was given up, if that is not the last
one or the cache is gone. -/
theorem Parted.engaged (parted : Parted w b x v) (hx : w.records.get? b.record = some x)
    (stays : x.references ≠ 1 ∨ w.caches.get? b.cache = none) (engaged : w.Engaged r) :
    v.Engaged r := by
  refine ⟨parted.next_records ▸ engaged.1, fun y hy => ?_⟩
  by_cases other : r ≠ b.record
  · exact engaged.2 y ((parted.get?_of_ne other).symm.trans hy)
  obtain rfl := not_not.1 other
  cases parted with
  | more =>
    obtain rfl : { x with references := x.references - 1 } = y := by
      simpa [Table.get?_update, hx] using hy
    exact engaged.2 x hx
  | kept last withdrawn hs =>
    have dead := stays.resolve_left (not_not.2 last)
    cases withdrawn with
    | undone => cases dead.symm.trans hs
    | done _ _ hz => cases dead.symm.trans hz
  | freed => simp [crowdedOut, get?_records_without] at hy
  | outlived => simp [get?_records_without] at hy

/-- How an acquisition ends depends on the image and the area only, if its refusal is due. -/
theorem Taken.map_outcome {outcome : Except StorageError Bool} (taken : Taken w c s i r x v)
    (fits : Fits v r x area outcome u) (hs : w.caches.get? c = some s)
    (unlimited : w.view.ground.Unlimited heap)
    (covered : ∀ j y, w.records.get? j = some y → y.Covered w.host.heap)
    (due : Twins.Due heap (asRefusal (u.acquired c i area r outcome).1)) :
    outcome.map (fun _ => ()) = fitting heap area i.bytesPerPixel := by
  have same : w.host.heap = heap := unlimited.on
  have ground : v.view.ground = w.view.ground := by
    rw [taken.view hs]
    rfl
  -- The storage of a buffer that is taken is a block that the heap can give.
  have granted : ∀ b, x.storage = some b → heap.Grants b.size := by
    cases taken with
    | reused top hx => exact same ▸ (covered _ _ hx).granted
    | made => exact nofun
  rw [← taken.bound.2.1]
  refine fits.map_outcome (ground ▸ unlimited) granted ?_
  rintro e rfl
  exact due e rfl

end Store

namespace Store.Twins

variable {w v u : Store} {H : Multiset Handle} {O : Multiset CacheId}

theorem acquire (T : Twins heap f H O w v) (owned : c ∈ O) (i : Image) (area : Rect) :
    ∃ a a', w.acquire c i area = .ok a ∧ v.acquire c i area = .ok a' ∧
      Gives heap w f H O (asRefusal a.1, a.2) (asRefusal a'.1, a'.2) := by
  obtain ⟨s, s', hs, hs', -⟩ := T.exists_cache owned
  obtain ⟨r, x, w₁, outcome, u, taken, fits, run⟩ := T.left.sound.acquire_eq hs i area
  obtain ⟨r', y, v₁, outcome', u', taken', fits', run'⟩ := T.right.sound.acquire_eq hs' i area
  refine ⟨_, _, run, run', fun due due' => ?_⟩
  obtain ⟨_, left, rfl⟩ := T.left.leads run (World.acquire_does T.left.sound World.any_quiet owned
    (World.allowsTaking_any _ _))
  obtain ⟨_, right, rfl⟩ := T.right.leads run' (World.acquire_does T.right.sound World.any_quiet
    owned (World.allowsTaking_any _ _))
  have idle := (T.left.sound.of_taken hs taken).1
  have unused := sight_of_idle idle
  have unused' := sight_of_idle (T.right.sound.of_taken hs' taken').1
  have ends := taken.map_outcome fits hs T.views.unlimited T.left.covered due
  have ends' := taken'.map_outcome fits' hs' T.views.unlimited_right T.right.covered due'
  have same := ends'.trans ends.symm
  cases outcome with
  | error e =>
    cases outcome' with
    | ok => cases same
    | error e' =>
      obtain rfl := Except.error.inj same
      refine ⟨f, fun _ _ => rfl, fun _ _ => rfl, rfl, by simpa using left, ?_, ?_⟩
      · rw [map_given_add fun _ _ => rfl]
        exact right
      · dsimp only
        rw [view_acquired_error taken fits hs unused,
          view_acquired_error taken' fits' hs' unused']
        exact (T.views.counted c _).counted c _
  | ok newBlock =>
    cases outcome' with
    | error => cases same
    | ok newBlock' =>
      have kept : ∀ b ∈ H, b.rename (Function.update f r r') = b.rename f := by
        intro b held
        have other : b.record ≠ r := fun same => T.used_of_held held (same ▸ unused)
        rw [Handle.rename, Function.update_of_ne other, Handle.rename]
      have gives : (⟨r', c, i.key⟩ : Handle)
          = Handle.rename (Function.update f r r') ⟨r, c, i.key⟩ := by
        rw [Handle.rename, Function.update_self]
      have agree : ∀ j, w.Engaged j → Function.update f r r' j = f j := fun j engaged =>
        Function.update_of_ne (fun same => taken.not_engaged idle (by rwa [← same])) ..
      refine ⟨Function.update f r r', kept, agree, congrArg Except.ok gives, by simpa using left,
        ?_, ?_⟩
      · rw [map_given_add kept]
        dsimp only [acquired, asRefusal, Except.map]
        rw [← gives]
        exact right
      · dsimp only
        rw [view_acquired taken fits hs, view_acquired taken' fits' hs']
        exact (T.views.put_new T.left.sound.proper unused unused' _).counted c _

theorem Gives.found (T : Twins heap f (b ::ₘ H) O w v) :
    Gives heap u f H O (.ok b, w) (.ok (b.rename f), v) :=
  fun _ _ => ⟨f, fun _ _ => rfl, fun _ _ => rfl, rfl, by simpa using T⟩

theorem Gives.refused (T : Twins heap f H O w v) (e : Refusal) :
    Gives heap u f H O (.error e, w) (.error e, v) :=
  fun _ _ => ⟨f, fun _ _ => rfl, fun _ _ => rfl, rfl, by simpa using T⟩

/-- What cannot be taken later than `u` cannot be taken in `u` either. -/
theorem Gives.of_engaged {a a' : Except Refusal Handle × Store} (gives : Gives heap w f H O a a')
    (engaged : ∀ r, u.Engaged r → w.Engaged r) : Gives heap u f H O a a' := by
  intro due due'
  obtain ⟨f', kept, agree, rest⟩ := gives due due'
  exact ⟨f', kept, fun r hr => agree r (engaged r hr), rest⟩

theorem request (T : Twins heap f H O w v) (owned : c ∈ O) (i : Image) (area : Rect) :
    ∃ a a', w.request c i area = .ok a ∧ v.request c i area = .ok a' ∧
      Gives heap w f H O (asRefusal a.1, a.2) (asRefusal a'.1, a'.2) := by
  rcases T.lookup owned i area with ⟨run, run'⟩ | ⟨b, w', v', run, run', T'⟩
  · obtain ⟨a, a', acquired, acquired', gives⟩ := (T.count c .addMiss).acquire owned i area
    refine ⟨a, a', ?_, ?_, gives⟩
    · rwa [Store.request, run, Fault.ok_bind]
    · rwa [Store.request, run', Fault.ok_bind]
  · refine ⟨(.ok b, _), (.ok (b.rename f), _), ?_, ?_, .found ((T'.count c .addHit).emit
      (.hit c i.key area (w'.referencesOf b.record))
      (.hit c i.key area (v'.referencesOf (f b.record))))⟩
    · rw [Store.request, run]
      rfl
    · rw [Store.request, run']
      rfl

theorem acquireMissed (T : Twins heap f H O w v) (owned : c ∈ O) (i : Image) (area : Rect) :
    ∃ a a', w.acquireMissed c i area = .ok a ∧ v.acquireMissed c i area = .ok a' ∧
      Gives heap w f H O a a' := by
  obtain ⟨a, a', run, run', gives⟩ := (T.count c .addMiss).acquire owned i area
  refine ⟨_, _, ?_, ?_, gives⟩
  · rw [Store.acquireMissed, run]
    rfl
  · rw [Store.acquireMissed, run']
    rfl

theorem exchangeNone (T : Twins heap f H O w v) (owned : c ∈ O) (i : Image) (area : Rect) :
    ∃ a a', w.exchange c none i area = .ok a ∧ v.exchange c none i area = .ok a' ∧
      Gives heap w f H O a a' := by
  rcases T.lookup owned i area with ⟨run, run'⟩ | ⟨b, w', v', run, run', T'⟩
  · obtain ⟨a, a', missed, missed', gives⟩ := T.acquireMissed owned i area
    refine ⟨a, a', ?_, ?_, gives⟩
    · rwa [Store.exchange, run, Fault.ok_bind]
    · rwa [Store.exchange, run', Fault.ok_bind]
  · refine ⟨_, _, ?_, ?_, .found (T'.count c .addHit)⟩
    · rw [Store.exchange, run]
      rfl
    · rw [Store.exchange, run']
      rfl

/-! ## 2. Publishing and moving -/

/-- Two operations end alike and leave twins. -/
def Settles (heap : Heap) (f : RecordId → RecordId) (H : Multiset Handle) (O : Multiset CacheId)
    (a a' : Except Refusal Unit × Store) : Prop :=
  Due heap a.1 → Due heap a'.1 → a'.1 = a.1 ∧ Twins heap f H O a.2 a'.2

theorem Settles.of_twins (T : Twins heap f H O w v) (outcome : Except Refusal Unit) :
    Settles heap f H O (outcome, w) (outcome, v) := fun _ _ => ⟨rfl, T⟩

theorem publish (T : Twins heap f H O w v) (held : b ∈ H) (owned : c ∈ O) :
    ∃ a a', w.publish c b = .ok a ∧ v.publish c (b.rename f) = .ok a' ∧
      Settles heap f H O a a' := by
  by_cases foreign : b.cache ≠ c
  · exact ⟨(.error (.violation .foreignCache), w), (.error (.violation .foreignCache), v),
      by simp [Store.publish, foreign], by simp [Store.publish, foreign], .of_twins T _⟩
  obtain rfl := not_not.1 foreign
  obtain ⟨x, y, hx, hy, -, like⟩ := T.exists_like (T.used_of_held held)
  obtain ⟨s, s', hs, hs', -⟩ := T.exists_cache owned
  rcases T.left.sound.publish_eq hx hs with ⟨done, run⟩ | ⟨undone, run⟩
  · exact ⟨_, _, run,
      publish_of_done (b := b.rename f) hy (like.published.trans done), .of_twins T _⟩
  rcases T.right.sound.publish_eq (b := b.rename f) hy hs' with ⟨done', -⟩ | ⟨-, run'⟩
  · simp [like.published, undone] at done'
  obtain ⟨_, left, rfl, -⟩ := T.left.leads run
    (World.publish_does T.left.sound trivial held owned)
  obtain ⟨_, right, rfl, -⟩ := T.right.leads run'
    (World.publish_does T.right.sound trivial (held_rename held) owned)
  refine ⟨_, _, run, run', .of_twins ⟨left, right, ?_⟩ _⟩
  have seen : (x.markPublished b.cache).Like (y.markPublished b.cache) :=
    ⟨like.image, like.bytesPerPixel, like.area, like.references, rfl, like.stored⟩
  rw [view_enlisted hx hs, view_enlisted (b := b.rename f) hy hs']
  dsimp only [Handle.rename]
  rw [seen.sight]
  exact (T.views.enlisted ..).put_known (T.used_of_held held) _

theorem unpublish (T : Twins heap f H O w v) (held : b ∈ H) (c : CacheId) :
    ∃ a a', w.unpublish c b = .ok a ∧ v.unpublish c (b.rename f) = .ok a' ∧
      Settles heap f H O a a' := by
  by_cases foreign : b.cache ≠ c
  · exact ⟨(.error (.violation .foreignCache), w), (.error (.violation .foreignCache), v),
      by simp [Store.unpublish, foreign], by simp [Store.unpublish, foreign], .of_twins T _⟩
  obtain rfl := not_not.1 foreign
  obtain ⟨x, y, hx, hy, used, like⟩ := T.exists_like (T.used_of_held held)
  obtain ⟨x', w', withdrawn, run⟩ := T.left.sound.withdraw_own held hx
  obtain ⟨y', v', withdrawn', run'⟩ := T.right.sound.withdraw_own (held_rename held) hy
  have unpublished : ∀ {u u' : Store} {d : Handle}, u.withdraw d.cache d.record = .ok u' →
      u.unpublish d.cache d = .ok (.ok (), u') := fun run => by simp [Store.unpublish, run]
  have done := unpublished run
  have done' := unpublished (d := b.rename f) run'
  obtain ⟨_, left, rfl, -⟩ := T.left.leads done
    (World.unpublish_does T.left.sound trivial held)
  obtain ⟨_, right, rfl, -⟩ := T.right.leads done'
    (World.unpublish_does T.right.sound trivial (held_rename held))
  exact ⟨_, _, done, done', .of_twins ⟨left, right,
    (withdrawn.twin T.views T.left.sound.proper withdrawn' hx hy used like).1⟩ _⟩

end Store.Twins

namespace Store

variable {w v u : Store} {x y : Record}

/-- The pixels of a buffer are viewed while it is asked to move to an area that has a size. -/
def Viewed (viewHeld : Bool) (x : Record) (area : Rect) : Prop :=
  (viewHeld && x.pixels.isSome) = true ∧ (byteSize? area x.bytesPerPixel).isSome = true

theorem resize_of_viewed {viewHeld : Bool} (hx : w.records.get? b.record = some x)
    (sole : x.references = 1) (run : w.withdraw b.cache b.record = .ok v)
    (viewed : Viewed viewHeld x area) :
    w.resize b.cache b area viewHeld = .ok (.error (.violation .viewHeld), v) := by
  simp only [resize, ne_eq, not_true_eq_false, if_false, record_of_get? hx, Fault.ok_bind, sole,
    run]
  exact if_pos viewed

/-- A view of a buffer's pixels that is not in the way might as well not be there. -/
theorem resize_of_unviewed {viewHeld : Bool} (hx : w.records.get? b.record = some x)
    (unviewed : ¬ Viewed viewHeld x area) :
    w.resize b.cache b area viewHeld = w.resize b.cache b area false := by
  rw [Viewed] at unviewed
  simp only [resize, record_of_get? hx, Fault.ok_bind, Bool.false_and, Bool.false_eq_true,
    false_and, if_false, if_neg unviewed]

/-- How moving a withdrawn buffer ends depends on its pixels and the area only, if its refusal is
due. -/
theorem Withdrawn.map_outcome {outcome : Except StorageError Bool} {x' : Record}
    (withdrawn : Withdrawn w c r x x' v) (fits : Fits v r x' area outcome u)
    (unlimited : v.view.ground.Unlimited heap)
    (granted : ∀ b, x.storage = some b → heap.Grants b.size)
    (due : Twins.Due heap (u.resized c b area outcome).1) :
    outcome.map (fun _ => ()) = fitting heap area x'.bytesPerPixel := by
  obtain ⟨-, -, -, -, -, -, storage⟩ := withdrawn.same
  refine fits.map_outcome unlimited (storage ▸ granted) ?_
  rintro e rfl
  exact due e rfl

theorem view_resized (u : Store) (c : CacheId) (b : Handle) (area : Rect)
    (outcome : Except StorageError Bool) : (u.resized c b area outcome).2.view = u.view := by
  cases outcome with
  | ok newBlock => exact view_count_id (.addAllocation newBlock) u c
  | error e => rfl

theorem resized_eq {outcome outcome' : Except StorageError Bool} (u u' : Store) (b b' : Handle)
    (same : outcome'.map (fun _ => ()) = outcome.map fun _ => ()) :
    (u'.resized c b' area outcome').1 = (u.resized c b area outcome).1 := by
  cases outcome with
  | ok => cases outcome' with
    | ok => rfl
    | error => cases same
  | error e => cases outcome' with
    | ok => cases same
    | error e' => rw [resized, resized, Except.error.inj same]

end Store

namespace Store.Twins

variable {w v : Store} {H : Multiset Handle} {O : Multiset CacheId}

/-- A buffer with one handle is moved to an area on both sides, or cannot be on either. -/
theorem resizeSole (T : Twins heap f H O w v) (held : b ∈ H) {x : Record}
    (hx : w.records.get? b.record = some x) (sole : x.references = 1) (area : Rect) :
    ∃ a a', w.resize b.cache b area false = .ok a ∧
      v.resize b.cache (b.rename f) area false = .ok a' ∧ Settles heap f H O a a' := by
  obtain ⟨_, y, hx', hy, used, like⟩ := T.exists_like (T.used_of_held held)
  obtain rfl := Option.some.inj (hx.symm.trans hx')
  have sole' : y.references = 1 := like.references.trans sole
  obtain ⟨x', w₁, outcome, u, withdrawn, fits, run⟩ := T.left.sound.resize_eq held hx sole area
  obtain ⟨y', v₁, outcome', u', withdrawn', fits', run'⟩ :=
    T.right.sound.resize_eq (held_rename held) hy sole' area
  obtain ⟨_, left, rfl, -⟩ := T.left.leads run (World.resize_does T.left.sound World.any_quiet held
    (fun _ _ _ => ⟨trivial, trivial⟩) false)
  obtain ⟨_, right, rfl, -⟩ := T.right.leads run' (World.resize_does T.right.sound World.any_quiet
    (held_rename held) (fun _ _ _ => ⟨trivial, trivial⟩) false)
  obtain ⟨T₁, like₁⟩ := withdrawn.twin T.views T.left.sound.proper withdrawn' hx hy used like
  refine ⟨_, _, run, run', fun due due' => ?_⟩
  have heap_eq : w.host.heap = heap := T.views.unlimited.on
  have heap_eq' : v.host.heap = heap := T.views.unlimited_right.on
  have ends := withdrawn.map_outcome fits T₁.unlimited
    (heap_eq ▸ (T.left.covered _ _ hx).granted) due
  have ends' := withdrawn'.map_outcome fits' T₁.unlimited_right
    (heap_eq' ▸ (T.right.covered _ _ hy).granted) due'
  rw [like₁.bytesPerPixel, ← ends] at ends'
  refine ⟨resized_eq u u' b (b.rename f) ends', left, right, ?_⟩
  rw [view_resized, view_resized]
  have used₁ : x'.sight ≠ none := by
    obtain ⟨-, -, image, -⟩ := withdrawn.same
    simpa [Record.sight, image] using used
  exact fits.twin T₁ fits' (withdrawn.get? hx) (withdrawn'.get? hy) used₁ like₁ ends'

theorem resize (T : Twins heap f H O w v) (held : b ∈ H) (c : CacheId) (area : Rect)
    (viewHeld : Bool) :
    ∃ a a', w.resize c b area viewHeld = .ok a ∧ v.resize c (b.rename f) area viewHeld = .ok a' ∧
      Settles heap f H O a a' := by
  by_cases foreign : b.cache ≠ c
  · exact ⟨(.error (.violation .foreignCache), w), (.error (.violation .foreignCache), v),
      by simp [Store.resize, foreign], by simp [Store.resize, foreign], .of_twins T _⟩
  obtain rfl := not_not.1 foreign
  obtain ⟨x, y, hx, hy, used, like⟩ := T.exists_like (T.used_of_held held)
  by_cases shared : x.references ≠ 1
  · have shared' : y.references ≠ 1 := like.references ▸ shared
    exact ⟨(.error (.violation .sharedResize), w), (.error (.violation .sharedResize), v),
      by simp [Store.resize, record_of_get? hx, shared],
      by simp [Store.resize, record_of_get? hy, shared'], .of_twins T _⟩
  have sole := not_not.1 shared
  have viewed_iff : Viewed viewHeld y area ↔ Viewed viewHeld x area := by
    rw [Viewed, Viewed, T.pixels_eq hx hy like, like.bytesPerPixel]
  by_cases viewed : Viewed viewHeld x area
  · obtain ⟨x', w', withdrawn, run⟩ := T.left.sound.withdraw_own held hx
    obtain ⟨y', v', withdrawn', run'⟩ := T.right.sound.withdraw_own (held_rename held) hy
    have done := resize_of_viewed hx sole run viewed
    have done' := resize_of_viewed (b := b.rename f) hy (like.references.trans sole) run'
      (viewed_iff.2 viewed)
    obtain ⟨_, left, rfl, -⟩ := T.left.leads done (World.resize_does T.left.sound World.any_quiet
      held (fun _ _ _ => ⟨trivial, trivial⟩) viewHeld)
    obtain ⟨_, right, rfl, -⟩ := T.right.leads done' (World.resize_does T.right.sound
      World.any_quiet (held_rename held) (fun _ _ _ => ⟨trivial, trivial⟩) viewHeld)
    exact ⟨_, _, done, done', .of_twins ⟨left, right,
      (withdrawn.twin T.views T.left.sound.proper withdrawn' hx hy used like).1⟩ _⟩
  · have unviewed := resize_of_unviewed hx viewed
    have unviewed' := resize_of_unviewed (b := b.rename f) hy (mt viewed_iff.1 viewed)
    rw [Handle.rename_cache] at unviewed'
    rw [unviewed, unviewed']
    exact T.resizeSole held hx sole area

theorem release (T : Twins heap f (b ::ₘ H) O w v) (c : CacheId) :
    ∃ a a', w.release c b = .ok a ∧ v.release c (b.rename f) = .ok a' ∧
      Settles heap f H O a a' := by
  obtain ⟨w', v', run, run', T'⟩ := T.dropHandle
  refine ⟨_, _, ?_, ?_, .of_twins T' (if b.cache ≠ c then .error (.violation .foreignCache)
    else .ok ())⟩
  · rw [Store.release, run]
    rfl
  · rw [Store.release, run']
    rfl

/-! ## 3. Exchanging -/

/-- How an exchange ends after its buffer was moved, or could not be. -/
theorem afterMove_cases {a : Except Refusal Unit × Store} {z : Except Refusal Handle × Store}
    (run : Store.afterMove b a = .ok z) :
    (a.1 = .ok () ∧ z = (.ok b, a.2.count b.cache .addMoved)) ∨
    ∃ e u, a.1 = .error e ∧ a.2.dropHandle b = .ok u ∧ z = (.error e, u) := by
  obtain ⟨outcome | ⟨⟩, u⟩ := a
  · simp only [Store.afterMove] at run
    cases dropped : u.dropHandle b with
    | error fault => simp [dropped] at run
    | ok u' =>
      rw [dropped] at run
      exact .inr ⟨_, u', rfl, rfl, (Except.ok.inj run).symm⟩
  · exact .inl ⟨rfl, (Except.ok.inj run).symm⟩

theorem due_of_afterMove {a : Except Refusal Unit × Store} {z : Except Refusal Handle × Store}
    (run : Store.afterMove b a = .ok z) (due : Due heap z.1) : Due heap a.1 := by
  intro e he
  obtain ⟨done, -⟩ | ⟨e', u, failed, -, rfl⟩ := afterMove_cases run
  · simp [done] at he
  · rw [failed] at he
    exact due e (Except.error.inj he ▸ rfl)

/-- A buffer that was moved on both sides is given on both sides, and one that could not be is given
up on both. -/
theorem Settles.afterMove {a a' : Except Refusal Unit × Store}
    {z z' : Except Refusal Handle × Store} (settles : Settles heap f (b ::ₘ H) O a a')
    (run : Store.afterMove b a = .ok z) (run' : Store.afterMove (b.rename f) a' = .ok z') :
    Gives heap w f H O z z' := by
  intro due due'
  obtain ⟨same, T⟩ := settles (due_of_afterMove run due) (due_of_afterMove run' due')
  obtain ⟨done, rfl⟩ | ⟨e, u, failed, dropped, rfl⟩ := afterMove_cases run
  · obtain ⟨-, rfl⟩ | ⟨e', u', failed', -⟩ := afterMove_cases run'
    · exact Gives.found (T.count b.cache .addMoved) due due'
    · simp [same, done] at failed'
  · obtain ⟨done', -⟩ | ⟨e', u', failed', dropped', rfl⟩ := afterMove_cases run'
    · simp [same, failed] at done'
    · obtain rfl : e = e' := by simpa [same, failed] using failed'
      obtain ⟨w', v', run, run', T'⟩ := T.dropHandle
      obtain rfl := Except.ok.inj (run.symm.trans dropped)
      obtain rfl := Except.ok.inj (run'.symm.trans dropped')
      exact Gives.refused T' e due due'

theorem replace (T : Twins heap f (b ::ₘ H) O w v) (owned : b.cache ∈ O) (i : Image) (area : Rect)
    {a a' : Except Refusal Handle × Store} (run : w.replace b i area = .ok a)
    (run' : v.replace (b.rename f) i area = .ok a') : Gives heap w f H O a a' := by
  have held : b ∈ b ::ₘ H := Multiset.mem_cons_self b H
  rcases T.lookup owned i area with ⟨miss, miss'⟩ | ⟨d, w₁, v₁, found, found', T₁⟩
  · rw [Store.replace, miss, Fault.ok_bind] at run
    rw [Store.replace, Handle.rename_cache, miss', Fault.ok_bind] at run'
    dsimp only at run run'
    rw [Handle.rename_record, T.referencesOf_eq (T.used_of_held held)] at run'
    by_cases sole : w.referencesOf b.record = 1
    · rw [if_pos sole] at run run'
      obtain ⟨r, r', resized, resized', settles⟩ := T.resize held b.cache area false
      rw [resized, Fault.ok_bind] at run
      rw [resized', Fault.ok_bind] at run'
      exact settles.afterMove run run'
    · rw [if_neg sole] at run run'
      obtain ⟨w₁, v₁, dropped, dropped', T₁⟩ := T.dropHandle
      obtain ⟨z, z', missed, missed', gives⟩ := T₁.acquireMissed owned i area
      rw [dropped, Fault.ok_bind, missed] at run
      rw [dropped', Fault.ok_bind, missed'] at run'
      obtain rfl := Except.ok.inj run
      obtain rfl := Except.ok.inj run'
      -- The other holders keep the buffer in use, so it is not what is acquired.
      obtain ⟨x, hx, -⟩ := T.left.sound.exists_record held
      rw [referencesOf_of_get? hx] at sole
      obtain ⟨u, parted, gone⟩ := T.left.sound.dropHandle_eq held hx
      obtain rfl := Except.ok.inj (gone.symm.trans dropped)
      exact gives.of_engaged fun r => parted.engaged hx (.inl sole)
  · obtain ⟨w₂, v₂, dropped, dropped', T₂⟩ :=
      ((Multiset.cons_swap d b H ▸ T₁).count b.cache .addHit).dropHandle
    rw [Store.replace, found, Fault.ok_bind] at run
    rw [Store.replace, Handle.rename_cache, found', Fault.ok_bind] at run'
    dsimp only [Handle.rename_record] at run run'
    rw [dropped] at run
    rw [dropped'] at run'
    obtain rfl := Except.ok.inj run
    obtain rfl := Except.ok.inj run'
    exact .found T₂

theorem exchangeSome (T : Twins heap f (b ::ₘ H) O w v) (owned : c ∈ O) (i : Image) (area : Rect) :
    ∃ a a', w.exchange c (some b) i area = .ok a ∧
      v.exchange c (some (b.rename f)) i area = .ok a' ∧ Gives heap w f H O a a' := by
  have runs : ∀ {W : World} {d : Handle} {K : Multiset Handle}, W.Sound → W.handles = d ::ₘ K →
      c ∈ W.shares → ∃ a, W.store.exchange c (some d) i area = .ok a := by
    intro W d K sound held owned
    obtain ⟨a, -, run, -⟩ := World.exchangeSome_does (i := i) sound World.any_quiet owned held
      (World.allowsTaking_any _ _) fun _ _ _ => ⟨trivial, trivial⟩
    exact ⟨a, run⟩
  obtain ⟨a, run⟩ := runs T.left.sound rfl owned
  obtain ⟨a', run'⟩ := runs T.right.sound (Multiset.map_cons ..) owned
  refine ⟨a, a', run, run', ?_⟩
  obtain ⟨w', v', dropped, dropped', T'⟩ := T.dropHandle
  dsimp only at run run'
  by_cases foreign : b.cache ≠ c
  · simp only [Store.exchange, if_pos foreign, Handle.rename_cache] at run run'
    rw [dropped] at run
    rw [dropped'] at run'
    obtain rfl := Except.ok.inj run
    obtain rfl := Except.ok.inj run'
    exact .refused T' _
  obtain rfl := not_not.1 foreign
  by_cases other : b.image ≠ i.key
  · simp only [Store.exchange, if_neg foreign, if_pos other, Handle.rename_cache,
      Handle.rename_image] at run run'
    rw [dropped] at run
    rw [dropped'] at run'
    obtain rfl := Except.ok.inj run
    obtain rfl := Except.ok.inj run'
    exact .refused T' _
  have image := not_not.1 other
  rw [exchange_own _ image] at run
  rw [← Handle.rename_cache f b, exchange_own _ (by exact image), Handle.rename_record,
    T.areaOf_eq (T.used_of_held (Multiset.mem_cons_self b H))] at run'
  by_cases encloses : (w.areaOf b.record).encloses area = true
  · rw [if_pos encloses] at run run'
    obtain rfl := Except.ok.inj run
    obtain rfl := Except.ok.inj run'
    exact .found T
  · rw [if_neg encloses] at run run'
    exact T.replace owned i area run run'

theorem exchange {old : Option Handle} (T : Twins heap f (old.toList + H) O w v) (owned : c ∈ O)
    (i : Image) (area : Rect) :
    ∃ a a', w.exchange c old i area = .ok a ∧
      v.exchange c (old.map (Handle.rename f)) i area = .ok a' ∧ Gives heap w f H O a a' := by
  cases old with
  | none => exact exchangeNone (by simpa using T) owned i area
  | some b => exact exchangeSome (by simpa using T) owned i area

end Store.Twins

end PixelPool
