import Mathlib.Logic.Function.Basic
import PixelPool.Proofs.Coverage

/-!
What can be seen of a store without looking at memory.

A `View` shows the buffers in use, each with its area and its flags but not with its bytes, the
caches without their reserves, with the counts that do not tell of memory, and the settings. The
lemmas here say what the changes of a store do to its view: a buffer is put somewhere (`View.put`),
a cache is touched (`View.touch`), or nothing is seen of it.
-/

namespace PixelPool

/-! ## 1. Views -/

/-- What can be seen of a buffer in use. -/
structure Sight where
  image : ImageKey
  bytesPerPixel : Nat
  area : Rect
  references : Nat
  published : Bool
  /-- Whether it has storage, of whatever size. -/
  stored : Bool

/-- What can be seen of a cache. -/
structure Face where
  thread : ThreadId
  allocator : AllocatorId
  owners : Nat
  lists : ImageKey → Option (List RecordId)
  stats : Stats

/-- What can be seen of a store apart from buffers and caches. -/
structure Ground where
  limit : AllocatorId → Option (Option Nat)
  nextAllocator : AllocatorId
  nextCache : CacheId
  environment : Option String
  allocator : Option AllocatorId
  /-- Whether the configuration is fixed, to whatever cap. -/
  configured : Bool
  host : Host
  freshKeys : Nat

/-- The heap has room for a block if it has room for a larger one: it refuses the requests from some
size on, or none. -/
def Heap.Graded (heap : Heap) : Prop := ∀ m n, m ≤ n → heap n = true → heap m = true

theorem Heap.Graded.grants {heap : Heap} (graded : heap.Graded) {m n : Nat} (less : m ≤ n)
    (grants : heap.Grants n) : heap.Grants m :=
  ⟨less.trans grants.1, graded m n less grants.2⟩

/-- Requests are refused for their size alone: no allocator has a limit, and the heap is graded. -/
structure Ground.Unlimited (G : Ground) (heap : Heap) : Prop where
  limits : ∀ a limit, G.limit a = some limit → limit = none
  on : G.host.heap = heap
  graded : heap.Graded

theorem Ground.Unlimited.of_same {G G' : Ground} {heap : Heap} (h : G.Unlimited heap)
    (limit : G'.limit = G.limit) (host : G'.host = G.host) : G'.Unlimited heap :=
  ⟨fun a => limit ▸ h.limits a, host ▸ h.on, h.graded⟩

/-- What can be seen of a store. -/
@[ext]
structure View where
  sight : RecordId → Option Sight
  face : CacheId → Option Face
  ground : Ground

/-- The counts that do not tell of memory: buffers that were made and those that were reused count
together. -/
def Stats.visible (s : Stats) : Stats :=
  { s with made := s.made + s.reused, reused := 0, kept := 0, freed := 0, allocations := 0 }

/-- What can be seen of a record, if it is in use. -/
def Record.sight (x : Record) : Option Sight :=
  x.image.map fun image =>
    ⟨image, x.bytesPerPixel, x.area, x.references, x.published, x.storage.isSome⟩

/-- What can be seen of a cache. -/
def Cache.face (s : Cache) : Face :=
  ⟨s.thread, s.allocator, s.owners, s.lists.find?, s.stats.visible⟩

namespace Store

/-- What can be seen of a store apart from buffers and caches. -/
def ground (w : Store) : Ground where
  limit a := (w.allocators.get? a).map Allocator.limit
  nextAllocator := w.allocators.next
  nextCache := w.caches.next
  environment := w.settings.environment
  allocator := w.settings.allocator
  configured := w.settings.config.isSome
  host := w.host
  freshKeys := w.freshKeys

/-- What can be seen of a store. -/
def view (w : Store) : View where
  sight r := (w.records.get? r).bind Record.sight
  face c := (w.caches.get? c).map Cache.face
  ground := w.ground

end Store

namespace View

/-- The view with another sight of a buffer. -/
def put (A : View) (r : RecordId) (o : Option Sight) : View :=
  { A with sight := Function.update A.sight r o }

/-- The view with the face of a cache changed. -/
def touch (A : View) (c : CacheId) (g : Face → Face) : View :=
  { A with face := Function.update A.face c ((A.face c).map g) }

variable {A : View} {r j : RecordId} {c : CacheId} {o p : Option Sight} {φ : Face}

@[simp] theorem put_put : (A.put r o).put r p = A.put r p := by simp [put]

theorem put_self (h : A.sight r = o) : A.put r o = A := by simp [put, ← h]

@[simp] theorem touch_touch (g h : Face → Face) :
    (A.touch c g).touch c h = A.touch c fun φ => h (g φ) := by
  simp [touch, Function.comp_def]

theorem touch_congr {g h : Face → Face} (hφ : A.face c = some φ) (same : g φ = h φ) :
    A.touch c g = A.touch c h := by
  simp [touch, hφ, same]

theorem touch_self {g : Face → Face} (hφ : A.face c = some φ) (same : g φ = φ) :
    A.touch c g = A := by
  rw [touch, hφ, Option.map_some, same, ← hφ, Function.update_eq_self]

@[simp] theorem touch_put (g : Face → Face) : (A.put r o).touch c g = (A.touch c g).put r o := rfl

end View

/-! ## 2. Counts -/

/-- The face with other counts. -/
def Face.counted (g : Stats → Stats) (φ : Face) : Face := { φ with stats := g φ.stats }

/-- Counting by `g` looks like counting by `g'`. -/
def Stats.SeenAs (g g' : Stats → Stats) : Prop := ∀ s, (g s).visible = g' s.visible

namespace Stats.SeenAs

theorem addHit : SeenAs Stats.addHit Stats.addHit := fun _ => rfl
theorem addMiss : SeenAs Stats.addMiss Stats.addMiss := fun _ => rfl
theorem addMoved : SeenAs Stats.addMoved Stats.addMoved := fun _ => rfl
theorem addPublish : SeenAs Stats.addPublish Stats.addPublish := fun _ => rfl
theorem addFailure : SeenAs Stats.addFailure Stats.addFailure := fun _ => rfl
theorem addKept : SeenAs Stats.addKept id := fun _ => rfl
theorem addFreed : SeenAs Stats.addFreed id := fun _ => rfl

theorem addMade : SeenAs Stats.addMade Stats.addMade := fun s => by
  simp [visible, Stats.addMade, Nat.add_right_comm]

theorem addReused : SeenAs Stats.addReused Stats.addMade := fun s => by
  simp [visible, Stats.addMade, Stats.addReused, Nat.add_assoc]

theorem addAllocation (newBlock : Bool) : SeenAs (·.addAllocation newBlock) id := fun s => by
  cases newBlock <;> rfl

end Stats.SeenAs

namespace Store

variable {w v : Store} {c : CacheId} {s : Cache} {r : RecordId} {x y : Record} {a : AllocatorId}

/-! ## 3. Replaced parts -/

theorem sight_of_get? (hx : w.records.get? r = some x) : w.view.sight r = x.sight := by
  simp [view, hx]

theorem face_of_get? (hs : w.caches.get? c = some s) : w.view.face c = some s.face := by
  simp [view, hs]

@[simp] theorem view_emit (w : Store) (e : Event) : (w.emit e).view = w.view := rfl

theorem view_count {g g' : Stats → Stats} (seen : Stats.SeenAs g g') (w : Store) (c : CacheId) :
    (w.count c g).view = w.view.touch c (Face.counted g') := by
  refine View.ext rfl ?_ rfl
  funext d
  by_cases hd : d = c
  · subst hd
    cases hs : w.caches.get? d <;>
      simp [view, View.touch, Table.get?_update, hs, Cache.face, Face.counted, seen _]
  · simp [view, View.touch, Table.get?_update, hd]

theorem view_count_id {g : Stats → Stats} (seen : Stats.SeenAs g id) (w : Store) (c : CacheId) :
    (w.count c g).view = w.view := by
  rw [view_count seen]
  cases hφ : w.view.face c with
  | none => rw [View.touch, hφ, Option.map_none, ← hφ, Function.update_eq_self]
  | some φ => exact View.touch_self hφ rfl

theorem view_setRecord (hx : w.records.get? r = some x) (y : Record) :
    (w.setRecord r y).view = w.view.put r y.sight := by
  refine View.ext ?_ rfl rfl
  funext j
  by_cases hj : j = r
  · subst hj
    simp [view, View.put, Table.get?_update, hx]
  · simp [view, View.put, Table.get?_update, hj]

theorem view_setCache (hs : w.caches.get? c = some s) (s' : Cache) :
    (w.setCache c s').view = w.view.touch c fun _ => s'.face := by
  refine View.ext rfl ?_ rfl
  funext d
  by_cases hd : d = c
  · subst hd
    simp [view, View.touch, Table.get?_update, hs]
  · simp [view, View.touch, Table.get?_update, hd]

/-- Allocators are seen by their limits only. -/
theorem view_allocators (w : Store) (a : AllocatorId) {g : Allocator → Allocator}
    (same : ∀ s, w.allocators.get? a = some s → (g s).limit = s.limit) :
    ({ w with allocators := w.allocators.update a g } : Store).view = w.view := by
  have limit : (fun b => (((w.allocators.update a g).get? b).map Allocator.limit))
      = fun b => (w.allocators.get? b).map Allocator.limit := by
    funext b
    by_cases hb : b = a
    · subst hb
      cases hs : w.allocators.get? b <;> simp [Table.get?_update, hs, same _]
    · simp [Table.get?_update, hb]
  refine View.ext rfl rfl ?_
  simp [view, ground, limit]

theorem view_without (w : Store) (r : RecordId) : (w.without r).view = w.view.put r none := by
  have sight : (w.without r).view.sight = (w.view.put r none).sight := by
    funext j
    by_cases hj : j = r <;> simp [view, View.put, get?_records_without, hj]
  refine View.ext sight (by simp [view, View.put]) ?_
  cases hx : w.records.get? r with
  | none => simp [without, hx, View.put]
  | some x =>
    cases stored : x.storage with
    | none => simp [without, hx, stored, view, ground, View.put]
    | some b =>
      have same := congrArg View.ground
        (view_allocators w x.allocator (g := (·.free b)) fun _ _ => rfl)
      simpa [without, hx, stored, view, ground, View.put] using same

theorem view_setAllocator {s s' : Allocator} (hs : w.allocators.get? a = some s)
    (same : s'.limit = s.limit) : (w.setAllocator a s').view = w.view :=
  view_allocators w a fun s hs' => by rw [same, Option.some.inj (hs.symm.trans hs')]

theorem view_add (w : Store) (x : Record) :
    ({ w with records := w.records.add x } : Store).view
      = w.view.put w.records.next x.sight := by
  refine View.ext ?_ rfl rfl
  funext j
  by_cases hj : j = w.records.next <;> simp [view, View.put, Table.get?_add, hj]

end Store

/-! ## 4. Lists -/

namespace Face

/-- The members of an image's list. -/
def members (φ : Face) (k : ImageKey) : List RecordId := (φ.lists k).getD []

/-- The face with the list of an image replaced. -/
def relisted (k : ImageKey) (members : List RecordId) (φ : Face) : Face :=
  { φ with lists := Function.update φ.lists k (some members) }

/-- The face with a buffer at the head of its image's list. -/
def enlisted (k : ImageKey) (r : RecordId) (φ : Face) : Face := φ.relisted k (r :: φ.members k)

/-- The face with a buffer taken out of its image's list. -/
def delisted (k : ImageKey) (r : RecordId) (φ : Face) : Face :=
  φ.relisted k ((φ.members k).erase r)

end Face

theorem Cache.face_relisted (s : Cache) (k : ImageKey) (members : List RecordId) :
    Cache.face { s with lists := s.lists.put k members } = s.face.relisted k members := by
  have lists : (s.lists.put k members).find? = Function.update s.lists.find? k (some members) := by
    funext j
    rw [Lists.find?_put, Function.update_apply]
  simp [Cache.face, Face.relisted, lists]

namespace Store

variable {w v : Store} {c : CacheId} {s : Cache} {r : RecordId} {x y : Record} {i : Image}
  {area : Rect}

theorem view_retained (hx : w.records.get? r = some x) :
    (w.retained r x).view = w.view.put r { x with references := x.references + 1 }.sight :=
  view_setRecord hx _

theorem view_withdrawn (hx : w.records.get? r = some x) (hs : w.caches.get? c = some s)
    (k : ImageKey) : (w.withdrawn c s r x k).view
      = (w.view.touch c (Face.delisted k r)).put r x.unmark.withoutArea.sight := by
  have face := Cache.face_relisted s k ((s.lists.members k).erase r)
  rw [withdrawn, view_emit, view_setRecord (x := x) (by simpa using hx), view_setCache hs, face]
  exact congrArg (View.put · r _) (View.touch_congr (face_of_get? hs) rfl)

theorem view_enlisted {b : Handle} (hx : w.records.get? b.record = some x)
    (hs : w.caches.get? b.cache = some s) : (w.enlisted b s x).view
      = (w.view.touch b.cache fun φ => (φ.enlisted b.image b.record).counted .addPublish).put
          b.record (x.markPublished b.cache).sight := by
  have face := Cache.face_relisted s b.image (b.record :: s.lists.members b.image)
  rw [enlisted, view_emit, view_count .addPublish, view_setRecord (x := x) (by simpa using hx),
    view_setCache hs, face, View.touch_put, View.touch_touch]
  exact congrArg (View.put · b.record _) (View.touch_congr (face_of_get? hs) rfl)

/-! ## 5. Reserves -/

theorem view_shelved (hs : w.caches.get? c = some s) (r : RecordId) :
    (w.shelved c s r).view = w.view := by
  rw [shelved, view_count_id .addKept, view_setCache hs]
  exact View.touch_self (face_of_get? hs) rfl

theorem view_crowdedOut (w : Store) (c : CacheId) (r : RecordId) (x : Record) :
    (w.crowdedOut c r x).view = w.view.put r none := by
  rw [crowdedOut, view_without, view_emit, view_count_id .addFreed]

/-- Nothing is seen of idle buffers that end. -/
theorem view_withoutAll {rs : List RecordId} (idle : ∀ r ∈ rs, w.view.sight r = none) :
    (w.withoutAll rs).view = w.view := by
  induction rs generalizing w with
  | nil => rfl
  | cons r rs ih =>
    have same : (w.without r).view = w.view := by
      rw [view_without, View.put_self (idle r List.mem_cons_self)]
    rw [withoutAll_cons, ih fun j hj => same ▸ idle j (List.mem_cons_of_mem _ hj), same]

theorem view_emptied (hs : w.caches.get? c = some s)
    (idle : ∀ r ∈ s.reserve.slots, w.view.sight r = none) : (w.emptied c s).view = w.view := by
  have cleared : (w.setCache c { s with reserve := s.reserve.clear }).view = w.view := by
    rw [view_setCache hs]
    exact View.touch_self (face_of_get? hs) rfl
  rw [emptied, view_emit, view_withoutAll (cleared ▸ idle), cleared]

/-- The buffer that a cache takes is seen from then on, and whether it is a new one is not. -/
theorem Taken.view (taken : Taken w c s i r x v) (hs : w.caches.get? c = some s) :
    v.view = (w.view.touch c (Face.counted .addMade)).put r x.sight := by
  cases taken with
  | reused top hx =>
    rw [view_setRecord (by simpa using hx), view_count .addReused, view_setCache hs,
      View.touch_touch]
    exact congrArg (View.put · r _) (View.touch_congr (face_of_get? hs) rfl)
  | made empty =>
    refine (view_add (w.count c .addMade) _).trans ?_
    rw [view_count .addMade, records_count]

end Store

/-! ## 6. Storage -/

/-- The sight of a buffer that was moved to an area, or could not be. -/
def Sight.moved (area : Rect) (outcome : Except StorageError Bool) (σ : Sight) : Sight :=
  match outcome with
  | .ok _ => { σ with area, stored := true }
  | .error (.invalidArea _ _) => σ
  | .error _ => { σ with area := .zero, stored := false }

namespace Allocator

variable {s after : Allocator} {heap : Heap} {n : Nat}

theorem limit_allocate (s : Allocator) (heap : Heap) (n : Nat) :
    (s.allocate heap n).2.limit = s.limit := by
  unfold allocate allocateIf
  split
  · rfl
  · split
    · rfl
    · split <;> rfl

theorem limit_free (s : Allocator) (b : Block) : (s.free b).limit = s.limit := rfl

/-- A request is refused for want of memory, or by a limit if there is one. -/
theorem allocate_eq_error {e : StorageError} (h : s.allocate heap n = (.error e, after)) :
    e = .outOfMemory n ∨ ∃ limit, s.limit = some limit ∧ e = .limitExceeded n s.live limit := by
  unfold allocate allocateIf at h
  split at h
  · exact .inl (Except.error.inj (Prod.mk.inj h).1).symm
  · split at h
    · obtain rfl := Except.error.inj (Prod.mk.inj h).1
      unfold quotaError
      split
      · next limit hl => exact .inr ⟨limit, hl, rfl⟩
      · exact .inl rfl
    · split at h
      · cases h
      · exact .inl (Except.error.inj (Prod.mk.inj h).1).symm

end Allocator

namespace Store

variable {w v : Store} {c : CacheId} {s : Cache} {r : RecordId} {x y : Record} {i : Image}
  {area : Rect}

theorem limit_lowered (s : Allocator) (x : Record) : (lowered s x).limit = s.limit := by
  unfold lowered
  split <;> rfl

theorem Fits.view {outcome : Except StorageError Bool} (fits : w.Fits r x area outcome v)
    (hx : w.records.get? r = some x) :
    v.view = w.view.put r (x.sight.map (Sight.moved area outcome)) := by
  cases fits with
  | invalid size =>
    refine (View.put_self ?_).symm
    rw [sight_of_get? hx]
    exact Option.map_id'.symm
  | kept size stored enough =>
    rw [view_setRecord hx]
    simp [Record.sight, Sight.moved, stored, Function.comp_def]
  | @renewed n s after b size lacking source granted =>
    have same := Allocator.limit_allocate (lowered s x) w.host.heap n
    rw [granted, limit_lowered] at same
    rw [view_setRecord (by simpa using hx), view_setAllocator source same]
    simp [Record.sight, Sight.moved, Function.comp_def]
  | @lost n s after e size lacking source refused =>
    have same := Allocator.limit_allocate (lowered s x) w.host.heap n
    rw [refused, limit_lowered] at same
    rw [view_setRecord (by simpa using hx), view_setAllocator source same]
    have sight : ({ x with area := .zero, storage := none } : Record).sight
        = x.sight.map (Sight.moved area (.error e)) := by
      obtain rfl | ⟨limit, -, rfl⟩ := Allocator.allocate_eq_error refused <;>
        simp [Record.sight, Sight.moved, Function.comp_def]
    rw [sight]

end Store

/-! ## 7. Caches -/

/-- The sight of a buffer that is no longer published. -/
def Sight.unmarked (σ : Sight) : Sight := { σ with published := false }

/-- The face of a new cache. -/
def Face.new (thread : ThreadId) (allocator : AllocatorId) : Face :=
  ⟨thread, allocator, 1, fun _ => none, {}⟩

/-- The face with one more owner. -/
def Face.shared (φ : Face) : Face := { φ with owners := φ.owners + 1 }

/-- The face with one owner less. -/
def Face.unshared (φ : Face) : Face := { φ with owners := φ.owners - 1 }

namespace View

/-- The view with one more cache. -/
def addCache (A : View) (φ : Face) : View where
  sight := A.sight
  face := Function.update A.face A.ground.nextCache (some φ)
  ground := { A.ground with nextCache := A.ground.nextCache + 1 }

/-- The view without a cache, of which `rs` are the published buffers. -/
def tornDown (A : View) (c : CacheId) (rs : List RecordId) : View where
  sight r := if r ∈ rs then (A.sight r).map Sight.unmarked else A.sight r
  face := Function.update A.face c none
  ground := A.ground

end View

namespace Store

variable {w : Store} {c : CacheId} {s : Cache}

theorem view_addOwner (w : Store) (c : CacheId) :
    (w.addOwner c).view = w.view.touch c Face.shared := by
  refine View.ext rfl ?_ rfl
  funext d
  by_cases hd : d = c
  · subst hd
    simp [view, View.touch, Table.get?_update, Function.comp_def]
    rfl
  · simp [view, View.touch, Table.get?_update, hd]

theorem view_unshared (hs : w.caches.get? c = some s) :
    (w.setCache c { s with owners := s.owners - 1 }).view = w.view.touch c Face.unshared := by
  rw [view_setCache hs]
  exact View.touch_congr (face_of_get? hs) rfl

/-- A new cache looks the same with whatever cap. -/
theorem view_createCache (w : Store) (t : ThreadId) (config : Config) (a : AllocatorId) :
    (w.createCache t config a).2.view = w.view.addCache (.new t a) := by
  refine View.ext rfl ?_ rfl
  funext d
  by_cases hd : d = w.caches.next
  · simp [view, View.addCache, ground, createCache, emit, Table.get?_add, hd]
    rfl
  · simp [view, View.addCache, ground, createCache, emit, Table.get?_add, hd]

theorem view_unmarkAll (w : Store) (rs : List RecordId) :
    (w.unmarkAll rs).view
      = { w.view with
          sight := fun r => if r ∈ rs then (w.view.sight r).map Sight.unmarked
            else w.view.sight r } := by
  refine View.ext ?_ rfl rfl
  funext r
  by_cases hr : r ∈ rs
  · cases hx : w.records.get? r <;>
      simp [view, get?_records_unmarkAll, hr, hx, Record.sight, Record.unmark, Function.comp_def]
    rfl
  · simp [view, get?_records_unmarkAll, hr]

/-- What is seen of the end of a cache is that its buffers are no longer published. -/
theorem view_tornDown (idle : ∀ r ∈ s.reserve.slots, w.view.sight r = none) (c : CacheId) :
    (w.tornDown c s).view = w.view.tornDown c s.lists.all := by
  have ended : ((w.unmarkAll s.lists.all).withoutAll s.reserve.slots).view
      = (w.unmarkAll s.lists.all).view :=
    view_withoutAll fun r hr => by simp [view_unmarkAll, idle r hr]
  refine View.ext ?_ ?_ ?_
  · exact (congrArg View.sight ended).trans (by rw [view_unmarkAll]; rfl)
  · funext d
    by_cases hd : d = c <;> simp [view, View.tornDown, Table.get?_erase, hd]
  · refine Eq.trans ?_ ((congrArg View.ground ended).trans (by rw [view_unmarkAll]; rfl))
    simp [tornDown, view, ground, emit]

/-! ## 8. Settings -/

/-- Fixing the configuration looks the same with whatever cap. -/
theorem view_fixConfig (w : Store) (config : Config) : (w.fixConfig config).view
    = { w.view with ground := { w.view.ground with configured := true } } := rfl

theorem view_sharedConfig (w : Store) : w.sharedConfig.2.view
    = { w.view with ground := { w.view.ground with configured := true } } := by
  unfold sharedConfig
  split
  · next config fixed => simp [view, ground, fixed]
  · split <;> rfl

theorem view_createAllocator (w : Store) (limit : Option Nat) :
    (w.createAllocator limit).2.view = { w.view with
      ground := { w.view.ground with
        limit := Function.update w.view.ground.limit w.view.ground.nextAllocator (some limit)
        nextAllocator := w.view.ground.nextAllocator + 1 } } := by
  have limits : (fun a => ((w.createAllocator limit).2.allocators.get? a).map Allocator.limit)
      = Function.update w.view.ground.limit w.allocators.next (some limit) := by
    funext a
    by_cases ha : a = w.allocators.next <;>
      simp [createAllocator, Table.get?_add, view, ground, Allocator.withLimit, ha]
  refine View.ext rfl rfl ?_
  rw [view, ground, limits]
  rfl

end Store

end PixelPool
