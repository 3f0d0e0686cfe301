import PixelPool.Proofs.Grants
import PixelPool.Proofs.Outcomes
import PixelPool.Thread

/-!
What operations write into the log.

Some events are counted by the caches too: publications, acquisitions, and buffers that are freed
because a reserve is full (`Account`). `Store.gap` is by how many the log and the caches differ.
`Store.Tells errors w v` says that an operation that leads from `w` to `v` leaves all gaps as they
were, and that its warnings are about just these errors, provided that the configuration is fixed.
The lemmas follow the operations one by one, up to those of threads; soundness is not needed, since
an operation that ends has found what it counts for.
-/

namespace PixelPool

/-! ## 1. Events and counts -/

/-- The events that caches count too. -/
inductive Account where
  | publications
  | acquisitions
  | rejections
  deriving DecidableEq

namespace Account

/-- Whether an event counts for an account. -/
def covers : Account → Event → Bool
  | .publications, .published .. | .acquisitions, .acquired .. => true
  | .rejections, .reserveFull .. => true
  | _, _ => false

/-- The number of these events by the counts of a cache. A buffer was acquired if it came into use,
unless that failed. -/
def due : Account → Stats → Int
  | .publications, t => t.publishes
  | .acquisitions, t => t.made + t.reused - t.failures
  | .rejections, t => t.freed

end Account

/-- The error that an event is about. -/
def Event.error? : Event → Option StorageError
  | .acquisitionFailed _ _ _ e | .resizeFailed _ _ _ e => some e
  | _ => none

/-- The error of storage that a refusal is for, if it is for one. -/
def Refusal.storageErrors : Refusal → List StorageError
  | .allocation e => [e]
  | _ => []

namespace Store

/-- By how many events of an account the log has more than all caches ever made have counted. -/
def gap (w : Store) (k : Account) : Int := w.log.countP k.covers - w.summed fun z => k.due z.stats

/-- The warnings, latest first, each as the error that it is about. -/
def alerts (w : Store) : List (Option StorageError) :=
  (w.log.filter fun e => e.level = .warn).map Event.error?

variable {w v u : Store} {c : CacheId} {r : RecordId} {s t : Cache} {x : Record} {k : Account}
  {errors errors' : List StorageError}

theorem gap_of_same (caches : v.caches = w.caches) (ended : v.ended = w.ended)
    (log : v.log = w.log) (k : Account) : v.gap k = w.gap k := by
  rw [gap, gap, log, summed_of_same caches ended]

theorem gap_emit (w : Store) (e : Event) (k : Account) :
    (w.emit e).gap k = w.gap k + if k.covers e then 1 else 0 := by
  have sum : (w.emit e).summed (fun z => k.due z.stats) = w.summed fun z => k.due z.stats := rfl
  have log : (w.emit e).log = e :: w.log := rfl
  rw [gap, gap, sum, log, List.countP_cons]
  split <;> push_cast <;> omega

/-- If a cache changes its counts the gap changes with them. -/
theorem gap_update {f : Cache → Cache} (caches : v.caches = w.caches.update c f)
    (ended : v.ended = w.ended) (log : v.log = w.log) (hs : w.caches.get? c = some s)
    (k : Account) : v.gap k = w.gap k + k.due s.stats - k.due (f s).stats := by
  have sum := summed_update (g := fun z => k.due z.stats) caches ended hs
  rw [gap, gap, log]
  omega

theorem gap_of_update {f : Cache → Cache} (caches : v.caches = w.caches.update c f)
    (ended : v.ended = w.ended) (log : v.log = w.log)
    (same : ∀ s, w.caches.get? c = some s → k.due (f s).stats = k.due s.stats) :
    v.gap k = w.gap k := by
  rw [gap, gap, log, summed_of_update caches ended same]

theorem gap_count {f : Stats → Stats} (hs : w.caches.get? c = some s) (k : Account) :
    (w.count c f).gap k = w.gap k + k.due s.stats - k.due (f s.stats) :=
  gap_update (caches_count ..) rfl rfl hs k

/-! ## 2. What an operation tells -/

/-- From `w` to `v` every event of an account was counted, and all warnings were about the errors,
the latest first. The configuration has to be fixed, or there may be a warning about it. -/
structure Tells (errors : List StorageError) (w v : Store) : Prop where
  gap : ∀ k, v.gap k = w.gap k
  fixed : w.settings.config.isSome = true → v.settings.config.isSome = true
  alerts : w.settings.config.isSome = true → v.alerts = errors.map some ++ w.alerts

namespace Tells

theorem refl (w : Store) : Tells [] w w := ⟨fun _ => rfl, id, fun _ => rfl⟩

theorem trans (h : Tells errors w v) (h' : Tells errors' v u) : Tells (errors' ++ errors) w u where
  gap k := (h'.gap k).trans (h.gap k)
  fixed := h'.fixed ∘ h.fixed
  alerts frozen := by
    rw [h'.alerts (h.fixed frozen), h.alerts frozen, List.map_append, List.append_assoc]

/-- First nothing is told. -/
theorem after (h : Tells [] w v) (h' : Tells errors v u) : Tells errors w u := by
  have together := h.trans h'
  rwa [List.append_nil] at together

/-- At last nothing is told. -/
theorem before (h : Tells errors w v) (h' : Tells [] v u) : Tells errors w u := h.trans h'

/-- Changes that spare the counts of caches, the log and the configuration. -/
theorem of_same (caches : v.caches = w.caches) (ended : v.ended = w.ended) (log : v.log = w.log)
    (config : v.settings.config = w.settings.config) : Tells [] w v where
  gap := gap_of_same caches ended log
  fixed frozen := by rwa [config]
  alerts _ := by rw [Store.alerts, Store.alerts, log]; rfl

/-- A change of a cache that spares what accounts read of its counts. -/
theorem of_update {f : Cache → Cache} (caches : v.caches = w.caches.update c f)
    (ended : v.ended = w.ended) (log : v.log = w.log)
    (config : v.settings.config = w.settings.config)
    (same : ∀ (k : Account) s, w.caches.get? c = some s →
      k.due (f s).stats = k.due s.stats) :
    Tells [] w v where
  gap k := gap_of_update caches ended log (same k)
  fixed frozen := by rwa [config]
  alerts _ := by rw [Store.alerts, Store.alerts, log]; rfl

theorem setCache (hs : w.caches.get? c = some s) (same : t.stats = s.stats) :
    Tells [] w (w.setCache c t) := by
  refine of_update (caches_setCache ..) rfl rfl rfl fun k y hy => ?_
  obtain rfl := Option.some.inj (hs.symm.trans hy)
  rw [same]

theorem setRecord (w : Store) (r : RecordId) (x : Record) : Tells [] w (w.setRecord r x) :=
  of_same rfl rfl rfl rfl

/-- A count that no account reads. -/
theorem count (w : Store) (c : CacheId) {f : Stats → Stats}
    (apart : ∀ (k : Account) t, k.due (f t) = k.due t) : Tells [] w (w.count c f) :=
  of_update (caches_count ..) rfl rfl rfl fun k s _ => apart k s.stats

/-- How a request was answered is read by no account. -/
theorem asked (w : Store) (c : CacheId) {f : Stats → Stats} (counts : Stats.CountsRequest f) :
    Tells [] w (w.count c f) := by
  apply count
  intro k t
  rcases counts with rfl | rfl | rfl <;> cases k <;> rfl

/-- An event that no account counts, and that is no warning. -/
theorem emit (w : Store) {e : Event} (uncounted : ∀ k : Account, k.covers e = false)
    (calm : decide (e.level = .warn) = false) : Tells [] w (w.emit e) where
  gap k := by simp [gap_emit, uncounted k]
  fixed := id
  alerts _ := by simp [Store.alerts, Store.emit, calm]

/-- A warning. -/
theorem warn (w : Store) {e : Event} {error : StorageError}
    (uncounted : ∀ k : Account, k.covers e = false) (warning : e.level = .warn)
    (about : e.error? = some error) : Tells [error] w (w.emit e) where
  gap k := by simp [gap_emit, uncounted k]
  fixed := id
  alerts _ := by simp [Store.alerts, Store.emit, warning, about]

/-- What is being worked on does not matter. -/
theorem inside {i : List (CacheId × Section)} (h : Tells errors { w with inside := i } v) :
    Tells errors w v := ⟨h.gap, h.fixed, h.alerts⟩

theorem outside {i : List (CacheId × Section)} (h : Tells errors w v) :
    Tells errors w { v with inside := i } := ⟨h.gap, h.fixed, h.alerts⟩

/-- A count and the event that goes with it, both of one account. -/
theorem counted {f : Stats → Stats} {e : Event} (hs : w.caches.get? c = some s)
    (together : ∀ k : Account, k.due (f s.stats) = k.due s.stats + if k.covers e then 1 else 0)
    (calm : decide (e.level = .warn) = false) : Tells [] w ((w.count c f).emit e) where
  gap k := by
    rw [gap_emit, gap_count hs, together]
    omega
  fixed := id
  alerts _ := by simp [Store.alerts, Store.emit, Store.count, calm]

end Tells

/-! ## 3. Giving up buffers -/

open Fault

/-- Work on a part of a cache tells what it tells. -/
theorem within_tells {α : Type} {part : Section} {body : Store → Except Fault (α × Store)}
    (work : Yields (body { w with inside := (c, part) :: w.inside })
      fun a => Tells [] w a.2) :
    Yields (w.within c part body) fun a => Tells [] w a.2 :=
  within_yields (work.mono fun _ told => told.outside)

variable {b : Handle} {i : Image} {area : Rect} {rs : List RecordId}

/-- Changes of buffers and allocators only. -/
structure Unlogged (w v : Store) : Prop where
  caches : v.caches = w.caches
  ended : v.ended = w.ended
  log : v.log = w.log
  settings : v.settings = w.settings

namespace Unlogged

theorem refl (w : Store) : Unlogged w w := ⟨rfl, rfl, rfl, rfl⟩

theorem trans (h : Unlogged w v) (h' : Unlogged v u) : Unlogged w u :=
  ⟨h'.caches.trans h.caches, h'.ended.trans h.ended, h'.log.trans h.log,
    h'.settings.trans h.settings⟩

theorem tells (h : Unlogged w v) : Tells [] w v :=
  .of_same h.caches h.ended h.log (congrArg Settings.config h.settings)

end Unlogged

theorem giveBack_unlogged (w : Store) (a : AllocatorId) (b : Block) :
    Yields (w.giveBack a b) (Unlogged w) := by
  apply allocator_yields
  intro source _
  exact yields_ok ⟨rfl, rfl, rfl, rfl⟩

theorem destroy_unlogged (w : Store) (r : RecordId) : Yields (w.destroy r) (Unlogged w) := by
  apply record_yields
  intro x _
  cases x.storage with
  | none => exact yields_ok ⟨rfl, rfl, rfl, rfl⟩
  | some block =>
    refine (giveBack_unlogged w x.allocator block).bind ?_
    intro v given
    exact yields_ok ⟨given.caches, given.ended, given.log, given.settings⟩

theorem destroyAll_unlogged (w : Store) (rs : List RecordId) :
    Yields (w.destroyAll rs) (Unlogged w) := by
  induction rs generalizing w with
  | nil => exact yields_ok (.refl w)
  | cons r rs ih =>
    refine (destroy_unlogged w r).bind ?_
    intro v gone
    exact (ih v).mono fun u rest => gone.trans rest

theorem detachAll_unlogged (w : Store) (rs : List RecordId) :
    Yields (w.detachAll rs) (Unlogged w) := by
  induction rs generalizing w with
  | nil => exact yields_ok (.refl w)
  | cons r rs ih =>
    apply record_yields
    intro x _
    exact (ih _).mono fun u rest => ⟨rest.caches, rest.ended, rest.log, rest.settings⟩

theorem withdraw_tells (w : Store) (c : CacheId) (r : RecordId) :
    Yields (w.withdraw c r) (Tells [] w) := by
  apply record_yields
  intro x _
  split
  · exact yields_ok (.refl w)
  split
  · exact yields_error
  cases x.image with
  | none => exact yields_error
  | some k =>
    refine (within_tells ?_).bind ?_
    · apply cache_yields
      intro s hs
      cases s.lists.remove k r with
      | error f => exact yields_error
      | ok lists => exact yields_ok (Tells.setCache hs (t := { s with lists }) rfl).inside
    · intro a told
      have marked := told.after (.setRecord a.2 r x.unmark.withoutArea)
      exact yields_ok (marked.after (.emit _ (by intro k; cases k <;> rfl) rfl))

theorem keepOrFree_tells (w : Store) (c : CacheId) (r : RecordId) :
    Yields (w.keepOrFree c r) (Tells [] w) := by
  -- If the buffer is not kept nothing happened yet, and the cache has been found.
  refine Yields.bind (Q := fun a => Tells [] w a.2 ∧
    (a.1 = false → ∃ s, a.2.caches.get? c = some s)) (within_yields ?_) ?_
  · apply cache_yields
    intro s hs
    cases s.reserve.push? r with
    | none => exact yields_ok ⟨(Tells.refl _).inside.outside, fun _ => ⟨s, hs⟩⟩
    | some reserve =>
      apply record_yields
      intro x _
      split
      · exact yields_ok ⟨(Tells.setCache hs (t := { s with reserve }) rfl).inside.outside, by simp⟩
      · exact yields_error
  · rintro ⟨kept, v⟩ ⟨told, found⟩
    cases kept with
    | true => exact yields_ok (told.after (.count v c (by intro k t; cases k <;> rfl)))
    | false =>
      obtain ⟨s, hs⟩ := found rfl
      have freed : Tells [] v ((v.count c .addFreed).emit (.reserveFull c (v.capacityOf r))) :=
        .counted hs (by intro k; cases k <;> simp [Account.due, Account.covers, Stats.addFreed])
          rfl
      exact (destroy_unlogged _ r).mono fun u gone => told.after (freed.after gone.tells)

theorem releaseRecord_tells (w : Store) (c : CacheId) (r : RecordId) :
    Yields (w.releaseRecord c r) (Tells [] w) := by
  apply record_yields
  intro x _
  cases x.letGo r with
  | error f => exact yields_error
  | ok y =>
    simp only [ok_bind]
    split
    · exact yields_ok (.setRecord w r y)
    refine (withdraw_tells _ c r).bind ?_
    intro v told
    apply record_yields
    intro z _
    cases z.shelve r with
    | error f => exact yields_error
    | ok idle =>
      have before := (Tells.setRecord w r y).after (told.after (.setRecord v r idle))
      exact (keepOrFree_tells _ c r).mono fun u kept => before.after kept

theorem releaseOrphan_tells (w : Store) (b : Handle) :
    Yields (w.releaseOrphan b) (Tells [] w) := by
  apply record_yields
  intro x _
  cases x.letGo b.record with
  | error f => exact yields_error
  | ok y =>
    simp only [ok_bind]
    split
    · exact yields_ok (.setRecord w b.record y)
    cases y.unmark.shelve b.record with
    | error f => exact yields_error
    | ok idle =>
      have before := (Tells.setRecord w b.record y).after (.setRecord _ b.record idle)
      have told := before.after (.emit _ (e := .outlivedCache b.image)
        (by intro k; cases k <;> rfl) rfl)
      exact (destroy_unlogged _ b.record).mono fun u gone => told.after gone.tells

theorem dropHandle_tells (w : Store) (b : Handle) : Yields (w.dropHandle b) (Tells [] w) := by
  unfold dropHandle
  split
  · exact releaseRecord_tells w b.cache b.record
  · exact releaseOrphan_tells w b

theorem dropHandle?_tells (w : Store) (old : Option Handle) :
    Yields (w.dropHandle? old) (Tells [] w) := by
  cases old with
  | none => exact yields_ok (.refl w)
  | some b => exact dropHandle_tells w b

theorem copyHandle_tells (w : Store) (b : Handle) :
    Yields (w.copyHandle b) fun a => Tells [] w a.2 := by
  apply record_yields
  intro x _
  cases x.retain b.record with
  | error f => exact yields_error
  | ok y => exact yields_ok (.setRecord w b.record y)

/-! ## 4. Getting buffers -/

theorem lookup_tells (w : Store) (c : CacheId) (i : Image) (area : Rect) :
    Yields (w.lookup c i area) fun a => Tells [] w a.2 := by
  refine (within_tells ?_).bind ?_
  · apply cache_yields
    intro s _
    split
    · exact yields_ok (Tells.refl _).inside
    · next r _ =>
      apply record_yields
      intro x _
      cases x.retain r with
      | error f => exact yields_error
      | ok y => exact yields_ok (Tells.setRecord _ r y).inside
  · rintro ⟨found, v⟩ told
    cases found with
    | none => exact yields_ok told
    | some r =>
      apply Yields.after
      intro b
      exact yields_ok told

/-- A buffer of the cache has come into use, and it is still open whether it can be acquired. -/
structure Pending (w v : Store) (c : CacheId) : Prop where
  gap : ∀ k, v.gap k = w.gap k - if k = .acquisitions then 1 else 0
  found : ∃ s, v.caches.get? c = some s
  fixed : w.settings.config.isSome = true → v.settings.config.isSome = true
  alerts : w.settings.config.isSome = true → v.alerts = w.alerts

/-- The buffer has been counted. -/
theorem Pending.of_count {f : Stats → Stats} (told : Tells [] w v) (hs : v.caches.get? c = some s)
    (counts : ∀ k : Account,
      k.due (f s.stats) = k.due s.stats + if k = .acquisitions then 1 else 0) :
    Pending w (v.count c f) c where
  gap k := by
    rw [gap_count hs, counts, told.gap]
    omega
  found := ⟨_, get?_caches_count hs f⟩
  fixed := told.fixed
  alerts := told.alerts

/-- What is told while it is open adds to what is told in all. -/
theorem Pending.close (h : Pending w v c) (gap : ∀ k, u.gap k = v.gap k +
      if k = .acquisitions then 1 else 0)
    (fixed : u.settings.config = v.settings.config)
    (alerts : u.alerts = errors.map some ++ v.alerts) : Tells errors w u where
  gap k := by
    rw [gap, h.gap]
    omega
  fixed frozen := fixed ▸ h.fixed frozen
  alerts frozen := by rw [alerts, h.alerts frozen]

theorem takeIdle_tells (w : Store) (c : CacheId) :
    Yields (w.takeIdle c) fun a => Pending w a.2 c := by
  refine Yields.bind (Q := fun a => Tells [] w a.2 ∧ ∃ s, a.2.caches.get? c = some s)
    (within_yields ?_) ?_
  · apply cache_yields
    intro s hs
    refine yields_ok ⟨(Tells.setCache hs (t := { s with reserve := s.reserve.pop.2 })
      rfl).inside.outside, { s with reserve := s.reserve.pop.2 }, ?_⟩
    show Table.get? (Table.update w.caches c _) c = _
    rw [Table.get?_update, if_pos rfl, show w.caches.get? c = some s from hs]
    rfl
  · rintro ⟨top, v⟩ ⟨told, s, hs⟩
    cases top with
    | some r =>
      apply yields_ok
      apply Pending.of_count told hs
      intro k
      cases k <;> simp [Account.due, Stats.addReused]
      omega
    | none =>
      apply cache_yields
      intro t _
      have made : Pending w (v.count c .addMade) c := by
        apply Pending.of_count told hs
        intro k
        cases k <;> simp [Account.due, Stats.addMade]
        omega
      exact yields_ok ⟨made.gap, made.found, made.fixed, made.alerts⟩

theorem fit_unlogged (w : Store) (r : RecordId) (area : Rect) :
    Yields (w.fit r area) fun a => Unlogged w a.2 := by
  apply record_yields
  intro x _
  split
  · exact yields_error
  cases storageSize area x.bytesPerPixel with
  | error e => exact yields_ok ⟨rfl, rfl, rfl, rfl⟩
  | ok required =>
    simp only
    split
    · exact yields_ok ⟨rfl, rfl, rfl, rfl⟩
    apply allocator_yields
    intro source _
    split
    · exact yields_ok ⟨rfl, rfl, rfl, rfl⟩
    · exact yields_ok ⟨rfl, rfl, rfl, rfl⟩

/-- The errors of an allocation. -/
def raised {α : Type} : Except StorageError α → List StorageError
  | .ok _ => []
  | .error e => [e]

theorem acquire_tells (w : Store) (c : CacheId) (i : Image) (area : Rect) :
    Yields (w.acquire c i area) fun a => Tells (raised a.1) w a.2 := by
  refine (takeIdle_tells w c).bind ?_
  rintro ⟨r, v⟩ pending
  apply record_yields
  intro x _
  cases x.assign r i with
  | error f => exact yields_error
  | ok y =>
    refine (fit_unlogged _ r area).bind ?_
    rintro ⟨outcome, u⟩ moved
    have same : ∀ k, u.gap k = v.gap k := gap_of_same moved.caches moved.ended moved.log
    have alerts : u.alerts = v.alerts := by
      show (u.log.filter _).map _ = _
      rw [moved.log]
      rfl
    have config : u.settings.config = v.settings.config := congrArg Settings.config moved.settings
    obtain ⟨s, hs⟩ := pending.found
    have found : u.caches.get? c = some s := (congrArg (Table.get? · c) moved.caches).trans hs
    cases outcome with
    | ok newBlock =>
      apply Yields.after
      intro b
      refine yields_ok (pending.close ?_ config alerts)
      intro k
      rw [gap_emit, gap_count found, same]
      cases k <;> cases newBlock <;> simp [Account.due, Account.covers, Stats.addAllocation]
    | error e =>
      refine (destroy_unlogged _ r).bind ?_
      intro z gone
      have failed : Tells [e] w ((u.count c .addFailure).emit
          (.acquisitionFailed c i.key area e)) := by
        refine pending.close ?_ config (congrArg _ alerts)
        intro k
        rw [gap_emit, gap_count found, same]
        cases k <;> simp [Account.due, Account.covers, Stats.addFailure]
        omega
      exact yields_ok (failed.before gone.tells)

theorem request_tells (w : Store) (c : CacheId) (i : Image) (area : Rect) :
    Yields (w.request c i area) fun a => Tells (raised a.1) w a.2 := by
  refine (lookup_tells w c i area).bind ?_
  rintro ⟨found, v⟩ told
  cases found with
  | some b =>
    have hit := told.after (.asked v c Stats.countsRequest_addHit)
    exact yields_ok (hit.after (.emit _ (by intro k; cases k <;> rfl) rfl))
  | none =>
    have missed := told.after (.asked v c Stats.countsRequest_addMiss)
    exact (acquire_tells _ c i area).mono fun a tells => missed.after tells

/-! ## 5. Publishing, resizing and exchanging -/

/-- The errors of storage that an operation was refused for. -/
def raisedBy {α : Type} : Except Refusal α → List StorageError
  | .ok _ => []
  | .error e => e.storageErrors

@[simp] theorem raisedBy_asRefusal {α : Type} (outcome : Except StorageError α) :
    raisedBy (asRefusal outcome) = raised outcome := by
  cases outcome <;> rfl

theorem publish_tells (w : Store) (c : CacheId) (b : Handle) :
    Yields (w.publish c b) fun a => Tells [] w a.2 := by
  unfold publish
  split
  · exact yields_ok (.refl w)
  apply record_yields
  intro x _
  split
  · exact yields_ok (.refl w)
  refine Yields.bind (Q := fun a => Tells [] w a.2 ∧ ∃ s, a.2.caches.get? c = some s)
    (within_yields ?_) ?_
  · apply cache_yields
    intro s hs
    cases s.lists.add b.image b.record with
    | error f => exact yields_error
    | ok lists =>
      refine yields_ok ⟨(Tells.setCache hs (t := { s with lists }) rfl).inside.outside,
        { s with lists }, ?_⟩
      show Table.get? (Table.update w.caches c _) c = _
      rw [Table.get?_update, if_pos rfl, show w.caches.get? c = some s from hs]
      rfl
  · intro a told
    obtain ⟨told, s, hs⟩ := told
    have marked := told.after (.setRecord a.2 b.record (x.markPublished c))
    have published := Tells.counted (w := a.2.setRecord b.record (x.markPublished c))
      (f := .addPublish) (e := .published c b.image x.area) hs
      (by intro k; cases k <;> simp [Account.due, Account.covers, Stats.addPublish]) rfl
    exact yields_ok (marked.after published)

theorem unpublish_tells (w : Store) (c : CacheId) (b : Handle) :
    Yields (w.unpublish c b) fun a => Tells [] w a.2 := by
  unfold unpublish
  split
  · exact yields_ok (.refl w)
  refine (withdraw_tells w c b.record).bind ?_
  intro v told
  exact yields_ok told

theorem release_tells (w : Store) (c : CacheId) (b : Handle) :
    Yields (w.release c b) fun a => Tells [] w a.2 := by
  refine (dropHandle_tells w b).bind ?_
  intro v told
  exact yields_ok told

theorem resize_tells (w : Store) (c : CacheId) (b : Handle) (area : Rect) (viewHeld : Bool) :
    Yields (w.resize c b area viewHeld) fun a => Tells (raisedBy a.1) w a.2 := by
  unfold resize
  split
  · exact yields_ok (.refl w)
  apply record_yields
  intro x _
  split
  · exact yields_ok (.refl w)
  refine (withdraw_tells w c b.record).bind ?_
  intro v told
  split
  · exact yields_ok told
  refine (fit_unlogged v b.record area).bind ?_
  rintro ⟨outcome, u⟩ moved
  have moved := told.after moved.tells
  cases outcome with
  | ok newBlock =>
    have counted : Tells [] u (u.count c (·.addAllocation newBlock)) :=
      .count u c (by intro k t; cases k <;> cases newBlock <;> rfl)
    exact yields_ok (moved.after counted)
  | error e =>
    exact yields_ok (moved.trans (.warn _ (by intro k; cases k <;> rfl) rfl rfl))

theorem acquireMissed_tells (w : Store) (c : CacheId) (i : Image) (area : Rect) :
    Yields (w.acquireMissed c i area) fun a => Tells (raisedBy a.1) w a.2 := by
  have missed := Tells.asked w c Stats.countsRequest_addMiss
  refine (acquire_tells _ c i area).bind ?_
  intro a told
  apply yields_ok
  rw [raisedBy_asRefusal]
  exact missed.after told

theorem exchange_tells (w : Store) (c : CacheId) (old : Option Handle) (i : Image) (area : Rect) :
    Yields (w.exchange c old i area) fun a => Tells (raisedBy a.1) w a.2 := by
  have hit : ∀ v, Tells [] w v → Tells [] w (v.count c .addHit) :=
    fun v told => told.after (.asked v c Stats.countsRequest_addHit)
  cases old with
  | none =>
    refine (lookup_tells w c i area).bind ?_
    rintro ⟨found, v⟩ told
    cases found with
    | some b => exact yields_ok (hit v told)
    | none => exact (acquireMissed_tells v c i area).mono fun a rest => told.after rest
  | some b =>
    simp only [exchange]
    split
    · refine (dropHandle_tells w b).bind ?_
      intro v told
      exact yields_ok told
    split
    · refine (dropHandle_tells w b).bind ?_
      intro v told
      exact yields_ok told
    split
    · exact yields_ok (.refl w)
    refine (lookup_tells w c i area).bind ?_
    rintro ⟨found, v⟩ told
    cases found with
    | some d =>
      refine (dropHandle_tells (v.count c .addHit) b).bind ?_
      intro u dropped
      exact yields_ok ((hit v told).after dropped)
    | none =>
      dsimp only
      split
      · refine (resize_tells v c b area false).bind ?_
        rintro ⟨outcome, u⟩ moved
        have moved := told.after moved
        cases outcome with
        | ok =>
          exact yields_ok (moved.before (.asked u c Stats.countsRequest_addMoved))
        | error e =>
          refine (dropHandle_tells u b).bind ?_
          intro z dropped
          exact yields_ok (moved.before dropped)
      · refine (dropHandle_tells v b).bind ?_
        intro u dropped
        exact (acquireMissed_tells u c i area).mono fun a rest =>
          (told.after dropped).after rest

/-! ## 6. The life of a cache -/

theorem createCache_tells (w : Store) (t : ThreadId) (config : Config) (a : AllocatorId) :
    Tells [] w (w.createCache t config a).2 where
  gap k := by
    have sum : (w.createCache t config a).2.summed (fun z => k.due z.stats)
        = w.summed fun z => k.due z.stats := by
      rw [summed_eq, summed_eq]
      show Table.total _ (Table.add w.caches _) + _ = _
      rw [Table.total_add]
      cases k <;> simp [Account.due] <;> rfl
    rw [gap, gap, sum]
    show ((List.countP _ (.cacheCreated _ _ :: w.log) : Nat) : Int) - _ = _
    cases k <;> simp [Account.covers]
  fixed := id
  alerts _ := by simp [Store.alerts, createCache, emit, Event.level]

/-- A cache that ends is still one of those that were made. -/
theorem tearDown_tells (w : Store) (c : CacheId) : Yields (w.tearDown c) (Tells [] w) := by
  apply cache_yields
  intro s hs
  refine (detachAll_unlogged w s.lists.all).bind ?_
  intro v detached
  refine (destroyAll_unlogged v s.reserve.slots).bind ?_
  intro u gone
  have same := detached.trans gone
  have moved : Tells [] u { u with caches := u.caches.erase c, ended := (c, s) :: u.ended } :=
    { gap := by
        intro k
        rw [gap, gap, summed_of_ended (w := u) (by rw [same.caches]; exact hs) rfl rfl]
      fixed := id
      alerts := fun _ => rfl }
  exact yields_ok ((same.tells.after moved).after (.emit _ (by intro k; cases k <;> rfl) rfl))

theorem addOwner_tells (w : Store) (c : CacheId) : Tells [] w (w.addOwner c) :=
  .of_update (caches_addOwner w c) rfl rfl rfl fun _ _ _ => rfl

theorem dropOwner_tells (w : Store) (c : CacheId) : Yields (w.dropOwner c) (Tells [] w) := by
  apply cache_yields
  intro s hs
  split
  · exact tearDown_tells w c
  · exact yields_ok (.setCache hs rfl)

theorem emptyReserve_tells (w : Store) (c : CacheId) :
    Yields (w.emptyReserve c) fun a => Tells [] w a.2 := by
  refine (within_tells ?_).bind ?_
  · apply cache_yields
    intro s hs
    refine (destroyAll_unlogged _ s.reserve.slots).bind ?_
    intro v gone
    have cleared := Tells.setCache hs (t := { s with reserve := s.reserve.clear }) rfl
    exact yields_ok (cleared.after gone.tells).inside
  · rintro ⟨bytes, v⟩ told
    exact yields_ok (told.after (.emit v (by intro k; cases k <;> rfl) rfl))

/-! ## 7. Settings and threads -/

theorem fixConfig_tells (w : Store) (config : Config) : Tells [] w (w.fixConfig config) := by
  have fixed : Tells [] w { w with settings := { w.settings with config := some config } } :=
    ⟨fun _ => rfl, fun _ => rfl, fun _ => rfl⟩
  apply fixed.after
  apply Tells.emit
  · intro k
    split <;> cases k <;> rfl
  · split <;> rfl

/-- A configuration that is fixed is not warned about. -/
theorem sharedConfig_tells (w : Store) : Tells [] w w.sharedConfig.2 := by
  unfold sharedConfig
  split
  · exact .refl w
  · next unset =>
    have absurd : ¬w.settings.config.isSome = true := by simp [unset]
    split
    · exact fixConfig_tells w _
    · have fixed := fixConfig_tells (w.emit
        (.overrideIgnored (w.settings.environment.getD ""))) Config.default
      refine ⟨fun k => ?_, fun frozen => (absurd frozen).elim, fun frozen => (absurd frozen).elim⟩
      rw [fixed.gap, gap_emit]
      cases k <;> simp [Account.covers]

theorem sharedAllocator_tells (w : Store) : Tells [] w w.sharedAllocator.2 := by
  unfold sharedAllocator
  split
  · exact .refl w
  · exact .of_same rfl rfl rfl rfl

theorem createWithConfig_tells (w : Store) (t : ThreadId) (config : Config) :
    Tells [] w (w.createWithConfig t config).2 :=
  (sharedAllocator_tells w).after (createCache_tells ..)

theorem createShared_tells (w : Store) (t : ThreadId) : Tells [] w (w.createShared t).2 :=
  (sharedConfig_tells w).after (createWithConfig_tells ..)

theorem publishOwn_tells (w : Store) (b : Handle) :
    Yields (w.publishOwn b) fun a => Tells [] w a.2 := by
  unfold publishOwn
  split
  · exact publish_tells w b.cache b
  · exact yields_ok (.emit w (by intro k; cases k <;> rfl) rfl)

theorem unpublishOwn_tells (w : Store) (b : Handle) :
    Yields (w.unpublishOwn b) fun a => Tells [] w a.2 := by
  unfold unpublishOwn
  split
  · exact unpublish_tells w b.cache b
  · exact yields_ok (.emit w (by intro k; cases k <;> rfl) rfl)

end Store

namespace Thread

open Fault Store

variable (t : Thread) (w : Store) (i : Image) (area : Rect)

theorem current_tells : Tells [] w (t.current w).2 := by
  unfold current
  split
  · exact addOwner_tells ..
  · exact (createShared_tells w t.id).after (addOwner_tells ..)
  · have told := Tells.emit w (e := .detachedCache) (by intro k; cases k <;> rfl) rfl
    exact told.after (createShared_tells _ t.id)

theorem bind_tells (c : CacheId) : Yields (t.bind w c) fun a => Tells [] w a.2 := by
  unfold bind
  split
  · exact yields_ok (.refl w)
  · exact yields_ok (.refl w)
  · refine (dropOwner_tells w c).bind ?_
    intro v told
    exact yields_ok told

theorem unbind_tells : Yields (t.unbind w) fun a => Tells [] w a.2 := by
  unfold unbind
  split
  · refine (dropOwner_tells w _).bind ?_
    intro v told
    exact yields_ok told
  · exact yields_ok (.refl w)

theorem destroyBinding_tells : Yields (t.destroyBinding w) fun a => Tells [] w a.2 := by
  unfold destroyBinding
  split
  · refine (dropOwner_tells w _).bind ?_
    intro v told
    exact yields_ok told
  · exact yields_ok (.refl w)

theorem request_tells : Yields (t.request w i area) fun a => Tells (raised a.1.1) w a.2 := by
  refine (Store.request_tells _ _ i area).bind ?_
  rintro ⟨outcome, v⟩ told
  refine (dropOwner_tells v _).bind ?_
  intro u dropped
  exact yields_ok (((current_tells t w).after told).before dropped)

theorem exchange_tells (old : Option Handle) :
    Yields (t.exchange w old i area) fun a => Tells (raisedBy a.1.1) w a.2 := by
  unfold exchange
  split
  · next b _ =>
    refine (Store.exchange_tells w b.cache (some b) i area).bind ?_
    intro a told
    exact yields_ok told
  · refine (dropHandle?_tells w old).bind ?_
    intro v dropped
    refine (Store.exchange_tells _ _ none i area).bind ?_
    rintro ⟨outcome, u⟩ told
    refine (dropOwner_tells u _).bind ?_
    intro z left
    exact yields_ok (((dropped.after (current_tells t v)).after told).before left)

end Thread

end PixelPool
