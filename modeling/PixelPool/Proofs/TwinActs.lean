import PixelPool.Proofs.TwinSessions

/-!
Acts of two sessions that are twins.

An act is done on both sides, or it makes a cache or fixes the configuration with another cap on
either. It is answered alike and leaves twins (`Session.Twin.step`), unless a side refuses for want
of memory where the heap had room.
-/

namespace PixelPool

namespace Session

variable {heap : Heap} {f : RecordId → RecordId} {s t : Session} {act : Act} {c : CacheId}
  {w v u : Store} {out : Multiset Loan}

/-! ## 1. Ways to answer -/

theorem Meet.of_named {p q : Except Fault Session} {answer answer' : Answer}
    (named : ∃ s' t', p = .ok s' ∧ q = .ok t' ∧ Twin heap f s' t')
    (like : Answer.Alike act answer answer') :
    Meet heap u f act (p >>= fun s' => .ok (answer, s')) (q >>= fun t' => .ok (answer', t')) := by
  obtain ⟨s', t', rfl, rfl, T⟩ := named
  exact .of_twin T like

/-- Programs that are done or refused, and leave all names alone. -/
theorem Meet.of_settles {p q : Except Fault (Except Refusal Unit × Store)} (M : Mates f s t)
    (ends : ∃ a a', p = .ok a ∧ q = .ok a' ∧ Store.Twins.Settles heap f s.handles s.shares a a') :
    Meet heap u f act (p >>= fun a => .ok (doneOrRefused a.1, s.withStore a.2))
      (q >>= fun a => .ok (doneOrRefused a.1, t.withStore a.2)) := by
  obtain ⟨a, a', rfl, rfl, settles⟩ := ends
  have due_of : ∀ {o : Except Refusal Unit},
      (doneOrRefused o).Due heap → Store.Twins.Due heap o := by
    rintro _ due e rfl
    exact due
  rintro _ _ ⟨⟩ ⟨⟩ due due'
  obtain ⟨same, stores⟩ := settles (due_of due) (due_of due')
  rw [same]
  exact ⟨.same _, f, fun _ _ => rfl, M.withStore _ _, stores⟩

/-- Programs that refuse if an allocation does, which they do on both sides then. -/
theorem Meet.of_outcome {o o' : Except StorageError Block} {p q : Except Fault (Answer × Session)}
    (same : (∀ e, o = .error e → e.IsDue heap) → (∀ e, o' = .error e → e.IsDue heap) → o' = o)
    (refuses : ∀ e, o = .error e → p = .ok (.refused (.allocation e), s))
    (refuses' : ∀ e, o' = .error e → q = .ok (.refused (.allocation e), t))
    (rest : o' = o → Meet heap u f act p q) : Meet heap u f act p q := by
  intro a a' run run' due due'
  refine rest (same (fun e he => ?_) fun e he => ?_) a a' run run' due due'
  · obtain rfl := Except.ok.inj ((refuses e he).symm.trans run)
    exact due
  · obtain rfl := Except.ok.inj ((refuses' e he).symm.trans run')
    exact due'

/-! ## 2. Looking -/

/-- The records of several buffers, each described. -/
theorem describeAll_eq {w : Store} {rs : List RecordId}
    (known : ∀ r ∈ rs, ∃ x, w.records.get? r = some x) :
    ∃ xs : List Record, rs.mapM (fun r => (w.record r).map Record.describe)
      = .ok (xs.map Record.describe) := by
  induction rs with
  | nil => exact ⟨[], rfl⟩
  | cons r rest ih =>
    obtain ⟨x, hx⟩ := known r List.mem_cons_self
    obtain ⟨xs, described⟩ := ih fun j hj => known j (List.mem_cons_of_mem _ hj)
    refine ⟨x :: xs, ?_⟩
    rw [List.mapM_cons, Store.record_of_get? hx, described]
    rfl

theorem describeCache_eq {W : World} {z : Cache} (h : W.Sound)
    (hs : W.store.caches.get? c = some z) : ∃ slots, describeCache W.store c
      = .ok (cacheText c z.lists.entries.length slots z.reserve.cap) := by
  have known : ∀ r ∈ z.reserve.slots.reverse, ∃ x, W.store.records.get? r = some x := by
    intro r hr
    obtain ⟨x, hx, -⟩ := h.known_slots hs r (List.mem_reverse.1 hr)
    exact ⟨x, hx⟩
  obtain ⟨slots, described⟩ := describeAll_eq known
  refine ⟨slots, ?_⟩
  rw [describeCache, Store.cacheAt_of_get? h.calm hs, Fault.ok_bind,
    Store.cacheAt_of_get? h.calm hs, Fault.ok_bind, described]
  rfl

namespace Twin

theorem describe (T : Twin heap f s t) (subject : Subject) :
    Meet heap s.store f (.describe subject) (s.perform (.describe subject))
      (t.perform (.describe subject)) := by
  cases subject with
  | buffer name =>
    refine T.withHandle fun b _ held => ?_
    obtain ⟨x, y, hx, hy, -, like⟩ := T.stores.exists_like (T.stores.used_of_held held)
    rw [describeHandle, describeHandle, Store.record_of_get? hx,
      Store.record_of_get? (r := (b.rename f).record) hy]
    exact .of_twin T (.describeBuffer like (T.stores.publisher_eq held hx hy like))
  | cache name =>
    refine T.withCache fun c _ owned => ?_
    obtain ⟨x, y, hx, hy, face⟩ := T.stores.exists_cache owned
    obtain ⟨slots, run⟩ := describeCache_eq T.stores.left.sound hx
    obtain ⟨slots', run'⟩ := describeCache_eq T.stores.right.sound hy
    have images : y.lists.entries.length = x.lists.entries.length := by
      refine Lists.length_entries_eq fun k => ?_
      rw [show y.lists.find? k = (x.lists.find? k).map (List.map f) from
        congrFun (congrArg Face.lists face) k, Option.isSome_map]
    rw [run, run', images]
    exact .of_twin T .describeCache
  | image name => exact T.withImage fun _ => .same T _

theorem inspect (T : Twin heap f s t) (cache : String) :
    Meet heap s.store f (.inspect cache) (s.perform (.inspect cache))
      (t.perform (.inspect cache)) := by
  refine T.withCache fun c _ owned => ?_
  obtain ⟨x, y, hx, hy, face⟩ := T.stores.exists_cache owned
  have thread : y.thread = x.thread := congrArg Face.thread face
  rw [Store.cacheAt_of_get? T.stores.left.sound.calm hx,
    Store.cacheAt_of_get? T.stores.right.sound.calm hy, T.thread_eq]
  simp only [Fault.ok_bind, Fault.pure_eq, thread]
  exact .of_twin T .inspect

theorem list (T : Twin heap f s t) (cache image : String) :
    Meet heap s.store f (.list cache image) (s.perform (.list cache image))
      (t.perform (.list cache image)) := by
  refine T.withCache fun c _ _ => T.withImage fun i => ?_
  rw [T.stores.listing_eq]
  cases listing s.store c i.key with
  | error => exact fun _ _ run => nomatch run
  | ok shown => cases shown <;> exact .same T _

theorem sameRecord (T : Twin heap f s t) (buffer other : String) :
    Meet heap s.store f (.sameRecord buffer other) (s.perform (.sameRecord buffer other))
      (t.perform (.sameRecord buffer other)) := by
  refine T.withHandle fun b _ held => T.withHandle fun d _ held' => ?_
  have same : f b.record = f d.record ↔ b.record = d.record :=
    ⟨T.stores.views.injective _ _ (T.stores.used_of_held held) (T.stores.used_of_held held'),
      congrArg f⟩
  have flag : ((b.rename f).record == (d.rename f).record) = (b.record == d.record) := by
    rw [Handle.rename_record, Handle.rename_record, Bool.eq_iff_iff]
    simpa using same
  rw [flag]
  exact .same T _

theorem readPixels (T : Twin heap f s t) (buffer : String) :
    Meet heap s.store f (.readPixels buffer) (s.perform (.readPixels buffer))
      (t.perform (.readPixels buffer)) := by
  refine T.withHandle fun b _ held => ?_
  obtain ⟨x, y, hx, hy, -, like⟩ := T.stores.exists_like (T.stores.used_of_held held)
  have sizes := T.stores.sizes_eq hx hy like
  rw [Store.record_of_get? hx, Store.record_of_get? (r := (b.rename f).record) hy, Fault.ok_bind,
    Fault.ok_bind]
  cases shown : x.pixels with
  | none =>
    have none : y.pixels = .none := by simpa [shown] using sizes
    rw [none]
    exact .same T _
  | some p =>
    rw [shown, Option.map_some] at sizes
    obtain ⟨p', shown', size⟩ := Option.map_eq_some_iff.1 sizes
    rw [shown']
    exact .of_twin T (.pixels size)

theorem environmentConfig (T : Twin heap f s t) :
    Meet heap s.store f .environmentConfig (s.perform .environmentConfig)
      (t.perform .environmentConfig) := by
  simp only [perform, T.stores.environmentConfig_eq]
  cases s.store.environmentConfig <;> exact .same T _

theorem incomplete (T : Twin heap f s t) (names : List (Kind × String)) (field : String) :
    Meet heap s.store f (.incomplete names field) (s.perform (.incomplete names field))
      (t.perform (.incomplete names field)) := by
  simp only [perform, T.knows_eq]
  split <;> exact .same T _

/-! ## 3. Allocators and blocks -/

theorem newAllocator (T : Twin heap f s t) (name : String) :
    Meet heap s.store f (.newAllocator name none) (s.perform (.newAllocator name none))
      (t.perform (.newAllocator name none)) := by
  obtain ⟨same, stores⟩ := T.stores.createAllocator
  have allocators : t.allocators.put name (t.store.createAllocator none).1
      = s.allocators.put name (s.store.createAllocator none).1 := by rw [same, T.allocators]
  have made : Twin heap f
      { s with
        store := (s.store.createAllocator none).2
        allocators := s.allocators.put name (s.store.createAllocator none).1 }
      { t with
        store := (t.store.createAllocator none).2
        allocators := t.allocators.put name (t.store.createAllocator none).1 } :=
    ⟨⟨T.frame, T.waiting, allocators, T.images, T.nextThread⟩, stores⟩
  exact .same made .done

/-- Both sides take a block, or neither does, if the refusals are due. -/
theorem allocateBlock (T : Twin heap f s t) {a : AllocatorId}
    (known : (s.store.allocators.get? a).isSome = true) (size : Nat) :
    ∃ o o' w v, s.allocateBlock a size = .ok (o, s.withStore w) ∧
      t.allocateBlock a size = .ok (o', t.withStore v) ∧
      ((∀ e, o = .error e → e.IsDue heap) → (∀ e, o' = .error e → e.IsDue heap) → o' = o) ∧
      (w.allocators.get? a).isSome = true ∧ Store.Twins heap f s.handles s.shares w v := by
  obtain ⟨x, y, hx, hy, unlimited, unlimited'⟩ := T.stores.exists_allocator known
  have on : s.store.host.heap = heap := T.stores.views.unlimited.on
  have on' : t.store.host.heap = heap := T.stores.views.unlimited_right.on
  refine ⟨(x.allocate heap size).1, (y.allocate heap size).1, _, _, ?_, ?_, fun due due' => ?_, ?_,
    T.stores.setAllocator hx hy (x.limit_allocate heap size) (y.limit_allocate heap size)⟩
  · rw [Session.allocateBlock, Store.allocator_of_get? hx, on]
    rfl
  · rw [Session.allocateBlock, Store.allocator_of_get? hy, on']
    rfl
  · rw [Allocator.allocate_of_due unlimited due, Allocator.allocate_of_due unlimited' due']
  · simpa using known

theorem allocateNamed (T : Twin heap f s t) (sound : s.Sound out) (allocator : String) (size : Nat)
    (name : String) :
    Meet heap s.store f (.allocateBlock allocator size name)
      (s.perform (.allocateBlock allocator size name))
      (t.perform (.allocateBlock allocator size name)) := by
  refine T.withAllocator fun a ha => ?_
  obtain ⟨o, o', w, v, run, run', same, -, stores⟩ := T.allocateBlock (sound.known _ a ha) size
  simp only [run, run', Fault.ok_bind]
  refine Meet.of_outcome (s := s.withStore w) (t := t.withStore v) same (fun e he => ?_)
    (fun e he => ?_) fun agree => ?_
  · rw [he]
    rfl
  · rw [he]
    rfl
  subst agree
  cases o' with
  | error e => exact .same (T.withStore stores) _
  | ok block =>
    have named := (T.withBlocks (s.frame.blocks.put name ⟨a, block⟩)).withStore w v
    have blocks : (t.withStore v).frame.blocks = s.frame.blocks := T.blocks_eq
    simp only [blocks]
    exact .same ⟨named, stores⟩ _

theorem freeBlock (T : Twin heap f s t) (sound : s.Sound out) (allocator block : String)
    (truncate : Option Nat) :
    Meet heap s.store f (.freeBlock allocator block truncate)
      (s.perform (.freeBlock allocator block truncate))
      (t.perform (.freeBlock allocator block truncate)) := by
  refine T.withAllocator fun a ha => T.withBlock fun loan => ?_
  have freed : ∀ shortened : Block, Meet heap s.store f (.freeBlock allocator block truncate)
      (s.store.giveBack a shortened >>= fun w =>
        .ok (.done, (s.withBlocks (s.frame.blocks.erase block)).withStore w))
      (t.store.giveBack a shortened >>= fun v =>
        .ok (.done, (t.withBlocks (t.frame.blocks.erase block)).withStore v)) := by
    intro shortened
    obtain ⟨w, v, run, run', stores⟩ := T.stores.giveBack (sound.known _ a ha) shortened
    rw [run, run', T.blocks_eq]
    exact .same ⟨(T.withBlocks (s.frame.blocks.erase block)).withStore w v, stores⟩ _
  exact freed _

theorem allocateShared (T : Twin heap f s t) (size : Nat) :
    Meet heap s.store f (.allocateShared size) (s.perform (.allocateShared size))
      (t.perform (.allocateShared size)) := by
  obtain ⟨same, known, stores⟩ := T.stores.sharedAllocator
  obtain ⟨o, o', w, v, run, run', agree, known, stores'⟩ :=
    (T.withStore stores).allocateBlock known size
  simp only [perform, same, run, run', Fault.ok_bind]
  refine Meet.of_outcome (s := s.withStore w) (t := t.withStore v) agree (fun e he => ?_)
    (fun e he => ?_) fun agree => ?_
  · rw [he]
    rfl
  · rw [he]
    rfl
  subst agree
  cases o' with
  | error e => exact .same (T.withStore stores') _
  | ok block =>
    obtain ⟨w', v', back, back', stores''⟩ := stores'.giveBack known block
    simp only [Session.withStore] at back back' ⊢
    rw [back, back']
    exact .same (T.withStore stores'') _

/-! ## 4. Settings, images and threads -/

theorem newImage (T : Twin heap f s t) (name : String) (bytesPerPixel : Nat) (key : Option Nat) :
    Meet heap s.store f (.newImage name bytesPerPixel key)
      (s.perform (.newImage name bytesPerPixel key))
      (t.perform (.newImage name bytesPerPixel key)) := by
  have named : ∀ (i : Image) {w v : Store}, Store.Twins heap f s.handles s.shares w v →
      Meet heap s.store f (.newImage name bytesPerPixel key)
        (.ok (.image i, { s with store := w, images := s.images.put name i }))
        (.ok (.image i, { t with store := v, images := t.images.put name i })) := by
    intro i w v stores
    have twin : Twin heap f { s with store := w, images := s.images.put name i }
        { t with store := v, images := t.images.put name i } :=
      ⟨⟨T.frame, T.waiting, T.allocators, congrArg (Names.put · name i) T.images, T.nextThread⟩,
        stores⟩
    exact .same twin _
  cases key with
  | some raw =>
    simp only [perform, Session.newImage, T.stores.host_eq]
    exact named _ T.stores
  | none =>
    have made := named ⟨.fresh s.store.freshKeys, bytesPerPixel⟩ T.stores.addKey
    simp only [perform, Session.newImage, T.stores.freshKeys_eq] at made ⊢
    exact made

theorem install (T : Twin heap f s t) (cap cap' : Nat) :
    Meet heap s.store f (.install cap) (s.perform (.install cap)) (t.perform (.install cap')) := by
  obtain ⟨same, stores⟩ := T.stores.install ⟨cap⟩ ⟨cap'⟩
  simp only [perform, same]
  exact .same (T.withStore stores) _

theorem installAllocator (T : Twin heap f s t) (sound : s.Sound out) (allocator : String) :
    Meet heap s.store f (.installAllocator allocator) (s.perform (.installAllocator allocator))
      (t.perform (.installAllocator allocator)) := by
  refine T.withAllocator fun a ha => ?_
  obtain ⟨same, stores⟩ := T.stores.installAllocator (sound.known _ a ha)
  simp only [same]
  exact .same (T.withStore stores) _

theorem sharedConfig (T : Twin heap f s t) :
    Meet heap s.store f .sharedConfig (s.perform .sharedConfig) (t.perform .sharedConfig) :=
  .of_twin (T.withStore T.stores.sharedConfig) .sharedConfig

theorem enterThread (T : Twin heap f s t) :
    Meet heap s.store f .enterThread (s.perform .enterThread) (t.perform .enterThread) := by
  have twin : Twin heap f
      { s with
        nextThread := s.nextThread + 1
        frame := .start s.nextThread
        waiting := s.frame :: s.waiting }
      { t with
        nextThread := t.nextThread + 1
        frame := .start t.nextThread
        waiting := t.frame :: t.waiting } := by
    refine ⟨⟨?_, ?_, T.allocators, T.images, congrArg (· + 1) T.nextThread⟩, ?_⟩
    · rw [T.nextThread]
      rfl
    · rw [T.frame, T.waiting]
      rfl
    · have stores := T.stores
      simpa [handles, shares] using stores
  exact .same twin .done

theorem leaveThread (T : Twin heap f s t) :
    Meet heap s.store f .leaveThread (s.perform .leaveThread) (t.perform .leaveThread) := by
  obtain ⟨s', t', run, run', T', unheld, unowned⟩ := T.closeFrame
  simp only [perform, run, run', Fault.ok_bind, T'.waiting]
  cases rest : s'.waiting with
  | nil => exact .same T' .done
  | cons F Fs =>
    have twin : Twin heap f { s' with frame := F, waiting := Fs }
        { t' with frame := F.rename f, waiting := Fs.map (Frame.rename f) } := by
      refine ⟨⟨rfl, rfl, T'.allocators, T'.images, T'.nextThread⟩, ?_⟩
      have stores := T'.stores
      simpa [handles, shares, unheld, unowned, rest] using stores
    exact .same twin .done

/-- The running thread gets another binding, and the shares of its old one go. -/
theorem rebound {thread : Thread} (T : Twin heap f s t)
    (stores : Store.Twins heap f s.handles (thread.binding.owned + s.looseShares) w v) :
    Twin heap f ((s.withThread thread).withStore w) ((t.withThread thread).withStore v) := by
  rw [← shares_withThread] at stores
  exact ⟨(T.withThread thread).withStore w v, stores⟩

/-- The stores, with the share of the running thread's binding apart. -/
theorem stores_apart (T : Twin heap f s t) :
    Store.Twins heap f s.handles (s.frame.thread.binding.owned + s.looseShares) s.store t.store :=
  s.shares_eq ▸ T.stores

theorem destroyBinding (T : Twin heap f s t) :
    Meet heap s.store f .destroyBinding (s.perform .destroyBinding)
      (t.perform .destroyBinding) := by
  obtain ⟨thread, w, v, run, run', destroyed, stores⟩ := T.stores_apart.destroyBinding
  simp only [perform, T.thread_eq, run, run', Fault.ok_bind]
  refine .same (T.rebound ?_) .done
  simpa [destroyed] using stores

theorem unbind (T : Twin heap f s t) :
    Meet heap s.store f .unbind (s.perform .unbind) (t.perform .unbind) := by
  obtain ⟨⟨was, thread⟩, w, v, run, run', stores⟩ := T.stores_apart.unbind
  simp only [perform, T.thread_eq, run, run', Fault.ok_bind]
  exact .same (T.rebound stores) _

/-! ## 5. Caches -/

theorem newCache (T : Twin heap f s t) (name : String) (a : Option AllocatorId)
    (known : ∀ i, a = some i → (s.store.allocators.get? i).isSome = true) (cap cap' : Option Nat) :
    Meet heap s.store f act (s.newCache name a cap) (t.newCache name a cap') := by
  have named : ∀ {c c' : CacheId} {w v : Store},
      c' = c ∧ Store.Twins heap f s.handles (c ::ₘ s.shares) w v →
      Meet heap s.store f act ((s.withStore w).nameCache name c >>= fun s' => .ok (.number c, s'))
        ((t.withStore v).nameCache name c' >>= fun t' => .ok (.number c', t')) := by
    rintro c _ w v ⟨rfl, stores⟩
    exact .of_named (T.nameCache stores name) (.same _)
  unfold Session.newCache
  rw [T.thread_eq]
  cases a with
  | some a => exact named (T.stores.createCache _ _ _ (known a rfl))
  | none => exact named (T.stores.createWithConfig _ _ _)

theorem shareCache (T : Twin heap f s t) (cache name : String) :
    Meet heap s.store f (.shareCache cache name) (s.perform (.shareCache cache name))
      (t.perform (.shareCache cache name)) :=
  T.withCache fun _ _ owned =>
    .of_named (T.nameCache (T.stores.addOwner owned) name) (.same .done)

theorem dropCache (T : Twin heap f s t) (cache : String) :
    Meet heap s.store f (.dropCache cache) (s.perform (.dropCache cache))
      (t.perform (.dropCache cache)) := by
  refine T.withCache fun c hc _ => ?_
  have stores := T.stores
  rw [s.shares_erase cache, hc, Option.toList_some, Multiset.coe_singleton,
    Multiset.singleton_add] at stores
  obtain ⟨w, v, run, run', stores'⟩ := stores.dropOwner
  rw [run, run', T.caches_eq]
  exact .same ⟨(T.withCaches (s.frame.caches.erase cache)).withStore w v, stores'⟩ .done

theorem emptyReserve (T : Twin heap f s t) (cache : String) :
    Meet heap s.store f (.emptyReserve cache) (s.perform (.emptyReserve cache))
      (t.perform (.emptyReserve cache)) := by
  refine T.withCache fun c _ owned => ?_
  obtain ⟨n, n', w, v, run, run', stores⟩ := T.stores.emptyReserve owned
  rw [run, run']
  exact .of_twin (T.withStore stores) .emptyReserve

theorem current (T : Twin heap f s t) (name : Option String) :
    Meet heap s.store f (.current name) (s.perform (.current name))
      (t.perform (.current name)) := by
  obtain ⟨same, stores⟩ := T.stores_apart.current
  simp only [perform, T.thread_eq]
  generalize s.frame.thread.current s.store = result at same stores ⊢
  generalize s.frame.thread.current t.store = result' at same stores ⊢
  obtain ⟨⟨c, thread⟩, w⟩ := result
  obtain ⟨⟨c', thread'⟩, v⟩ := result'
  obtain ⟨rfl, rfl⟩ := Prod.mk.inj same
  obtain ⟨V, V', view, view', like⟩ := stores.exists_cacheView (Multiset.mem_cons_self ..)
  simp only [← shares_withThread] at stores
  simp only [view, view', Fault.ok_bind]
  exact .of_named ((T.withThread thread').nameOrDropCache stores name) (.cache like)

theorem bind (T : Twin heap f s t) (cache : String) (name : Option String) :
    Meet heap s.store f (.bind cache name) (s.perform (.bind cache name))
      (t.perform (.bind cache name)) := by
  refine T.withCache fun c _ owned => ?_
  have shared := T.stores.addOwner owned
  rw [s.shares_eq] at shared
  obtain ⟨⟨outcome, thread⟩, w, v, run, run', stores⟩ := shared.bind
  simp only [T.thread_eq, run, run', Fault.ok_bind]
  simp only [← shares_withThread] at stores
  cases outcome with
  | error e =>
    rw [World.returned, zero_add] at stores
    exact .same ⟨(T.withThread thread).withStore w v, stores⟩ _
  | ok previous =>
    cases previous with
    | none =>
      rw [World.returned, zero_add] at stores
      exact .same ⟨(T.withThread thread).withStore w v, stores⟩ _
    | some previous =>
      rw [World.returned, Multiset.singleton_add] at stores
      exact .of_named ((T.withThread thread).nameOrDropCache stores name) (.same _)

/-! ## 6. Buffers -/

theorem acquire (T : Twin heap f s t) (cache image : String) (area : Rect) (name : String) :
    Meet heap s.store f (.acquire cache image area name)
      (s.perform (.acquire cache image area name))
      (t.perform (.acquire cache image area name)) := by
  refine T.withCache fun c _ owned => T.withImage fun i => ?_
  obtain ⟨a, a', run, run', gives⟩ := T.stores.acquire owned i area
  rw [run, run']
  exact T.nameOutcome gives name

theorem request (T : Twin heap f s t) (cache image : String) (area : Rect) (name : String) :
    Meet heap s.store f (.request cache image area name)
      (s.perform (.request cache image area name))
      (t.perform (.request cache image area name)) := by
  refine T.withCache fun c _ owned => T.withImage fun i => ?_
  obtain ⟨a, a', run, run', gives⟩ := T.stores.request owned i area
  rw [run, run']
  exact T.nameOutcome gives name

theorem requestHere (T : Twin heap f s t) (image : String) (area : Rect) (name : String) :
    Meet heap s.store f (.requestHere image area name) (s.perform (.requestHere image area name))
      (t.perform (.requestHere image area name)) := by
  refine T.withImage fun i => ?_
  obtain ⟨o, o', thread, w, v, run, run', gives⟩ := T.stores_apart.requestHere i area
  rw [← shares_withThread] at gives
  rw [T.thread_eq, run, run']
  exact (T.withThread thread).nameOutcome gives name

theorem lookup (T : Twin heap f s t) (cache image : String) (area : Rect) (name : String) :
    Meet heap s.store f (.lookup cache image area name) (s.perform (.lookup cache image area name))
      (t.perform (.lookup cache image area name)) := by
  refine T.withCache fun c _ owned => T.withImage fun i => ?_
  rcases T.stores.lookup owned i area with ⟨run, run'⟩ | ⟨b, w, v, run, run', stores⟩
  · rw [run, run']
    exact .same T _
  · rw [run, run']
    exact T.nameOutcome (.found stores) name

theorem copyHandle (T : Twin heap f s t) (buffer name : String) :
    Meet heap s.store f (.copyHandle buffer name) (s.perform (.copyHandle buffer name))
      (t.perform (.copyHandle buffer name)) := by
  refine T.withHandle fun b _ held => ?_
  obtain ⟨w, v, run, run', stores⟩ := T.stores.copyHandle held
  rw [run, run']
  exact T.nameOutcome (.found stores) name

theorem exchange (T : Twin heap f s t) (cache image : String) (area : Rect) (buffer : Option String)
    (name : String) :
    Meet heap s.store f (.exchange cache image area buffer name)
      (s.perform (.exchange cache image area buffer name))
      (t.perform (.exchange cache image area buffer name)) := by
  refine T.withCache fun c _ owned => T.withImage fun i => T.withHandle? ?_
  have stores := T.stores
  rw [s.handles_forget buffer] at stores
  obtain ⟨a, a', run, run', gives⟩ := stores.exchange owned i area
  rw [run, run']
  have shares : (s.forgetHandle? buffer).shares = s.shares := by cases buffer <;> rfl
  rw [← shares] at gives
  exact (T.forgetHandle? buffer).nameOutcome gives name

theorem exchangeOwn (T : Twin heap f s t) (image : String) (area : Rect) (buffer : Option String)
    (name : String) :
    Meet heap s.store f (.exchangeOwn image area buffer name)
      (s.perform (.exchangeOwn image area buffer name))
      (t.perform (.exchangeOwn image area buffer name)) := by
  refine T.withImage fun i => T.withHandle? ?_
  have stores := T.stores_apart
  rw [s.handles_forget buffer] at stores
  obtain ⟨o, o', thread, w, v, run, run', gives⟩ := stores.exchangeHere i area
  rw [T.thread_eq, run, run']
  have loose : (s.forgetHandle? buffer).looseShares = s.looseShares := by cases buffer <;> rfl
  rw [← loose, ← shares_withThread] at gives
  exact ((T.forgetHandle? buffer).withThread thread).nameOutcome gives name

theorem publish (T : Twin heap f s t) (cache buffer : String) :
    Meet heap s.store f (.publish cache buffer) (s.perform (.publish cache buffer))
      (t.perform (.publish cache buffer)) :=
  T.withCache fun _ _ owned => T.withHandle fun _ _ held =>
    .of_settles T.toMates (T.stores.publish held owned)

theorem unpublish (T : Twin heap f s t) (cache buffer : String) :
    Meet heap s.store f (.unpublish cache buffer) (s.perform (.unpublish cache buffer))
      (t.perform (.unpublish cache buffer)) :=
  T.withCache fun c _ _ => T.withHandle fun _ _ held =>
    .of_settles T.toMates (T.stores.unpublish held c)

theorem resize (T : Twin heap f s t) (cache buffer : String) (area : Rect) (viewHeld : Bool) :
    Meet heap s.store f (.resize cache buffer area viewHeld)
      (s.perform (.resize cache buffer area viewHeld))
      (t.perform (.resize cache buffer area viewHeld)) :=
  T.withCache fun c _ _ => T.withHandle fun _ _ held =>
    .of_settles T.toMates (T.stores.resize held c area viewHeld)

theorem publishOwn (T : Twin heap f s t) (buffer : String) :
    Meet heap s.store f (.publishOwn buffer) (s.perform (.publishOwn buffer))
      (t.perform (.publishOwn buffer)) :=
  T.withHandle fun _ _ held =>
    .of_settles T.toMates (T.stores.publishOwn held)

theorem unpublishOwn (T : Twin heap f s t) (buffer : String) :
    Meet heap s.store f (.unpublishOwn buffer) (s.perform (.unpublishOwn buffer))
      (t.perform (.unpublishOwn buffer)) :=
  T.withHandle fun _ _ held =>
    .of_settles T.toMates (T.stores.unpublishOwn held)

/-- The stores, with the handle of a name apart. -/
theorem stores_forget {buffer : String} {b : Handle} (T : Twin heap f s t)
    (found : s.frame.handles.get? buffer = some b) :
    Store.Twins heap f (b ::ₘ (s.forgetHandle? (some buffer)).handles) s.shares
      s.store t.store := by
  have stores := T.stores
  rwa [s.handles_erase buffer, found, Option.toList_some, Multiset.coe_singleton,
    Multiset.singleton_add] at stores

theorem release (T : Twin heap f s t) (cache buffer : String) :
    Meet heap s.store f (.release cache buffer) (s.perform (.release cache buffer))
      (t.perform (.release cache buffer)) :=
  T.withCache fun c _ _ => T.withHandle fun _ hb _ =>
    .of_settles (T.forgetHandle? (some buffer)) ((T.stores_forget hb).release c)

theorem dropHandle (T : Twin heap f s t) (buffer : String) :
    Meet heap s.store f (.dropHandle buffer) (s.perform (.dropHandle buffer))
      (t.perform (.dropHandle buffer)) := by
  refine T.withHandle fun b hb _ => ?_
  obtain ⟨w, v, run, run', stores⟩ := (T.stores_forget hb).dropHandle
  rw [run, run']
  exact .same ⟨(T.forgetHandle? (some buffer)).withStore w v, stores⟩ _

theorem writePixels (T : Twin heap f s t) (buffer : String) (fill : Nat → UInt8) :
    Meet heap s.store f (.writePixels buffer fill) (s.perform (.writePixels buffer fill))
      (t.perform (.writePixels buffer fill)) := by
  refine T.withHandle fun b _ held => ?_
  obtain ⟨x, y, hx, hy, -, like⟩ := T.stores.exists_like (T.stores.used_of_held held)
  rw [Session.writePixels, Session.writePixels, Store.record_of_get? hx,
    Store.record_of_get? (r := (b.rename f).record) hy, Fault.ok_bind, Fault.ok_bind]
  rcases T.stores.write held fill hx hy like with ⟨none, none'⟩ |
    ⟨n, x', y', written, written', stores⟩
  · rw [none, none']
    exact .same T _
  · rw [written, written']
    exact .same (T.withStore stores) _

end Twin

end Session

end PixelPool
