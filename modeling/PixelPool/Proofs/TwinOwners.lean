import PixelPool.Proofs.TwinRequests

/-!
Owners of caches, settings and allocators on two stores that are twins.

Caches have the same names on both sides, whatever the caps of their reserves: a cache that is made
has the name that is next.
-/

namespace PixelPool

variable {heap : Heap} {f : RecordId → RecordId} {c : CacheId} {a : AllocatorId}
  {w v : Store}  {H : Multiset Handle} {O : Multiset CacheId}

/-! ## 1. Allocators without limit -/

/-- An allocator without limit refuses a request only if the heap has no room, or if its total of
live bytes would pass what a word can count. The latter refusal is not due. -/
theorem Allocator.allocate_of_due {s : Allocator} {n : Nat} (unlimited : s.limit = none)
    (due : ∀ e, (s.allocate heap n).1 = .error e → e.IsDue heap) :
    (s.allocate heap n).1
      = if heap.Grants n then .ok (.zeroed n) else .error (.outOfMemory n) := by
  cases answer : s.allocate heap n with
  | mk outcome after =>
    cases outcome with
    | ok b =>
      obtain ⟨rfl, room⟩ := allocate_eq_ok answer
      rw [if_pos room]
    | error e =>
      obtain rfl | ⟨limit, limited, -⟩ := allocate_eq_error answer
      · have full : ¬ heap.Grants n := due (.outOfMemory n) (by rw [answer])
        rw [if_neg full]
      · simp [unlimited] at limited

namespace Store.Twins

/-! ## 2. Owners -/

theorem unused_of_shelved {W : World} {s : Cache} (h : W.Sound)
    (hs : W.store.caches.get? c = some s) : ∀ r ∈ s.reserve.slots, W.store.view.sight r = none := by
  intro r hr
  obtain ⟨x, hx, -, -, image, -⟩ := h.idle_of_slot hs hr
  rw [sight_of_get? hx, Record.sight, image]
  rfl

/-- The buffers that a cache lists are the same on both sides. -/
theorem mem_all_iff (T : Twins heap f H O w v) {s s' : Cache} (hs : w.caches.get? c = some s)
    (hs' : v.caches.get? c = some s') {r : RecordId} (used : w.view.sight r ≠ none) :
    f r ∈ s'.lists.all ↔ r ∈ s.lists.all := by
  have members : ∀ k, s'.lists.members k = (s.lists.members k).map f := by
    intro k
    rw [← listOf_of_get? hs, ← listOf_of_get? hs', T.listOf_eq]
  simp only [Lists.mem_all_iff, members, List.mem_map]
  refine ⟨fun ⟨k, j, hj, same⟩ => ⟨k, ?_⟩, fun ⟨k, hk⟩ => ⟨k, r, hk, rfl⟩⟩
  have listed : w.view.sight j ≠ none :=
    T.used_of_listed (c := c) (k := k) (by rwa [listOf_of_get? hs])
  rwa [← T.views.injective j r listed used same]

theorem dropOwner (T : Twins heap f H (c ::ₘ O) w v) :
    ∃ w' v', w.dropOwner c = .ok w' ∧ v.dropOwner c = .ok v' ∧ Twins heap f H O w' v' := by
  obtain ⟨s, s', hs, hs', face⟩ := T.exists_cache (Multiset.mem_cons_self c O)
  have owners : s'.owners = s.owners := congrArg Face.owners face
  have leads : ∀ {w' v' : Store}, w.dropOwner c = .ok w' → v.dropOwner c = .ok v' →
      w'.view.Twin heap f v'.view → Twins heap f H O w' v' := by
    intro w' v' run run' views
    obtain ⟨_, left, rfl⟩ := T.left.leads run
      (World.dropOwner_does T.left.sound World.any_quiet rfl)
    obtain ⟨_, right, rfl⟩ := T.right.leads run'
      (World.dropOwner_does T.right.sound World.any_quiet rfl)
    exact ⟨left, right, views⟩
  obtain ⟨last, run⟩ | ⟨more, run⟩ := World.dropOwner_eq T.left.sound hs
  · obtain ⟨-, run'⟩ | ⟨more', -⟩ := World.dropOwner_eq T.right.sound hs'
    · refine ⟨_, _, run, run', leads run run' ?_⟩
      rw [view_tornDown (unused_of_shelved T.left.sound hs),
        view_tornDown (unused_of_shelved T.right.sound hs')]
      exact T.views.tornDown fun r used => T.mem_all_iff hs hs' used
    · omega
  · obtain ⟨last', -⟩ | ⟨-, run'⟩ := World.dropOwner_eq T.right.sound hs'
    · omega
    · refine ⟨_, _, run, run', leads run run' ?_⟩
      rw [view_unshared hs, view_unshared hs']
      exact T.views.touch fun _ _ => rfl

theorem addOwner (T : Twins heap f H O w v) (owned : c ∈ O) :
    Twins heap f H (c ::ₘ O) (w.addOwner c) (v.addOwner c) where
  left := T.left.reaches (World.addOwner_reaches T.left.sound World.any_quiet owned)
  right := T.right.reaches (World.addOwner_reaches T.right.sound World.any_quiet owned)
  views := by
    rw [view_addOwner, view_addOwner]
    exact T.views.touch fun _ _ => rfl

theorem emptyReserve (T : Twins heap f H O w v) (owned : c ∈ O) :
    ∃ n n' w' v', w.emptyReserve c = .ok (n, w') ∧ v.emptyReserve c = .ok (n', v') ∧
      Twins heap f H O w' v' := by
  obtain ⟨s, s', hs, hs', -⟩ := T.exists_cache owned
  have run := emptyReserve_eq T.left.sound.calm hs (T.left.sound.tidy c s hs).distinct
    (T.left.sound.known_slots hs)
  have run' := emptyReserve_eq T.right.sound.calm hs' (T.right.sound.tidy c s' hs').distinct
    (T.right.sound.known_slots hs')
  obtain ⟨_, left, rfl⟩ := T.left.leads run
    (World.emptyReserve_does T.left.sound trivial owned)
  obtain ⟨_, right, rfl⟩ := T.right.leads run'
    (World.emptyReserve_does T.right.sound trivial owned)
  refine ⟨_, _, _, _, run, run', left, right, ?_⟩
  dsimp only
  rw [view_emptied hs (unused_of_shelved T.left.sound hs),
    view_emptied hs' (unused_of_shelved T.right.sound hs')]
  exact T.views

/-! ## 3. Blocks -/

theorem isSome_allocators_eq (T : Twins heap f H O w v) (a : AllocatorId) :
    (v.allocators.get? a).isSome = (w.allocators.get? a).isSome := by
  have limit := congrArg (fun G : Ground => (G.limit a).isSome) T.views.ground
  simpa [view, ground] using limit

/-- Known allocators exist on both sides, and have no limit. -/
theorem exists_allocator (T : Twins heap f H O w v)
    (known : (w.allocators.get? a).isSome = true) :
    ∃ s s', w.allocators.get? a = some s ∧ v.allocators.get? a = some s' ∧ s.limit = none ∧
      s'.limit = none := by
  obtain ⟨s, hs⟩ := Option.isSome_iff_exists.1 known
  obtain ⟨s', hs'⟩ := Option.isSome_iff_exists.1 ((T.isSome_allocators_eq a).trans known)
  have limit := congrArg (fun G : Ground => G.limit a) T.views.ground
  have same : s'.limit = s.limit := by simpa [view, ground, hs, hs'] using limit
  have unlimited : s.limit = none :=
    T.views.unlimited.limits a s.limit (by simp [view, ground, hs])
  exact ⟨s, s', hs, hs', unlimited, same.trans unlimited⟩

theorem setAllocator (T : Twins heap f H O w v) {s s' s₁ s₁' : Allocator}
    (hs : w.allocators.get? a = some s) (hs' : v.allocators.get? a = some s')
    (same : s₁.limit = s.limit) (same' : s₁'.limit = s'.limit) :
    Twins heap f H O (w.setAllocator a s₁) (v.setAllocator a s₁') where
  left := ⟨T.left.sound.setAllocator a s₁ 0, T.left.covered⟩
  right := ⟨T.right.sound.setAllocator a s₁' 0, T.right.covered⟩
  views := by
    rw [view_setAllocator hs same, view_setAllocator hs' same']
    exact T.views

theorem giveBack (T : Twins heap f H O w v) (known : (w.allocators.get? a).isSome = true)
    (block : Block) :
    ∃ w' v', w.giveBack a block = .ok w' ∧ v.giveBack a block = .ok v' ∧
      Twins heap f H O w' v' := by
  obtain ⟨s, s', hs, hs', -⟩ := T.exists_allocator known
  refine ⟨_, _, ?_, ?_, T.setAllocator hs hs' (s.limit_free block) (s'.limit_free block)⟩
  · rw [Store.giveBack, allocator_of_get? hs]
    rfl
  · rw [Store.giveBack, allocator_of_get? hs']
    rfl

/-! ## 4. Settings and new caches -/

theorem nextCache_eq (T : Twins heap f H O w v) : v.caches.next = w.caches.next :=
  congrArg Ground.nextCache T.views.ground

/-- Both sides make a cache, with whatever caps. -/
theorem createCache (T : Twins heap f H O w v) (t : ThreadId) (config config' : Config)
    {a : AllocatorId} (known : (w.allocators.get? a).isSome = true) :
    (v.createCache t config' a).1 = (w.createCache t config a).1 ∧
      Twins heap f H ((w.createCache t config a).1 ::ₘ O) (w.createCache t config a).2
        (v.createCache t config' a).2 := by
  have next : (v.createCache t config' a).1 = (w.createCache t config a).1 := T.nextCache_eq
  have right := T.right.reaches (World.createCache_reaches World.any_quiet t config'
    ((T.isSome_allocators_eq a).trans known))
  rw [next] at right
  have left := T.left.reaches (World.createCache_reaches World.any_quiet t config known)
  refine ⟨next, left, right, ?_⟩
  rw [view_createCache, view_createCache]
  exact T.views.addCache rfl

theorem fixConfig (T : Twins heap f H O w v) (config config' : Config) :
    Twins heap f H O (w.fixConfig config) (v.fixConfig config') where
  left := T.left.reaches (World.fixConfig_reaches T.left.sound World.any_quiet config)
  right := T.right.reaches (World.fixConfig_reaches T.right.sound World.any_quiet config')
  views := by
    rw [view_fixConfig, view_fixConfig, T.views.ground]
    exact T.views.grounded _ (T.views.unlimited.of_same rfl rfl)

theorem sharedConfig (T : Twins heap f H O w v) :
    Twins heap f H O w.sharedConfig.2 v.sharedConfig.2 where
  left := T.left.reaches (World.sharedConfig_reaches T.left.sound World.any_quiet)
  right := T.right.reaches (World.sharedConfig_reaches T.right.sound World.any_quiet)
  views := by
    rw [view_sharedConfig, view_sharedConfig, T.views.ground]
    exact T.views.grounded _ (T.views.unlimited.of_same rfl rfl)

theorem createAllocator (T : Twins heap f H O w v) :
    (v.createAllocator none).1 = (w.createAllocator none).1 ∧
      Twins heap f H O (w.createAllocator none).2 (v.createAllocator none).2 := by
  have next : v.allocators.next = w.allocators.next :=
    congrArg Ground.nextAllocator T.views.ground
  refine ⟨next, T.left.reaches (.single trivial .addAllocator),
    T.right.reaches (.single trivial .addAllocator), ?_⟩
  rw [view_createAllocator, view_createAllocator, T.views.ground]
  refine T.views.grounded _ ⟨fun a limit found => ?_, T.views.unlimited.on,
    T.views.unlimited.graded⟩
  by_cases new : a = w.view.ground.nextAllocator
  · subst new
    simpa [eq_comm] using found
  · exact T.views.unlimited.limits a limit (by simpa [new] using found)

theorem fixAllocator (T : Twins heap f H O w v) {a : AllocatorId}
    (known : (w.allocators.get? a).isSome = true) :
    Twins heap f H O (w.fixAllocator a) (v.fixAllocator a) where
  left := T.left.reaches (.single trivial (.settle fun b hb => Option.some.inj hb ▸ known))
  right := T.right.reaches (.single trivial (.settle fun b hb => by
    obtain rfl := Option.some.inj hb
    exact (T.isSome_allocators_eq a).trans known))
  views := by
    have fixed : ∀ u : Store, (u.fixAllocator a).view
        = { u.view with ground := { u.view.ground with allocator := some a } } := fun _ => rfl
    rw [fixed, fixed, T.views.ground]
    exact T.views.grounded _ (T.views.unlimited.of_same rfl rfl)

theorem settings_eq (T : Twins heap f H O w v) : v.settings.allocator = w.settings.allocator :=
  congrArg Ground.allocator T.views.ground

theorem sharedAllocator (T : Twins heap f H O w v) :
    v.sharedAllocator.1 = w.sharedAllocator.1 ∧
      (w.sharedAllocator.2.allocators.get? w.sharedAllocator.1).isSome = true ∧
      Twins heap f H O w.sharedAllocator.2 v.sharedAllocator.2 := by
  unfold Store.sharedAllocator
  rw [T.settings_eq]
  cases fixed : w.settings.allocator with
  | some a => exact ⟨rfl, T.left.sound.shared a fixed, T⟩
  | none =>
    obtain ⟨same, T'⟩ := T.createAllocator
    have known : ((w.createAllocator none).2.allocators.get? (w.createAllocator none).1).isSome
        = true := by simp [Store.createAllocator, Table.get?_add]
    refine ⟨same, known, ?_⟩
    dsimp only
    rw [same]
    exact T'.fixAllocator known

theorem createWithConfig (T : Twins heap f H O w v) (t : ThreadId) (config config' : Config) :
    (v.createWithConfig t config').1 = (w.createWithConfig t config).1 ∧
      Twins heap f H ((w.createWithConfig t config).1 ::ₘ O) (w.createWithConfig t config).2
        (v.createWithConfig t config').2 := by
  obtain ⟨same, known, T'⟩ := T.sharedAllocator
  have made := T'.createCache t config config' known
  rw [← same] at made
  unfold Store.createWithConfig
  dsimp only
  rw [same] at made ⊢
  exact made

theorem createShared (T : Twins heap f H O w v) (t : ThreadId) :
    (v.createShared t).1 = (w.createShared t).1 ∧
      Twins heap f H ((w.createShared t).1 ::ₘ O) (w.createShared t).2 (v.createShared t).2 :=
  T.sharedConfig.createWithConfig t _ _

theorem environmentConfig_eq (T : Twins heap f H O w v) :
    v.environmentConfig = w.environmentConfig := by
  have environment : v.settings.environment = w.settings.environment :=
    congrArg Ground.environment T.views.ground
  rw [Store.environmentConfig, environment, Store.environmentConfig]

theorem install (T : Twins heap f H O w v) (config config' : Config) :
    (v.install config').1 = (w.install config).1 ∧
      Twins heap f H O (w.install config).2 (v.install config').2 := by
  have configured : v.settings.config.isSome = w.settings.config.isSome :=
    congrArg Ground.configured T.views.ground
  unfold Store.install
  cases hw : w.settings.config with
  | some _ =>
    obtain ⟨_, hv⟩ := Option.isSome_iff_exists.1 (configured.trans (by rw [hw]; rfl))
    rw [hv]
    exact ⟨rfl, T⟩
  | none =>
    have hv : v.settings.config = none := by simpa [hw] using configured
    rw [hv]
    exact ⟨rfl, T.fixConfig config config'⟩

theorem installAllocator (T : Twins heap f H O w v) (known : (w.allocators.get? a).isSome = true) :
    (v.installAllocator a).1 = (w.installAllocator a).1 ∧
      Twins heap f H O (w.installAllocator a).2 (v.installAllocator a).2 := by
  unfold Store.installAllocator
  rw [T.settings_eq]
  cases w.settings.allocator with
  | some _ => exact ⟨rfl, T⟩
  | none => exact ⟨rfl, T.fixAllocator known⟩

theorem freshKeys_eq (T : Twins heap f H O w v) : v.freshKeys = w.freshKeys :=
  congrArg Ground.freshKeys T.views.ground

theorem host_eq (T : Twins heap f H O w v) : v.host = w.host :=
  congrArg Ground.host T.views.ground

theorem addKey (T : Twins heap f H O w v) :
    Twins heap f H O { w with freshKeys := w.freshKeys + 1 }
      { v with freshKeys := v.freshKeys + 1 } where
  left := ⟨T.left.sound.addKey, T.left.covered⟩
  right := ⟨T.right.sound.addKey, T.right.covered⟩
  views := by
    have keyed : ∀ u : Store, ({ u with freshKeys := u.freshKeys + 1 } : Store).view
        = { u.view with
            ground := { u.view.ground with freshKeys := u.view.ground.freshKeys + 1 } } :=
      fun _ => rfl
    rw [keyed, keyed, T.views.ground]
    exact T.views.grounded _ (T.views.unlimited.of_same rfl rfl)

end Store.Twins

end PixelPool
