import PixelPool.Proofs.Operations
import PixelPool.Thread

/-!
Caches, their owners and the threads they are bound to, as sequences of moves.

A binding to a cache is one of the shares in it (`Binding.owned`), so every lemma here says how the
shares are divided before and after: those of the thread that runs, those in the hands of the
caller, and the rest.
-/

namespace PixelPool

/-- The share that a binding is. -/
def Binding.owned : Binding → Multiset CacheId
  | .bound c => {c}
  | _ => 0

@[simp] theorem Binding.owned_bound (c : CacheId) : (Binding.bound c).owned = {c} := rfl
@[simp] theorem Binding.owned_unbound : Binding.unbound.owned = 0 := rfl
@[simp] theorem Binding.owned_destroyed : Binding.destroyed.owned = 0 := rfl

namespace World

variable {P : Move → Prop} {W : World} {c : CacheId} {b : Handle} {i : Image} {area : Rect}
  {O : Multiset CacheId}

theorem eq_with_shares (held : W.shares = O) : W = { W with shares := O } := by
  subst held
  rfl

/-! ## 1. Owners -/

/-- One owner of a cache leaves: with the last one the cache ends. -/
theorem dropOwner_eq {s : Cache} (h : W.Sound) (hs : W.store.caches.get? c = some s) :
    (s.owners = 1 ∧ W.store.dropOwner c = .ok (W.store.tornDown c s)) ∨
    (1 < s.owners ∧
      W.store.dropOwner c = .ok (W.store.setCache c { s with owners := s.owners - 1 })) := by
  have tidy := h.tidy c s hs
  simp only [Store.dropOwner, Store.cache_of_get? hs, Fault.ok_bind]
  by_cases last : s.owners ≤ 1
  · have members : ∀ r ∈ s.lists.all, (W.store.records.get? r).isSome = true := by
      intro r hr
      obtain ⟨k, hk⟩ := Lists.mem_all_iff.1 hr
      obtain ⟨x, hx, -⟩ := h.exists_listed (c := c) (k := k) (by rwa [Store.listOf_of_get? hs])
      simp [hx]
    rw [if_pos last]
    exact .inl ⟨Nat.le_antisymm last tidy.owned,
      Store.tearDown_eq hs members tidy.distinct (h.known_slots hs)⟩
  · rw [if_neg last]
    exact .inr ⟨Nat.lt_of_not_le last, rfl⟩

theorem dropOwner_does (h : W.Sound) (quiet : ∀ m : Move, m.Quiet → P m)
    (held : W.shares = c ::ₘ O) :
    W.Does P (W.store.dropOwner c) fun w V => V = { W with store := w, shares := O } := by
  obtain ⟨s, hs, -⟩ := h.exists_cache (c := c) (by simp [held])
  obtain ⟨last, run⟩ | ⟨more, run⟩ := dropOwner_eq h hs
  · exact .done run (.single (quiet _ (by trivial)) (.tearDown held hs last)) rfl
  · exact .done run (.single (quiet _ (by trivial)) (.unshare held hs more)) rfl

theorem emptyReserve_does (h : W.Sound) (allowed : P (.emptyReserve c)) (owned : c ∈ W.shares) :
    W.Does P (W.store.emptyReserve c) fun a V => V = { W with store := a.2 } := by
  obtain ⟨s, hs, tidy⟩ := h.exists_cache owned
  exact .done (Store.emptyReserve_eq h.calm hs tidy.distinct (h.known_slots hs))
    (.single allowed (.emptyReserve hs)) rfl

theorem addOwner_reaches (h : W.Sound) (quiet : ∀ m : Move, m.Quiet → P m) (owned : c ∈ W.shares) :
    W.Reaches P { W with store := W.store.addOwner c, shares := c ::ₘ W.shares } :=
  .single (quiet _ (by trivial)) (.share (h.shares c owned))

theorem createCache_reaches (quiet : ∀ m : Move, m.Quiet → P m) (t : ThreadId) (config : Config)
    {a : AllocatorId} (known : (W.store.allocators.get? a).isSome = true) :
    W.Reaches P { W with
      store := (W.store.createCache t config a).2
      shares := (W.store.createCache t config a).1 ::ₘ W.shares } :=
  .single (quiet _ (by trivial)) (.addCache known)

/-! ## 2. Shared settings -/

/-- Changes of a store that spare its buffers and the reserves of its caches. -/
structure Spares (w w' : Store) : Prop where
  records : w'.records = w.records
  shelf : ∀ c, w'.shelf c = w.shelf c

theorem Spares.trans {w₁ w₂ w₃ : Store} (h : Spares w₁ w₂) (h' : Spares w₂ w₃) : Spares w₁ w₃ :=
  ⟨h'.records.trans h.records, fun c => (h'.shelf c).trans (h.shelf c)⟩

theorem createCache_spares (w : Store) (t : ThreadId) (config : Config) (a : AllocatorId) :
    Spares w (w.createCache t config a).2 := by
  refine ⟨rfl, fun d => ?_⟩
  by_cases hd : d = w.caches.next <;>
    simp [Store.shelf, Store.createCache, Store.emit, Table.get?_add, hd]

theorem addOwner_spares (w : Store) (c : CacheId) : Spares w (w.addOwner c) :=
  ⟨rfl, Store.shelf_update (Store.caches_addOwner w c) fun _ _ => rfl⟩

theorem fixConfig_reaches (h : W.Sound) (quiet : ∀ m : Move, m.Quiet → P m) (config : Config) :
    W.Reaches P { W with store := W.store.fixConfig config } := by
  have fixed : W.Reaches P { W with
      store := { W.store with settings := { W.store.settings with config := some config } } } :=
    .single (quiet .settle trivial) (.settle h.shared)
  refine fixed.report quiet
    (e := if config.reserveCap = 0 then .reserveDisabled else .configured config.reserveCap) ?_
  split <;> trivial

theorem sharedConfig_reaches (h : W.Sound) (quiet : ∀ m : Move, m.Quiet → P m) :
    W.Reaches P { W with store := W.store.sharedConfig.2 } := by
  unfold Store.sharedConfig
  split
  · exact .refl
  · split
    · exact fixConfig_reaches h quiet _
    · have told := (Reaches.refl (W := W)).report quiet
        (e := .overrideIgnored (W.store.settings.environment.getD "")) trivial
      exact told.trans (fixConfig_reaches (h.reaches told) quiet _)

theorem sharedConfig_spares (w : Store) : Spares w w.sharedConfig.2 := by
  unfold Store.sharedConfig
  split
  · exact ⟨rfl, fun _ => rfl⟩
  · split <;> exact ⟨rfl, fun _ => rfl⟩

/-- The shared allocator exists, from now on if it did not before. -/
theorem sharedAllocator_reaches (h : W.Sound) (quiet : ∀ m : Move, m.Quiet → P m) :
    W.Reaches P { W with store := W.store.sharedAllocator.2 } ∧
      (W.store.sharedAllocator.2.allocators.get? W.store.sharedAllocator.1).isSome = true := by
  unfold Store.sharedAllocator
  split
  · next a ha => exact ⟨.refl, h.shared a ha⟩
  · have made : (((W.store.createAllocator none).2).allocators.get?
        W.store.allocators.next).isSome = true := by
      simp [Store.createAllocator, Table.get?_add]
    refine ⟨.tail (.single (quiet _ (by trivial)) .addAllocator) (quiet .settle trivial)
      (.settle fun a ha => ?_), made⟩
    obtain rfl := Option.some.inj ha
    exact made

theorem sharedAllocator_spares (w : Store) : Spares w w.sharedAllocator.2 := by
  unfold Store.sharedAllocator
  split <;> exact ⟨rfl, fun _ => rfl⟩

theorem createWithConfig_reaches (h : W.Sound) (quiet : ∀ m : Move, m.Quiet → P m) (t : ThreadId)
    (config : Config) :
    W.Reaches P { W with
      store := (W.store.createWithConfig t config).2
      shares := (W.store.createWithConfig t config).1 ::ₘ W.shares } := by
  obtain ⟨moves, known⟩ := sharedAllocator_reaches (P := P) h quiet
  exact moves.trans (createCache_reaches quiet t config known)

theorem createWithConfig_spares (w : Store) (t : ThreadId) (config : Config) :
    Spares w (w.createWithConfig t config).2 :=
  (sharedAllocator_spares w).trans (createCache_spares ..)

theorem createShared_reaches (h : W.Sound) (quiet : ∀ m : Move, m.Quiet → P m) (t : ThreadId) :
    W.Reaches P { W with
      store := (W.store.createShared t).2
      shares := (W.store.createShared t).1 ::ₘ W.shares } := by
  have moves := sharedConfig_reaches (P := P) h quiet
  exact moves.trans (createWithConfig_reaches (h.reaches moves) quiet t _)

theorem createShared_spares (w : Store) (t : ThreadId) : Spares w (w.createShared t).2 :=
  (sharedConfig_spares w).trans (createWithConfig_spares ..)

/-! ## 3. Threads -/

/-- The cache of a thread; the caller gets a share in it. -/
theorem current_reaches (h : W.Sound) (quiet : ∀ m : Move, m.Quiet → P m) (t : Thread)
    (held : W.shares = t.binding.owned + O) :
    W.Reaches P { W with
      store := (t.current W.store).2
      shares := (t.current W.store).1.1 ::ₘ ((t.current W.store).1.2.binding.owned + O) } := by
  unfold Thread.current
  cases binding : t.binding with
  | bound c =>
    simp only [binding, Binding.owned_bound]
    rw [binding, Binding.owned_bound] at held
    rw [← held]
    exact addOwner_reaches h quiet (by simp [held])
  | unbound =>
    rw [binding, Binding.owned_unbound, zero_add] at held
    have made := createShared_reaches (P := P) h quiet t.id
    have shared := addOwner_reaches (P := P) (c := (W.store.createShared t.id).1) (h.reaches made)
      quiet (by simp)
    rw [held] at made shared
    exact made.trans shared
  | destroyed =>
    simp only [binding, Binding.owned_destroyed, zero_add] at held ⊢
    have told := (Reaches.refl (W := W)).report quiet (e := .detachedCache) trivial
    have made := createShared_reaches (P := P) (h.reaches told) quiet t.id
    rw [← held]
    exact told.trans made

theorem current_spares (t : Thread) (w : Store) : Spares w (t.current w).2 := by
  unfold Thread.current
  split
  · exact addOwner_spares ..
  · exact (createShared_spares ..).trans (addOwner_spares ..)
  · have made := createShared_spares (w.emit .detachedCache) t.id
    exact ⟨made.records, made.shelf⟩

/-- What a thread gives back when it is bound to another cache. -/
def returned : Except Refusal (Option CacheId) → Multiset CacheId
  | .ok (some previous) => {previous}
  | .ok none => 0
  | .error _ => 0

/-- A thread takes over a share, unless its binding is destroyed. -/
theorem bind_does (h : W.Sound) (quiet : ∀ m : Move, m.Quiet → P m) (t : Thread)
    (held : W.shares = c ::ₘ (t.binding.owned + O)) :
    W.Does P (t.bind W.store c) fun a V =>
      V = { W with
        store := a.2
        shares := returned a.1.1 + (a.1.2.binding.owned + O) } ∧
      ∀ v, a.1.1 = .error (.violation v) → v = .bindingDestroyed ∧ t.binding = .destroyed := by
  unfold Thread.bind
  cases binding : t.binding with
  | unbound =>
    rw [binding, Binding.owned_unbound, zero_add] at held
    exact .still rfl ⟨by simpa [returned] using eq_with_shares held, by simp⟩
  | bound previous =>
    rw [binding, Binding.owned_bound, Multiset.singleton_add] at held
    exact .still rfl ⟨by simpa [returned] using eq_with_shares held, by simp⟩
  | destroyed =>
    rw [binding, Binding.owned_destroyed, zero_add] at held
    refine .bind h (dropOwner_does h quiet held) fun w V _ hV => .still rfl ⟨?_, fun v hv => ?_⟩
    · simp [hV, returned, binding]
    · cases hv
      exact ⟨rfl, rfl⟩

/-- The binding of a thread ends for now. -/
theorem unbind_does (h : W.Sound) (quiet : ∀ m : Move, m.Quiet → P m) (t : Thread)
    (held : W.shares = t.binding.owned + O) :
    W.Does P (t.unbind W.store) fun a V =>
      V = { W with store := a.2, shares := a.1.2.binding.owned + O } := by
  unfold Thread.unbind
  cases binding : t.binding with
  | bound c =>
    rw [binding, Binding.owned_bound, Multiset.singleton_add] at held
    exact .bind h (dropOwner_does h quiet held) fun w V _ hV => .still rfl (by simp [hV])
  | unbound => exact .still rfl (eq_with_shares held)
  | destroyed => exact .still rfl (eq_with_shares held)

/-- The binding of a thread ends for good. -/
theorem destroyBinding_does (h : W.Sound) (quiet : ∀ m : Move, m.Quiet → P m) (t : Thread)
    (held : W.shares = t.binding.owned + O) :
    W.Does P (t.destroyBinding W.store) fun a V =>
      V = { W with store := a.2, shares := a.1.binding.owned + O } ∧ a.1.binding = .destroyed := by
  unfold Thread.destroyBinding
  cases binding : t.binding with
  | bound c =>
    rw [binding, Binding.owned_bound, Multiset.singleton_add] at held
    exact .bind h (dropOwner_does h quiet held) fun w V _ hV => .still rfl ⟨by simp [hV], rfl⟩
  | unbound => exact .still rfl ⟨eq_with_shares (by simpa [binding] using held), rfl⟩
  | destroyed => exact .still rfl ⟨eq_with_shares (by simpa [binding] using held), rfl⟩

/-- A buffer from the cache of a thread. -/
theorem requestHere_does (h : W.Sound) (quiet : ∀ m : Move, m.Quiet → P m) (t : Thread)
    (held : W.shares = t.binding.owned + O) (takes : ∀ c, W.store.AllowsTaking c P) :
    W.Does P (t.request W.store i area) fun a V =>
      V = { W with
        store := a.2
        handles := given a.1.1 + W.handles
        shares := a.1.2.binding.owned + O } := by
  have moves := current_reaches (P := P) h quiet t held
  have spares := current_spares t W.store
  have sound := h.reaches moves
  unfold Thread.request
  generalize t.current W.store = result at moves spares sound
  obtain ⟨⟨c, t'⟩, w⟩ := result
  have takes := (takes c).of_same (spares.shelf c) (congrArg _ spares.records)
  refine .after moves (.bind sound (request_does sound quiet (by simp) takes) ?_)
  rintro ⟨outcome, w⟩ V hV rfl
  refine .bind hV (dropOwner_does hV quiet rfl) fun w' V' _ hV' => .still rfl ?_
  simp [hV']

/-- An exchange in the handle's own cache, or in that of the thread. -/
theorem exchangeHere_does (h : W.Sound) (quiet : ∀ m : Move, m.Quiet → P m) (t : Thread)
    {old : Option Handle} {H : Multiset Handle} (handles : W.handles = old.toList + H)
    (held : W.shares = t.binding.owned + O)
    (takes : ∀ c, W.store.AllowsTaking c P)
    (allows : ∀ b, old = some b → W.store.isAlive b.cache = true → W.store.AllowsMoving b P) :
    W.Does P (t.exchange W.store old i area) fun a V =>
      V = { W with
        store := a.2
        handles := given a.1.1 + H
        shares := a.1.2.binding.owned + O } ∧
      ∀ v, a.1.1 = .error (.violation v) → ∃ b, old = some b ∧ ForbidsExchange b.cache b i v := by
  unfold Thread.exchange
  cases own : old.filter fun b => W.store.isAlive b.cache with
  | some b =>
    obtain ⟨rfl, alive⟩ := Option.filter_eq_some_iff.1 own
    have owned : b.cache ∈ W.shares := h.alive_iff.1 alive
    have allows : ∀ d, some b = some d → W.store.AllowsMoving d P := by
      rintro _ ⟨⟩
      exact allows b rfl alive
    refine .bind h (exchange_does h quiet owned handles (takes b.cache) allows)
      fun a V _ hV => .still rfl ⟨?_, fun v hv => ?_⟩
    · simp [hV.1, held]
    · obtain ⟨d, hd, forbidden⟩ := hV.2 v hv
      obtain rfl := Option.some.inj hd
      exact ⟨b, rfl, forbidden⟩
  | none =>
    have dead : ∀ b, old = some b → W.store.caches.get? b.cache = none := by
      rintro b rfl
      simpa [Store.isAlive] using Option.filter_eq_none_iff.1 own
    refine .bind h (dropHandle?_does h quiet handles) ?_
    rintro w V hV ⟨rfl, untouched, dropped⟩
    have spared : w.records.next = W.store.records.next ∧ ∀ d, w.shelf d = W.store.shelf d := by
      cases old with
      | none => simp [untouched rfl]
      | some b =>
        have dropped := dropped b rfl
        obtain ⟨x, hx, -⟩ := h.exists_record (b := b) (by simp [handles])
        have caches := dropped.caches x hx (.inr (dead b rfl))
        exact ⟨dropped.next, fun d => by simp [Store.shelf, caches]⟩
    have moves := current_reaches (P := P) hV quiet t held
    have spares := current_spares t w
    have sound := hV.reaches moves
    generalize t.current w = result at moves spares sound
    obtain ⟨⟨c, t'⟩, u⟩ := result
    have takes := (takes c).of_same ((spares.shelf c).trans (spared.2 c))
      ((congrArg _ spares.records).trans spared.1)
    refine .after moves (.bind sound (exchangeNone_does sound quiet (by simp) takes) ?_)
    rintro ⟨outcome, w'⟩ V' hV' ⟨rfl, rules⟩
    refine .bind hV' (dropOwner_does hV' quiet rfl) fun w'' V'' _ hV'' => .still rfl
      ⟨?_, fun v hv => absurd hv (rules v)⟩
    simp [hV'']

/-! ## 4. Publishing without naming a cache -/

theorem publishOwn_does (h : W.Sound) (allowed : P (.publish b))
    (reports : ∀ e : Event, e.Aside → P (.report e)) (held : b ∈ W.handles) :
    W.Does P (W.store.publishOwn b) fun a V =>
      V = { W with store := a.2 } ∧ ∀ v, a.1 ≠ .error (.violation v) := by
  unfold Store.publishOwn
  split
  · next alive =>
    refine .weaken (publish_does h allowed held (h.alive_iff.1 alive))
      (fun a V _ hV => ⟨hV.1, fun v hv => absurd rfl (hV.2 v hv).2⟩) h
  · exact .done rfl (.single (reports (.publishIgnored _) trivial) .report) ⟨rfl, by simp⟩

theorem unpublishOwn_does (h : W.Sound) (allowed : P (.withdraw b.record))
    (reports : ∀ e : Event, e.Aside → P (.report e)) (held : b ∈ W.handles) :
    W.Does P (W.store.unpublishOwn b) fun a V =>
      V = { W with store := a.2 } ∧ ∀ v, a.1 ≠ .error (.violation v) := by
  unfold Store.unpublishOwn
  split
  · exact .weaken (unpublish_does h allowed held)
      (fun a V _ hV => ⟨hV.1, fun v hv => absurd rfl (hV.2 v hv).2⟩) h
  · exact .done rfl (.single (reports (.unpublishIgnored _) trivial) .report) ⟨rfl, by simp⟩

end World

end PixelPool
