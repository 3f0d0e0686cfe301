import PixelPool.Proofs.World

/-!
The bookkeeping of the pool agrees with itself.

Who uses a buffer is written down several times: in the number of its references, in the handles
that callers hold, in its image, its flag and its publisher, in its cache's reserve or lists.
`World.Sound` says that all of them agree, record by record (`World.Agrees`) and cache by cache
(`World.Tidy`).

Main statement: every move keeps a world sound (`World.Sound.step`). A move concerns one record, so
for all others it is enough that nothing about them changed (`World.Alike`).
-/

namespace PixelPool

namespace World

/-! ## 1. Soundness -/

/-- Nothing refers to a record that does not exist. -/
structure Absent (W : World) (r : RecordId) : Prop where
  holders : ∀ b ∈ W.handles, b.record ≠ r
  shelved : ∀ c, r ∉ W.store.shelf c
  listed : ∀ c k, r ∉ W.store.listOf c k

/-- What is known of a record agrees with what the record says. -/
structure Consistent (W : World) (r : RecordId) (x : Record) : Prop where
  holders : ∀ b ∈ W.handles, b.record = r → b.cache = x.origin ∧ x.image = some b.image
  references : x.references = W.handles.countP (·.record = r)
  bound : x.image = none ↔ x.references = 0
  idle : x.image = none → x.area = .zero ∧ x.published = false
  publisher : x.publisher = if x.published then some x.origin else none
  shelved : ∀ c, r ∈ W.store.shelf c ↔ c = x.origin ∧ x.image = none
  listed : ∀ c k, r ∈ W.store.listOf c k ↔ c = x.origin ∧ x.image = some k ∧ x.published = true
  source : (W.store.allocators.get? x.allocator).isSome = true

/-- All that is known of a record, existing or not, agrees. -/
structure Agrees (W : World) (r : RecordId) : Prop where
  absent : W.store.records.get? r = none → W.Absent r
  consistent : ∀ x, W.store.records.get? r = some x → W.Consistent r x

/-- A cache counts its owners, keeps to its cap, and has nothing twice. -/
structure Tidy (W : World) (c : CacheId) (s : Cache) : Prop where
  owners : s.owners = W.shares.count c
  owned : 0 < s.owners
  source : (W.store.allocators.get? s.allocator).isSome = true
  distinct : s.reserve.slots.Nodup
  bounded : s.reserve.slots.length ≤ s.reserve.cap
  lists : ∀ k, (s.lists.members k).Nodup

/-- The bookkeeping of a world agrees with itself. -/
structure Sound (W : World) : Prop where
  calm : W.store.inside = []
  agrees : ∀ r, W.Agrees r
  tidy : ∀ c s, W.store.caches.get? c = some s → W.Tidy c s
  shares : ∀ c ∈ W.shares, (W.store.caches.get? c).isSome = true
  shared : ∀ a, W.store.settings.allocator = some a → (W.store.allocators.get? a).isSome = true

/-! ## 2. What a move leaves alone -/

/-- Nothing about a record differs between two worlds. -/
structure Alike (W W' : World) (r : RecordId) : Prop where
  record : W'.store.records.get? r = W.store.records.get? r
  handles : W'.handles.filter (·.record = r) = W.handles.filter (·.record = r)
  shelved : ∀ c, r ∈ W'.store.shelf c ↔ r ∈ W.store.shelf c
  listed : ∀ c k, r ∈ W'.store.listOf c k ↔ r ∈ W.store.listOf c k

variable {W W' : World} {r : RecordId} {x y : Record} {c : CacheId} {s : Cache} {b : Handle}

theorem Alike.mem_handles (h : Alike W W' r) (hr : b.record = r) :
    b ∈ W'.handles ↔ b ∈ W.handles := by
  have := congrArg (b ∈ ·) h.handles
  simpa [hr] using this

theorem Alike.countP (h : Alike W W' r) :
    W'.handles.countP (·.record = r) = W.handles.countP (·.record = r) := by
  rw [Multiset.countP_eq_card_filter, h.handles, ← Multiset.countP_eq_card_filter]

theorem Agrees.of_alike (h : W.Agrees r) (same : Alike W W' r)
    (known : ∀ a, (W.store.allocators.get? a).isSome = true →
      (W'.store.allocators.get? a).isSome = true) : W'.Agrees r where
  absent none := by
    have old := h.absent (same.record ▸ none)
    exact ⟨fun b hb hr => old.holders b ((same.mem_handles hr).1 hb) hr,
      fun c hc => old.shelved c ((same.shelved c).1 hc),
      fun c k hk => old.listed c k ((same.listed c k).1 hk)⟩
  consistent x hx := by
    have old := h.consistent x (same.record ▸ hx)
    exact
      { holders := fun b hb hr => old.holders b ((same.mem_handles hr).1 hb) hr
        references := old.references.trans same.countP.symm
        bound := old.bound
        idle := old.idle
        publisher := old.publisher
        shelved := fun c => (same.shelved c).trans (old.shelved c)
        listed := fun c k => (same.listed c k).trans (old.listed c k)
        source := known _ old.source }

theorem Agrees.of_some (hx : W.store.records.get? r = some x) (h : W.Consistent r x) :
    W.Agrees r where
  absent none := absurd (hx.symm.trans none) (by simp)
  consistent _ hy := Option.some.inj (hx.symm.trans hy) ▸ h

theorem Agrees.of_none (hx : W.store.records.get? r = none) (h : W.Absent r) : W.Agrees r where
  absent _ := h
  consistent _ hy := absurd (hx.symm.trans hy) (by simp)

/-- A sound world stays sound if all records that changed agree again, and so do the caches. -/
theorem Sound.of_alike (h : W.Sound) (calm : W'.store.inside = [])
    (known : ∀ a, (W.store.allocators.get? a).isSome = true →
      (W'.store.allocators.get? a).isSome = true)
    (each : ∀ j, Alike W W' j ∨ W'.Agrees j)
    (tidy : ∀ c s, W'.store.caches.get? c = some s → W'.Tidy c s)
    (shares : ∀ c ∈ W'.shares, (W'.store.caches.get? c).isSome = true)
    (shared : ∀ a, W'.store.settings.allocator = some a →
      (W'.store.allocators.get? a).isSome = true) : W'.Sound where
  calm := calm
  agrees j := (each j).elim (fun same => (h.agrees j).of_alike same known) id
  tidy := tidy
  shares := shares
  shared := shared

theorem Tidy.of_shares (h : W.Tidy c s) (shares : W'.shares.count c = W.shares.count c)
    (known : ∀ a, (W.store.allocators.get? a).isSome = true →
      (W'.store.allocators.get? a).isSome = true) : W'.Tidy c s where
  owners := h.owners.trans shares.symm
  owned := h.owned
  source := known _ h.source
  distinct := h.distinct
  bounded := h.bounded
  lists := h.lists

/-- The caches stay tidy if only one of them changed and that one is tidy again. -/
theorem Sound.tidy_update (h : W.Sound) (c : CacheId) (f : Cache → Cache)
    (caches : W'.store.caches = W.store.caches.update c f)
    (shares : ∀ d, d ≠ c → W'.shares.count d = W.shares.count d)
    (known : ∀ a, (W.store.allocators.get? a).isSome = true →
      (W'.store.allocators.get? a).isSome = true)
    (here : ∀ s, W.store.caches.get? c = some s → W.Tidy c s → W'.Tidy c (f s)) :
    ∀ d s, W'.store.caches.get? d = some s → W'.Tidy d s := by
  intro d s hs
  rw [caches, Table.get?_update] at hs
  by_cases hd : d = c
  · subst hd
    obtain ⟨old, ho, rfl⟩ := Option.map_eq_some_iff.1 (by simpa using hs)
    exact here old ho (h.tidy d old ho)
  · exact (h.tidy d s (by simpa [hd] using hs)).of_shares (shares d hd) known

/-! ## 3. Moves that concern no record -/

namespace Sound

theorem emit (h : W.Sound) (e : Event) : ({ W with store := W.store.emit e } : World).Sound :=
  h.of_alike h.calm (fun _ => id)
    (fun _ => .inl ⟨rfl, rfl, fun _ => Iff.rfl, fun _ _ => Iff.rfl⟩)
    (fun c s hs => (h.tidy c s hs).of_shares rfl fun _ => id) h.shares h.shared

theorem count (h : W.Sound) (c : CacheId) (f : Stats → Stats) :
    ({ W with store := W.store.count c f } : World).Sound := by
  refine h.of_alike h.calm (fun _ => id) (fun _ => .inl ⟨rfl, rfl, by simp, by simp⟩)
    (h.tidy_update c _ (Store.caches_count ..) (fun _ _ => rfl) (fun _ => id) fun s hs old => ?_)
    ?_ h.shared
  · exact ⟨old.owners, old.owned, old.source, old.distinct, old.bounded, old.lists⟩
  · simpa using h.shares

theorem setAllocator (h : W.Sound) (a : AllocatorId) (s : Allocator) (L : Multiset Loan) :
    ({ W with store := W.store.setAllocator a s, loans := L } : World).Sound := by
  refine h.of_alike h.calm (by simp) (fun _ => .inl ⟨rfl, rfl, by simp, by simp⟩)
    (fun c s hs => (h.tidy c s hs).of_shares rfl (by simp)) h.shares ?_
  simpa using h.shared

theorem settle (h : W.Sound) {settings : Settings}
    (known : ∀ a, settings.allocator = some a → (W.store.allocators.get? a).isSome = true) :
    ({ W with store := { W.store with settings } } : World).Sound :=
  h.of_alike h.calm (fun _ => id)
    (fun _ => .inl ⟨rfl, rfl, fun _ => Iff.rfl, fun _ _ => Iff.rfl⟩)
    (fun c s hs => (h.tidy c s hs).of_shares rfl fun _ => id) h.shares known

theorem addKey (h : W.Sound) :
    ({ W with store := { W.store with freshKeys := W.store.freshKeys + 1 } } : World).Sound :=
  h.of_alike h.calm (fun _ => id)
    (fun _ => .inl ⟨rfl, rfl, fun _ => Iff.rfl, fun _ _ => Iff.rfl⟩)
    (fun c s hs => (h.tidy c s hs).of_shares rfl fun _ => id) h.shares h.shared

theorem addAllocator (h : W.Sound) (limit : Option Nat) :
    ({ W with store := (W.store.createAllocator limit).2 } : World).Sound := by
  have known : ∀ a, (W.store.allocators.get? a).isSome = true →
      ((W.store.allocators.add (.withLimit limit)).get? a).isSome = true := by
    intro a ha
    rw [Table.get?_add]
    split
    · rfl
    · exact ha
  exact h.of_alike h.calm known (fun _ => .inl ⟨rfl, rfl, fun _ => Iff.rfl, fun _ _ => Iff.rfl⟩)
    (fun c s hs => (h.tidy c s hs).of_shares rfl known) h.shares
    fun a ha => known a (h.shared a ha)

theorem addCache (h : W.Sound) {t : ThreadId} {config : Config} {a : AllocatorId}
    (known : (W.store.allocators.get? a).isSome = true) :
    ({ W with
      store := (W.store.createCache t config a).2
      shares := W.store.caches.next ::ₘ W.shares } : World).Sound := by
  have unused : W.store.caches.next ∉ W.shares := by
    intro hc
    simpa using h.shares _ hc
  have shelf : ∀ d, (W.store.createCache t config a).2.shelf d = W.store.shelf d := by
    intro d
    by_cases hd : d = W.store.caches.next <;>
      simp [Store.shelf, Store.createCache, Store.emit, Table.get?_add, hd]
  have lists : ∀ d k, (W.store.createCache t config a).2.listOf d k = W.store.listOf d k := by
    intro d k
    by_cases hd : d = W.store.caches.next <;>
      simp [Store.listOf, Store.createCache, Store.emit, Table.get?_add, hd, Lists.members]
  refine h.of_alike h.calm (fun _ => id)
    (fun _ => .inl ⟨rfl, rfl, by simp [shelf], by simp [lists]⟩)
    (fun d s hs => ?_) (fun d hd => ?_) h.shared
  · simp only [Store.createCache, Store.emit, Table.get?_add] at hs
    split at hs
    · next hd =>
      subst hd
      cases hs
      exact ⟨by simp [unused], Nat.one_pos, known, .nil, Nat.zero_le _,
        fun k => by simp [Lists.members]⟩
    · next hd => exact (h.tidy d s hs).of_shares (by simp [hd]) fun _ => id
  · simp only [Store.createCache, Store.emit, Table.get?_add]
    split
    · rfl
    · next hne =>
      rcases Multiset.mem_cons.1 hd with hd | hd
      · exact absurd hd hne
      · exact h.shares d hd

theorem share (h : W.Sound) (alive : (W.store.caches.get? c).isSome = true) :
    ({ W with store := W.store.addOwner c, shares := c ::ₘ W.shares } : World).Sound := by
  have shelf := Store.shelf_update (Store.caches_addOwner W.store c) fun _ _ => rfl
  have lists := Store.listOf_update (Store.caches_addOwner W.store c) fun _ _ => rfl
  refine h.of_alike h.calm (fun _ => id)
    (fun _ => .inl ⟨rfl, rfl, by simp [shelf], by simp [lists]⟩)
    (h.tidy_update c _ (Store.caches_addOwner ..) (fun d hd => by simp [hd]) (fun _ => id)
      fun s hs old => ?_) (fun d hd => ?_) h.shared
  · exact ⟨by simp [old.owners], Nat.succ_pos _, old.source, old.distinct, old.bounded, old.lists⟩
  · rcases Multiset.mem_cons.1 hd with rfl | hd
    · simpa [Store.addOwner] using alive
    · simpa [Store.addOwner] using h.shares d hd

theorem unshare (h : W.Sound) {O : Multiset CacheId} (held : W.shares = c ::ₘ O)
    (hs : W.store.caches.get? c = some s) (more : 1 < s.owners) :
    ({ W with
      store := W.store.setCache c { s with owners := s.owners - 1 }
      shares := O } : World).Sound := by
  have shelf := Store.shelf_update
    (Store.caches_setCache W.store c { s with owners := s.owners - 1 }) fun y hy => by simp_all
  have lists := Store.listOf_update
    (Store.caches_setCache W.store c { s with owners := s.owners - 1 }) fun y hy => by simp_all
  refine h.of_alike h.calm (fun _ => id)
    (fun _ => .inl ⟨rfl, rfl, by simp [shelf], by simp [lists]⟩)
    (h.tidy_update c _ (Store.caches_setCache ..) (fun d hd => by simp [held, hd]) (fun _ => id)
      fun y hy old => ?_) (fun d hd => ?_) h.shared
  · obtain rfl : s = y := by simpa [hs] using hy
    have count := old.owners
    rw [held, Multiset.count_cons_self] at count
    exact ⟨by simp [count], by simp; omega, old.source, old.distinct, old.bounded, old.lists⟩
  · simpa using h.shares d (held ▸ Multiset.mem_cons_of_mem hd)

end Sound

/-! ## 4. Moves that rewrite a record in use -/

/-- A record in use may change its area, its storage and its count of references. -/
theorem Consistent.rewritten (h : W.Consistent r x)
    (origin : y.origin = x.origin) (allocator : y.allocator = x.allocator)
    (image : y.image = x.image) (published : y.published = x.published)
    (publisher : y.publisher = x.publisher) (used : x.image ≠ none) (referenced : y.references ≠ 0)
    (shelf : ∀ c, W'.store.shelf c = W.store.shelf c)
    (lists : ∀ c k, W'.store.listOf c k = W.store.listOf c k)
    (known : ∀ a, (W.store.allocators.get? a).isSome = true →
      (W'.store.allocators.get? a).isSome = true)
    (holders : ∀ b ∈ W'.handles, b.record = r → b.cache = x.origin ∧ x.image = some b.image)
    (references : y.references = W'.handles.countP (·.record = r)) : W'.Consistent r y where
  holders := by rwa [origin, image]
  references := references
  bound := by simp [image, used, referenced]
  idle none := absurd (image ▸ none) used
  publisher := by rw [publisher, published, origin, h.publisher]
  shelved c := by rw [shelf, image, origin, h.shelved]
  listed c k := by rw [lists, image, origin, published, h.listed]
  source := by rw [allocator]; exact known _ h.source

theorem Consistent.used (h : W.Consistent r x) (referenced : x.references ≠ 0) :
    x.image ≠ none := fun none => referenced (h.bound.1 none)

/-- Once the only handle on a buffer is gone there is none. -/
theorem Consistent.unheld_of_last {H : Multiset Handle} (h : W.Consistent b.record x)
    (held : W.handles = b ::ₘ H) (last : x.references = 1) :
    H.countP (·.record = b.record) = 0 := by
  have references := h.references
  rw [held, Multiset.countP_cons_of_pos _ (by rfl)] at references
  omega

namespace Sound

/-- The consistency of a record that exists. -/
theorem at_record (h : W.Sound) (hx : W.store.records.get? r = some x) : W.Consistent r x :=
  (h.agrees r).consistent x hx

/-- A handle's record exists, and it is bound to the handle's image. -/
theorem exists_record (h : W.Sound) (held : b ∈ W.handles) :
    ∃ x, W.store.records.get? b.record = some x ∧ W.Consistent b.record x ∧
      b.cache = x.origin ∧ x.image = some b.image ∧ x.references ≠ 0 := by
  cases hx : W.store.records.get? b.record with
  | none => exact absurd rfl (((h.agrees b.record).absent hx).holders b held)
  | some x =>
    have hc := h.at_record hx
    obtain ⟨origin, image⟩ := hc.holders b held rfl
    exact ⟨x, rfl, hc, origin, image, fun zero => by simp [hc.bound.2 zero] at image⟩

/-- A world stays sound when one record is replaced by one that is consistent again. -/
theorem replace (h : W.Sound) {H : Multiset Handle}
    (hx : W.store.records.get? r = some x)
    (others : ∀ j, j ≠ r → H.filter (·.record = j) = W.handles.filter (·.record = j))
    (here : ({ W with store := W.store.setRecord r y, handles := H } : World).Consistent r y) :
    ({ W with store := W.store.setRecord r y, handles := H } : World).Sound := by
  refine h.of_alike h.calm (fun _ => id) (fun j => ?_)
    (fun c s hs => (h.tidy c s hs).of_shares rfl fun _ => id) h.shares h.shared
  by_cases hj : j = r
  · subst hj
    exact .inr (.of_some (by simp [Table.get?_update, hx]) here)
  · exact .inl ⟨by simp [Table.get?_update, hj], others j hj, by simp, by simp⟩

theorem retain (h : W.Sound) (hx : W.store.records.get? b.record = some x)
    (image : x.image = some b.image) (origin : x.origin = b.cache) :
    ({ W with
      store := W.store.retained b.record x
      handles := b ::ₘ W.handles } : World).Sound := by
  have hc := h.at_record hx
  refine h.replace hx (fun j hj => by simp [Ne.symm hj]) ?_
  refine hc.rewritten rfl rfl rfl rfl rfl (by simp [image]) (Nat.succ_ne_zero _) (fun _ => rfl)
    (fun _ _ => rfl) (fun _ => id) (fun d hd hr => ?_) (by simp [hc.references])
  rcases Multiset.mem_cons.1 hd with rfl | hd
  · exact ⟨origin.symm, image⟩
  · exact hc.holders d hd hr

theorem letGo (h : W.Sound) {H : Multiset Handle} (held : W.handles = b ::ₘ H)
    (hx : W.store.records.get? b.record = some x) (more : 1 < x.references) :
    ({ W with
      store := W.store.setRecord b.record { x with references := x.references - 1 }
      handles := H } : World).Sound := by
  have hc := h.at_record hx
  refine h.replace hx (fun j hj => by simp [held, Ne.symm hj]) ?_
  refine hc.rewritten rfl rfl rfl rfl rfl (hc.used (by omega)) (by simp; omega) (fun _ => rfl)
    (fun _ _ => rfl) (fun _ => id) (fun d hd hr => ?_) ?_
  · exact hc.holders d (held ▸ Multiset.mem_cons_of_mem hd) hr
  · simp [hc.references, held]

/-- A record in use may change its area and its storage. -/
theorem rewrite (h : W.Sound) (hx : W.store.records.get? r = some x) (used : x.references ≠ 0)
    (area : Rect) (storage : Option Block) :
    ({ W with store := W.store.setRecord r { x with area, storage } } : World).Sound := by
  have hc := h.at_record hx
  exact h.replace hx (fun _ _ => rfl) (hc.rewritten rfl rfl rfl rfl rfl (hc.used used) used
    (fun _ => rfl) (fun _ _ => rfl) (fun _ => id) hc.holders hc.references)

theorem refit (h : W.Sound) {area : Rect} {outcome : Except StorageError Bool} {w : Store}
    (hx : W.store.records.get? r = some x) (used : x.references ≠ 0)
    (fits : W.store.Fits r x area outcome w) : ({ W with store := w } : World).Sound := by
  cases fits with
  | invalid => exact h
  | kept => exact h.rewrite hx used area x.storage
  | renewed => exact (h.setAllocator _ _ W.loans).rewrite hx used area _
  | lost => exact (h.setAllocator _ _ W.loans).rewrite hx used .zero none

theorem write (h : W.Sound) {n : Nat} {fill : Nat → UInt8}
    (hx : W.store.records.get? r = some x) (written : x.write fill = some (n, y)) :
    ({ W with store := W.store.setRecord r y } : World).Sound := by
  obtain ⟨sole, -, b, -, rfl⟩ := Record.write_eq written
  exact h.rewrite hx (by omega) x.area _

/-! ## 5. Moves between lists and reserves -/

/-- A record in use enters or leaves the list of its image as its flag is set or cleared. -/
theorem relist (h : W.Sound) {k : ImageKey} {members : List RecordId}
    (hx : W.store.records.get? r = some x) (image : x.image = some k)
    (hs : W.store.caches.get? x.origin = some s) (distinct : members.Nodup)
    (others : ∀ j, j ≠ r → (j ∈ members ↔ j ∈ s.lists.members k))
    (here : r ∈ members ↔ y.published = true) (origin : y.origin = x.origin)
    (allocator : y.allocator = x.allocator) (bound : y.image = x.image)
    (references : y.references = x.references)
    (publisher : y.publisher = if y.published then some x.origin else none) :
    ({ W with
      store := (W.store.setCache x.origin { s with lists := s.lists.put k members }).setRecord r y }
      : World).Sound := by
  have hc := h.at_record hx
  have alive : (W.store.caches.get? x.origin).isSome = true := by simp [hs]
  have shelf := Store.shelf_update
    (Store.caches_setCache W.store x.origin { s with lists := s.lists.put k members })
    fun y hy => by simp_all
  have lists : ∀ d i,
      (W.store.setCache x.origin { s with lists := s.lists.put k members }).listOf d i
        = if d = x.origin ∧ i = k then members else W.store.listOf d i := by
    intro d i
    rw [Store.listOf_setCache alive, Lists.members_put]
    by_cases hd : d = x.origin <;> by_cases hi : i = k <;> simp [hd, hi, Store.listOf_of_get? hs]
  refine h.of_alike h.calm (fun _ => id) (fun j => ?_)
    (h.tidy_update x.origin _ (Store.caches_setCache ..) (fun _ _ => rfl) (fun _ => id)
      fun z hz old => ?_) (fun d hd => by simpa using h.shares d hd) h.shared
  · by_cases hj : j = r
    · subst hj
      refine .inr (.of_some (x := y) (by simp [Table.get?_update, hx]) ?_)
      exact
        { holders := by simpa [origin, bound] using hc.holders
          references := by simp [references, hc.references]
          bound := by rw [bound, references, hc.bound]
          idle := fun none => absurd (bound ▸ none) (by simp [image])
          publisher := by rw [publisher, origin]
          shelved := fun d => by simp [shelf, hc.shelved, origin, bound]
          listed := fun d i => by
            rw [Store.listOf_setRecord, lists, origin, bound, image]
            split
            · next hdi => simp [here, hdi.1, hdi.2]
            · next hdi =>
              rw [hc.listed, image]
              constructor
              · rintro ⟨rfl, hi, -⟩
                exact absurd ⟨rfl, (Option.some.inj hi).symm⟩ hdi
              · rintro ⟨rfl, hi, -⟩
                exact absurd ⟨rfl, (Option.some.inj hi).symm⟩ hdi
          source := by simpa [allocator] using hc.source }
    · refine .inl ⟨by simp [Table.get?_update, hj], rfl, by simp [shelf], fun d i => ?_⟩
      rw [Store.listOf_setRecord, lists]
      split
      · next hdi => rw [others j hj, hdi.1, hdi.2, Store.listOf_of_get? hs]
      · rfl
  · obtain rfl : s = z := by simpa [hs] using hz
    refine ⟨old.owners, old.owned, old.source, old.distinct, old.bounded, fun i => ?_⟩
    rw [Lists.members_put]
    split
    · exact distinct
    · exact old.lists i

theorem publish (h : W.Sound) (held : b ∈ W.handles)
    (hx : W.store.records.get? b.record = some x) (undone : x.published = false)
    (hs : W.store.caches.get? b.cache = some s) :
    ({ W with store := W.store.enlisted b s x } : World).Sound := by
  have hc := h.at_record hx
  obtain ⟨origin, image⟩ := hc.holders b held rfl
  have fresh : b.record ∉ s.lists.members b.image := by
    rw [← Store.listOf_of_get? hs, hc.listed]
    simp [undone]
  have tidy := h.tidy _ _ hs
  rw [origin] at hs
  have moved := h.relist (y := x.markPublished b.cache) hx image hs
    (List.nodup_cons.2 ⟨fresh, tidy.lists b.image⟩) (fun j hj => by simp [hj])
    (by simp [Record.markPublished]) rfl rfl rfl rfl (by simp [Record.markPublished, origin])
  rw [← origin] at moved
  exact (moved.count b.cache .addPublish).emit _

theorem withdraw (h : W.Sound) {k : ImageKey} (hx : W.store.records.get? r = some x)
    (image : x.image = some k) (hs : W.store.caches.get? x.origin = some s) :
    ({ W with store := W.store.withdrawn x.origin s r x k } : World).Sound := by
  have distinct := (h.tidy _ _ hs).lists k
  refine Sound.emit (W := { W with store := _ }) (h.relist (y := x.unmark.withoutArea) hx image hs
    (distinct.erase r) (fun j hj => List.mem_erase_of_ne hj) ?_ rfl rfl rfl rfl ?_) _
  · simp [Record.unmark, Record.withoutArea, distinct.not_mem_erase]
  · simp [Record.unmark, Record.withoutArea]

/-- A record enters or leaves the reserve of its cache as it loses or gets its image. -/
theorem reshelve (h : W.Sound) {H : Multiset Handle} {slots : List RecordId}
    (hx : W.store.records.get? r = some x) (undone : x.published = false)
    (hs : W.store.caches.get? x.origin = some s) (distinct : slots.Nodup)
    (bounded : slots.length ≤ s.reserve.cap)
    (others : ∀ j, j ≠ r → (j ∈ slots ↔ j ∈ s.reserve.slots))
    (here : r ∈ slots ↔ y.image = none) (origin : y.origin = x.origin)
    (allocator : y.allocator = x.allocator) (published : y.published = false)
    (publisher : y.publisher = none) (area : y.image = none → y.area = .zero)
    (bound : y.image = none ↔ y.references = 0)
    (handles : ∀ j, j ≠ r → H.filter (·.record = j) = W.handles.filter (·.record = j))
    (holders : ∀ b ∈ H, b.record = r → b.cache = x.origin ∧ y.image = some b.image)
    (references : y.references = H.countP (·.record = r)) :
    ({ W with
      store := (W.store.setCache x.origin { s with
        reserve := { s.reserve with slots } }).setRecord r y
      handles := H } : World).Sound := by
  have hc := h.at_record hx
  have alive : (W.store.caches.get? x.origin).isSome = true := by simp [hs]
  have lists := Store.listOf_update
    (Store.caches_setCache W.store x.origin { s with reserve := { s.reserve with slots } })
    fun y hy => by simp_all
  have shelf : ∀ d, (W.store.setCache x.origin { s with
      reserve := { s.reserve with slots } }).shelf d
        = if d = x.origin then slots else W.store.shelf d := Store.shelf_setCache alive
  refine h.of_alike h.calm (fun _ => id) (fun j => ?_)
    (h.tidy_update x.origin _ (Store.caches_setCache ..) (fun _ _ => rfl) (fun _ => id)
      fun z hz old => ?_) (fun d hd => by simpa using h.shares d hd) h.shared
  · by_cases hj : j = r
    · subst hj
      refine .inr (.of_some (x := y) (by simp [Table.get?_update, hx]) ?_)
      exact
        { holders := by rwa [origin]
          references := references
          bound := bound
          idle := fun none => ⟨area none, published⟩
          publisher := by simp [publisher, published]
          shelved := fun d => by
            rw [Store.shelf_setRecord, shelf, origin]
            split
            · next hd => simp [here, hd]
            · next hd => simp [hc.shelved, hd]
          listed := fun d k => by
            rw [Store.listOf_setRecord, lists, hc.listed]
            simp [undone, published]
          source := by simpa [allocator] using hc.source }
    · refine .inl ⟨by simp [Table.get?_update, hj], handles j hj, fun d => ?_, by simp [lists]⟩
      rw [Store.shelf_setRecord, shelf]
      split
      · next hd => rw [others j hj, hd, Store.shelf_of_get? hs]
      · rfl
  · obtain rfl : s = z := by simpa [hs] using hz
    exact ⟨old.owners, old.owned, old.source, distinct, bounded, old.lists⟩

/-- A record that is in a reserve is idle, and nobody holds it. -/
theorem idle_of_shelved (h : W.Sound) (hr : r ∈ W.store.shelf c) :
    ∃ x, W.store.records.get? r = some x ∧ W.Consistent r x ∧ x.origin = c ∧ x.image = none ∧
      ∀ b ∈ W.handles, b.record ≠ r := by
  cases hx : W.store.records.get? r with
  | none => exact absurd hr (((h.agrees r).absent hx).shelved c)
  | some x =>
    have hc := h.at_record hx
    obtain ⟨origin, image⟩ := (hc.shelved c).1 hr
    refine ⟨x, rfl, hc, origin.symm, image, fun b hb hr => ?_⟩
    simpa [image] using (hc.holders b hb hr).2

theorem idle_of_slot (h : W.Sound) (hs : W.store.caches.get? c = some s)
    (hr : r ∈ s.reserve.slots) : ∃ x, W.store.records.get? r = some x ∧ W.Consistent r x ∧
      x.origin = c ∧ x.image = none ∧ ∀ b ∈ W.handles, b.record ≠ r :=
  h.idle_of_shelved (by rwa [Store.shelf_of_get? hs])

/-- The buffer of a handle is in no reserve. -/
theorem not_slot_of_held (h : W.Sound) (hs : W.store.caches.get? c = some s)
    (held : b ∈ W.handles) : b.record ∉ s.reserve.slots := by
  intro hr
  obtain ⟨-, -, -, -, -, unheld⟩ := h.idle_of_slot hs hr
  exact unheld b held rfl

/-- A member of a list exists, is published, and is bound to the image of the list. -/
theorem exists_listed {k : ImageKey} (h : W.Sound) (hr : r ∈ W.store.listOf c k) :
    ∃ x, W.store.records.get? r = some x ∧ W.Consistent r x ∧ x.origin = c ∧ x.image = some k ∧
      x.published = true := by
  cases hx : W.store.records.get? r with
  | none => exact absurd hr (((h.agrees r).absent hx).listed c k)
  | some x =>
    have hc := h.at_record hx
    obtain ⟨origin, image, done⟩ := (hc.listed c k).1 hr
    exact ⟨x, rfl, hc, origin.symm, image, done⟩

theorem reuse (h : W.Sound) {rest : List RecordId} {i : Image}
    (hs : W.store.caches.get? c = some s) (top : s.reserve.slots = r :: rest)
    (hx : W.store.records.get? r = some x) :
    ({ W with
      store := ((W.store.setCache c { s with
        reserve := { s.reserve with slots := rest } }).count c .addReused).setRecord r
          (x.takenFor i)
      handles := ⟨r, c, i.key⟩ ::ₘ W.handles } : World).Sound := by
  obtain ⟨_, hy, hc, rfl, image, unheld⟩ := h.idle_of_slot (r := r) hs (by simp [top])
  obtain rfl := Option.some.inj (hx.symm.trans hy)
  have tidy := h.tidy _ _ hs
  have fresh : r ∉ rest ∧ rest.Nodup := List.nodup_cons.1 (top ▸ tidy.distinct)
  have bounded := tidy.bounded
  rw [top, List.length_cons] at bounded
  have unheld : W.handles.countP (·.record = r) = 0 := Multiset.countP_eq_zero.2 unheld
  refine Sound.count (W := { W with store := _, handles := _ })
    (h.reshelve (y := x.takenFor i) (H := ⟨r, x.origin, i.key⟩ ::ₘ W.handles) hx
      (hc.idle image).2 hs fresh.2 (by omega)
      (fun j hj => by simp [top, hj]) (by simp [fresh.1, Record.takenFor]) rfl rfl rfl rfl
      (by simp [Record.takenFor]) (by simp [Record.takenFor])
      (fun j hj => by simp [Ne.symm hj]) (fun b hb hr => ?_)
      (by simp [Record.takenFor, unheld])) x.origin _
  rcases Multiset.mem_cons.1 hb with rfl | hb
  · exact ⟨rfl, rfl⟩
  · exact absurd hr (Multiset.countP_eq_zero.1 unheld b hb)

theorem keep (h : W.Sound) {H : Multiset Handle} (held : W.handles = b ::ₘ H)
    (hx : W.store.records.get? b.record = some x) (undone : x.published = false)
    (last : x.references = 1) (hs : W.store.caches.get? b.cache = some s)
    (room : s.reserve.slots.length < s.reserve.cap) :
    ({ W with
      store := (W.store.setRecord b.record x.parked).shelved b.cache s b.record
      handles := H } : World).Sound := by
  have hc := h.at_record hx
  obtain ⟨origin, image⟩ := hc.holders b (by simp [held]) rfl
  have tidy := h.tidy _ _ hs
  have fresh : b.record ∉ s.reserve.slots := by
    rw [← Store.shelf_of_get? hs, hc.shelved]
    simp [image]
  have unheld := hc.unheld_of_last held last
  rw [origin] at hs
  have moved := h.reshelve (y := x.parked) (H := H) hx undone hs
    (List.nodup_cons.2 ⟨fresh, tidy.distinct⟩) (Nat.succ_le_of_lt room) (fun j hj => by simp [hj])
    (by simp [Record.parked]) rfl rfl undone rfl (fun _ => rfl) (by simp [Record.parked])
    (fun j hj => by simp [held, Ne.symm hj])
    (fun d hd hr => absurd hr (Multiset.countP_eq_zero.1 unheld d hd))
    (by simp [Record.parked, unheld])
  rw [← origin] at moved
  exact moved.count b.cache .addKept

/-! ## 6. Moves that make or end records -/

theorem make (h : W.Sound) {i : Image} (hs : W.store.caches.get? c = some s) :
    ({ W with
      store := { W.store.count c .addMade with
        records := W.store.records.add
          (Record.takenFor { origin := c, allocator := s.allocator } i) }
      handles := ⟨W.store.records.next, c, i.key⟩ ::ₘ W.handles } : World).Sound := by
  have counted := h.count c .addMade
  have absent := (h.agrees W.store.records.next).absent (Table.get?_next _)
  have unheld : W.handles.countP (·.record = W.store.records.next) = 0 :=
    Multiset.countP_eq_zero.2 absent.holders
  have shelf : ∀ d, (W.store.count c .addMade).shelf d = W.store.shelf d := by simp
  have lists : ∀ d k, (W.store.count c .addMade).listOf d k = W.store.listOf d k := by simp
  refine counted.of_alike h.calm (fun _ => id) (fun j => ?_) (fun d z hz =>
    (counted.tidy d z hz).of_shares rfl fun _ => id) counted.shares h.shared
  by_cases hj : j = W.store.records.next
  · subst hj
    refine .inr (.of_some (by rw [Table.get?_add, if_pos rfl]) ?_)
    exact
      { holders := fun b hb hr => by
          rcases Multiset.mem_cons.1 hb with rfl | hb
          · exact ⟨rfl, rfl⟩
          · exact absurd hr (absent.holders b hb)
        references := by simp [Record.takenFor, unheld]
        bound := by simp [Record.takenFor]
        idle := by simp [Record.takenFor]
        publisher := rfl
        shelved := fun d => by
          refine iff_of_false (fun hr => absent.shelved d (shelf d ▸ hr)) ?_
          simp [Record.takenFor]
        listed := fun d k => by
          refine iff_of_false (fun hr => absent.listed d k (lists d k ▸ hr)) ?_
          simp [Record.takenFor]
        source := (h.tidy c s hs).source }
  · exact .inl ⟨by simp [Table.get?_add, hj], by simp [Ne.symm hj], fun _ => Iff.rfl,
      fun _ _ => Iff.rfl⟩

/-- The last handle on an unpublished buffer goes, and the buffer with it. -/
theorem without (h : W.Sound) {H : Multiset Handle} (held : W.handles = b ::ₘ H)
    (hx : W.store.records.get? b.record = some x) (undone : x.published = false)
    (last : x.references = 1) :
    ({ W with store := W.store.without b.record, handles := H } : World).Sound := by
  have hc := h.at_record hx
  obtain ⟨origin, image⟩ := hc.holders b (by simp [held]) rfl
  have shelf : ∀ d, (W.store.without b.record).shelf d = W.store.shelf d := by simp [Store.shelf]
  have lists : ∀ d k, (W.store.without b.record).listOf d k = W.store.listOf d k := by
    simp [Store.listOf]
  have unheld := hc.unheld_of_last held last
  have known : ∀ a, (W.store.allocators.get? a).isSome = true →
      ((W.store.without b.record).allocators.get? a).isSome = true := by
    simp [Store.isSome_allocators_without]
  refine h.of_alike (by simp [h.calm]) known (fun j => ?_) (fun d z hz =>
    (h.tidy d z (by simpa using hz)).of_shares rfl known) (by simpa using h.shares)
    (fun a ha => known a (h.shared a (by simpa using ha)))
  by_cases hj : j = b.record
  · refine .inr (.of_none (by simp [Store.get?_records_without, hj]) ?_)
    exact
      { holders := fun d hd => hj ▸ Multiset.countP_eq_zero.1 unheld d hd
        shelved := fun d => by simp [shelf, hj, hc.shelved, image]
        listed := fun d k => by simp [lists, hj, hc.listed, undone] }
  · exact .inl ⟨by simp [Store.get?_records_without, hj], by simp [held, Ne.symm hj],
      by simp [shelf], by simp [lists]⟩

/-- The buffers of a reserve end, and the reserve is empty. -/
theorem emptied (h : W.Sound) (hs : W.store.caches.get? c = some s) :
    ({ W with store := W.store.emptied c s } : World).Sound := by
  have shelf := Store.shelf_emptied hs
  have lists := Store.listOf_update (Store.caches_emptied W.store c s) fun z hz => by simp_all
  refine h.of_alike (by simp [Store.emptied, h.calm]) (by simp) (fun j => ?_)
    (h.tidy_update c _ (Store.caches_emptied ..) (fun _ _ => rfl) (by simp) fun z hz old => ?_)
    (by simpa using h.shares) fun a ha => ?_
  · by_cases hj : j ∈ s.reserve.slots
    · obtain ⟨x, hx, hc, rfl, image, unheld⟩ := h.idle_of_slot hs hj
      refine .inr (.of_none (by simp [Store.get?_records_emptied, hj]) ⟨unheld, ?_, ?_⟩)
      · intro d
        rw [shelf]
        split
        · simp
        · next hd => simp [hc.shelved, hd]
      · simp [lists, hc.listed, image]
    · refine .inl ⟨by simp [Store.get?_records_emptied, hj], rfl, ?_, by simp [lists]⟩
      intro d
      rw [shelf]
      split
      · next hd => simp [hd, Store.shelf_of_get? hs, hj]
      · rfl
  · obtain rfl : s = z := by simpa [hs] using hz
    exact ⟨old.owners, old.owned, by simpa using old.source, .nil, Nat.zero_le _, old.lists⟩
  · simpa using h.shared a (by simpa [Store.emptied] using ha)

/-- A record in the lists of a cache that is torn down loses its mark. -/
theorem unmarked (h : W.Sound) {O : Multiset CacheId} (hs : W.store.caches.get? c = some s)
    (idle : r ∉ s.reserve.slots) (listed : r ∈ s.lists.all) :
    ({ W with store := W.store.tornDown c s, shares := O } : World).Agrees r := by
  obtain ⟨k, hk⟩ := Lists.mem_all_iff.1 listed
  obtain ⟨x, hx, hc, rfl, image, done⟩ := h.exists_listed ((Store.listOf_of_get? hs k).symm ▸ hk)
  refine .of_some (x := x.unmark) ?_ ?_
  · rw [Store.get?_records_tornDown, if_neg idle, if_pos listed, hx]
    rfl
  · exact
      { holders := hc.holders
        references := hc.references
        bound := hc.bound
        idle := fun none => absurd (image.symm.trans none) (by simp)
        publisher := rfl
        shelved := fun d => by
          rw [Store.shelf_tornDown]
          split
          · simp [Record.unmark, image]
          · exact hc.shelved d
        listed := fun d i => by
          rw [Store.listOf_tornDown]
          split
          · simp [Record.unmark]
          · next hd => simp [hc.listed, hd, Record.unmark]
        source := by simpa [Record.unmark] using hc.source }

/-- The end of a cache: the buffers of its reserve end with it, its published ones lose their
mark. -/
theorem tornDown (h : W.Sound) {O : Multiset CacheId} (held : W.shares = c ::ₘ O)
    (hs : W.store.caches.get? c = some s) (last : s.owners = 1) :
    ({ W with store := W.store.tornDown c s, shares := O } : World).Sound := by
  have unshared : c ∉ O := by
    have count := (h.tidy c s hs).owners
    rw [held, Multiset.count_cons_self, last] at count
    exact Multiset.count_eq_zero.1 (by omega)
  refine h.of_alike (by simp [Store.tornDown, Store.unmarkAll, h.calm]) (by simp) (fun j => ?_)
    (fun d z hz => ?_) (fun d hd => ?_) fun a ha => ?_
  · by_cases hj : j ∈ s.reserve.slots
    · obtain ⟨x, hx, hc, rfl, image, unheld⟩ := h.idle_of_slot hs hj
      refine .inr (.of_none (by simp [Store.get?_records_tornDown, hj]) ⟨unheld, ?_, ?_⟩)
      · intro d
        rw [Store.shelf_tornDown]
        split
        · simp
        · next hd => simp [hc.shelved, hd]
      · intro d k
        rw [Store.listOf_tornDown]
        split
        · simp
        · simp [hc.listed, image]
    · by_cases hk : j ∈ s.lists.all
      · exact .inr (h.unmarked hs hj hk)
      · refine .inl ⟨by simp [Store.get?_records_tornDown, hj, hk], rfl, ?_, ?_⟩
        · intro d
          rw [Store.shelf_tornDown]
          split
          · next hd => simp [hd, Store.shelf_of_get? hs, hj]
          · rfl
        · intro d i
          rw [Store.listOf_tornDown]
          split
          · next hd =>
            rw [hd, Store.listOf_of_get? hs]
            simpa using fun hi => hk (Lists.mem_all_iff.2 ⟨i, hi⟩)
          · rfl
  · rw [Store.caches_tornDown, Table.get?_erase] at hz
    split at hz
    · cases hz
    · next hd => exact (h.tidy d z hz).of_shares (by simp [held, hd]) (by simp)
  · have hne : d ≠ c := fun h => unshared (h ▸ hd)
    rw [Store.caches_tornDown, Table.get?_erase, if_neg hne]
    exact h.shares d (held ▸ Multiset.mem_cons_of_mem hd)
  · simpa using h.shared a (by simpa [Store.tornDown, Store.unmarkAll] using ha)

/-! ## 7. Every move -/

/-- Every move keeps a world sound. -/
theorem step {m : Move} (h : W.Sound) (move : Step m W W') : W'.Sound := by
  induction move with
  | retain hx image origin => exact h.retain hx image origin
  | letGo held hx more => exact h.letGo held hx more
  | publish held hx undone hs => exact h.publish held hx undone hs
  | withdraw hx done image hs => exact h.withdraw hx image hs
  | refit hx undone sole fits =>
    exact (h.refit hx (by omega) fits).count _ _
  | refitFailed hx undone sole fails => exact h.refit hx (by omega) fails
  | write held hx written => exact h.write hx written
  | reuse hs top hx => exact h.reuse hs top hx
  | make hs empty => exact h.make hs
  | keep held hx undone last hs room => exact h.keep held hx undone last hs room
  | @free _ H b x s held hx undone last hs full =>
    exact ((h.count b.cache .addFreed).emit _).without held hx undone last
  | outlive held hx undone last dead => exact (h.emit _).without held hx undone last
  | @discard _ H b x area e held hx undone last =>
    exact ((h.count b.cache .addFailure).emit _).without held hx undone last
  | retire withdrawn parted how withdraws parts => exact parts (withdraws h)
  | report => exact h.emit _
  | tally => exact h.count _ _
  | addAllocator => exact h.addAllocator _
  | settle known => exact h.settle known
  | addKey => exact h.addKey
  | addCache known => exact h.addCache known
  | share alive => exact h.share alive
  | unshare held hs more => exact h.unshare held hs more
  | tearDown held hs last => exact h.tornDown held hs last
  | emptyReserve hs => exact h.emptied hs
  | lend hs granted => exact h.setAllocator _ _ _
  | @refuse V a s after n e hs refused => exact h.setAllocator a after V.loans
  | repay held hs => exact h.setAllocator _ _ _
  | misfree hs => exact h.setAllocator _ _ _

/-- Whatever moves lead there, a world reached from a sound one is sound. -/
theorem reaches {P : Move → Prop} (h : W.Sound) (moves : Reaches P W W') : W'.Sound :=
  moves.keeps (fun _ _ _ _ move h => h.step move) h

end Sound

end World

end PixelPool
