import PixelPool.Proofs.Outcomes
import PixelPool.Proofs.Views

/-!
Operations of the store under looser limits.

A `Loosening` gives every allocator a limit that leaves at least as much room as its own, and
`Store.withLimits` is the store under these limits. An operation that needs no new block commutes
with that change, faults included: a lemma `*_withLimits` says so for each. An operation that may
need one gives the same outcome under looser limits, unless the outcome is that a limit was passed:
`Fault.Spares` says that of two programs, and a lemma `*_spares` of each operation.
-/

namespace PixelPool

/-! ## 1. Looser limits -/

/-- A limit leaves at least as much room as another one. Without limit there is still no more room
than a word can count. -/
def Looser : Option Nat → Option Nat → Prop
  | none, other => other = none
  | some limit, none => limit ≤ Word.max
  | some limit, some other => limit ≤ other

theorem Looser.refl (limit : Option Nat) : Looser limit limit := by
  cases limit with
  | none => rfl
  | some limit => exact Nat.le_refl limit

/-- A looser limit for every allocator and every limit that it may have. -/
structure Loosening where
  limit : AllocatorId → Option Nat → Option Nat
  looser : ∀ a old, Looser old (limit a old)

namespace Loosening

/-- Every limit as it is. -/
def same : Loosening where
  limit _ old := old
  looser _ old := .refl old

/-- The loosening that gives one allocator another limit in place of a certain one. -/
def extend (g : Loosening) (a : AllocatorId) {old new : Option Nat} (loose : Looser old new) :
    Loosening where
  limit b limit := if b = a ∧ limit = old then new else g.limit b limit
  looser b limit := by
    split
    · next h => exact h.2 ▸ loose
    · exact g.looser b limit

theorem limit_none (g : Loosening) (a : AllocatorId) : g.limit a none = none := g.looser a none

end Loosening

/-- Whether a request for storage was refused because of a limit. -/
def StorageError.overLimit : StorageError → Bool
  | .limitExceeded .. => true
  | _ => false

/-- Whether an operation was refused because of a limit. -/
def Refusal.overLimit : Refusal → Bool
  | .allocation e => e.overLimit
  | _ => false

/-- Whether an outcome is an error of some kind. -/
def failedBy {ε α : Type} (kind : ε → Bool) : Except ε α → Bool
  | .ok _ => false
  | .error e => kind e

namespace Allocator

variable {a : Allocator} {limit : Option Nat}

/-- The allocator held to another limit. -/
def relimit (a : Allocator) (limit : Option Nat) : Allocator := { a with limit }

theorem ceiling_le_relimit (loose : Looser a.limit limit) :
    a.ceiling ≤ (a.relimit limit).ceiling := by
  unfold ceiling relimit
  generalize a.limit = old at loose
  cases old with
  | none =>
    obtain rfl : limit = none := loose
    exact Nat.le_refl _
  | some old =>
    cases limit with
    | none => exact loose
    | some limit => exact loose

/-- A request past the ceiling that no limit is blamed for is one to an allocator without limit. -/
theorem limit_of_quotaError {size : Nat} (spared : (a.quotaError size).overLimit = false) :
    a.limit = none := by
  unfold quotaError at spared
  split at spared
  · simp [StorageError.overLimit] at spared
  · assumption

/-- Whatever the heap says to a request, a looser limit changes nothing but a refusal that is due to
the limit. -/
theorem allocateIf_relimit (loose : Looser a.limit limit) (heapGrants : Bool) (size : Nat)
    (spared : failedBy (·.overLimit) (a.allocateIf heapGrants size).1 = false) :
    (a.relimit limit).allocateIf heapGrants size
      = ((a.allocateIf heapGrants size).1, (a.allocateIf heapGrants size).2.relimit limit) := by
  have room := ceiling_le_relimit loose
  unfold allocateIf at spared ⊢
  by_cases large : size > Word.maxBlock
  · simp [large, refuse, relimit]
  · by_cases past : a.live + size > a.ceiling
    · rw [if_neg large, if_pos past] at spared
      have unlimited := limit_of_quotaError spared
      obtain rfl : limit = none := by simpa [unlimited, Looser] using loose
      have same : a.relimit none = a := by simp [relimit, ← unlimited]
      simp only [same, if_neg large, if_pos past]
      rw [relimit, refuse, ← unlimited]
    · have also : ¬(a.relimit limit).live + size > (a.relimit limit).ceiling := by
        have : (a.relimit limit).live = a.live := rfl
        omega
      simp only [if_neg large, if_neg past, if_neg also]
      cases heapGrants <;> rfl

end Allocator

/-! ## 2. The store under other limits -/

namespace Table

variable {α : Type} (t : Table α) (f : Nat → α → α)

/-- The table with every value changed, by its key. -/
def mapKeyed : Table α where
  next := t.next
  entries := t.entries.map fun e => (e.1, f e.1 e.2)
  descending := List.pairwise_map.2 t.descending
  below := by
    intro e h
    obtain ⟨d, hd, rfl⟩ := List.mem_map.1 h
    exact t.below d hd

@[simp] theorem get?_mapKeyed (k : Nat) : (t.mapKeyed f).get? k = (t.get? k).map (f k) := by
  simp only [get?, mapKeyed]
  induction t.entries with
  | nil => rfl
  | cons e es ih =>
    by_cases h : e.1 = k
    · simp [h]
    · have : (e.1 == k) = false := by simpa using h
      simpa [List.find?_cons, this] using ih

theorem mapKeyed_congr {f g : Nat → α → α} (same : ∀ k < t.next, f k = g k) :
    t.mapKeyed f = t.mapKeyed g := by
  refine ext_entries rfl (List.map_congr_left fun e he => ?_)
  rw [same e.1 (t.below e he)]

theorem mapKeyed_update (k : Nat) (x : α) :
    (t.update k fun _ => x).mapKeyed f = (t.mapKeyed f).update k fun _ => f k x := by
  refine ext_entries rfl ?_
  simp only [mapKeyed, update, List.map_map]
  refine List.map_congr_left fun e _ => ?_
  by_cases h : e.1 = k <;> simp [h]

end Table

namespace Store

variable {w : Store} {g : Loosening} {r : RecordId} {c : CacheId}

/-- The store with a looser limit for every allocator. -/
def withLimits (g : Loosening) (w : Store) : Store :=
  { w with allocators := w.allocators.mapKeyed fun a x => x.relimit (g.limit a x.limit) }

@[simp] theorem emit_withLimits (e : Event) :
    (w.withLimits g).emit e = (w.emit e).withLimits g := rfl

theorem setAllocator_withLimits (a : AllocatorId) (x : Allocator) :
    (w.withLimits g).setAllocator a (x.relimit (g.limit a x.limit))
      = (w.setAllocator a x).withLimits g := by
  simp [setAllocator, withLimits, Table.mapKeyed_update]

theorem allocator_withLimits (a : AllocatorId) :
    (w.withLimits g).allocator a
      = (fun x : Allocator => x.relimit (g.limit a x.limit)) <$> w.allocator a := by
  unfold allocator withLimits
  rw [Table.get?_mapKeyed]
  cases w.allocators.get? a <;> rfl

theorem withLimits_same : w.withLimits .same = w := by
  have : w.allocators.mapKeyed (fun a x => x.relimit (Loosening.same.limit a x.limit))
      = w.allocators := by
    refine Table.ext_entries rfl ?_
    simp [Table.mapKeyed, Loosening.same, Allocator.relimit]
  rw [withLimits, this]

/-- An allocator that does not exist yet may be given any limit. -/
theorem withLimits_extend {old new : Option Nat} (loose : Looser old new) :
    w.withLimits (g.extend w.allocators.next loose) = w.withLimits g := by
  have : w.allocators.mapKeyed (fun a x =>
        x.relimit ((g.extend w.allocators.next loose).limit a x.limit))
      = w.allocators.mapKeyed fun a x => x.relimit (g.limit a x.limit) := by
    refine Table.mapKeyed_congr _ fun a before => ?_
    have other : a ≠ w.allocators.next := Nat.ne_of_lt before
    simp [Loosening.extend, other]
  rw [withLimits, withLimits, this]

end Store

/-! ## 3. Two programs side by side -/

namespace Fault

variable {σ σ' α β : Type} {φ : σ → σ} {ψ : σ' → σ'} {past : α → Bool} {past' : β → Bool}

/-- The second program gives what the first gives, with the state changed by `φ`, unless the first
is over some limit. -/
def Spares (φ : σ → σ) (past : α → Bool) (p q : Except Fault (α × σ)) : Prop :=
  ∀ a, p = .ok a → past a.1 = false → q = .ok (a.1, φ a.2)

theorem Spares.of_map {p q : Except Fault (α × σ)} (same : q = Prod.map id φ <$> p) :
    Spares φ past p q := by
  intro a run _
  rw [same, run]
  rfl

theorem Spares.ok {a : α} {s : σ} : Spares φ past (.ok (a, s)) (.ok (a, φ s)) := .of_map rfl

/-- A part that never is over the limit, and the rest. -/
theorem Spares.after {γ γ' : Type} {p : Except Fault γ} {χ : γ → γ'}
    {f : γ → Except Fault (α × σ)} {f' : γ' → Except Fault (α × σ)}
    {q : Except Fault γ'} (first : q = χ <$> p)
    (rest : ∀ a, Spares φ past (f a) (f' (χ a))) : Spares φ past (p >>= f) (q >>= f') := by
  rw [first]
  cases p with
  | error e =>
    intro a run
    cases run
  | ok a => exact rest a

/-- A part that is the same on both sides, and the rest. -/
theorem Spares.given {γ : Type} {p : Except Fault γ} {f f' : γ → Except Fault (α × σ)}
    (rest : ∀ a, Spares φ past (f a) (f' a)) : Spares φ past (p >>= f) (p >>= f') :=
  .after (χ := id) (id_map p).symm rest

/-- A part that may be over the limit, and the rest, which then is over it too. -/
theorem Spares.bind {p q : Except Fault (α × σ)} {f f' : α × σ → Except Fault (β × σ')}
    (first : Spares φ past p q)
    (rest : ∀ a s, past a = false → Spares ψ past' (f (a, s)) (f' (a, φ s)))
    (failed : ∀ a s, past a = true → Yields (f (a, s)) fun b => past' b.1 = true) :
    Spares ψ past' (p >>= f) (q >>= f') := by
  cases p with
  | error e =>
    intro b run
    cases run
  | ok a =>
    intro b run spared
    cases within : past a.1 with
    | true => simp [failed _ _ within b run] at spared
    | false =>
      rw [first a rfl within]
      exact rest _ _ within b run spared

/-- Two programs with the same first part. -/
theorem bind_eq_map_same {γ : Type} {p : Except Fault γ} {f : γ → Except Fault α}
    {f' : γ → Except Fault β} {χ : α → β} (rest : ∀ a, f' a = χ <$> f a) :
    p >>= f' = χ <$> (p >>= f) := by
  cases p with
  | error e => rfl
  | ok a => exact rest a

/-- Two programs whose first parts give the same but for a change. -/
theorem bind_eq_map {γ γ' : Type} {p : Except Fault γ} {q : Except Fault γ'} {χ : γ → γ'}
    {f : γ → Except Fault α} {f' : γ' → Except Fault β} {ξ : α → β} (first : q = χ <$> p)
    (rest : ∀ a, f' (χ a) = ξ <$> f a) : q >>= f' = ξ <$> (p >>= f) := by
  rw [first]
  cases p with
  | error e => rfl
  | ok a => exact rest a

end Fault

namespace Store

open Fault

variable {w : Store} {g : Loosening} {r : RecordId} {c : CacheId}

/-! ## 4. Operations that need no new block -/

theorem within_withLimits {α : Type} {part : Section} {body : Store → Except Fault (α × Store)}
    (same : ∀ v : Store, body (v.withLimits g) = Prod.map id (withLimits g) <$> body v) :
    (w.withLimits g).within c part body = Prod.map id (withLimits g) <$> w.within c part body := by
  have inner : body { w.withLimits g with inside := (c, part) :: w.inside }
      = Prod.map id (withLimits g) <$> body { w with inside := (c, part) :: w.inside } :=
    same { w with inside := (c, part) :: w.inside }
  have still : (w.withLimits g).inside = w.inside := rfl
  unfold within
  rw [still, inner]
  split
  · rfl
  · cases body { w with inside := (c, part) :: w.inside } <;> rfl

theorem giveBack_withLimits (a : AllocatorId) (b : Block) :
    (w.withLimits g).giveBack a b = withLimits g <$> w.giveBack a b := by
  unfold giveBack
  refine bind_eq_map (allocator_withLimits a) fun x => ?_
  exact congrArg Except.ok (setAllocator_withLimits a (x.free b))

theorem destroy_withLimits : (w.withLimits g).destroy r = withLimits g <$> w.destroy r := by
  unfold destroy
  refine bind_eq_map_same fun x => ?_
  cases x.storage with
  | none => rfl
  | some b => exact bind_eq_map (giveBack_withLimits x.allocator b) fun _ => rfl

theorem destroyAll_withLimits (rs : List RecordId) :
    (w.withLimits g).destroyAll rs = withLimits g <$> w.destroyAll rs := by
  induction rs generalizing w with
  | nil => rfl
  | cons r rest ih => exact bind_eq_map destroy_withLimits fun v => ih

theorem detachAll_withLimits (rs : List RecordId) :
    (w.withLimits g).detachAll rs = withLimits g <$> w.detachAll rs := by
  induction rs generalizing w with
  | nil => rfl
  | cons r rest ih => exact bind_eq_map_same fun x => ih (w := w.setRecord r x.unmark)

theorem withdraw_withLimits : (w.withLimits g).withdraw c r = withLimits g <$> w.withdraw c r := by
  unfold withdraw
  refine bind_eq_map_same fun x => ?_
  split
  · rfl
  · split
    · rfl
    · split
      · rfl
      · refine bind_eq_map (within_withLimits fun v => ?_) fun _ => rfl
        exact bind_eq_map_same fun s => bind_eq_map_same fun lists => rfl

theorem keepOrFree_withLimits :
    (w.withLimits g).keepOrFree c r = withLimits g <$> w.keepOrFree c r := by
  unfold keepOrFree
  refine bind_eq_map (within_withLimits fun v => ?_) fun ⟨kept, v⟩ => ?_
  · refine bind_eq_map_same fun s => ?_
    split
    · rfl
    · refine bind_eq_map_same fun x => ?_
      split <;> rfl
  · cases kept with
    | true => rfl
    | false =>
      exact destroy_withLimits (w := (v.count c .addFreed).emit (.reserveFull c (v.capacityOf r)))

theorem releaseRecord_withLimits :
    (w.withLimits g).releaseRecord c r = withLimits g <$> w.releaseRecord c r := by
  unfold releaseRecord
  refine bind_eq_map_same fun x => bind_eq_map_same fun y => ?_
  dsimp only
  split
  · rfl
  · refine bind_eq_map (withdraw_withLimits (w := w.setRecord r y)) fun v => ?_
    exact bind_eq_map_same fun _ => bind_eq_map_same fun z =>
      keepOrFree_withLimits (w := v.setRecord r z)

theorem releaseOrphan_withLimits (b : Handle) :
    (w.withLimits g).releaseOrphan b = withLimits g <$> w.releaseOrphan b := by
  unfold releaseOrphan
  refine bind_eq_map_same fun x => bind_eq_map_same fun y => ?_
  dsimp only
  split
  · rfl
  · exact bind_eq_map_same fun z => destroy_withLimits
      (w := ((w.setRecord b.record y).setRecord b.record z).emit (.outlivedCache b.image))

theorem dropHandle_withLimits (b : Handle) :
    (w.withLimits g).dropHandle b = withLimits g <$> w.dropHandle b := by
  unfold dropHandle
  change (if w.isAlive b.cache then _ else _) = _
  split
  · exact releaseRecord_withLimits
  · exact releaseOrphan_withLimits b

theorem dropHandle?_withLimits (old : Option Handle) :
    (w.withLimits g).dropHandle? old = withLimits g <$> w.dropHandle? old := by
  cases old with
  | none => rfl
  | some b => exact dropHandle_withLimits b

theorem copyHandle_withLimits (b : Handle) :
    (w.withLimits g).copyHandle b = Prod.map id (withLimits g) <$> w.copyHandle b := by
  unfold copyHandle
  exact bind_eq_map_same fun _ => bind_eq_map_same fun _ => rfl

theorem lookup_withLimits (image : Image) (area : Rect) :
    (w.withLimits g).lookup c image area
      = Prod.map id (withLimits g) <$> w.lookup c image area := by
  unfold lookup
  refine bind_eq_map (within_withLimits fun v => ?_) fun ⟨found, v⟩ => ?_
  · refine bind_eq_map_same fun s => ?_
    have areas : (v.withLimits g).areaOf = v.areaOf := rfl
    rw [areas]
    cases (s.lists.members image.key).find? fun r => (v.areaOf r).encloses area with
    | none => rfl
    | some r => exact bind_eq_map_same fun _ => bind_eq_map_same fun _ => rfl
  · cases found with
    | none => rfl
    | some r => exact bind_eq_map_same fun _ => rfl

theorem takeIdle_withLimits :
    (w.withLimits g).takeIdle c = Prod.map id (withLimits g) <$> w.takeIdle c := by
  unfold takeIdle
  refine bind_eq_map (within_withLimits fun v => ?_) fun ⟨top, v⟩ => ?_
  · exact bind_eq_map_same fun _ => rfl
  · cases top with
    | some r => rfl
    | none => exact bind_eq_map_same fun _ => rfl

theorem publish_withLimits (b : Handle) :
    (w.withLimits g).publish c b = Prod.map id (withLimits g) <$> w.publish c b := by
  unfold publish
  split
  · rfl
  · refine bind_eq_map_same fun x => ?_
    split
    · rfl
    · refine bind_eq_map (within_withLimits fun v => ?_) fun _ => rfl
      exact bind_eq_map_same fun s => bind_eq_map_same fun lists => rfl

theorem unpublish_withLimits (b : Handle) :
    (w.withLimits g).unpublish c b = Prod.map id (withLimits g) <$> w.unpublish c b := by
  unfold unpublish
  split
  · rfl
  · exact bind_eq_map withdraw_withLimits fun _ => rfl

theorem publishOwn_withLimits (b : Handle) :
    (w.withLimits g).publishOwn b = Prod.map id (withLimits g) <$> w.publishOwn b := by
  have alive : (w.withLimits g).isAlive = w.isAlive := rfl
  unfold publishOwn
  rw [alive]
  split
  · exact publish_withLimits b
  · rfl

theorem unpublishOwn_withLimits (b : Handle) :
    (w.withLimits g).unpublishOwn b = Prod.map id (withLimits g) <$> w.unpublishOwn b := by
  have alive : (w.withLimits g).isAlive = w.isAlive := rfl
  unfold unpublishOwn
  rw [alive]
  split
  · exact unpublish_withLimits b
  · rfl

theorem release_withLimits (b : Handle) :
    (w.withLimits g).release c b = Prod.map id (withLimits g) <$> w.release c b := by
  unfold release
  exact bind_eq_map (dropHandle_withLimits b) fun _ => rfl

theorem tearDown_withLimits : (w.withLimits g).tearDown c = withLimits g <$> w.tearDown c := by
  unfold tearDown
  refine bind_eq_map_same fun s => ?_
  refine bind_eq_map (detachAll_withLimits _) fun v => ?_
  exact bind_eq_map (destroyAll_withLimits _) fun _ => rfl

theorem dropOwner_withLimits : (w.withLimits g).dropOwner c = withLimits g <$> w.dropOwner c := by
  unfold dropOwner
  refine bind_eq_map_same fun s => ?_
  split
  · exact tearDown_withLimits
  · rfl

theorem emptyReserve_withLimits :
    (w.withLimits g).emptyReserve c = Prod.map id (withLimits g) <$> w.emptyReserve c := by
  unfold emptyReserve
  refine bind_eq_map (within_withLimits fun v => ?_) fun _ => rfl
  refine bind_eq_map_same fun s => ?_
  exact bind_eq_map (destroyAll_withLimits (w := v.setCache c _) _) fun _ => rfl

theorem createCache_withLimits (thread : ThreadId) (config : Config) (a : AllocatorId) :
    (w.withLimits g).createCache thread config a
      = Prod.map id (withLimits g) (w.createCache thread config a) := rfl

theorem install_withLimits (config : Config) :
    (w.withLimits g).install config = Prod.map id (withLimits g) (w.install config) := by
  have settings : (w.withLimits g).settings = w.settings := rfl
  unfold install
  rw [settings]
  cases w.settings.config <;> rfl

theorem sharedConfig_withLimits :
    (w.withLimits g).sharedConfig = Prod.map id (withLimits g) w.sharedConfig := by
  have settings : (w.withLimits g).settings = w.settings := rfl
  have environment : (w.withLimits g).environmentConfig = w.environmentConfig := rfl
  unfold sharedConfig
  rw [settings, environment]
  cases w.settings.config with
  | some config => rfl
  | none => cases w.environmentConfig <;> rfl

theorem installAllocator_withLimits (a : AllocatorId) :
    (w.withLimits g).installAllocator a = Prod.map id (withLimits g) (w.installAllocator a) := by
  have settings : (w.withLimits g).settings = w.settings := rfl
  unfold installAllocator
  rw [settings]
  cases w.settings.allocator <;> rfl

/-- A new allocator, whose limit the loosening changes to the other one. -/
theorem createAllocator_withLimits {old new : Option Nat}
    (changed : g.limit w.allocators.next old = new) :
    (w.withLimits g).createAllocator new
      = Prod.map id (withLimits g) (w.createAllocator old) := by
  subst changed
  rfl

theorem sharedAllocator_withLimits :
    (w.withLimits g).sharedAllocator = Prod.map id (withLimits g) w.sharedAllocator := by
  have settings : (w.withLimits g).settings = w.settings := rfl
  unfold sharedAllocator
  rw [settings, createAllocator_withLimits (g.limit_none _)]
  cases w.settings.allocator <;> rfl

theorem createWithConfig_withLimits (thread : ThreadId) (config : Config) :
    (w.withLimits g).createWithConfig thread config
      = Prod.map id (withLimits g) (w.createWithConfig thread config) := by
  unfold createWithConfig
  rw [sharedAllocator_withLimits]
  rfl

theorem createShared_withLimits (thread : ThreadId) :
    (w.withLimits g).createShared thread
      = Prod.map id (withLimits g) (w.createShared thread) := by
  unfold createShared
  rw [sharedConfig_withLimits]
  exact createWithConfig_withLimits thread w.sharedConfig.1

/-! ## 5. Operations that may need a new block -/

/-- A request to an allocator, and what is done with the answer. -/
theorem allocate_spares {σ α : Type} {φ : σ → σ} {past : α → Bool} {a : AllocatorId}
    {x : Allocator} {heap : Heap} {size : Nat}
    {f h : Except StorageError Block × Allocator → Except Fault (α × σ)}
    (rest : ∀ outcome y, Spares φ past (f (outcome, y))
      (h (outcome, y.relimit (g.limit a y.limit))))
    (failed : ∀ e y, e.overLimit = true → Yields (f (.error e, y)) fun b => past b.1 = true) :
    Spares φ past (f (x.allocate heap size))
      (h ((x.relimit (g.limit a x.limit)).allocate heap size)) := by
  intro b run spared
  have within : failedBy (·.overLimit) (x.allocate heap size).1 = false := by
    cases refused : (x.allocate heap size).1 with
    | ok block => rfl
    | error e =>
      rw [← Prod.eta (x.allocate heap size), refused] at run
      cases past : e.overLimit with
      | false => exact past
      | true => simp [failed e _ past b run] at spared
  have eased : (x.relimit (g.limit a x.limit)).allocate heap size
      = ((x.allocate heap size).1, (x.allocate heap size).2.relimit (g.limit a x.limit)) :=
    Allocator.allocateIf_relimit (g.looser a x.limit) _ size within
  rw [eased, ← x.limit_allocate heap size]
  exact rest _ _ b run spared

theorem lowered_relimit (s : Allocator) (x : Record) (limit : Option Nat) :
    lowered (s.relimit limit) x = (lowered s x).relimit limit := by
  unfold lowered
  cases x.storage <;> rfl

theorem renew_spares (x : Record) (area : Rect) (s : Allocator) (size : Nat) :
    Spares (withLimits g) (failedBy (·.overLimit))
      (w.renew r x area ((lowered s x).allocate w.host.heap size))
      ((w.withLimits g).renew r x area
        ((lowered (s.relimit (g.limit x.allocator s.limit)) x).allocate w.host.heap size)) := by
  rw [lowered_relimit, ← limit_lowered s x]
  refine allocate_spares (fun outcome y => ?_) fun e y past => yields_ok past
  refine .of_map ?_
  cases outcome <;> simp only [renew, setAllocator_withLimits] <;> rfl

theorem fit_spares (area : Rect) : Spares (withLimits g) (failedBy (·.overLimit))
    (w.fit r area) ((w.withLimits g).fit r area) := by
  unfold fit
  refine .given fun x => ?_
  split
  · exact .of_map rfl
  · split
    · exact .ok
    · next required _ =>
      split
      · exact .ok
      · refine .after (allocator_withLimits x.allocator) fun source => ?_
        exact renew_spares x area source required

theorem acquire_spares (image : Image) (area : Rect) :
    Spares (withLimits g) (failedBy (·.overLimit))
      (w.acquire c image area) ((w.withLimits g).acquire c image area) := by
  unfold acquire
  refine .after takeIdle_withLimits fun ⟨r, v⟩ => ?_
  refine .given fun x => .given fun y => ?_
  refine .bind (fit_spares (w := v.setRecord r y) area) (fun outcome u spared => ?_)
    fun outcome u past => ?_
  · cases outcome with
    | ok newBlock => exact .given fun _ => .ok
    | error e =>
      refine .after (destroy_withLimits (w := (u.count c .addFailure).emit _)) fun _ => .ok
  · cases outcome with
    | ok newBlock => simp [failedBy] at past
    | error e => exact .after fun _ => yields_ok past

theorem request_spares (image : Image) (area : Rect) :
    Spares (withLimits g) (failedBy (·.overLimit))
      (w.request c image area) ((w.withLimits g).request c image area) := by
  unfold request
  refine .after (lookup_withLimits image area) fun ⟨found, v⟩ => ?_
  cases found with
  | some b => exact .ok
  | none => exact acquire_spares (w := v.count c .addMiss) image area

theorem resize_spares (b : Handle) (area : Rect) (viewHeld : Bool) :
    Spares (withLimits g) (failedBy (·.overLimit))
      (w.resize c b area viewHeld) ((w.withLimits g).resize c b area viewHeld) := by
  unfold resize
  split
  · exact .ok
  · refine .given fun x => ?_
    split
    · exact .ok
    · refine .after withdraw_withLimits fun v => ?_
      split
      · exact .ok
      · refine .bind (fit_spares area) (fun outcome u spared => ?_) fun outcome u past => ?_
        · cases outcome <;> exact .ok
        · cases outcome with
          | ok newBlock => simp [failedBy] at past
          | error e => exact yields_ok past

theorem failedBy_asRefusal {α : Type} (outcome : Except StorageError α) :
    failedBy (·.overLimit) (asRefusal outcome) = failedBy (·.overLimit) outcome := by
  cases outcome <;> rfl

theorem acquireMissed_spares (image : Image) (area : Rect) :
    Spares (withLimits g) (failedBy (·.overLimit))
      (w.acquireMissed c image area) ((w.withLimits g).acquireMissed c image area) := by
  unfold acquireMissed
  refine .bind (acquire_spares (w := w.count c .addMiss) image area)
    (fun outcome v _ => .ok) fun outcome v past => yields_ok ?_
  rw [failedBy_asRefusal, past]

theorem exchange_spares (old : Option Handle) (image : Image) (area : Rect) :
    Spares (withLimits g) (failedBy (·.overLimit))
      (w.exchange c old image area) ((w.withLimits g).exchange c old image area) := by
  cases old with
  | none =>
    refine .after (lookup_withLimits image area) fun ⟨found, v⟩ => ?_
    cases found with
    | some b => exact .ok
    | none => exact acquireMissed_spares image area
  | some b =>
    have areas : (w.withLimits g).areaOf = w.areaOf := rfl
    unfold exchange
    dsimp only
    rw [areas]
    split
    · exact .after (dropHandle_withLimits b) fun _ => .ok
    · split
      · exact .after (dropHandle_withLimits b) fun _ => .ok
      · split
        · exact .ok
        · refine .after (lookup_withLimits image area) fun ⟨found, v⟩ => ?_
          cases found with
          | some hit =>
            exact .after (dropHandle_withLimits (w := v.count c .addHit) b) fun _ => .ok
          | none =>
            change Spares _ _ (if v.referencesOf b.record = 1 then _ else _)
              (if v.referencesOf b.record = 1 then _ else _)
            split
            · refine .bind (resize_spares b area false) (fun outcome u _ => ?_)
                fun outcome u past => ?_
              · cases outcome with
                | ok => exact .ok
                | error e => exact .after (dropHandle_withLimits b) fun _ => .ok
              · cases outcome with
                | ok => simp [failedBy] at past
                | error e => exact .after fun _ => yields_ok past
            · exact .after (dropHandle_withLimits b) fun u => acquireMissed_spares image area

end Store

/-! ## 6. Operations of a thread -/

namespace Thread

open Fault Store

variable {t : Thread} {w : Store} {g : Loosening}

theorem current_withLimits :
    t.current (w.withLimits g) = Prod.map (fun a => a) (withLimits g) (t.current w) := by
  unfold current
  cases t.binding with
  | bound c => rfl
  | unbound =>
    dsimp only
    rw [createShared_withLimits]
    rfl
  | destroyed =>
    dsimp only
    rw [emit_withLimits, createShared_withLimits]
    rfl

theorem bind_withLimits (c : CacheId) :
    t.bind (w.withLimits g) c = Prod.map (fun a => a) (withLimits g) <$> t.bind w c := by
  unfold bind
  cases t.binding with
  | destroyed => exact bind_eq_map dropOwner_withLimits fun _ => rfl
  | _ => rfl

theorem unbind_withLimits :
    t.unbind (w.withLimits g) = Prod.map (fun a => a) (withLimits g) <$> t.unbind w := by
  unfold unbind
  cases t.binding with
  | bound c => exact bind_eq_map dropOwner_withLimits fun _ => rfl
  | _ => rfl

theorem destroyBinding_withLimits :
    t.destroyBinding (w.withLimits g)
      = Prod.map (fun a => a) (withLimits g) <$> t.destroyBinding w := by
  unfold destroyBinding
  cases t.binding with
  | bound c => exact bind_eq_map dropOwner_withLimits fun _ => rfl
  | _ => rfl

theorem request_spares (image : Image) (area : Rect) :
    Spares (withLimits g) (fun a => failedBy (·.overLimit) a.1)
      (t.request w image area) (t.request (w.withLimits g) image area) := by
  unfold request
  rw [current_withLimits]
  refine .bind (Store.request_spares image area) (fun outcome v _ => ?_) fun outcome v past => ?_
  · exact .after dropOwner_withLimits fun _ => .ok
  · exact .after fun _ => yields_ok past

theorem exchange_spares (old : Option Handle) (image : Image) (area : Rect) :
    Spares (withLimits g) (fun a => failedBy (·.overLimit) a.1)
      (t.exchange w old image area) (t.exchange (w.withLimits g) old image area) := by
  have alive : (w.withLimits g).isAlive = w.isAlive := rfl
  unfold exchange
  rw [alive]
  split
  · exact .bind (Store.exchange_spares _ image area) (fun outcome v _ => .ok)
      fun outcome v past => yields_ok past
  · refine .after (dropHandle?_withLimits old) fun v => ?_
    rw [current_withLimits]
    refine .bind (Store.exchange_spares none image area) (fun outcome u _ => ?_)
      fun outcome u past => ?_
    · exact .after dropOwner_withLimits fun _ => .ok
    · exact .after fun _ => yields_ok past

end Thread

end PixelPool
