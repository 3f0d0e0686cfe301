import PixelPool.Proofs.Contents
import PixelPool.Proofs.Results

/-!
How the lists of a cache change.

A move that publishes nothing takes at most one buffer out of one list (`Delisted`). So a list
becomes its members that are still published, in the order they had
(`World.Step.listOf_eq_filter`), and this carries over to any number of such moves
(`Store.Thinned`). Publishing a buffer puts it first and leaves all other lists alone
(`Store.Headed`). Which acts do so is read off the act and the state before it (`Session.Enlists`),
and what the act does then is computed (`Session.Sound.step_enlists`). Main statements: these acts
and no others make a buffer published (`Session.Sound.enlists_iff`), what an act makes of the lists
of all caches (`Session.Sound.step_lists`), and that a list stays as it is, areas included, unless
the act is about a buffer of its image in its cache (`Session.Sound.listing_spared`).
-/

namespace PixelPool

/-- A sublist that keeps exactly the members of a property, out of a list that has nothing twice. -/
theorem eq_filter_of_sublist {α : Type} {p : α → Bool} {l l' : List α} (sub : l'.Sublist l)
    (distinct : l.Nodup) (members : ∀ a ∈ l, (a ∈ l' ↔ p a = true)) : l' = l.filter p := by
  have kept : l'.filter p = l' := by
    apply List.filter_eq_self.2
    intro a ha
    exact (members a (sub.subset ha)).1 ha
  have below : l'.Sublist (l.filter p) := by
    have filtered := sub.filter p
    rwa [kept] at filtered
  have same : l'.Perm (l.filter p) := by
    apply (List.perm_ext_iff_of_nodup (distinct.sublist sub) (distinct.filter p)).2
    intro a
    rw [List.mem_filter]
    constructor
    · intro ha
      exact ⟨sub.subset ha, (members a (sub.subset ha)).1 ha⟩
    · intro ⟨ha, holds⟩
      exact (members a ha).2 holds
  exact below.eq_of_length same.length_eq

namespace Store

variable {w v : Store} {c d : CacheId} {s : Cache} {k : ImageKey} {r : RecordId} {x : Record}

/-! ## 1. Lists and marks -/

/-- Whether a buffer is published. -/
def isPublished (w : Store) (r : RecordId) : Bool :=
  ((w.records.get? r).map (·.published)).getD false

theorem isPublished_eq_true_iff :
    w.isPublished r = true ↔ ∃ x, w.records.get? r = some x ∧ x.published = true := by
  cases hx : w.records.get? r <;> simp [isPublished, hx]

/-- The lists of a cache, if it exists. -/
def lists? (w : Store) (c : CacheId) : Option Lists := (w.caches.get? c).map (·.lists)

/-- Whether a cache has a list for an image. -/
def hasList (w : Store) (c : CacheId) (k : ImageKey) : Bool :=
  ((w.lists? c).bind (·.find? k)).isSome

theorem listOf_eq (w : Store) (c : CacheId) (k : ImageKey) :
    w.listOf c k = ((w.lists? c).map (·.members k)).getD [] := by
  simp only [listOf, lists?, Option.map_map]
  rfl

/-- A change of a cache that spares its lists. -/
theorem lists?_update {f : Cache → Cache} (caches : v.caches = w.caches.update c f)
    (same : ∀ s, w.caches.get? c = some s → (f s).lists = s.lists) (d : CacheId) :
    v.lists? d = w.lists? d := map_get?_update _ caches same d

theorem lists?_setCache (hs : w.caches.get? c = some s) (s' : Cache) (d : CacheId) :
    (w.setCache c s').lists? d = if d = c then some s'.lists else w.lists? d := by
  by_cases hd : d = c <;> simp [lists?, Table.get?_update, hd, hs]

/-- What a cache answers when it is asked for the list of an image. -/
theorem listing_eq (calm : w.inside = []) (alive : (w.caches.get? c).isSome = true)
    (k : ImageKey) :
    Session.listing w c k = .ok (if w.hasList c k
      then some ⟨k, c, (w.listOf c k).map w.areaOf⟩ else none) := by
  obtain ⟨s, hs⟩ := Option.isSome_iff_exists.1 alive
  rw [Session.listing, cacheAt_of_get? calm hs, listOf_of_get? hs]
  cases found : s.lists.find? k <;> simp [hasList, lists?, hs, found, Lists.members]

end Store

/-! ## 2. Moves -/

/-- The moves that can change the lists of a cache. -/
def Move.Relists : Move → Prop
  | .publish _ | .withdraw _ | .retire _ | .addCache _ | .tearDown _ => True
  | _ => False

/-- What becomes of the lists of a cache when nothing is published. -/
inductive Delisted : Option Lists → Option Lists → Prop where
  | same (o : Option Lists) : Delisted o o
  | gone (o : Option Lists) : Delisted o none
  | created : Delisted none (some .empty)
  | removed {ls : Lists} {k : ImageKey} {r : RecordId} (listed : r ∈ ls.members k) :
      Delisted (some ls) (some (ls.put k ((ls.members k).erase r)))

namespace Delisted

variable {o o' : Option Lists}

theorem sublist (h : Delisted o o') (k : ImageKey) :
    ((o'.map (·.members k)).getD []).Sublist ((o.map (·.members k)).getD []) := by
  cases h with
  | same => exact .refl _
  | gone => exact List.nil_sublist _
  | created => exact .refl _
  | removed =>
    simp only [Option.map_some, Option.getD_some, Lists.members_put]
    split
    · next hk => exact hk ▸ List.erase_sublist
    · exact .refl _

/-- A list stays, even without members, for as long as its cache does. -/
theorem find? (h : Delisted o o') (k : ImageKey) :
    (o'.bind (·.find? k)).isSome = ((o.bind (·.find? k)).isSome && o'.isSome) := by
  cases h with
  | same => cases o <;> simp
  | gone => simp
  | created => rfl
  | @removed ls j r listed =>
    have found : (ls.find? j).isSome = true := by
      cases hj : ls.find? j with
      | none => simp [Lists.members, hj] at listed
      | some => rfl
    simp only [Option.bind_some, Lists.find?_put, Option.isSome_some, Bool.and_true]
    split
    · next hk => rw [hk, found, Option.isSome_some]
    · rfl

end Delisted

namespace World

variable {W W' : World} {m : Move} {c : CacheId} {k : ImageKey} {r : RecordId}

/-- Most moves spare all lists. -/
theorem Step.lists?_eq (move : Step m W W') (other : ¬ m.Relists) (c : CacheId) :
    W'.store.lists? c = W.store.lists? c := by
  cases move with
  | publish | withdraw | retire | addCache | tearDown => exact absurd trivial other
  | refit hx undone sole fits =>
    refine (Store.lists?_update (Store.caches_count ..) (fun _ _ => rfl) c).trans ?_
    cases fits <;> rfl
  | refitFailed hx undone sole fails => cases fails <;> rfl
  | reuse hs =>
    refine (Store.lists?_update (Store.caches_count ..) (fun _ _ => rfl) c).trans ?_
    exact Store.lists?_update (Store.caches_setCache ..) (fun y hy => by simp_all) c
  | make => exact Store.lists?_update (Store.caches_count ..) (fun _ _ => rfl) c
  | keep held hx undone last hs =>
    refine (Store.lists?_update (Store.caches_count ..) (fun _ _ => rfl) c).trans ?_
    exact Store.lists?_update (Store.caches_setCache ..) (fun y hy => by simp_all) c
  | free =>
    simp only [Store.crowdedOut, Store.lists?, Store.caches_without]
    exact Store.lists?_update (Store.caches_count ..) (fun _ _ => rfl) c
  | outlive => simp [Store.lists?]
  | discard =>
    simp only [Store.lists?, Store.caches_without]
    exact Store.lists?_update (Store.caches_count ..) (fun _ _ => rfl) c
  | tally => exact Store.lists?_update (Store.caches_count ..) (fun _ _ => rfl) c
  | share => exact Store.lists?_update (Store.caches_addOwner ..) (fun _ _ => rfl) c
  | unshare held hs more =>
    exact Store.lists?_update (Store.caches_setCache ..) (fun y hy => by simp_all) c
  | emptyReserve hs =>
    exact Store.lists?_update (Store.caches_emptied ..) (fun y hy => by simp_all) c
  | _ => rfl

theorem Step.delisted_of_withdraw (h : W.Sound) (move : Step (.withdraw r) W W') (c : CacheId) :
    Delisted (W.store.lists? c) (W'.store.lists? c) := by
  cases move with
  | @withdraw _ _ x s k hx done image hs =>
    obtain ⟨_, _, image', hs', listed⟩ := h.exists_publisher hx done
    obtain rfl := Option.some.inj (image.symm.trans image')
    obtain rfl := Option.some.inj (hs.symm.trans hs')
    have lists : (W.store.withdrawn x.origin s r x k).lists? c
        = if c = x.origin then some (s.lists.put k ((s.lists.members k).erase r))
          else W.store.lists? c := Store.lists?_setCache hs _ c
    rw [lists]
    split
    · next hc =>
      rw [hc, Store.lists?, hs]
      exact .removed listed
    · exact .same _

/-- A move that publishes nothing takes at most one buffer out of one list, but for the lists of
caches that come or go. -/
theorem Step.delisted (h : W.Sound) (move : Step m W W') (silent : ∀ b, m ≠ .publish b)
    (c : CacheId) : Delisted (W.store.lists? c) (W'.store.lists? c) := by
  by_cases other : m.Relists
  · cases move with
    | publish => exact absurd rfl (silent _)
    | withdraw hx done image hs => exact delisted_of_withdraw h (.withdraw hx done image hs) c
    | retire withdrawn parted how =>
      rw [parted.lists?_eq (by rcases how with rfl | rfl <;> exact id)]
      exact withdrawn.delisted_of_withdraw h c
    | @addCache _ t config a known =>
      by_cases hc : c = W.store.caches.next
      · have before : W.store.lists? c = none := by simp [Store.lists?, hc]
        have after : (W.store.createCache t config a).2.lists? c = some .empty := by
          simp [Store.lists?, Store.createCache, Store.emit, Table.get?_add, hc]
        exact before ▸ after ▸ .created
      · have same : (W.store.createCache t config a).2.lists? c = W.store.lists? c := by
          simp [Store.lists?, Store.createCache, Store.emit, Table.get?_add, hc]
        exact same ▸ .same _
    | @tearDown _ O d s held hs last =>
      by_cases hc : c = d
      · have after : (W.store.tornDown d s).lists? c = none := by
          simp [Store.lists?, Table.get?_erase, hc]
        exact after ▸ .gone _
      · have same : (W.store.tornDown d s).lists? c = W.store.lists? c := by
          simp [Store.lists?, Table.get?_erase, hc]
        exact same ▸ .same _
    | _ => exact other.elim
  · rw [move.lists?_eq other]
    exact .same _

/-- Only publishing makes a buffer published. -/
theorem Step.isPublished_of_silent (h : W.Sound) (move : Step m W W')
    (silent : ∀ b, m ≠ .publish b) (done : W'.store.isPublished r = true) :
    W.store.isPublished r = true := by
  by_contra undone
  obtain ⟨y, hy, done⟩ := Store.isPublished_eq_true_iff.1 done
  have before : ∀ x ∈ W.store.records.get? r, x.published = false := by
    intro x hx
    simpa using fun published => undone (Store.isPublished_eq_true_iff.2 ⟨x, hx, published⟩)
  have after := (move.fate h r).of_undone before (fun b _ => silent b) y hy
  simp [after] at done

theorem Sound.listOf_nodup (h : W.Sound) (c : CacheId) (k : ImageKey) :
    (W.store.listOf c k).Nodup := by
  cases hs : W.store.caches.get? c with
  | none => simp [Store.listOf, hs]
  | some s =>
    rw [Store.listOf_of_get? hs]
    exact (h.tidy c s hs).lists k

theorem Sound.isPublished_of_listed (h : W.Sound) (hr : r ∈ W.store.listOf c k) :
    W.store.isPublished r = true := by
  obtain ⟨x, hx, -, -, -, done⟩ := h.exists_listed hr
  exact Store.isPublished_eq_true_iff.2 ⟨x, hx, done⟩

/-- A list keeps the members that are still published, in their order, if nothing is published. -/
theorem Step.listOf_eq_filter (h : W.Sound) (move : Step m W W') (silent : ∀ b, m ≠ .publish b)
    (c : CacheId) (k : ImageKey) :
    W'.store.listOf c k = (W.store.listOf c k).filter W'.store.isPublished := by
  have sub : (W'.store.listOf c k).Sublist (W.store.listOf c k) := by
    rw [Store.listOf_eq, Store.listOf_eq]
    exact (move.delisted h silent c).sublist k
  apply eq_filter_of_sublist sub (h.listOf_nodup c k)
  intro r hr
  constructor
  · exact (h.step move).isPublished_of_listed
  · intro done
    obtain ⟨y, hy, done⟩ := Store.isPublished_eq_true_iff.1 done
    obtain ⟨x, hx, hc, origin, image, published⟩ := h.exists_listed hr
    have fate := move.fate h r
    rw [hx, hy] at fate
    rcases fate.of_published published with ⟨n, same⟩ | ⟨undone, -⟩
    · obtain rfl := Option.some.inj same
      exact (((h.step move).at_record hy).listed c k).2 ⟨origin.symm, image, published⟩
    · simp [undone y rfl] at done

/-- No move takes back a number that was given to a cache. -/
theorem Step.next_caches_le (move : Step m W W') :
    W.store.caches.next ≤ W'.store.caches.next := by
  induction move with
  | refit hx undone sole fits => cases fits <;> exact le_refl _
  | refitFailed hx undone sole fails => cases fails <;> exact le_refl _
  | free | outlive | discard => simp [Store.crowdedOut]
  | retire withdrawn parted how withdraws parts => exact withdraws.trans parts
  | addCache => exact Nat.le_succ _
  | tearDown => simp
  | emptyReserve => simp
  | _ => exact le_refl _

end World

namespace Store

variable {w v : Store} {b : Handle} {x : Record} {s : Cache}

/-! ## 3. What an act makes of lists -/

/-- Between `w` and `v` nothing was published: each list keeps those that are still published, in
their order, and no list came or went, but with its cache. -/
structure Thinned (w v : Store) : Prop where
  lists : ∀ c k, v.listOf c k = (w.listOf c k).filter v.isPublished
  known : ∀ c k, v.hasList c k = true → w.hasList c k = true
  stays : ∀ c k, w.hasList c k = true → v.hasList c k = true ∨ v.caches.Past c

/-- Between `w` and `v` one buffer was published: it is the first of its list now, and all other
lists are as they were. -/
structure Headed (w v : Store) (b : Handle) : Prop where
  lists : ∀ c k, v.listOf c k
    = if c = b.cache ∧ k = b.image then b.record :: w.listOf c k else w.listOf c k
  known : ∀ c k, v.hasList c k = (decide (c = b.cache ∧ k = b.image) || w.hasList c k)

theorem Thinned.refl {W : World} (h : W.Sound) : Thinned W.store W.store where
  lists c k := by
    symm
    apply List.filter_eq_self.2
    intro r hr
    exact h.isPublished_of_listed hr
  known _ _ := id
  stays _ _ := .inl

/-- One more move that publishes nothing. -/
theorem Thinned.step {W W' : World} {m : Move} (thinned : Thinned w W.store) (h : W.Sound)
    (move : World.Step m W W') (silent : ∀ b, m ≠ .publish b) : Thinned w W'.store where
  lists c k := by
    rw [move.listOf_eq_filter h silent, thinned.lists, List.filter_filter]
    apply List.filter_congr
    intro r _
    cases done : W'.store.isPublished r with
    | false => rfl
    | true => simpa using move.isPublished_of_silent h silent done
  known c k has := by
    apply thinned.known
    have := (move.delisted h silent c).find? k
    simp_all [hasList]
  stays c k has := by
    have kept := (move.delisted h silent c).find? k
    rcases thinned.stays c k has with has | past
    · cases alive : W'.store.caches.get? c with
      | some s =>
        left
        simp_all [hasList, lists?]
      | none =>
        right
        have below : c < W.store.caches.next := by
          cases hs : W.store.caches.get? c with
          | none => simp [hasList, lists?, hs] at has
          | some s => exact Table.lt_next_of_get? hs
        exact ⟨Nat.lt_of_lt_of_le below move.next_caches_le, alive⟩
    · exact .inr (move.past past)

theorem lists?_enlisted (hs : w.caches.get? b.cache = some s) (x : Record) (c : CacheId) :
    (w.enlisted b s x).lists? c = if c = b.cache
      then some (s.lists.put b.image (b.record :: s.lists.members b.image)) else w.lists? c := by
  refine (lists?_update (w := w.setCache b.cache { s with
    lists := s.lists.put b.image (b.record :: s.lists.members b.image) })
    (caches_count ..) (fun _ _ => rfl) c).trans ?_
  exact lists?_setCache hs _ c

/-- Publishing a buffer puts it first in its list. -/
theorem headed_enlisted (hs : w.caches.get? b.cache = some s) (x : Record) :
    Headed w (w.enlisted b s x) b where
  lists c k := by
    rw [listOf_eq, lists?_enlisted hs]
    by_cases hc : c = b.cache
    · subst hc
      by_cases hk : k = b.image <;> simp [Lists.members_put, listOf_of_get? hs, hk]
    · simp [hc, listOf_eq]
  known c k := by
    rw [hasList, lists?_enlisted hs]
    by_cases hc : c = b.cache
    · subst hc
      by_cases hk : k = b.image <;> simp [Lists.find?_put, hasList, lists?, hs, hk]
    · simp [hc, hasList]

/-- The store with another log. -/
def withLog (w : Store) (log : List Event) : Store := { w with log }

theorem Thinned.withLog (h : Thinned w v) (log : List Event) : Thinned w (v.withLog log) :=
  ⟨h.lists, h.known, h.stays⟩

end Store

namespace Session

variable {s : Session} {act : Act} {out : Multiset Loan} {b b' : Handle} {c : CacheId}
  {k : ImageKey} {r : RecordId} {x : Record} {m : Move}

/-- An act publishes through one handle. -/
theorem Publishes.unique (h : s.Publishes act b) (h' : s.Publishes act b') : b = b' := by
  cases h with
  | publish found =>
    cases h' with
    | publish found' => exact Option.some.inj (found.symm.trans found')
  | publishOwn found =>
    cases h' with
    | publishOwn found' => exact Option.some.inj (found.symm.trans found')

theorem Publishes.held (h : s.Publishes act b) : b ∈ s.handles := by
  cases h with
  | publish found | publishOwn found => exact mem_handles found

/-- The act publishes a buffer that is not published, through a handle on it and in the cache of the
handle, which exists: the one that is named, or the own one if that is alive. This is read off the
act and off what is there before it. -/
inductive Enlists (s : Session) : Act → CacheId → ImageKey → RecordId → Prop where
  | publish {cache buffer : String} {b : Handle} {x : Record}
      (named : s.frame.caches.get? cache = some b.cache)
      (found : s.frame.handles.get? buffer = some b)
      (hx : s.store.records.get? b.record = some x) (undone : x.published = false) :
      s.Enlists (.publish cache buffer) b.cache b.image b.record
  | publishOwn {buffer : String} {b : Handle} {x : Record}
      (alive : s.store.isAlive b.cache = true)
      (found : s.frame.handles.get? buffer = some b)
      (hx : s.store.records.get? b.record = some x) (undone : x.published = false) :
      s.Enlists (.publishOwn buffer) b.cache b.image b.record

theorem Enlists.through (h : s.Enlists act c k r) : s.Publishes act ⟨r, c, k⟩ := by
  cases h with
  | publish _ found => exact .publish found
  | publishOwn _ found => exact .publishOwn found

theorem Enlists.undone (h : s.Enlists act c k r) (hx : s.store.records.get? r = some x) :
    x.published = false := by
  cases h with
  | publish _ _ hy undone | publishOwn _ _ hy undone =>
    rwa [Option.some.inj (hx.symm.trans hy)]

/-- An act makes one buffer published at most, in one cache for one image. -/
theorem Enlists.unique {d : CacheId} {j : ImageKey} {r r' : RecordId} (h : s.Enlists act c k r)
    (h' : s.Enlists act d j r') : c = d ∧ k = j ∧ r = r' := by
  obtain ⟨hr, hc, hk⟩ := Handle.mk.inj (h.through.unique h'.through)
  exact ⟨hc, hk, hr⟩

/-- Publishing a buffer that is not published, in its own cache, puts it first. -/
theorem Sound.publish_eq (h : s.Sound out) (alive : s.store.isAlive b.cache = true)
    (hx : s.store.records.get? b.record = some x) (undone : x.published = false) :
    ∃ z, s.store.caches.get? b.cache = some z ∧
      s.store.publish b.cache b = .ok (.ok (), s.store.enlisted b z x) := by
  obtain ⟨z, hz⟩ := Option.isSome_iff_exists.1 alive
  refine ⟨z, hz, ?_⟩
  rcases h.world.publish_eq (b := b) hx hz with ⟨done, -⟩ | ⟨-, run⟩
  · simp [undone] at done
  · exact run

/-- What enlists a buffer is done, and puts it first. -/
theorem Sound.step_enlists (h : s.Sound out) (enlists : s.Enlists act c k r) :
    ∃ z x, s.store.caches.get? c = some z ∧ s.store.records.get? r = some x ∧
      x.published = false ∧ s.step act = (.done, s.withStore (s.store.enlisted ⟨r, c, k⟩ z x)) := by
  cases enlists with
  | @publish cache buffer b x named found hx undone =>
    obtain ⟨y, hy⟩ := h.exists_cache (mem_shares named)
    obtain ⟨z, hz, run⟩ := h.publish_eq (b := b) (by simp [Store.isAlive, hy]) hx undone
    refine ⟨z, x, hz, hx, undone, ?_⟩
    simp only [Session.step, perform, withCache, withHandle, named, found, run]
    rfl
  | @publishOwn buffer b x alive found hx undone =>
    obtain ⟨z, hz, run⟩ := h.publish_eq (b := b) alive hx undone
    refine ⟨z, x, hz, hx, undone, ?_⟩
    simp only [Session.step, perform, withHandle, Store.publishOwn, alive, found, run]
    rfl

/-- What may publish but enlists nothing does nothing, but for the log. -/
theorem Sound.step_idle (h : s.Sound out) (publishes : act.publishes = true)
    (idle : ∀ c k r, ¬ s.Enlists act c k r) :
    ∃ log, (s.step act).2.store = s.store.withLog log := by
  cases act with
  | publish cache buffer =>
    refine ⟨s.store.log, ?_⟩
    cases named : s.frame.caches.get? cache with
    | none =>
      simp only [Session.step, perform, withCache, named]
      rfl
    | some c =>
      cases found : s.frame.handles.get? buffer with
      | none =>
        simp only [Session.step, perform, withCache, withHandle, named, found]
        rfl
      | some b =>
        obtain ⟨outcome, run⟩ : ∃ outcome, s.store.publish c b = .ok (outcome, s.store) := by
          by_cases foreign : b.cache ≠ c
          · exact ⟨_, Store.publish_of_foreign foreign⟩
          · obtain rfl := not_not.1 foreign
            obtain ⟨x, hx⟩ := h.exists_record (mem_handles found)
            have done : x.published = true := by
              simpa using fun undone => idle _ _ _ (.publish named found hx undone)
            exact ⟨_, Store.publish_of_done hx done⟩
        simp only [Session.step, perform, withCache, withHandle, named, found, run]
        rfl
  | publishOwn buffer =>
    cases found : s.frame.handles.get? buffer with
    | none =>
      refine ⟨s.store.log, ?_⟩
      simp only [Session.step, perform, withHandle, found]
      rfl
    | some b =>
      cases alive : s.store.isAlive b.cache with
      | false =>
        refine ⟨.publishIgnored b.image :: s.store.log, ?_⟩
        simp only [Session.step, perform, withHandle, Store.publishOwn, found, alive]
        rfl
      | true =>
        refine ⟨s.store.log, ?_⟩
        obtain ⟨x, hx⟩ := h.exists_record (mem_handles found)
        have done : x.published = true := by
          simpa using fun undone => idle _ _ _ (.publishOwn alive found hx undone)
        have run := Store.publish_of_done hx done
        simp only [Session.step, perform, withHandle, Store.publishOwn, found, alive, run]
        rfl
  | _ => cases publishes

/-- What is enlisted is published by it, in its cache and for its image. -/
theorem Sound.get?_enlisted (h : s.Sound out) (enlists : s.Enlists act c k r) :
    ∃ x : Record, x.image = some k ∧
      (s.step act).2.store.records.get? r = some (x.markPublished c) := by
  obtain ⟨z, x, -, hx, -, run⟩ := h.step_enlists enlists
  obtain ⟨-, image⟩ := (h.world.at_record hx).holders _ enlists.through.held rfl
  exact ⟨x, image, by simp [run, withStore, Store.enlisted, Table.get?_update, hx]⟩

/-- An act makes a buffer published in a cache for an image exactly if it enlists the buffer
there. -/
theorem Sound.enlists_iff (h : s.Sound out) : s.Enlists act c k r ↔
    ∃ x, s.MakesPublished act r x ∧ x.publisher = some c ∧ x.image = some k := by
  constructor
  · intro enlists
    obtain ⟨x, image, found⟩ := h.get?_enlisted enlists
    exact ⟨x.markPublished c, ⟨⟨_, enlists.through, rfl⟩, fun y hy => enlists.undone hy, found,
      rfl⟩, rfl, image⟩
  · rintro ⟨x, makes, publisher, image⟩
    obtain ⟨b, through, rfl⟩ := makes.through
    by_cases enlists : ∃ d j i, s.Enlists act d j i
    · obtain ⟨d, j, i, enlists⟩ := enlists
      obtain rfl := through.unique enlists.through
      obtain ⟨y, bound, found⟩ := h.get?_enlisted enlists
      obtain rfl := Option.some.inj (makes.found.symm.trans found)
      obtain rfl : d = c := Option.some.inj publisher
      obtain rfl : j = k := Option.some.inj (bound.symm.trans image)
      exact enlists
    · -- Nothing but the log has changed, so the buffer was published before.
      obtain ⟨log, same⟩ := h.step_idle through.publishes fun d j i some => enlists ⟨d, j, i, some⟩
      have found : s.store.records.get? b.record = some x := by
        rw [← makes.found, same]
        rfl
      simpa [makes.undone x found] using makes.done

/-- An act enlists one buffer, or none; the lists of all caches follow. -/
theorem Sound.step_lists (h : s.Sound out) (act : Act) :
    (∃ b, s.Enlists act b.cache b.image b.record ∧ s.store.Headed (s.step act).2.store b) ∨
    (∀ c k r, ¬ s.Enlists act c k r) ∧ s.store.Thinned (s.step act).2.store := by
  by_cases enlists : ∃ c k r, s.Enlists act c k r
  · obtain ⟨c, k, r, enlists⟩ := enlists
    obtain ⟨z, x, hz, -, -, run⟩ := h.step_enlists enlists
    refine .inl ⟨⟨r, c, k⟩, enlists, ?_⟩
    rw [run]
    exact Store.headed_enlisted (b := ⟨r, c, k⟩) hz x
  · have idle : ∀ c k r, ¬ s.Enlists act c k r := fun c k r some => enlists ⟨c, k, r, some⟩
    refine .inr ⟨idle, ?_⟩
    cases publishes : act.publishes with
    | false =>
      refine h.step_keeps act (I := fun V => s.store.Thinned V.store)
        (fun m V V' sound allowed move thinned => thinned.step sound move ?_) (.refl h.world)
      intro b publish
      subst publish
      simp [Publishes.publishes allowed] at publishes
    | true =>
      obtain ⟨log, same⟩ := h.step_idle publishes idle
      rw [same]
      exact (Store.Thinned.refl h.world).withLog log

/-- A cache that is gone stays so. -/
theorem Sound.step_past (h : s.Sound out) (act : Act) (past : s.store.caches.Past c) :
    (s.step act).2.store.caches.Past c :=
  h.step_keeps act (I := fun V => V.store.caches.Past c)
    (fun _ _ _ _ _ move gone => move.past gone) past

theorem Sound.run_past (h : s.Sound out) (acts : List Act) (past : s.store.caches.Past c) :
    (s.run acts).store.caches.Past c :=
  h.run_keeps acts (I := fun V => V.store.caches.Past c) (fun _ _ _ _ move => move.past) past

/-- Publishing a buffer that is published already does nothing. -/
theorem Sound.step_published_again {x : Record} (h : s.Sound out) (through : s.Publishes act b)
    (hx : s.store.records.get? b.record = some x) (done : x.published = true) :
    ∃ log, (s.step act).2.store = s.store.withLog log := by
  refine h.step_idle through.publishes fun c k r enlists => ?_
  obtain rfl := through.unique enlists.through
  simp [enlists.undone hx] at done

/-- What an act makes of one list. -/
theorem Sound.step_listOf (h : s.Sound out) (act : Act) (c : CacheId) (k : ImageKey) :
    (∃ r, s.Enlists act c k r ∧
      (s.step act).2.store.listOf c k = r :: s.store.listOf c k) ∨
    (∀ r, ¬ s.Enlists act c k r) ∧ (s.step act).2.store.listOf c k
      = (s.store.listOf c k).filter (s.step act).2.store.isPublished := by
  rcases h.step_lists act with ⟨b, enlists, headed⟩ | ⟨silent, thinned⟩
  · have lists := headed.lists c k
    by_cases here : c = b.cache ∧ k = b.image
    · rw [if_pos here] at lists
      obtain ⟨rfl, rfl⟩ := here
      exact .inl ⟨b.record, enlists, lists⟩
    · rw [if_neg here] at lists
      refine .inr ⟨fun r others => ?_, ?_⟩
      · obtain ⟨hc, hk, -⟩ := others.unique enlists
        exact here ⟨hc, hk⟩
      · rw [lists]
        symm
        apply List.filter_eq_self.2
        intro r hr
        exact (h.step act).world.isPublished_of_listed (lists ▸ hr)
  · exact .inr ⟨silent c k, thinned.lists c k⟩

/-! ## 4. Acts that are about other buffers -/

/-- The act is about the buffer of a handle: it publishes the buffer, which was not published; it
withdraws or moves it; or it gives up a handle on it. -/
inductive Concerns (s : Session) (act : Act) (b : Handle) : Prop where
  | publishes (through : s.Publishes act b)
      (undone : ∀ x ∈ s.store.records.get? b.record, x.published = false)
  | unpublishes (through : s.Unpublishes act b.record)
  | moves (through : s.Moves act b.record)
  | givesUp (fewer : (s.step act).2.handles.count b < s.handles.count b)

/-- A published buffer is still published after an act that is about no handle on it, unless its
cache is gone. -/
theorem Sound.step_spared {r : RecordId} {x : Record} (h : s.Sound out)
    (hx : s.store.records.get? r = some x) (done : x.published = true)
    (alive : ((s.step act).2.store.caches.get? x.origin).isSome = true)
    (spared : ∀ b ∈ s.handles, b.record = r → ¬ s.Concerns act b) :
    ∃ y, (s.step act).2.store.records.get? r = some y ∧ y.published = true ∧
      y.content = x.content := by
  rcases h.step_published act hx done with kept | ⟨-, withdraws⟩
  · exact kept
  · exfalso
    have hc : (s.world out).Consistent r x := h.world.at_record hx
    have used : x.references ≠ 0 := by
      intro none
      simp [(hc.idle (hc.bound.2 none)).2] at done
    obtain ⟨b, hb, hr⟩ : ∃ b ∈ s.handles, b.record = r := by
      rw [hc.references] at used
      exact Multiset.countP_pos.1 (Nat.pos_of_ne_zero used)
    refine spared b hb hr ?_
    cases withdraws with
    | unpublished through => exact .unpublishes (hr ▸ through)
    | moved through => exact .moves (hr ▸ through)
    | released unheld =>
      refine .givesUp ?_
      rw [Multiset.count_eq_zero.2 fun held => unheld b held hr]
      exact Multiset.count_pos.2 hb
    | tornDown gone => simp [gone] at alive

/-- The list of an image in a cache, with its areas, is the same after an act that is about no
handle on a buffer of that image and cache. -/
theorem Sound.listing_spared (h : s.Sound out)
    (before : (s.store.caches.get? c).isSome = true)
    (after : ((s.step act).2.store.caches.get? c).isSome = true)
    (spared : ∀ b ∈ s.handles, b.cache = c → b.image = k → ¬ s.Concerns act b) :
    (s.step act).2.store.listOf c k = s.store.listOf c k ∧
      listing (s.step act).2.store c k = listing s.store c k := by
  have members : ∀ r ∈ s.store.listOf c k, ∃ x y, s.store.records.get? r = some x ∧
      (s.step act).2.store.records.get? r = some y ∧ y.published = true ∧
      y.content = x.content := by
    intro r hr
    obtain ⟨x, hx, hc, origin, image, done⟩ := h.world.exists_listed (W := s.world out) hr
    obtain ⟨y, hy, published, same⟩ := h.step_spared hx done (origin ▸ after) (by
      intro b hb hr
      obtain ⟨ofOrigin, ofImage⟩ := hc.holders b hb hr
      exact spared b hb (ofOrigin.trans origin) (Option.some.inj (ofImage.symm.trans image)))
    exact ⟨x, y, hx, hy, published, same⟩
  have lists : (s.step act).2.store.listOf c k = s.store.listOf c k ∧
      (s.step act).2.store.hasList c k = s.store.hasList c k := by
    rcases h.step_lists act with ⟨b, enlists, headed⟩ | ⟨-, thinned⟩
    · have other : ¬ (c = b.cache ∧ k = b.image) := by
        rintro ⟨rfl, rfl⟩
        exact spared b enlists.through.held rfl rfl
          (.publishes enlists.through fun x hx => enlists.undone hx)
      exact ⟨by rw [headed.lists, if_neg other], by simp [headed.known, other]⟩
    · constructor
      · rw [thinned.lists]
        apply List.filter_eq_self.2
        intro r hr
        obtain ⟨x, y, -, hy, done, -⟩ := members r hr
        exact Store.isPublished_eq_true_iff.2 ⟨y, hy, done⟩
      · apply Bool.eq_iff_iff.2
        refine ⟨thinned.known c k, fun has => (thinned.stays c k has).resolve_right ?_⟩
        intro past
        simp [past.2] at after
  have areas : (s.store.listOf c k).map (s.step act).2.store.areaOf
      = (s.store.listOf c k).map s.store.areaOf := by
    apply List.map_congr_left
    intro r hr
    obtain ⟨x, y, hx, hy, -, same⟩ := members r hr
    rw [Store.areaOf_of_get? hx, Store.areaOf_of_get? hy, Record.area_of_content same]
  refine ⟨lists.1, ?_⟩
  rw [Store.listing_eq (h.step act).calm after, Store.listing_eq h.calm before, lists.1, lists.2,
    areas]

end Session

end PixelPool
