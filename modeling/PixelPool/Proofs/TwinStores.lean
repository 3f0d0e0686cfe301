import Mathlib.Data.List.Find
import PixelPool.Proofs.Bindings
import PixelPool.Proofs.Twins

/-!
Two stores that are twins, with what is held on them.

`Store.Twins heap f H O w v` says that the views of the two stores are twins, which have the same
`heap`, and that both stores are sound for the handles `H`, renamed on the one side, and the shares
`O`. The lemmas here are about what happens to a buffer in use: both sides find it
(`Store.Twins.exists_like`), and what gives it up, copies it or looks it up does the same on both.
-/

namespace PixelPool

variable {heap : Heap} {f : RecordId → RecordId} {r j : RecordId} {k : ImageKey}
  {c : CacheId} {i : Image} {area : Rect} {b : Handle}

/-! ## 1. Records -/

/-- Two records in which the same is seen. -/
structure Record.Like (x y : Record) : Prop where
  image : y.image = x.image
  bytesPerPixel : y.bytesPerPixel = x.bytesPerPixel
  area : y.area = x.area
  references : y.references = x.references
  published : y.published = x.published
  stored : y.storage.isSome = x.storage.isSome

namespace Record.Like

variable {x y : Record}

theorem of_sight (used : x.sight ≠ none) (seen : y.sight = x.sight) : x.Like y := by
  cases hx : x.image with
  | none => simp [Record.sight, hx] at used
  | some k =>
    cases hy : y.image with
    | none => simp [Record.sight, hx, hy] at seen
    | some k' =>
      simp only [Record.sight, hx, hy, Option.map_some, Option.some.injEq, Sight.mk.injEq] at seen
      obtain ⟨rfl, bytesPerPixel, area, references, published, stored⟩ := seen
      exact ⟨hy.trans hx.symm, bytesPerPixel, area, references, published, stored⟩

theorem sight (h : x.Like y) : y.sight = x.sight := by
  simp [Record.sight, h.image, h.bytesPerPixel, h.area, h.references, h.published, h.stored]

end Record.Like

namespace Store

variable {w v w' v' : Store} {s s' : Cache} {x y x' y' : Record}

/-! ## 2. Parts of operations -/

theorem Withdrawn.twin (T : w.view.Twin heap f v.view) (proper : w.view.Proper)
    (left : Withdrawn w c r x x' w') (right : Withdrawn v c (f r) y y' v')
    (hx : w.records.get? r = some x) (hy : v.records.get? (f r) = some y) (used : x.sight ≠ none)
    (like : x.Like y) : w'.view.Twin heap f v'.view ∧ x'.Like y' := by
  cases left with
  | undone undone =>
    cases right with
    | undone => exact ⟨T, like⟩
    | done done => simp [like.published, undone] at done
  | done done image hs =>
    cases right with
    | undone undone => simp [like.published, done] at undone
    | done _ image' hs' =>
      obtain rfl := Option.some.inj (image.symm.trans (like.image.symm.trans image'))
      have seen : x.unmark.withoutArea.Like y.unmark.withoutArea :=
        ⟨like.image, like.bytesPerPixel, rfl, like.references, rfl, like.stored⟩
      have known : w.view.sight r ≠ none := by rwa [sight_of_get? hx]
      rw [view_withdrawn hx hs, view_withdrawn hy hs', seen.sight]
      exact ⟨(T.delisted proper known c _).put_known known _, seen⟩

/-- With the last handle a buffer is withdrawn, and then it is no longer in use. -/
theorem Parted.view_last (parted : Parted w b x w') (hx : w.records.get? b.record = some x)
    (last : x.references = 1) : ∃ y u, Withdrawn w b.cache b.record x y u ∧
      w'.view = u.view.put b.record none := by
  cases parted with
  | more more => omega
  | kept _ withdrawn hs =>
    refine ⟨_, _, withdrawn, ?_⟩
    rw [view_shelved (w := Store.setRecord _ _ _) hs, view_setRecord (withdrawn.get? hx)]
    rfl
  | freed _ withdrawn => exact ⟨_, _, withdrawn, view_crowdedOut ..⟩
  | outlived _ undone => exact ⟨x, w, .undone undone, by rw [view_without, view_emit]⟩

theorem Parted.twin (T : w.view.Twin heap f v.view) (proper : w.view.Proper)
    (left : Parted w b x w') (right : Parted v (b.rename f) y v')
    (hx : w.records.get? b.record = some x) (hy : v.records.get? (f b.record) = some y)
    (used : x.sight ≠ none) (like : x.Like y) : w'.view.Twin heap f v'.view := by
  by_cases last : x.references = 1
  · obtain ⟨x', u, withdrawn, viewed⟩ := left.view_last hx last
    obtain ⟨y', u', withdrawn', viewed'⟩ := right.view_last hy (like.references.trans last)
    obtain ⟨T', like'⟩ := withdrawn.twin T proper withdrawn' hx hy used like
    have known : u.view.sight b.record ≠ none := by
      obtain ⟨-, -, image, -⟩ := withdrawn.same
      rw [sight_of_get? (withdrawn.get? hx)]
      simpa [Record.sight, image] using used
    rw [viewed, viewed']
    exact T'.put_known known none
  · cases left with
    | more more =>
      cases right with
      | more =>
        have seen : ({ x with references := x.references - 1 } : Record).Like
            { y with references := y.references - 1 } :=
          ⟨like.image, like.bytesPerPixel, like.area, by rw [like.references], like.published,
            like.stored⟩
        have known : w.view.sight b.record ≠ none := by rwa [sight_of_get? hx]
        rw [view_setRecord hx, view_setRecord (by simpa using hy), seen.sight]
        exact T.put_known known _
      | kept last' | freed last' | outlived last' => exact absurd (like.references ▸ last') last
    | kept last' | freed last' | outlived last' => exact absurd last' last

end Store

/-- Caches that have lists for the same images have as many. -/
theorem Lists.length_entries_eq {l m : Lists}
    (same : ∀ k, (m.find? k).isSome = (l.find? k).isSome) :
    m.entries.length = l.entries.length := by
  have distinct : ∀ l : Lists, (l.entries.map Prod.fst).Nodup := fun l =>
    List.pairwise_map.2 l.distinct
  have found : ∀ (l : Lists) (k : ImageKey), k ∈ l.entries.map Prod.fst ↔ (l.find? k).isSome := by
    intro l k
    simp [Lists.find?]
  have keys : (m.entries.map Prod.fst).Perm (l.entries.map Prod.fst) :=
    (List.perm_ext_iff_of_nodup (distinct m) (distinct l)).2 fun k => by
      rw [found, found, same]
  simpa using keys.length_eq

/-! ## 3. Storage -/

/-- A refusal for want of memory is due if the heap does not grant that many bytes. -/
def StorageError.IsDue (heap : Heap) : StorageError → Prop
  | .outOfMemory n => ¬ heap.Grants n
  | _ => True

/-- How moving a buffer to an area ends, if nothing but the heap refuses. -/
def fitting (heap : Heap) (area : Rect) (bytesPerPixel : Nat) : Except StorageError Unit :=
  match byteSize? area bytesPerPixel with
  | none => .error (.invalidArea area bytesPerPixel)
  | some n => if heap.Grants n then .ok () else .error (.outOfMemory n)

namespace Store

variable {w v w' v' : Store} {s s' : Cache} {x y x' y' : Record}
  {outcome outcome' : Except StorageError Bool}

/-- Whether a buffer can be moved does not depend on the storage that it has. -/
theorem Fits.map_outcome (fits : Fits w r x area outcome w')
    (unlimited : w.view.ground.Unlimited heap)
    (granted : ∀ b, x.storage = some b → heap.Grants b.size)
    (due : ∀ e, outcome = .error e → e.IsDue heap) :
    outcome.map (fun _ => ()) = fitting heap area x.bytesPerPixel := by
  have same : w.host.heap = heap := unlimited.on
  cases fits with
  | invalid size => simp [fitting, size, Except.map]
  | @kept n size stored enough =>
    obtain ⟨b, hb⟩ := Option.isSome_iff_exists.1 stored
    have less : n ≤ b.size := by simpa [Record.capacity, hb] using enough
    simp [fitting, size, Except.map, unlimited.graded.grants less (granted b hb)]
  | renewed size lacking source granted =>
    simp [fitting, size, Except.map, same ▸ (Allocator.allocate_eq_ok granted).2]
  | lost size lacking source refused =>
    obtain rfl | ⟨limit, limited, -⟩ := Allocator.allocate_eq_error refused
    · have refuses := due _ rfl
      rw [StorageError.IsDue] at refuses
      simp [fitting, size, Except.map, refuses]
    · have none := unlimited.limits x.allocator _
        (by simp [Store.view, Store.ground, source]; rfl)
      simp [limit_lowered, none] at limited

theorem moved_eq {outcome outcome' : Except StorageError Bool}
    (same : outcome'.map (fun _ => ()) = outcome.map fun _ => ()) :
    Sight.moved area outcome' = Sight.moved area outcome := by
  cases outcome with
  | ok => cases outcome' with
    | ok => rfl
    | error => cases same
  | error e => cases outcome' with
    | ok => cases same
    | error e' => rw [Except.error.inj same]

theorem Fits.twin (T : w.view.Twin heap f v.view) (left : Fits w r x area outcome w')
    (right : Fits v (f r) y area outcome' v') (hx : w.records.get? r = some x)
    (hy : v.records.get? (f r) = some y) (used : x.sight ≠ none) (like : x.Like y)
    (same : outcome'.map (fun _ => ()) = outcome.map fun _ => ()) :
    w'.view.Twin heap f v'.view := by
  rw [left.view hx, right.view hy, like.sight, moved_eq same]
  exact T.put_known (by rwa [sight_of_get? hx]) _

end Store

/-! ## 4. Twins -/

namespace World

theorem Sound.proper {W : World} (h : W.Sound) : W.store.view.Proper := by
  intro c φ hφ k r hr
  obtain ⟨s, hs, rfl⟩ := Option.map_eq_some_iff.1 hφ
  obtain ⟨x, hx, -, -, image, -⟩ := h.exists_listed (r := r) (c := c) (k := k)
    (by rw [Store.listOf_of_get? hs]; exact hr)
  simp [Store.sight_of_get? hx, Record.sight, image]

end World

/-- Withdrawing a buffer in the cache of its handle. -/
theorem World.Sound.withdraw_own {W : World} {x : Record} (h : W.Sound) (held : b ∈ W.handles)
    (hx : W.store.records.get? b.record = some x) : ∃ y v,
      W.store.Withdrawn b.cache b.record x y v ∧ W.store.withdraw b.cache b.record = .ok v := by
  rw [((h.at_record hx).holders b held rfl).1]
  exact h.withdraw_eq hx

/-- Two stores that are twins, with the handles and the shares that are held on them. -/
structure Store.Twins (heap : Heap) (f : RecordId → RecordId) (H : Multiset Handle)
    (O : Multiset CacheId) (w v : Store) : Prop where
  left : (⟨w, H, O, 0⟩ : World).Whole
  right : (⟨v, H.map (Handle.rename f), O, 0⟩ : World).Whole
  views : w.view.Twin heap f v.view

namespace Store.Twins

variable {w v : Store} {H : Multiset Handle} {O : Multiset CacheId}

/-- A buffer in use looks the same on both sides. -/
theorem exists_like (T : Twins heap f H O w v) (used : w.view.sight r ≠ none) :
    ∃ x y, w.records.get? r = some x ∧ v.records.get? (f r) = some y ∧ x.sight ≠ none ∧
      x.Like y := by
  obtain ⟨σ, hσ⟩ := Option.ne_none_iff_exists'.1 used
  obtain ⟨x, hx, seen⟩ := Option.bind_eq_some_iff.1 hσ
  obtain ⟨y, hy, seen'⟩ := Option.bind_eq_some_iff.1 ((T.views.sight r used).trans hσ)
  have used : x.sight ≠ none := by simp [seen]
  exact ⟨x, y, hx, hy, used, .of_sight used (seen'.trans seen.symm)⟩

theorem used_of_held (T : Twins heap f H O w v) (held : b ∈ H) :
    w.view.sight b.record ≠ none := by
  obtain ⟨x, hx, -, -, image, -⟩ := T.left.sound.exists_record held
  rw [sight_of_get? (w := w) hx]
  simp [Record.sight, image]

theorem held_rename (held : b ∈ H) : b.rename f ∈ H.map (Handle.rename f) :=
  Multiset.mem_map_of_mem _ held

theorem isAlive_eq (T : Twins heap f H O w v) (c : CacheId) : v.isAlive c = w.isAlive c := by
  have alive := congrArg Option.isSome (T.views.face c)
  simpa [view, isAlive] using alive

theorem exists_cache (T : Twins heap f H O w v) (owned : c ∈ O) :
    ∃ s s', w.caches.get? c = some s ∧ v.caches.get? c = some s' ∧
      s'.face = s.face.rename f := by
  obtain ⟨s, hs, -⟩ := T.left.sound.exists_cache owned
  obtain ⟨s', hs', -⟩ := T.right.sound.exists_cache owned
  have face := T.views.face c
  rw [face_of_get? (w := w) hs, face_of_get? (w := v) hs'] at face
  exact ⟨s, s', hs, hs', Option.some.inj face⟩

/-- The pixels of a buffer are there on both sides, or on neither. -/
theorem pixels_eq (T : Twins heap f H O w v) {x y : Record} (hx : w.records.get? r = some x)
    (hy : v.records.get? (f r) = some y) (like : x.Like y) :
    y.pixels.isSome = x.pixels.isSome := by
  rw [(T.left.covered _ _ hx).pixels_eq, (T.right.covered _ _ hy).pixels_eq, Option.isSome_map,
    Option.isSome_map, like.stored]

theorem listOf_eq (T : Twins heap f H O w v) (c : CacheId) (k : ImageKey) :
    v.listOf c k = (w.listOf c k).map f := by
  have members : ∀ u : Store, u.listOf c k = ((u.view.face c).map (·.members k)).getD [] := by
    intro u
    cases hs : u.caches.get? c <;> simp [listOf, view, hs]
    rfl
  rw [members, members, T.views.face]
  cases w.view.face c <;> simp

theorem areaOf_eq (T : Twins heap f H O w v) (used : w.view.sight r ≠ none) :
    v.areaOf (f r) = w.areaOf r := by
  obtain ⟨x, y, hx, hy, -, like⟩ := T.exists_like used
  rw [areaOf_of_get? hx, areaOf_of_get? hy, like.area]

theorem referencesOf_eq (T : Twins heap f H O w v) (used : w.view.sight r ≠ none) :
    v.referencesOf (f r) = w.referencesOf r := by
  obtain ⟨x, y, hx, hy, -, like⟩ := T.exists_like used
  rw [referencesOf_of_get? hx, referencesOf_of_get? hy, like.references]

theorem used_of_listed (T : Twins heap f H O w v) (listed : r ∈ w.listOf c k) :
    w.view.sight r ≠ none := by
  obtain ⟨x, hx, -, -, image, -⟩ := T.left.sound.exists_listed listed
  rw [sight_of_get? (w := w) hx]
  simp [Record.sight, image]

/-- A lookup finds the same buffer on both sides. -/
theorem hit?_eq (T : Twins heap f H O w v) (c : CacheId) (k : ImageKey) (area : Rect) :
    v.hit? c k area = (w.hit? c k area).map f := by
  rw [hit?, T.listOf_eq, List.find?_map, hit?]
  refine congrArg (Option.map f) (List.find?_congr fun r hr => ?_)
  rw [Function.comp_apply, T.areaOf_eq (T.used_of_listed hr)]

/-- A buffer that is held is published by the same cache on both sides, or by none. -/
theorem publisher_eq (T : Twins heap f H O w v) (held : b ∈ H) {x y : Record}
    (hx : w.records.get? b.record = some x) (hy : v.records.get? (f b.record) = some y)
    (like : x.Like y) : y.publisher = x.publisher := by
  have left := T.left.sound.at_record hx
  have right := T.right.sound.at_record (W := ⟨v, H.map (Handle.rename f), O, 0⟩) hy
  have origin : y.origin = x.origin :=
    (right.holders (b.rename f) (held_rename held) rfl).1.symm.trans (left.holders b held rfl).1
  rw [left.publisher, right.publisher, like.published, origin]

/-! ## 5. Counting and reporting -/

theorem emit (T : Twins heap f H O w v) (e e' : Event) :
    Twins heap f H O (w.emit e) (v.emit e') where
  left := ⟨T.left.sound.emit e, T.left.covered⟩
  right := ⟨T.right.sound.emit e', T.right.covered⟩
  views := T.views

theorem count (T : Twins heap f H O w v) (c : CacheId) {g g' : Stats → Stats}
    (seen : Stats.SeenAs g g') : Twins heap f H O (w.count c g) (v.count c g) where
  left := ⟨T.left.sound.count c g, T.left.covered⟩
  right := ⟨T.right.sound.count c g, T.right.covered⟩
  views := by
    rw [view_count seen, view_count seen]
    exact T.views.counted c g'

/-! ## 6. Handles -/

theorem dropHandle (T : Twins heap f (b ::ₘ H) O w v) :
    ∃ w' v', w.dropHandle b = .ok w' ∧ v.dropHandle (b.rename f) = .ok v' ∧
      Twins heap f H O w' v' := by
  have held : b ∈ b ::ₘ H := Multiset.mem_cons_self b H
  obtain ⟨x, y, hx, hy, used, like⟩ := T.exists_like (T.used_of_held held)
  obtain ⟨w', parted, run⟩ := T.left.sound.dropHandle_eq held hx
  obtain ⟨v', parted', run'⟩ := T.right.sound.dropHandle_eq (held_rename held) hy
  obtain ⟨_, left, rfl, -⟩ := T.left.leads run
    (World.dropHandle_does T.left.sound World.any_quiet rfl)
  obtain ⟨_, right, rfl, -⟩ := T.right.leads run'
    (World.dropHandle_does T.right.sound World.any_quiet (Multiset.map_cons ..))
  exact ⟨w', v', run, run', left, right,
    parted.twin T.views T.left.sound.proper parted' hx hy used like⟩

theorem dropHandle? {old : Option Handle} (T : Twins heap f (old.toList + H) O w v) :
    ∃ w' v', w.dropHandle? old = .ok w' ∧ v.dropHandle? (old.map (Handle.rename f)) = .ok v' ∧
      Twins heap f H O w' v' := by
  cases old with
  | none => exact ⟨w, v, rfl, rfl, by simpa using T⟩
  | some b => exact dropHandle (by simpa using T)

/-- Both sides get one more handle on the same buffer. -/
theorem retained (T : Twins heap f H O w v) {x y : Record} (hx : w.records.get? b.record = some x)
    (hy : v.records.get? (f b.record) = some y) (used : x.sight ≠ none) (like : x.Like y)
    (left : (⟨w.retained b.record x, b ::ₘ H, O, 0⟩ : World).Whole)
    (right : (⟨v.retained (f b.record) y, b.rename f ::ₘ H.map (Handle.rename f), O, 0⟩ :
      World).Whole) :
    Twins heap f (b ::ₘ H) O (w.retained b.record x) (v.retained (f b.record) y) where
  left := left
  right := by rwa [Multiset.map_cons]
  views := by
    have seen : ({ x with references := x.references + 1 } : Record).Like
        { y with references := y.references + 1 } :=
      ⟨like.image, like.bytesPerPixel, like.area, by rw [like.references], like.published,
        like.stored⟩
    rw [view_retained hx, view_retained hy, seen.sight]
    exact T.views.put_known (by rwa [sight_of_get? hx]) _

theorem copyHandle (T : Twins heap f H O w v) (held : b ∈ H) :
    ∃ w' v', w.copyHandle b = .ok (b, w') ∧ v.copyHandle (b.rename f) = .ok (b.rename f, v') ∧
      Twins heap f (b ::ₘ H) O w' v' := by
  have copied : ∀ {u : Store} {d : Handle} {z : Record}, u.records.get? d.record = some z →
      z.sight ≠ none → u.copyHandle d = .ok (d, u.retained d.record z) := by
    intro u d z hz used
    have image : z.image ≠ none := by simpa [Record.sight] using used
    simp [Store.copyHandle, record_of_get? hz, Record.retain, image, Store.retained]
  obtain ⟨x, y, hx, hy, used, like⟩ := T.exists_like (T.used_of_held held)
  have run := copied hx used
  have run' := copied (d := b.rename f) hy (like.sight ▸ used)
  obtain ⟨_, left, -, rfl⟩ := T.left.leads run
    (World.copyHandle_does T.left.sound World.any_quiet held)
  obtain ⟨_, right, -, rfl⟩ := T.right.leads run'
    (World.copyHandle_does T.right.sound World.any_quiet (held_rename held))
  exact ⟨_, _, run, run', T.retained hx hy used like left right⟩

/-- A lookup finds nothing on both sides, or the same buffer. -/
theorem lookup (T : Twins heap f H O w v) (owned : c ∈ O) (i : Image) (area : Rect) :
    (w.lookup c i area = .ok (none, w) ∧ v.lookup c i area = .ok (none, v)) ∨
    ∃ b w' v', w.lookup c i area = .ok (some b, w') ∧
      v.lookup c i area = .ok (some (b.rename f), v') ∧ Twins heap f (b ::ₘ H) O w' v' := by
  obtain ⟨s, s', hs, hs', -⟩ := T.exists_cache owned
  have same := T.hit?_eq c i.key area
  rcases T.left.sound.lookup_eq hs i area with ⟨miss, run⟩ | ⟨r, x, hit, hx, -, image, -, -, run⟩
  · rcases T.right.sound.lookup_eq hs' i area with ⟨-, run'⟩ | ⟨r', y, hit', -⟩
    · exact .inl ⟨run, run'⟩
    · have none : v.hit? c i.key area = none := by rw [same, miss]; rfl
      simp [none] at hit'
  · have used : x.sight ≠ none := by simp [Record.sight, image]
    obtain ⟨x', y, hx', hy, -, like⟩ := T.exists_like (r := r) (by rwa [sight_of_get? hx])
    obtain rfl := Option.some.inj (hx.symm.trans hx')
    have hit' : v.hit? c i.key area = some (f r) := by rw [same, hit]; rfl
    rcases T.right.sound.lookup_eq hs' i area with
      ⟨miss, -⟩ | ⟨r', y', found, hy', -, -, -, -, run'⟩
    · simp [hit'] at miss
    · obtain rfl := Option.some.inj (hit'.symm.trans found)
      obtain rfl := Option.some.inj (hy.symm.trans hy')
      obtain ⟨_, left, found⟩ := T.left.leads run
        (World.lookup_does T.left.sound World.any_quiet owned)
      obtain ⟨_, right, found'⟩ := T.right.leads run'
        (World.lookup_does T.right.sound World.any_quiet owned)
      obtain ⟨b, hb, rfl⟩ := found.resolve_left (by simp)
      obtain ⟨b', hb', rfl⟩ := found'.resolve_left (by simp)
      cases hb
      cases hb'
      exact .inr ⟨⟨r, c, i.key⟩, _, _, run, run',
        T.retained (b := ⟨r, c, i.key⟩) hx hy used like left right⟩

/-- The handles that are held after an operation gave one, under the names of the other side. -/
theorem map_given_add {ε : Type} {f' : RecordId → RecordId} {outcome : Except ε Handle}
    (kept : ∀ b ∈ H, b.rename f' = b.rename f) :
    (World.given outcome + H).map (Handle.rename f')
      = World.given (outcome.map (Handle.rename f')) + H.map (Handle.rename f) := by
  rw [Multiset.map_add, Multiset.map_congr rfl kept]
  cases outcome <;> simp [Except.map]

/-! ## 7. Pixels -/

/-- The pixels of a buffer are written on both sides, or on neither. -/
theorem write (T : Twins heap f H O w v) (held : b ∈ H) (fill : Nat → UInt8) {x y : Record}
    (hx : w.records.get? b.record = some x) (hy : v.records.get? (f b.record) = some y)
    (like : x.Like y) :
    (x.write fill = none ∧ y.write fill = none) ∨
    ∃ n x' y', x.write fill = some (n, x') ∧ y.write fill = some (n, y') ∧
      Twins heap f H O (w.setRecord b.record x') (v.setRecord (f b.record) y') := by
  have content : y.contentSize = x.contentSize := by
    rw [Record.contentSize, Record.contentSize, like.area, like.bytesPerPixel]
  by_cases barred : x.references ≠ 1 ∨ x.published = true
  · have barred' : y.references ≠ 1 ∨ y.published = true := by
      rwa [like.references, like.published]
    exact .inl ⟨if_pos barred, if_pos barred'⟩
  have free' : ¬ (y.references ≠ 1 ∨ y.published = true) := by
    rwa [like.references, like.published]
  cases hb : x.storage with
  | none =>
    have hb' : y.storage = none := by simpa [hb] using like.stored
    refine .inl ⟨?_, ?_⟩
    · rw [Record.write, if_neg barred, hb, Option.bind_none]
    · rw [Record.write, if_neg free', hb', Option.bind_none]
  | some block =>
    obtain ⟨block', hb'⟩ := Option.isSome_iff_exists.1 (like.stored.trans (by rw [hb]; rfl))
    have run := (T.left.covered _ _ hx).write_of_stored hb barred fill
    have run' := (T.right.covered _ _ hy).write_of_stored hb' free' fill
    rw [content] at run'
    have left := T.left.reaches (.single trivial (.write held hx run))
    have right := T.right.reaches
      (.single trivial (.write (b := b.rename f) (held_rename held) hy run'))
    refine .inr ⟨_, _, _, run, run', left, right, ?_⟩
    rw [view_setRecord hx, view_setRecord hy]
    have seen : ({ x with storage := some (block.overwrite x.contentSize fill) } : Record).Like
        { y with storage := some (block'.overwrite x.contentSize fill) } :=
      ⟨like.image, like.bytesPerPixel, like.area, like.references, like.published, rfl⟩
    rw [seen.sight]
    exact T.views.put_known (T.used_of_held held) _

end Store.Twins

end PixelPool
