import PixelPool.Proofs.Runs

/-!
The life of a buffer: idle in the reserve of the cache that made it, in use, or in use and published
in the list of its image in that cache.

Which of these a buffer is in can be read off its record, off the handles on it, and off the
reserves and lists of all caches. Main statement: in every session that acts lead to, these agree
for every buffer, so that it is in exactly one phase, and it is in exactly one place
(`Session.Reachable.exists_unique_phase`). Counting a buffer over all reserves or all lists comes
down to counting it in one of them, since soundness says where it can be (`World.Sound.shelfCount`,
`World.Sound.listCount`).
-/

namespace PixelPool

namespace Store

variable {w : Store} {r : RecordId}

/-! ## 1. Places -/

/-- How often a buffer is in the reserves of all caches together. -/
def shelfCount (w : Store) (r : RecordId) : Nat :=
  w.caches.total fun cache => cache.reserve.slots.count r

/-- How often a buffer is in the lists of all images in all caches together. -/
def listCount (w : Store) (r : RecordId) : Nat :=
  w.caches.total fun cache => cache.lists.all.count r

theorem shelfCount_eq_zero (nowhere : ∀ c, r ∉ w.shelf c) : w.shelfCount r = 0 := by
  refine Table.total_eq_zero _ fun c cache hc => List.count_eq_zero.2 ?_
  rw [← shelf_of_get? hc]
  exact nowhere c

theorem listCount_eq_zero (nowhere : ∀ c k, r ∉ w.listOf c k) : w.listCount r = 0 := by
  apply Table.total_eq_zero _
  intro c cache hc
  apply List.count_eq_zero.2
  intro hr
  obtain ⟨k, hk⟩ := Lists.mem_all_iff.1 hr
  exact nowhere c k (by rwa [listOf_of_get? hc])

end Store

namespace World.Sound

variable {W : World} {r : RecordId} {x : Record}

/-- A buffer is in one reserve if it is idle, and in none if it is not. -/
theorem shelfCount (h : W.Sound) (hx : W.store.records.get? r = some x) :
    W.store.shelfCount r = if x.image = none then 1 else 0 := by
  have hc := h.at_record hx
  split
  · next image =>
    have shelved := (hc.shelved x.origin).2 ⟨rfl, image⟩
    cases hs : W.store.caches.get? x.origin with
    | none => simp [Store.shelf, hs] at shelved
    | some cache =>
      rw [Store.shelf_of_get? hs] at shelved
      have single := Table.total_eq_single (fun cache => cache.reserve.slots.count r) hs
        fun d other hd hne => List.count_eq_zero.2 fun hr => hne ?_
      · rw [Store.shelfCount, single]
        exact List.count_eq_one_of_mem (h.tidy _ _ hs).distinct shelved
      · exact ((hc.shelved d).1 (by rwa [Store.shelf_of_get? hd])).1
  · next image => exact Store.shelfCount_eq_zero fun c hr => image ((hc.shelved c).1 hr).2

/-- A buffer is in one list if it is published, and in none if it is not. -/
theorem listCount (h : W.Sound) (hx : W.store.records.get? r = some x) :
    W.store.listCount r = if x.published = true then 1 else 0 := by
  have hc := h.at_record hx
  split
  · next done =>
    obtain ⟨k, cache, image, hs, listed⟩ := h.exists_publisher hx done
    have single := Table.total_eq_single (fun cache => cache.lists.all.count r) hs
      fun d other hd hne => List.count_eq_zero.2 fun hr => hne ?_
    · rw [Store.listCount, single]
      refine (Lists.count_all fun j hj => ?_).trans
        (List.count_eq_one_of_mem ((h.tidy _ _ hs).lists k) listed)
      have image' := ((hc.listed x.origin j).1 (by rwa [Store.listOf_of_get? hs])).2.1
      exact Option.some.inj (image'.symm.trans image)
    · obtain ⟨j, hj⟩ := Lists.mem_all_iff.1 hr
      exact ((hc.listed d j).1 (by rwa [Store.listOf_of_get? hd])).1
  · next undone => exact Store.listCount_eq_zero fun c k hr => undone ((hc.listed c k).1 hr).2.2

end World.Sound

namespace Session

variable {s : Session} {r : RecordId} {x : Record}

/-! ## 2. Phases -/

/-- What is the same for all buffers in use: there is an image, every reference has its handle, and
the buffer is in no reserve. -/
structure InUse (s : Session) (r : RecordId) (x : Record) : Prop where
  image : x.image.isSome = true
  references : x.references = s.handles.countP (·.record = r)
  held : 0 < x.references
  unshelved : s.store.shelfCount r = 0

/-- Nobody uses the buffer. It is once in the reserve of the cache that made it. -/
structure IsIdle (s : Session) (r : RecordId) (x : Record) : Prop where
  image : x.image = none
  references : x.references = 0
  area : x.area = .zero
  undone : x.published = false
  publisher : x.publisher = none
  unheld : ∀ b ∈ s.handles, b.record ≠ r
  once : s.store.shelfCount r = 1
  place : ∃ cache, s.store.caches.get? x.origin = some cache ∧ r ∈ cache.reserve.slots
  unlisted : s.store.listCount r = 0

/-- The buffer is in use and not published. It is in no list. -/
structure IsUndone (s : Session) (r : RecordId) (x : Record) : Prop extends InUse s r x where
  undone : x.published = false
  publisher : x.publisher = none
  unlisted : s.store.listCount r = 0

/-- The buffer is published. It is once in the list of its image in the cache that made it, and that
cache, which exists, is the one that it says has published it. -/
structure IsDone (s : Session) (r : RecordId) (x : Record) : Prop extends InUse s r x where
  done : x.published = true
  publisher : x.publisher = some x.origin
  once : s.store.listCount r = 1
  place : ∃ k cache, x.image = some k ∧ s.store.caches.get? x.origin = some cache ∧
    r ∈ cache.lists.members k

/-- The phases of a buffer. -/
inductive Phase where
  | idle
  | undone
  | done

/-- The buffer is in the phase. -/
def InPhase (s : Session) (r : RecordId) (x : Record) : Phase → Prop
  | .idle => s.IsIdle r x
  | .undone => s.IsUndone r x
  | .done => s.IsDone r x

/-- The phase that a record says it is in. -/
def phaseOf (x : Record) : Phase :=
  if x.image = none then .idle else if x.published = true then .done else .undone

theorem InPhase.eq_phaseOf {p : Phase} (h : s.InPhase r x p) : p = phaseOf x := by
  cases p with
  | idle => simp [phaseOf, h.image]
  | undone => simp [phaseOf, Option.isSome_iff_ne_none.1 h.image, h.undone]
  | done => simp [phaseOf, Option.isSome_iff_ne_none.1 h.image, h.done]

variable {out : Multiset Loan}

theorem Sound.inPhase_phaseOf (h : s.Sound out) (hx : s.store.records.get? r = some x) :
    s.InPhase r x (phaseOf x) := by
  have hc : (s.world out).Consistent r x := h.world.at_record hx
  have shelved : s.store.shelfCount r = _ := h.world.shelfCount hx
  have listed : s.store.listCount r = _ := h.world.listCount hx
  have references : x.references = s.handles.countP (·.record = r) := hc.references
  unfold phaseOf
  by_cases image : x.image = none
  · rw [if_pos image]
    have zero := hc.bound.1 image
    obtain ⟨area, undone⟩ := hc.idle image
    obtain ⟨c, hs, hr⟩ : ∃ cache, s.store.caches.get? x.origin = some cache ∧
        r ∈ cache.reserve.slots := by
      have hr : r ∈ s.store.shelf x.origin := (hc.shelved x.origin).2 ⟨rfl, image⟩
      cases hs : s.store.caches.get? x.origin with
      | none => simp [Store.shelf, hs] at hr
      | some cache => exact ⟨cache, rfl, by rwa [Store.shelf_of_get? hs] at hr⟩
    exact
      { image
        references := zero
        area
        undone
        publisher := by simp [hc.publisher, undone]
        unheld := Multiset.countP_eq_zero.1 (references.symm.trans zero)
        once := by simpa [image] using shelved
        place := ⟨c, hs, hr⟩
        unlisted := by simpa [undone] using listed }
  · have used : s.InUse r x :=
      { image := Option.isSome_iff_ne_none.2 image
        references
        held := Nat.pos_of_ne_zero fun zero => image (hc.bound.2 zero)
        unshelved := by simpa [image] using shelved }
    rw [if_neg image]
    by_cases done : x.published = true
    · rw [if_pos done]
      obtain ⟨k, cache, image, hs, hr⟩ := h.world.exists_publisher hx done
      exact
        { used with
          done
          publisher := by simp [hc.publisher, done]
          once := by simpa [done] using listed
          place := ⟨k, cache, image, hs, hr⟩ }
    · rw [if_neg done]
      have undone : x.published = false := by simpa using done
      exact
        { used with
          undone
          publisher := by simp [hc.publisher, undone]
          unlisted := by simpa [undone] using listed }

/-! ## 3. Every reachable session -/

/-- Every buffer is in exactly one phase; every handle is bound to the image of its buffer; and only
published buffers are in lists, only idle ones in reserves, each of the image or the cache that it
is there for. -/
theorem Reachable.exists_unique_phase (h : s.Reachable) :
    (∀ r x, s.store.records.get? r = some x → ∃! p, s.InPhase r x p) ∧
    (∀ b ∈ s.handles, ∃ x, s.store.records.get? b.record = some x ∧ x.image = some b.image) ∧
    (∀ c cache k, s.store.caches.get? c = some cache → ∀ r ∈ cache.lists.members k,
      ∃ x, s.store.records.get? r = some x ∧ s.IsDone r x ∧ x.origin = c ∧ x.image = some k) ∧
    ∀ c cache, s.store.caches.get? c = some cache → ∀ r ∈ cache.reserve.slots,
      ∃ x, s.store.records.get? r = some x ∧ s.IsIdle r x ∧ x.origin = c := by
  obtain ⟨out, sound⟩ := h.sound
  refine ⟨fun r x hx => ?_, fun b hb => ?_, fun c cache k hc r hr => ?_, fun c cache hc r hr => ?_⟩
  · exact ⟨phaseOf x, sound.inPhase_phaseOf hx, fun p hp => hp.eq_phaseOf⟩
  · obtain ⟨x, hx, -, -, image, -⟩ := sound.world.exists_record (W := s.world out) hb
    exact ⟨x, hx, image⟩
  · obtain ⟨x, hx, -, origin, image, done⟩ := sound.world.exists_listed (W := s.world out) (c := c)
      (k := k) (r := r) (by rwa [← Store.listOf_of_get? (w := s.store) hc] at hr)
    have phase := sound.inPhase_phaseOf hx
    rw [phaseOf, if_neg (by simp [image]), if_pos done] at phase
    exact ⟨x, hx, phase, origin, image⟩
  · obtain ⟨x, hx, -, origin, image, -⟩ := sound.world.idle_of_shelved (W := s.world out) (c := c)
      (r := r) (by rwa [← Store.shelf_of_get? (w := s.store) hc] at hr)
    have phase := sound.inPhase_phaseOf hx
    rw [phaseOf, if_pos image] at phase
    exact ⟨x, hx, phase, origin⟩

/-- After the short run there is a buffer, and it is in one phase. -/
theorem exists_unique_phase_sample :
    sample.Reachable ∧
      ∃ x, sample.store.records.get? 0 = some x ∧ ∃! p, sample.InPhase 0 x p := by
  have reachable : sample.Reachable := ⟨_, sampleActs, .fresh none, rfl⟩
  obtain ⟨x, hx⟩ := Option.isSome_iff_exists.1
    (by decide +kernel : (sample.store.records.get? 0).isSome = true)
  exact ⟨reachable, x, hx, reachable.exists_unique_phase.1 0 x hx⟩

end Session

end PixelPool
