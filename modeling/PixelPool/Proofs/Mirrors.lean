import Mathlib.Data.List.Find
import PixelPool.Proofs.Sides

/-!
Operations of the store on one side of it.

Each lemma `*_mirrors` runs an operation on things of a side in two stores that mirror one another,
with the numbers that these things have in either, and tells that the results agree up to the
numbers and that the stores go on mirroring one another.
-/

namespace PixelPool

namespace Store

open Fault

/-- Two results that agree up to numbers, with stores that mirror one another. -/
structure Mirrored {α β : Type} (S : Side) (w₀ : Store) (g : α → β) (P : α → Prop) (a : α × Store)
    (b : β × Store) : Prop where
  same : b.1 = g a.1
  own : P a.1
  stores : Mirrors S w₀ a.2 b.2

/-- The buffer of an outcome, if there is one, is on the side. -/
def OwnOutcome {ε : Type} (S : Side) (outcome : Except ε Handle) : Prop :=
  ∀ b, outcome = .ok b → b.Own S

theorem ownOutcome_error {ε : Type} {S : Side} {e : ε} : OwnOutcome S (.error e) := by
  intro b absurd
  cases absurd

theorem ownOutcome_ok {ε : Type} {S : Side} {b : Handle} (own : b.Own S) :
    OwnOutcome S (.ok b : Except ε Handle) := by
  intro d same
  exact Except.ok.inj same ▸ own

/-- An operation in both stores, and what is done with its results. -/
theorem mirrored_bind {α β γ δ : Type} {S : Side} {w₀ : Store} {g : α → β} {P : α → Prop}
    {p : Except Fault (α × Store)} {q : Except Fault (β × Store)}
    {f : α × Store → Except Fault γ} {h : β × Store → Except Fault δ} {Q : γ → δ → Prop}
    (first : Both p q (Mirrored S w₀ g P))
    (rest : ∀ a w v, P a → Mirrors S w₀ w v → Both (f (a, w)) (h (g a, v)) Q) :
    Both (p >>= f) (q >>= h) Q := by
  refine first.bind ?_
  rintro ⟨a, w⟩ ⟨b, v⟩ ⟨same, own, M⟩
  obtain rfl : b = g a := same
  exact rest a w v own M

namespace Mirrors

variable {S : Side} {w₀ w v : Store} {r : RecordId} {c : CacheId} {a : AllocatorId} {α β : Type}
  {Q : α → β → Prop}

/-! ## 1. Reading -/

theorem record_both (M : Mirrors S w₀ w v) (own : S.records.own r = true)
    {f : Record → Except Fault α} {h : Record → Except Fault β}
    (rest : ∀ x, w.records.get? r = some x → x.On S true → Both (f x) (h (x.renumber S)) Q) :
    Both (w.record r >>= f) (v.record (S.records.number r) >>= h) Q := by
  unfold record
  split
  · next x hx =>
    obtain ⟨hy, on⟩ := M.records.get? own hx
    rw [hy]
    exact rest x hx on
  · exact both_error_left

theorem cache_both (M : Mirrors S w₀ w v) (own : S.caches.own c = true)
    {f : Cache → Except Fault α} {h : Cache → Except Fault β}
    (rest : ∀ s, w.caches.get? c = some s → s.On S true → Both (f s) (h (s.renumber S)) Q) :
    Both (w.cache c >>= f) (v.cache (S.caches.number c) >>= h) Q := by
  unfold cache
  split
  · next s hs =>
    obtain ⟨hy, on⟩ := M.caches.get? own hs
    rw [hy]
    exact rest s hs on
  · exact both_error_left

theorem cacheAt_both (M : Mirrors S w₀ w v) (own : S.caches.own c = true) {part : Section}
    {f : Cache → Except Fault α} {h : Cache → Except Fault β}
    (rest : ∀ s, w.caches.get? c = some s → s.On S true → Both (f s) (h (s.renumber S)) Q) :
    Both (w.cacheAt c part >>= f) (v.cacheAt (S.caches.number c) part >>= h) Q := by
  unfold cacheAt
  split
  · exact both_error_left
  · split
    · exact both_error_right
    · exact M.cache_both own rest

theorem allocator_both (M : Mirrors S w₀ w v) (own : S.allocators.own a = true)
    {f : Allocator → Except Fault α} {h : Allocator → Except Fault β}
    (rest : ∀ s, Both (f s) (h s) Q) :
    Both (w.allocator a >>= f) (v.allocator (S.allocators.number a) >>= h) Q := by
  unfold allocator
  cases hs : w.allocators.get? a with
  | none => exact both_error_left
  | some s =>
    rw [(M.allocators.get? own hs).1]
    exact rest s

/-- A part of a cache is entered in both stores, or in none. -/
theorem within_both (M : Mirrors S w₀ w v) {part : Section} {g : α → β} {P : α → Prop}
    {body : Store → Except Fault (α × Store)} {body' : Store → Except Fault (β × Store)}
    (work : ∀ w v, Mirrors S w₀ w v → Both (body w) (body' v) (Mirrored S w₀ g P)) :
    Both (w.within c part body) (v.within (S.caches.number c) part body') (Mirrored S w₀ g P) := by
  have inner := work _ _ (M.inside ((c, part) :: w.inside)
    ((S.caches.number c, part) :: v.inside))
  unfold within
  by_cases busy : (c, part) ∈ w.inside
  · rw [if_pos busy]
    exact both_error_left
  · by_cases busy' : (S.caches.number c, part) ∈ v.inside
    · rw [if_pos busy']
      exact both_error_right
    · rw [if_neg busy, if_neg busy']
      cases left : body { w with inside := (c, part) :: w.inside } with
      | error e => exact both_error_left
      | ok a =>
        cases right : body' { v with inside := (S.caches.number c, part) :: v.inside } with
        | error e => exact both_error_right
        | ok b =>
          have done := inner a b left right
          exact both_ok ⟨done.same, done.own, done.stores.inside _ _⟩

theorem isAlive_eq (M : Mirrors S w₀ w v) (own : S.caches.own c = true) :
    v.isAlive (S.caches.number c) = w.isAlive c := by
  unfold isAlive
  rw [M.caches.found c own, Option.isSome_map]

theorem areaOf_eq (M : Mirrors S w₀ w v) (own : S.records.own r = true) :
    v.areaOf (S.records.number r) = w.areaOf r := by
  unfold areaOf
  rw [M.records.found r own, Option.map_map]
  rfl

theorem capacityOf_eq (M : Mirrors S w₀ w v) (own : S.records.own r = true) :
    v.capacityOf (S.records.number r) = w.capacityOf r := by
  unfold capacityOf
  rw [M.records.found r own, Option.map_map]
  rfl

theorem referencesOf_eq (M : Mirrors S w₀ w v) (own : S.records.own r = true) :
    v.referencesOf (S.records.number r) = w.referencesOf r := by
  unfold referencesOf
  rw [M.records.found r own, Option.map_map]
  rfl

theorem totalCapacity_eq (M : Mirrors S w₀ w v) {rs : List RecordId}
    (own : ∀ r ∈ rs, S.records.own r = true) :
    v.totalCapacity (rs.map S.records.number) = w.totalCapacity rs := by
  unfold totalCapacity
  induction rs with
  | nil => rfl
  | cons r rest ih =>
    have later := ih fun j hj => own j (List.mem_cons_of_mem _ hj)
    simp only [List.map_cons, List.foldr_cons, later, M.capacityOf_eq (own r List.mem_cons_self)]

/-! ## 2. Storage -/

theorem giveBack_mirrors (M : Mirrors S w₀ w v) (own : S.allocators.own a = true) (b : Block) :
    Both (w.giveBack a b) (v.giveBack (S.allocators.number a) b) (Mirrors S w₀) :=
  M.allocator_both own fun s => both_ok (M.setAllocator own (s.free b))

theorem destroy_mirrors (M : Mirrors S w₀ w v) (own : S.records.own r = true) :
    Both (w.destroy r) (v.destroy (S.records.number r)) (Mirrors S w₀) := by
  unfold destroy
  refine M.record_both own fun x hx on => ?_
  cases storage : x.storage with
  | none =>
    simp only [Record.renumber, storage]
    exact both_ok (M.eraseRecord own)
  | some b =>
    simp only [Record.renumber, storage]
    exact (M.giveBack_mirrors on.allocator b).bind fun w v M => both_ok (M.eraseRecord own)

theorem destroyAll_mirrors (M : Mirrors S w₀ w v) {rs : List RecordId}
    (own : ∀ r ∈ rs, S.records.own r = true) :
    Both (w.destroyAll rs) (v.destroyAll (rs.map S.records.number)) (Mirrors S w₀) := by
  induction rs generalizing w v with
  | nil => exact both_ok M
  | cons r rest ih =>
    exact (M.destroy_mirrors (own r List.mem_cons_self)).bind fun w v M =>
      ih M fun j hj => own j (List.mem_cons_of_mem _ hj)

theorem detachAll_mirrors (M : Mirrors S w₀ w v) {rs : List RecordId}
    (own : ∀ r ∈ rs, S.records.own r = true) :
    Both (w.detachAll rs) (v.detachAll (rs.map S.records.number)) (Mirrors S w₀) := by
  induction rs generalizing w v with
  | nil => exact both_ok M
  | cons r rest ih =>
    refine M.record_both (own r List.mem_cons_self) fun x hx on => ?_
    have unmarked : x.unmark.On S true := ⟨on.origin, on.allocator, by simp [Record.unmark]⟩
    exact ih (M.setRecord (own r List.mem_cons_self) unmarked)
      fun j hj => own j (List.mem_cons_of_mem _ hj)

/-- The storage of a buffer is replaced, with the same answer of the allocator. -/
theorem renew_mirrors (M : Mirrors S w₀ w v) (own : S.records.own r = true) {x : Record}
    (on : x.On S true) (area : Rect) (answer : Except StorageError Block × Allocator) :
    Both (w.renew r x area answer) (v.renew (S.records.number r) (x.renumber S) area answer)
      (Mirrored S w₀ id fun _ => True) := by
  obtain ⟨outcome, after⟩ := answer
  have taken := M.setAllocator on.allocator after
  cases outcome with
  | ok b =>
    have changed := taken.setRecord (x := { x with storage := some b, area }) own
      ⟨on.origin, on.allocator, on.publisher⟩
    exact both_ok ⟨rfl, trivial, changed⟩
  | error e =>
    have changed := taken.setRecord (x := { x with area := .zero, storage := none }) own
      ⟨on.origin, on.allocator, on.publisher⟩
    exact both_ok ⟨rfl, trivial, changed⟩

theorem fit_mirrors (M : Mirrors S w₀ w v) (own : S.records.own r = true) (area : Rect) :
    Both (w.fit r area) (v.fit (S.records.number r) area) (Mirrored S w₀ id fun _ => True) := by
  unfold fit
  refine M.record_both own fun x hx on => ?_
  by_cases done : x.published = true
  · rw [if_pos done]
    exact both_error_left
  · rw [if_neg done, if_neg (show ¬(x.renumber S).published = true from done)]
    have size : storageSize area (x.renumber S).bytesPerPixel = storageSize area x.bytesPerPixel :=
      rfl
    rw [size]
    cases storageSize area x.bytesPerPixel with
    | error e => exact both_ok ⟨rfl, trivial, M⟩
    | ok required =>
      by_cases enough : x.storage.isSome ∧ required ≤ x.capacity
      · have enough' : (x.renumber S).storage.isSome ∧ required ≤ (x.renumber S).capacity := enough
        dsimp only
        rw [if_pos enough, if_pos enough']
        exact both_ok ⟨rfl, trivial, M.setRecord own ⟨on.origin, on.allocator, on.publisher⟩⟩
      · have lacking : ¬((x.renumber S).storage.isSome ∧ required ≤ (x.renumber S).capacity) :=
          enough
        dsimp only
        rw [if_neg enough, if_neg lacking, M.host]
        exact M.allocator_both on.allocator fun s =>
          M.renew_mirrors own on area ((lowered s x).allocate w.host.heap required)

/-! ## 3. Records and lists -/

section
variable {x : Record} {r' : RecordId}

theorem assign_both (on : x.On S true) (i : Image) :
    Both (x.assign r i) ((x.renumber S).assign r' i) fun y z =>
      z = y.renumber S ∧ y.On S true := by
  unfold Record.assign
  change Both (if x.isIdle then _ else _) (if x.isIdle then _ else _) _
  split
  · exact both_ok ⟨rfl, on.origin, on.allocator, by simp⟩
  · exact both_error_left

theorem shelve_both (on : x.On S true) : Both (x.shelve r) ((x.renumber S).shelve r') fun y z =>
    z = y.renumber S ∧ y.On S true := by
  unfold Record.shelve
  change Both (if x.references ≠ 0 then _ else if x.published then _ else _)
    (if x.references ≠ 0 then _ else if x.published then _ else _) _
  split
  · exact both_error_left
  · split
    · exact both_error_left
    · exact both_ok ⟨rfl, on.origin, on.allocator, by simp⟩

theorem retain_both (on : x.On S true) : Both (x.retain r) ((x.renumber S).retain r') fun y z =>
    z = y.renumber S ∧ y.On S true := by
  unfold Record.retain
  change Both (if x.image.isNone then _ else _) (if x.image.isNone then _ else _) _
  split
  · exact both_error_left
  · exact both_ok ⟨rfl, on.origin, on.allocator, on.publisher⟩

theorem letGo_both (on : x.On S true) : Both (x.letGo r) ((x.renumber S).letGo r') fun y z =>
    z = y.renumber S ∧ y.On S true := by
  unfold Record.letGo
  change Both (if x.references = 0 then _ else _) (if x.references = 0 then _ else _) _
  split
  · exact both_error_left
  · exact both_ok ⟨rfl, on.origin, on.allocator, on.publisher⟩

end

theorem push?_renumber (s : Cache) : (s.renumber S).reserve.push? (S.records.number r)
    = (s.reserve.push? r).map fun v => { v with slots := v.slots.map S.records.number } := by
  simp only [Reserve.push?, Cache.renumber, List.length_map]
  split <;> rfl

theorem listed_put {ls : Lists} {k : ImageKey} {members : List RecordId}
    (listed : ∀ j ∈ ls.all, S.records.own j = true)
    (own : ∀ j ∈ members, S.records.own j = true) :
    ∀ j ∈ (ls.put k members).all, S.records.own j = true := by
  intro j hj
  obtain ⟨i, hi⟩ := Lists.mem_all_iff.1 hj
  rw [Lists.members_put] at hi
  split at hi
  · exact own j hi
  · exact listed j (Lists.mem_all_iff.2 ⟨i, hi⟩)

theorem pop_renumber (s : Cache) : (s.renumber S).reserve.pop
    = (s.reserve.pop.1.map S.records.number,
      { s.reserve.pop.2 with slots := s.reserve.pop.2.slots.map S.records.number }) := by
  cases slots : s.reserve.slots <;> simp [Reserve.pop, Cache.renumber, slots]

theorem own_pop {s : Cache} (on : s.On S true) :
    (∀ r ∈ s.reserve.pop.1, S.records.own r = true) ∧
      ∀ r ∈ s.reserve.pop.2.slots, S.records.own r = true := by
  have all := on.slots
  cases slots : s.reserve.slots with
  | nil => simp [Reserve.pop, slots]
  | cons r rest =>
    rw [slots] at all
    simpa [Reserve.pop, slots] using all

/-- The lists of a side with one more member. -/
theorem add_both {ls : Lists} (k : ImageKey) (own : S.records.own r = true)
    (listed : ∀ j ∈ ls.all, S.records.own j = true) :
    Both (ls.add k r) ((ls.map S.records.number).add k (S.records.number r)) fun a b =>
      b = a.map S.records.number ∧ ∀ j ∈ a.all, S.records.own j = true := by
  unfold Lists.add
  split
  · exact both_error_left
  · split
    · exact both_error_right
    · refine both_ok ⟨?_, listed_put listed fun j hj => ?_⟩
      · rw [Lists.members_map, Lists.map_put, List.map_cons]
      · rcases List.mem_cons.1 hj with rfl | hj
        · exact own
        · exact listed j (Lists.mem_all_iff.2 ⟨k, hj⟩)

/-- The lists of a side with one member less. -/
theorem remove_both {ls : Lists} (k : ImageKey) (own : S.records.own r = true)
    (listed : ∀ j ∈ ls.all, S.records.own j = true) :
    Both (ls.remove k r) ((ls.map S.records.number).remove k (S.records.number r)) fun a b =>
      b = a.map S.records.number ∧ ∀ j ∈ a.all, S.records.own j = true := by
  have members : ∀ j ∈ ls.members k, S.records.own j = true := fun j hj =>
    listed j (Lists.mem_all_iff.2 ⟨k, hj⟩)
  unfold Lists.remove
  split
  · split
    · refine both_ok ⟨?_, listed_put listed fun j hj => members j (List.mem_of_mem_erase hj)⟩
      rw [Lists.members_map, Lists.map_put,
        Face.map_erase_of_only fun j hj same => S.records.injective (members j hj) own same]
    · exact both_error_right
  · exact both_error_left

theorem withdraw_mirrors (M : Mirrors S w₀ w v) (ownC : S.caches.own c = true)
    (ownR : S.records.own r = true) :
    Both (w.withdraw c r) (v.withdraw (S.caches.number c) (S.records.number r))
      (Mirrors S w₀) := by
  unfold withdraw
  refine M.record_both ownR fun x hx on => ?_
  by_cases undone : (!x.published) = true
  · rw [if_pos undone, if_pos (show (!(x.renumber S).published) = true from undone)]
    exact both_ok M
  · rw [if_neg undone, if_neg (show ¬(!(x.renumber S).published) = true from undone)]
    by_cases elsewhere : x.publisher ≠ some c
    · rw [if_pos elsewhere]
      exact both_error_left
    · have publisher : (x.renumber S).publisher = some (S.caches.number c) := by
        simp [Record.renumber, not_not.1 elsewhere]
      rw [if_neg elsewhere, if_neg (not_not.2 publisher)]
      rw [show (x.renumber S).image = x.image from rfl]
      cases x.image with
      | none => exact both_error_left
      | some image =>
        refine mirrored_bind (M.within_both (g := id) (P := fun _ => True) fun w v M => ?_)
          fun _ w v _ M => ?_
        · refine M.cache_both ownC fun s hs onS => ?_
          refine (remove_both image ownR onS.listed).bind fun lists lists' removed => ?_
          obtain ⟨rfl, listed⟩ := removed
          exact both_ok ⟨rfl, trivial, M.setCache ownC ⟨onS.allocator, onS.slots, listed⟩⟩
        · have withdrawn : x.unmark.withoutArea.On S true :=
            ⟨on.origin, on.allocator, by simp [Record.unmark, Record.withoutArea]⟩
          exact both_ok ((M.setRecord ownR withdrawn).emit _ _)

/-! ## 4. Giving up references -/

theorem keepOrFree_mirrors (M : Mirrors S w₀ w v) (ownC : S.caches.own c = true)
    (ownR : S.records.own r = true) :
    Both (w.keepOrFree c r) (v.keepOrFree (S.caches.number c) (S.records.number r))
      (Mirrors S w₀) := by
  unfold keepOrFree
  refine mirrored_bind (M.within_both (g := id) (P := fun _ => True) fun w v M => ?_)
    fun kept w v _ M => ?_
  · refine M.cache_both ownC fun s hs onS => ?_
    rw [push?_renumber]
    cases pushed : s.reserve.push? r with
    | none => exact both_ok ⟨rfl, trivial, M⟩
    | some reserve =>
      refine M.record_both ownR fun x hx on => ?_
      change Both (if x.isIdle then _ else _) (if x.isIdle then _ else _) _
      split
      · have slots : ∀ j ∈ reserve.slots, S.records.own j = true := by
          intro j hj
          rw [Reserve.push?] at pushed
          split at pushed
          · cases pushed
          · obtain rfl := Option.some.inj pushed
            rcases List.mem_cons.1 hj with rfl | hj
            · exact ownR
            · exact onS.slots j hj
        exact both_ok ⟨rfl, trivial, M.setCache ownC ⟨onS.allocator, slots, onS.listed⟩⟩
      · exact both_error_left
  · cases kept with
    | true => exact both_ok (M.count ownC .addKept)
    | false => exact ((M.count ownC .addFreed).emit _ _).destroy_mirrors ownR

theorem releaseRecord_mirrors (M : Mirrors S w₀ w v) (ownC : S.caches.own c = true)
    (ownR : S.records.own r = true) :
    Both (w.releaseRecord c r) (v.releaseRecord (S.caches.number c) (S.records.number r))
      (Mirrors S w₀) := by
  unfold releaseRecord
  refine M.record_both ownR fun x hx on => (letGo_both on).bind fun y z ⟨same, on⟩ => ?_
  subst same
  have left := M.setRecord ownR on
  change Both (if 0 < y.references then _ else _) (if 0 < y.references then _ else _) _
  split
  · exact both_ok left
  · refine (left.withdraw_mirrors ownC ownR).bind fun w v M => ?_
    refine M.record_both ownR fun x hx on => (shelve_both on).bind fun y z ⟨same, on⟩ => ?_
    subst same
    exact (M.setRecord ownR on).keepOrFree_mirrors ownC ownR

theorem releaseOrphan_mirrors (M : Mirrors S w₀ w v) {b : Handle} (own : b.Own S) :
    Both (w.releaseOrphan b) (v.releaseOrphan (b.renumber S)) (Mirrors S w₀) := by
  unfold releaseOrphan
  refine M.record_both own.record fun x hx on => (letGo_both on).bind fun y z ⟨same, on⟩ => ?_
  subst same
  have left := M.setRecord own.record on
  change Both (if 0 < y.references then _ else _) (if 0 < y.references then _ else _) _
  split
  · exact both_ok left
  · have unmarked : y.unmark.On S true := ⟨on.origin, on.allocator, by simp [Record.unmark]⟩
    refine (shelve_both unmarked).bind fun y z ⟨same, on⟩ => ?_
    subst same
    exact ((left.setRecord own.record on).emit _ _).destroy_mirrors own.record

theorem dropHandle_mirrors (M : Mirrors S w₀ w v) {b : Handle} (own : b.Own S) :
    Both (w.dropHandle b) (v.dropHandle (b.renumber S)) (Mirrors S w₀) := by
  have alive : v.isAlive (b.renumber S).cache = w.isAlive b.cache := M.isAlive_eq own.cache
  unfold dropHandle
  rw [alive]
  split
  · exact M.releaseRecord_mirrors own.cache own.record
  · exact M.releaseOrphan_mirrors own

theorem dropHandle?_mirrors (M : Mirrors S w₀ w v) {old : Option Handle}
    (own : ∀ b, old = some b → b.Own S) :
    Both (w.dropHandle? old) (v.dropHandle? (old.map (Handle.renumber S))) (Mirrors S w₀) := by
  cases old with
  | none => exact both_ok M
  | some b => exact M.dropHandle_mirrors (own b rfl)

theorem copyHandle_mirrors (M : Mirrors S w₀ w v) {b : Handle} (own : b.Own S) :
    Both (w.copyHandle b) (v.copyHandle (b.renumber S))
      (Mirrored S w₀ (Handle.renumber S) (Handle.Own S)) := by
  unfold copyHandle
  refine M.record_both own.record fun x hx on => (retain_both on).bind fun y z ⟨same, on⟩ => ?_
  subst same
  exact both_ok ⟨rfl, own, M.setRecord own.record on⟩

/-! ## 5. Getting buffers -/

theorem handOut_both (M : Mirrors S w₀ w v) (ownC : S.caches.own c = true)
    (ownR : S.records.own r = true) :
    Both (w.handOut c r) (v.handOut (S.caches.number c) (S.records.number r)) fun b d =>
      d = b.renumber S ∧ b.Own S := by
  unfold handOut
  refine M.record_both ownR fun x hx on => ?_
  rw [show (x.renumber S).image = x.image from rfl]
  cases x.image with
  | none => exact both_error_left
  | some image => exact both_ok ⟨rfl, ownR, ownC⟩

theorem lookup_mirrors (M : Mirrors S w₀ w v) (own : S.caches.own c = true) (image : Image)
    (area : Rect) :
    Both (w.lookup c image area) (v.lookup (S.caches.number c) image area)
      (Mirrored S w₀ (Option.map (Handle.renumber S)) fun found => ∀ b ∈ found, b.Own S) := by
  unfold lookup
  refine mirrored_bind (M.within_both (g := Option.map S.records.number)
    (P := fun found => ∀ r ∈ found, S.records.own r = true) fun w v M => ?_)
    fun found w v ownR M => ?_
  · refine M.cache_both own fun s hs onS => ?_
    have members : ∀ r ∈ s.lists.members image.key, S.records.own r = true := fun r hr =>
      onS.listed r (Lists.mem_all_iff.2 ⟨_, hr⟩)
    have found : ((s.renumber S).lists.members image.key).find?
          (fun r => (v.areaOf r).encloses area)
        = ((s.lists.members image.key).find? fun r => (w.areaOf r).encloses area).map
          S.records.number := by
      have lists : (s.renumber S).lists = s.lists.map S.records.number := rfl
      rw [lists, Lists.members_map, List.find?_map]
      refine congrArg _ (List.find?_congr fun r hr => ?_)
      simp only [Function.comp_apply, M.areaOf_eq (members r hr)]
    rw [found]
    cases hr : (s.lists.members image.key).find? fun r => (w.areaOf r).encloses area with
    | none => exact both_ok ⟨rfl, by simp, M⟩
    | some r =>
      have ownR := members r (List.mem_of_find?_eq_some hr)
      refine M.record_both ownR fun x hx on => (retain_both on).bind fun y z ⟨same, on⟩ => ?_
      subst same
      exact both_ok ⟨rfl, by simpa using ownR, M.setRecord ownR on⟩
  · cases found with
    | none => exact both_ok ⟨rfl, by simp, M⟩
    | some r =>
      refine (M.handOut_both own (ownR r rfl)).bind fun b d ⟨same, ownB⟩ => ?_
      subst same
      exact both_ok ⟨rfl, by simpa using ownB, M⟩

theorem takeIdle_mirrors (M : Mirrors S w₀ w v) (own : S.caches.own c = true)
    (turn : S.turn = true) :
    Both (w.takeIdle c) (v.takeIdle (S.caches.number c))
      (Mirrored S w₀ S.records.number fun r => S.records.own r = true) := by
  unfold takeIdle
  refine mirrored_bind (M.within_both (g := Option.map S.records.number)
    (P := fun top => ∀ r ∈ top, S.records.own r = true) fun w v M => ?_)
    fun top w v ownR M => ?_
  · refine M.cache_both own fun s hs on => both_ok ?_
    have slots := own_pop on
    rw [pop_renumber]
    exact ⟨rfl, slots.1, M.setCache own ⟨on.allocator, slots.2, on.listed⟩⟩
  · cases top with
    | some r => exact both_ok ⟨rfl, ownR r rfl, M.count own .addReused⟩
    | none =>
      refine M.cache_both own fun s hs on => both_ok ?_
      have counted := M.count own .addMade
      refine ⟨counted.records.next, (counted.fresh _ (Nat.le_refl _)).trans turn, ?_⟩
      exact counted.addRecord turn (x := { origin := c, allocator := s.allocator })
        ⟨own, on.allocator, by simp⟩

theorem acquire_mirrors (M : Mirrors S w₀ w v) (own : S.caches.own c = true)
    (turn : S.turn = true) (image : Image) (area : Rect) :
    Both (w.acquire c image area) (v.acquire (S.caches.number c) image area)
      (Mirrored S w₀ (Except.map (Handle.renumber S)) (OwnOutcome S)) := by
  unfold acquire
  refine mirrored_bind (M.takeIdle_mirrors own turn) fun r w v ownR M => ?_
  refine M.record_both ownR fun x hx on => (assign_both on image).bind fun y z ⟨same, on⟩ => ?_
  subst same
  refine mirrored_bind ((M.setRecord ownR on).fit_mirrors ownR area) fun outcome w v _ M => ?_
  cases outcome with
  | ok newBlock =>
    have counted := (M.count own (·.addAllocation newBlock)).emit
      (.acquired c image.key area (w.capacityOf r))
      (.acquired (S.caches.number c) image.key area (v.capacityOf (S.records.number r)))
    refine (counted.handOut_both own ownR).bind fun b d ⟨same, ownB⟩ => ?_
    subst same
    exact both_ok ⟨rfl, ownOutcome_ok ownB, counted⟩
  | error e =>
    refine (((M.count own .addFailure).emit _ _).destroy_mirrors ownR).bind fun w v M => ?_
    exact both_ok ⟨rfl, ownOutcome_error, M⟩

theorem request_mirrors (M : Mirrors S w₀ w v) (own : S.caches.own c = true)
    (turn : S.turn = true) (image : Image) (area : Rect) :
    Both (w.request c image area) (v.request (S.caches.number c) image area)
      (Mirrored S w₀ (Except.map (Handle.renumber S)) (OwnOutcome S)) := by
  unfold request
  refine mirrored_bind (M.lookup_mirrors own image area) fun found w v ownB M => ?_
  cases found with
  | some b =>
    exact both_ok ⟨rfl, ownOutcome_ok (ownB b rfl), (M.count own .addHit).emit _ _⟩
  | none => exact (M.count own .addMiss).acquire_mirrors own turn image area

/-! ## 6. Requests about a buffer -/

theorem foreign_iff {b : Handle} (own : b.Own S) (ownC : S.caches.own c = true) :
    (b.renumber S).cache ≠ S.caches.number c ↔ b.cache ≠ c := by
  refine not_congr ⟨S.caches.injective own.cache ownC, ?_⟩
  rintro rfl
  rfl

theorem publish_mirrors (M : Mirrors S w₀ w v) (own : S.caches.own c = true) {b : Handle}
    (ownB : b.Own S) :
    Both (w.publish c b) (v.publish (S.caches.number c) (b.renumber S))
      (Mirrored S w₀ id fun _ => True) := by
  unfold publish
  by_cases foreign : b.cache ≠ c
  · rw [if_pos foreign, if_pos ((foreign_iff ownB own).2 foreign)]
    exact both_ok ⟨rfl, trivial, M⟩
  · rw [if_neg foreign, if_neg (mt (foreign_iff ownB own).1 foreign)]
    refine M.record_both ownB.record fun x hx on => ?_
    change Both (if x.published then _ else _) (if x.published then _ else _) _
    split
    · exact both_ok ⟨rfl, trivial, M⟩
    · refine mirrored_bind (M.within_both (g := id) (P := fun _ => True) fun w v M => ?_)
        fun _ w v _ M => ?_
      · refine M.cache_both own fun s hs onS => ?_
        refine (add_both b.image ownB.record onS.listed).bind fun lists lists' added => ?_
        obtain ⟨rfl, listed⟩ := added
        exact both_ok ⟨rfl, trivial, M.setCache own ⟨onS.allocator, onS.slots, listed⟩⟩
      · have marked : (x.markPublished c).On S true :=
          ⟨on.origin, on.allocator, fun d hd => Option.some.inj hd ▸ own⟩
        exact both_ok ⟨rfl, trivial,
          ((M.setRecord ownB.record marked).count own .addPublish).emit _ _⟩

theorem unpublish_mirrors (M : Mirrors S w₀ w v) (own : S.caches.own c = true) {b : Handle}
    (ownB : b.Own S) :
    Both (w.unpublish c b) (v.unpublish (S.caches.number c) (b.renumber S))
      (Mirrored S w₀ id fun _ => True) := by
  unfold unpublish
  by_cases foreign : b.cache ≠ c
  · rw [if_pos foreign, if_pos ((foreign_iff ownB own).2 foreign)]
    exact both_ok ⟨rfl, trivial, M⟩
  · rw [if_neg foreign, if_neg (mt (foreign_iff ownB own).1 foreign)]
    exact (M.withdraw_mirrors own ownB.record).bind fun w v M => both_ok ⟨rfl, trivial, M⟩

theorem publishOwn_mirrors (M : Mirrors S w₀ w v) {b : Handle} (own : b.Own S) :
    Both (w.publishOwn b) (v.publishOwn (b.renumber S)) (Mirrored S w₀ id fun _ => True) := by
  have alive : v.isAlive (b.renumber S).cache = w.isAlive b.cache := M.isAlive_eq own.cache
  unfold publishOwn
  rw [alive]
  split
  · exact M.publish_mirrors own.cache own
  · exact both_ok ⟨rfl, trivial, M.emit _ _⟩

theorem unpublishOwn_mirrors (M : Mirrors S w₀ w v) {b : Handle} (own : b.Own S) :
    Both (w.unpublishOwn b) (v.unpublishOwn (b.renumber S))
      (Mirrored S w₀ id fun _ => True) := by
  have alive : v.isAlive (b.renumber S).cache = w.isAlive b.cache := M.isAlive_eq own.cache
  unfold unpublishOwn
  rw [alive]
  split
  · exact M.unpublish_mirrors own.cache own
  · exact both_ok ⟨rfl, trivial, M.emit _ _⟩

theorem resize_mirrors (M : Mirrors S w₀ w v) (own : S.caches.own c = true) {b : Handle}
    (ownB : b.Own S) (area : Rect) (viewHeld : Bool) :
    Both (w.resize c b area viewHeld) (v.resize (S.caches.number c) (b.renumber S) area viewHeld)
      (Mirrored S w₀ id fun _ => True) := by
  unfold resize
  by_cases foreign : b.cache ≠ c
  · rw [if_pos foreign, if_pos ((foreign_iff ownB own).2 foreign)]
    exact both_ok ⟨rfl, trivial, M⟩
  · rw [if_neg foreign, if_neg (mt (foreign_iff ownB own).1 foreign)]
    refine M.record_both ownB.record fun x hx on => ?_
    change Both (if x.references ≠ 1 then _ else _) (if x.references ≠ 1 then _ else _) _
    split
    · exact both_ok ⟨rfl, trivial, M⟩
    · refine (M.withdraw_mirrors own ownB.record).bind fun w v M => ?_
      change Both
        (if (viewHeld && x.pixels.isSome) = true ∧ (byteSize? area x.bytesPerPixel).isSome then _
          else _)
        (if (viewHeld && x.pixels.isSome) = true ∧ (byteSize? area x.bytesPerPixel).isSome then _
          else _) _
      split
      · exact both_ok ⟨rfl, trivial, M⟩
      · refine mirrored_bind (M.fit_mirrors ownB.record area) fun outcome w v _ M => ?_
        cases outcome with
        | ok newBlock => exact both_ok ⟨rfl, trivial, M.count own (·.addAllocation newBlock)⟩
        | error e => exact both_ok ⟨rfl, trivial, M.emit _ _⟩

theorem release_mirrors (M : Mirrors S w₀ w v) (own : S.caches.own c = true) {b : Handle}
    (ownB : b.Own S) :
    Both (w.release c b) (v.release (S.caches.number c) (b.renumber S))
      (Mirrored S w₀ id fun _ => True) := by
  unfold release
  refine (M.dropHandle_mirrors ownB).bind fun w v M => both_ok ⟨?_, trivial, M⟩
  by_cases foreign : b.cache ≠ c
  · rw [if_pos foreign, if_pos ((foreign_iff ownB own).2 foreign)]
    rfl
  · rw [if_neg foreign, if_neg (mt (foreign_iff ownB own).1 foreign)]
    rfl

theorem acquireMissed_mirrors (M : Mirrors S w₀ w v) (own : S.caches.own c = true)
    (turn : S.turn = true) (image : Image) (area : Rect) :
    Both (w.acquireMissed c image area) (v.acquireMissed (S.caches.number c) image area)
      (Mirrored S w₀ (Except.map (Handle.renumber S)) (OwnOutcome S)) := by
  unfold acquireMissed
  refine mirrored_bind ((M.count own .addMiss).acquire_mirrors own turn image area)
    fun outcome w v ownB M => ?_
  cases outcome with
  | ok b => exact both_ok ⟨rfl, ownOutcome_ok (ownB b rfl), M⟩
  | error e => exact both_ok ⟨rfl, ownOutcome_error, M⟩

/-- A buffer is given up, and the swap is refused. -/
theorem refuseExchange_mirrors (M : Mirrors S w₀ w v) {b : Handle} (own : b.Own S) (e : Refusal) :
    Both (do let w ← w.dropHandle b; return (.error e, w))
      (do let v ← v.dropHandle (b.renumber S); return (.error e, v))
      (Mirrored S w₀ (Except.map (Handle.renumber S)) (OwnOutcome S)) :=
  (M.dropHandle_mirrors own).bind fun _ _ M => both_ok ⟨rfl, ownOutcome_error, M⟩

theorem exchange_mirrors (M : Mirrors S w₀ w v) (own : S.caches.own c = true)
    (turn : S.turn = true) {old : Option Handle} (ownOld : ∀ b, old = some b → b.Own S)
    (image : Image) (area : Rect) :
    Both (w.exchange c old image area)
      (v.exchange (S.caches.number c) (old.map (Handle.renumber S)) image area)
      (Mirrored S w₀ (Except.map (Handle.renumber S)) (OwnOutcome S)) := by
  cases old with
  | none =>
    refine mirrored_bind (M.lookup_mirrors own image area) fun found w v ownB M => ?_
    cases found with
    | some b => exact both_ok ⟨rfl, ownOutcome_ok (ownB b rfl), M.count own .addHit⟩
    | none => exact M.acquireMissed_mirrors own turn image area
  | some b =>
    have ownB := ownOld b rfl
    have areas := M.areaOf_eq ownB.record
    unfold exchange
    dsimp only [Option.map]
    by_cases foreign : b.cache ≠ c
    · rw [if_pos foreign, if_pos ((foreign_iff ownB own).2 foreign)]
      exact M.refuseExchange_mirrors ownB _
    · rw [if_neg foreign, if_neg (mt (foreign_iff ownB own).1 foreign)]
      change Both (if b.image ≠ image.key then _ else _) (if b.image ≠ image.key then _ else _) _
      split
      · exact M.refuseExchange_mirrors ownB _
      · change Both _ (if (v.areaOf (S.records.number b.record)).encloses area then _ else _) _
        rw [areas]
        split
        · exact both_ok ⟨rfl, ownOutcome_ok ownB, M⟩
        · refine mirrored_bind (M.lookup_mirrors own image area) fun found w v ownF M => ?_
          cases found with
          | some hit =>
            refine ((M.count own .addHit).dropHandle_mirrors ownB).bind fun w v M => ?_
            exact both_ok ⟨rfl, ownOutcome_ok (ownF hit rfl), M⟩
          | none =>
            change Both _ (if v.referencesOf (S.records.number b.record) = 1 then _ else _) _
            rw [M.referencesOf_eq ownB.record]
            change Both (if w.referencesOf b.record = 1 then _ else _) _ _
            split
            · refine mirrored_bind (M.resize_mirrors own ownB area false)
                fun outcome w v _ M => ?_
              cases outcome with
              | ok => exact both_ok ⟨rfl, ownOutcome_ok ownB, M.count own .addMoved⟩
              | error e => exact M.refuseExchange_mirrors ownB e
            · refine (M.dropHandle_mirrors ownB).bind fun w v M => ?_
              exact M.acquireMissed_mirrors own turn image area

/-! ## 7. The life of a cache -/

theorem createCache_mirrors (M : Mirrors S w₀ w v) (own : S.caches.own w.caches.next = true)
    (ownA : S.allocators.own a = true) (thread : ThreadId) (config : Config) :
    Mirrored S w₀ S.caches.number (fun c => S.caches.own c = true) (w.createCache thread config a)
      (v.createCache thread config (S.allocators.number a)) := by
  let made : Cache :=
    { thread, allocator := a, owners := 1, reserve := { cap := config.reserveCap } }
  have on : made.On S true := ⟨ownA, by simp [made], by simp [made, Lists.all, Lists.empty]⟩
  exact ⟨M.caches.next, own, (M.addCache own on).emit _ _⟩

theorem tearDown_mirrors (M : Mirrors S w₀ w v) (own : S.caches.own c = true) :
    Both (w.tearDown c) (v.tearDown (S.caches.number c)) (Mirrors S w₀) := by
  unfold tearDown
  refine M.cache_both own fun s hs on => ?_
  have listed : (s.renumber S).lists.all = s.lists.all.map S.records.number := Lists.all_map
  rw [listed]
  refine (M.detachAll_mirrors on.listed).bind fun w v M => ?_
  refine (M.destroyAll_mirrors on.slots).bind fun w v M => ?_
  exact both_ok ((M.eraseCache own _ _).emit _ _)

theorem dropOwner_mirrors (M : Mirrors S w₀ w v) (own : S.caches.own c = true) :
    Both (w.dropOwner c) (v.dropOwner (S.caches.number c)) (Mirrors S w₀) := by
  unfold dropOwner
  refine M.cache_both own fun s hs on => ?_
  change Both (if s.owners ≤ 1 then _ else _) (if s.owners ≤ 1 then _ else _) _
  split
  · exact M.tearDown_mirrors own
  · exact both_ok (M.setCache own ⟨on.allocator, on.slots, on.listed⟩)

theorem emptyReserve_mirrors (M : Mirrors S w₀ w v) (own : S.caches.own c = true) :
    Both (w.emptyReserve c) (v.emptyReserve (S.caches.number c))
      (Mirrored S w₀ id fun _ => True) := by
  unfold emptyReserve
  refine mirrored_bind (M.within_both (g := id) (P := fun _ => True) fun w v M => ?_)
    fun bytes w v _ M => both_ok ⟨rfl, trivial, M.emit _ _⟩
  · refine M.cache_both own fun s hs on => ?_
    have cleared := M.setCache own (s := { s with reserve := s.reserve.clear })
      ⟨on.allocator, by simp [Reserve.clear], on.listed⟩
    refine (cleared.destroyAll_mirrors on.slots).bind fun w' v' M' => ?_
    exact both_ok ⟨M.totalCapacity_eq on.slots, trivial, M'⟩

/-! ## 8. The shared allocator -/

theorem sharedAllocator_mirrors (M : Mirrors S w₀ w v)
    (own : S.allocators.own w.sharedAllocator.1 = true) :
    Mirrored S w₀ S.allocators.number (fun a => S.allocators.own a = true) w.sharedAllocator
      v.sharedAllocator := by
  unfold sharedAllocator at own ⊢
  cases shared : w.settings.allocator with
  | some a =>
    rw [shared] at own
    have shared' : v.settings.allocator = some (S.allocators.number a) := by
      rw [M.shared fun b hb => Option.some.inj (shared.symm.trans hb) ▸ own, shared]
      rfl
    rw [shared']
    exact ⟨rfl, own, M⟩
  | none =>
    rw [shared] at own
    have shared' : v.settings.allocator = none := by
      rw [M.shared fun b hb => by simp [shared] at hb, shared]
      rfl
    rw [shared']
    obtain ⟨same, made⟩ := M.createAllocator own none
    refine ⟨same, own, ?_⟩
    have fixed := made.fixAllocator own
    rwa [← same] at fixed

theorem createWithConfig_mirrors (M : Mirrors S w₀ w v)
    (ownA : S.allocators.own w.sharedAllocator.1 = true)
    (own : S.caches.own w.caches.next = true) (thread : ThreadId) (config : Config) :
    Mirrored S w₀ S.caches.number (fun c => S.caches.own c = true)
      (w.createWithConfig thread config) (v.createWithConfig thread config) := by
  have shared := M.sharedAllocator_mirrors ownA
  have next : w.sharedAllocator.2.caches.next = w.caches.next := by
    unfold sharedAllocator
    cases w.settings.allocator <;> rfl
  change Mirrored _ _ _ _ (w.sharedAllocator.2.createCache thread config w.sharedAllocator.1)
    (v.sharedAllocator.2.createCache thread config v.sharedAllocator.1)
  rw [shared.same]
  exact shared.stores.createCache_mirrors (next ▸ own) ownA thread config

end Mirrors

end Store

end PixelPool
