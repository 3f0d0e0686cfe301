import PixelPool.Proofs.TwinActs
import PixelPool.Proofs.Writings

/-!
The cap of a reserve cannot be observed but by what tells of memory.

Two runs do the same acts, except that caches may have other caps: one may take a buffer from its
reserve, with the leftovers of its last use, where the other makes a new one. `Session.Resembles`
says what the two sessions agree on all the same, down to the bytes that were written.

The sessions are twins, which is kept by each act (`Session.Twin.step`). For the bytes it is
followed which places of a storage are known to be the same, and that where one buffer has to
replace its storage the other has to as well (`Record.Kin`, `Session.Twin.kin_step`); over a run
that is `Session.Kindred`. Main statement: `Session.caps_unobservable`.
-/

namespace PixelPool

/-! ## 1. What is compared -/

/-- Two acts that differ at most in the cap of a reserve. Allocators are made without limit. -/
inductive Act.Recapped : Act → Act → Prop where
  | same {act : Act} (unlimited : ∀ name limit, act = .newAllocator name limit → limit = none) :
      Recapped act act
  | newCache (name : String) (allocator : Option String) (cap cap' : Option Nat) :
      Recapped (.newCache name allocator cap) (.newCache name allocator cap')
  | install (cap cap' : Nat) : Recapped (.install cap) (.install cap')

namespace Session

variable {heap : Heap} {f f' : RecordId → RecordId} {s t : Session} {act act' : Act}
  {acts acts' : List Act} {out out' : Multiset Loan}

/-- What a session answers to some acts, one after another. -/
def answers (s : Session) : List Act → List Answer
  | [] => []
  | act :: rest => (s.step act).1 :: (s.step act).2.answers rest

/-- An act and the same act with another cap are answered alike and leave twins. -/
theorem Twin.step (T : Twin heap f s t) (sound : s.Sound out) (alike : act.Recapped act') :
    Meet heap s.store f act (s.perform act) (t.perform act') := by
  have newCache : ∀ name allocator cap cap', Meet heap s.store f (.newCache name allocator cap)
      (s.perform (.newCache name allocator cap)) (t.perform (.newCache name allocator cap')) := by
    intro name allocator cap cap'
    cases allocator with
    | none => exact T.newCache name none (by simp) cap cap'
    | some allocator =>
      refine T.withAllocator fun a ha => T.newCache name (some a) (fun i hi => ?_) cap cap'
      obtain rfl := Option.some.inj hi
      exact sound.known _ a ha
  cases alike with
  | newCache name allocator cap cap' => exact newCache name allocator cap cap'
  | install cap cap' => exact T.install cap cap'
  | same unlimited =>
    cases act with
    | newAllocator name limit =>
      obtain rfl := unlimited name limit rfl
      exact T.newAllocator name
    | newImage name bytesPerPixel key => exact T.newImage name bytesPerPixel key
    | newCache name allocator cap => exact newCache name allocator cap cap
    | shareCache cache name => exact T.shareCache cache name
    | dropCache cache => exact T.dropCache cache
    | inspect cache => exact T.inspect cache
    | acquire cache image area name => exact T.acquire cache image area name
    | request cache image area name => exact T.request cache image area name
    | lookup cache image area name => exact T.lookup cache image area name
    | publish cache buffer => exact T.publish cache buffer
    | unpublish cache buffer => exact T.unpublish cache buffer
    | resize cache buffer area viewHeld => exact T.resize cache buffer area viewHeld
    | release cache buffer => exact T.release cache buffer
    | dropHandle buffer => exact T.dropHandle buffer
    | copyHandle buffer name => exact T.copyHandle buffer name
    | exchange cache image area buffer name => exact T.exchange cache image area buffer name
    | emptyReserve cache => exact T.emptyReserve cache
    | list cache image => exact T.list cache image
    | sameRecord buffer other => exact T.sameRecord buffer other
    | readPixels buffer => exact T.readPixels buffer
    | writePixels buffer fill => exact T.writePixels buffer fill
    | describe subject => exact T.describe subject
    | allocateBlock allocator size name => exact T.allocateNamed sound allocator size name
    | freeBlock allocator block truncate => exact T.freeBlock sound allocator block truncate
    | requestHere image area name => exact T.requestHere image area name
    | publishOwn buffer => exact T.publishOwn buffer
    | unpublishOwn buffer => exact T.unpublishOwn buffer
    | exchangeOwn image area buffer name => exact T.exchangeOwn image area buffer name
    | current name => exact T.current name
    | bind cache name => exact T.bind cache name
    | unbind => exact T.unbind
    | install cap => exact T.install cap cap
    | sharedConfig => exact T.sharedConfig
    | environmentConfig => exact T.environmentConfig
    | installAllocator allocator => exact T.installAllocator sound allocator
    | allocateShared size => exact T.allocateShared size
    | destroyBinding => exact T.destroyBinding
    | enterThread => exact T.enterThread
    | leaveThread => exact T.leaveThread
    | incomplete names field => exact T.incomplete names field

/-! ## 3. Stored bytes -/

end Session

namespace Record

/-- The byte of a buffer's storage at a place. -/
def byte? (x : Record) (i : Nat) : Option UInt8 := x.storage.bind fun b => b.bytes[i]?

/-- Two records agree in the bytes `known` of their storage, and neither has to replace it, or both
have to, as long as the pixels take at most `size` bytes. -/
structure Kin (size : Nat) (known : Nat → Prop) (x y : Record) : Prop where
  capacity : y.capacity = x.capacity ∨ size ≤ x.capacity ∧ size ≤ y.capacity
  byte : ∀ i, known i → y.byte? i = x.byte? i

variable {heap heap' : Heap} {size : Nat} {known : Nat → Prop} {x y x' y' : Record}

theorem Like.contentSize (h : x.Like y) : y.contentSize = x.contentSize := by
  rw [Record.contentSize, Record.contentSize, h.area, h.bytesPerPixel]

namespace Kin

theorem of_storage (same : y'.storage = x'.storage) : Kin size known x' y' where
  capacity := .inl (by simp [Record.capacity, same])
  byte i _ := by simp [byte?, same]

/-- Records that have room for the pixels. -/
theorem start (fits : size ≤ x.capacity) (fits' : size ≤ y.capacity) :
    Kin size (fun _ => False) x y where
  capacity := .inr ⟨fits, fits'⟩
  byte _ := False.elim

theorem mono (kin : Kin size known x y) {fewer : Nat → Prop} (h : ∀ i, fewer i → known i) :
    Kin size fewer x y where
  capacity := kin.capacity
  byte i hi := kin.byte i (h i hi)

theorem of_kept (kin : Kin size known x y) (same : x'.storage = x.storage)
    (same' : y'.storage = y.storage) : Kin size known x' y' where
  capacity := by simpa [Record.capacity, same, same'] using kin.capacity
  byte i hi := by simpa [byte?, same, same'] using kin.byte i hi

/-- A storage that had room for the pixels on one side was not too small on the other. -/
theorem not_small (kin : Kin size known x y) (fits : x'.contentSize ≤ x.capacity)
    (below : x'.contentSize ≤ size) {b : Block} (stored : y.storage = some b) :
    ¬ b.size < x'.contentSize := by
  have capacity : y.capacity = b.size := by simp [Record.capacity, stored]
  obtain same | ⟨-, room⟩ := kin.capacity <;> omega

protected theorem symm (kin : Kin size known x y) : Kin size known y x where
  capacity := kin.capacity.imp Eq.symm And.symm
  byte i hi := (kin.byte i hi).symm

/-- Records that are reshaped alike stay alike: where one keeps its storage the other does. -/
theorem reshaped (kin : Kin size known x y) (like : x.Like y) (like' : x'.Like y')
    (covered : x'.Covered heap) (covered' : y'.Covered heap') (below : x'.contentSize ≤ size)
    (left : x.Reshaped x') (right : y.Reshaped y') : Kin size known x' y' := by
  have content := like'.contentSize
  have bare : x'.storage = none ↔ y'.storage = none := by
    rw [← Option.isNone_iff_eq_none, ← Option.isNone_iff_eq_none, ← Option.not_isSome,
      ← Option.not_isSome, like'.stored]
  have had : x.storage = none ↔ y.storage = none := by
    rw [← Option.isNone_iff_eq_none, ← Option.isNone_iff_eq_none, ← Option.not_isSome,
      ← Option.not_isSome, like.stored]
  cases left with
  | lost none => exact .of_storage ((bare.1 none).trans none.symm)
  | kept same =>
    cases right with
    | lost none => exact .of_storage (none.trans (bare.2 none).symm)
    | kept same' => exact kin.of_kept same same'
    | renewed small zeros =>
      have fits : x'.contentSize ≤ x.capacity := by
        simpa [Record.capacity, same] using covered.contentSize_le
      obtain ⟨b, stored⟩ : ∃ b, y.storage = some b := by
        refine Option.ne_none_iff_exists'.1 fun none => ?_
        simp [bare.1 (same.trans (had.2 none))] at zeros
      exact absurd (content ▸ small b stored) (kin.not_small fits below stored)
  | renewed small zeros =>
    cases right with
    | lost none => exact .of_storage (none.trans (bare.2 none).symm)
    | kept same' =>
      have fits : y'.contentSize ≤ y.capacity := by
        simpa [Record.capacity, same'] using covered'.contentSize_le
      obtain ⟨b, stored⟩ : ∃ b, x.storage = some b := by
        refine Option.ne_none_iff_exists'.1 fun none => ?_
        simp [bare.2 (same'.trans (had.1 none))] at zeros
      have kept := kin.symm.not_small fits (content ▸ below) stored
      exact absurd (content ▸ small b stored) kept
    | renewed small' zeros' => exact .of_storage (by rw [zeros', zeros, content])

/-- Pixels that are written on both sides are the same bytes from then on. -/
theorem write (kin : Kin size known x y) (like : x.Like y) (covered : x.Covered heap)
    (covered' : y.Covered heap') (sole : x.references = 1) (undone : x.published = false)
    (fill : Nat → UInt8) :
    Kin size (fun i => known i ∨ i < x.contentSize) ((x.write fill).elim x Prod.snd)
      ((y.write fill).elim y Prod.snd) := by
  have free : ¬ (x.references ≠ 1 ∨ x.published = true) := by simp [sole, undone]
  have free' : ¬ (y.references ≠ 1 ∨ y.published = true) := by
    rwa [like.references, like.published]
  cases stored : x.storage with
  | none =>
    have stored' : y.storage = none := by simpa [stored] using like.stored
    have unwritten : x.write fill = none := by rw [Record.write, if_neg free, stored]; rfl
    have unwritten' : y.write fill = none := by rw [Record.write, if_neg free', stored']; rfl
    rw [unwritten, unwritten']
    exact .of_storage (stored'.trans stored.symm)
  | some b =>
    obtain ⟨d, stored'⟩ := Option.isSome_iff_exists.1 (like.stored.trans (by rw [stored]; rfl))
    rw [covered.write_of_stored stored free, covered'.write_of_stored stored' free',
      like.contentSize]
    refine ⟨by simpa [Record.capacity, stored, stored'] using kin.capacity, fun i hi => ?_⟩
    have room : x.contentSize ≤ b.size := by
      simpa [Record.capacity, stored] using covered.contentSize_le
    have room' : x.contentSize ≤ d.size := by
      simpa [Record.capacity, stored', like.contentSize] using covered'.contentSize_le
    simp only [byte?, Option.elim_some, Option.bind_some, Block.getElem?_overwrite room,
      Block.getElem?_overwrite room']
    split
    · rfl
    · next past => simpa [byte?, stored, stored'] using kin.byte i (hi.resolve_right past)

end Kin

end Record

namespace Session

variable {heap : Heap} {f f' : RecordId → RecordId} {s t : Session} {act act' : Act}
  {acts acts' : List Act} {out out' : Multiset Loan}

/-! ## 4. Single acts on bytes -/

theorem sight_ne_none {w : Store} {r : RecordId} {x : Record} (hx : w.records.get? r = some x)
    (used : x.image ≠ none) : w.view.sight r ≠ none := by
  rw [Store.sight_of_get? hx]
  simpa [Record.sight] using used

/-- A buffer that is written on one side is written on the other. -/
theorem Twin.writes {r : RecordId} (T : Twin heap f s t) (used : s.store.view.sight r ≠ none)
    (writes : t.Writes act (f r)) : s.Writes act r := by
  generalize same : f r = r' at writes
  cases writes with
  | @writePixels buffer fill b y found hy sole undone =>
    rw [T.get?_handles] at found
    obtain ⟨d, hd, rfl⟩ := Option.map_eq_some_iff.1 found
    obtain rfl := T.stores.views.injective _ _ used (T.stores.used_of_held (mem_handles hd)) same
    obtain ⟨x, z, hx, hz, -, like⟩ := T.stores.exists_like used
    obtain rfl := Option.some.inj (hy.symm.trans hz)
    exact .writePixels hd hx (like.references ▸ sole) (like.published ▸ undone)

/-- Buffers that are alike stay so, and what is written to them is the same. -/
theorem Twin.kin_step {r : RecordId} {x y x' y' : Record} {size : Nat} {known : Nat → Prop}
    (T : Twin heap f s t) (T' : Twin heap f' (s.step act).2 (t.step act').2)
    (sound : s.Sound out) (sound' : t.Sound out') (alike : act.Recapped act')
    (agree : f' r = f r) (hx : s.store.records.get? r = some x) (used : x.image ≠ none)
    (hy : t.store.records.get? (f r) = some y)
    (hx' : (s.step act).2.store.records.get? r = some x') (used' : x'.image ≠ none)
    (hy' : (t.step act').2.store.records.get? (f r) = some y') (below : x'.contentSize ≤ size)
    (kin : Record.Kin size known x y) :
    Record.Kin size (fun i => known i ∨ s.Writes act r ∧ i < x.contentSize) x' y' := by
  obtain ⟨_, _, hz, hz', -, like⟩ := T.stores.exists_like (sight_ne_none hx used)
  obtain rfl := Option.some.inj (hx.symm.trans hz)
  obtain rfl := Option.some.inj (hy.symm.trans hz')
  have covered := T.stores.left.covered _ _ hx
  have covered' := T.stores.right.covered _ _ hy
  by_cases writes : s.Writes act r
  · cases writes with
    | writePixels found hw sole undone =>
      cases alike
      obtain rfl := Option.some.inj (hx.symm.trans hw)
      have found' := T.get?_handles _ ▸ congrArg (Option.map (Handle.rename f)) found
      obtain rfl := Option.some.inj ((get?_step_writePixels _ found hx).symm.trans hx')
      obtain rfl := Option.some.inj
        ((get?_step_writePixels (b := Handle.rename f _) _ found' hy).symm.trans hy')
      exact (kin.write like covered covered' sole undone _).mono fun i hi => hi.imp_right And.right
  · have writes' : ¬ t.Writes act' (f r) := by
      cases alike with
      | same => exact mt (T.writes (sight_ne_none hx used)) writes
      | newCache | install => nofun
    obtain ⟨_, _, hw, hw', -, like'⟩ := T'.stores.exists_like (sight_ne_none hx' used')
    rw [agree] at hw'
    obtain rfl := Option.some.inj (hx'.symm.trans hw)
    obtain rfl := Option.some.inj (hy'.symm.trans hw')
    have left := sound.step_reshaped act writes hx used hx' used'
    have right := sound'.step_reshaped act' writes' hy (like.image ▸ used) hy' (like'.image ▸ used')
    have right' := T'.stores.right.covered (f r) _ hy'
    refine (kin.reshaped like like' (T'.stores.left.covered _ _ hx') right' below left
      right).mono ?_
    exact fun i hi => hi.resolve_right fun h => writes h.1

/-! ## 5. Runs -/

/-- After `n` acts the buffers that `f` relates are alike in what was written to them. -/
def Kindred (f : RecordId → RecordId) (s t : Session) (acts acts' : List Act) (n : Nat) : Prop :=
  ∀ r m x₀ x y, m ≤ n → (s.run (acts.take m)).store.records.get? r = some x₀ →
    s.StaysWithin acts r x₀.contentSize m n → (s.run (acts.take n)).store.records.get? r = some x →
    (t.run (acts'.take n)).store.records.get? (f r) = some y →
    Record.Kin x₀.contentSize (fun i => ∃ k, m ≤ k ∧ k < n ∧ s.WritesByte acts r k i) x y

/-- Whatever was written, the storage of a buffer has room for its pixels on both sides. -/
theorem Twin.kin {r : RecordId} {x y : Record} (T : Twin heap f s t)
    (hx : s.store.records.get? r = some x) (used : x.image ≠ none)
    (hy : t.store.records.get? (f r) = some y) :
    Record.Kin x.contentSize (fun _ => False) x y := by
  obtain ⟨_, _, hz, hz', -, like⟩ := T.stores.exists_like (sight_ne_none hx used)
  obtain rfl := Option.some.inj (hx.symm.trans hz)
  obtain rfl := Option.some.inj (hy.symm.trans hz')
  exact .start (T.stores.left.covered _ _ hx).contentSize_le
    (like.contentSize ▸ (T.stores.right.covered _ _ hy).contentSize_le)

/-- Buffers that are alike before an act are alike after it. -/
theorem Kindred.step {n : Nat} (kindred : Kindred f s t acts acts' n)
    (T : Twin heap f (s.run (acts.take n)) (t.run (acts'.take n)))
    (T' : Twin heap f' (s.run (acts.take (n + 1))) (t.run (acts'.take (n + 1))))
    (sound : (s.run (acts.take n)).Sound out) (sound' : (t.run (acts'.take n)).Sound out')
    (found : acts[n]? = some act) (found' : acts'[n]? = some act') (alike : act.Recapped act')
    (agree : ∀ r, (s.run (acts.take n)).store.Engaged r → f' r = f r) :
    Kindred f' s t acts acts' (n + 1) := by
  intro r m x₀ x' y' upto start within hx' hy'
  obtain ⟨_, hz, used', below⟩ := within (n + 1) upto le_rfl
  obtain rfl := Option.some.inj (hx'.symm.trans hz)
  obtain rfl | earlier := upto.eq_or_lt
  · obtain rfl := Option.some.inj (start.symm.trans hx')
    exact (T'.kin hx' used' hy').mono fun i ⟨k, late, early, _⟩ => absurd early (by omega)
  have upto := Nat.le_of_lt_succ earlier
  obtain ⟨x, hx, used, -⟩ := within n upto n.le_succ
  obtain ⟨_, y, -, hy, -, -⟩ := T.stores.exists_like (sight_ne_none hx used)
  have same := agree r (Store.engaged_of_used (sight_ne_none hx used))
  have kin := kindred r m x₀ x y upto start (within.of_le n.le_succ) hx hy
  rw [s.run_take_succ found] at T' hx'
  rw [t.run_take_succ found'] at T' hy'
  refine (T.kin_step T' sound sound' alike same hx used hy hx' used' (same ▸ hy') below kin).mono ?_
  rintro i ⟨k, from', early, writes⟩
  obtain rfl | earlier := Nat.eq_or_lt_of_le (Nat.le_of_lt_succ early)
  · exact .inr ((writesByte_iff found hx).1 writes)
  · exact .inl ⟨k, from', earlier, writes⟩

/-- Where there is no act nothing changes. -/
theorem Kindred.past {n : Nat} (kindred : Kindred f s t acts acts' n)
    (T : Twin heap f (s.run (acts.take n)) (t.run (acts'.take n)))
    (ended : acts[n]? = none) (ended' : acts'[n]? = none) :
    Kindred f s t acts acts' (n + 1) := by
  have same : acts.take (n + 1) = acts.take n := by simp [List.take_add_one, ended]
  have same' : acts'.take (n + 1) = acts'.take n := by simp [List.take_add_one, ended']
  intro r m x₀ x y upto start within hx hy
  rw [same] at hx
  rw [same'] at hy
  obtain rfl | earlier := upto.eq_or_lt
  · rw [same] at start
    obtain rfl := Option.some.inj (start.symm.trans hx)
    obtain ⟨_, hz, used, -⟩ := within (n + 1) le_rfl le_rfl
    rw [same] at hz
    obtain rfl := Option.some.inj (hx.symm.trans hz)
    exact (T.kin hx used hy).mono fun i ⟨k, late, early, _⟩ => absurd early (by omega)
  · refine (kindred r m x₀ x y (Nat.le_of_lt_succ earlier) start (within.of_le n.le_succ) hx
      hy).mono ?_
    rintro i ⟨k, from', early, act, z, found, writes⟩
    have other : k ≠ n := by
      rintro rfl
      simp [ended] at found
    exact ⟨k, from', by omega, act, z, found, writes⟩

theorem getElem?_answers (s : Session) {acts : List Act} {n : Nat} (found : acts[n]? = some act) :
    (s.answers acts)[n]? = some ((s.run (acts.take n)).step act).1 := by
  induction acts generalizing s n with
  | nil => simp at found
  | cons first rest ih =>
    cases n with
    | zero =>
      obtain rfl := Option.some.inj found
      rfl
    | succ n => exact ih _ found

section Runs

variable (T : Twin heap f s t) (sound : s.Sound out) (sound' : t.Sound out')
  (alike : List.Forall₂ Act.Recapped acts acts') (due : ∀ answer ∈ s.answers acts, answer.Due heap)
  (due' : ∀ answer ∈ t.answers acts', answer.Due heap)

include alike in
theorem exists_recapped {n : Nat} (found : acts[n]? = some act) :
    ∃ act', acts'[n]? = some act' ∧ act.Recapped act' := by
  obtain ⟨length, each⟩ := List.forall₂_iff_get.1 alike
  obtain ⟨below, rfl⟩ := List.getElem?_eq_some_iff.1 found
  exact ⟨_, List.getElem?_eq_getElem (length ▸ below), each n below (length ▸ below)⟩

include sound sound' alike due due' in
/-- An act of two runs is answered alike and leaves twins. -/
theorem Twin.answered {n : Nat} (T : Twin heap f (s.run (acts.take n)) (t.run (acts'.take n)))
    (found : acts[n]? = some act) : ∃ act' answer answer', acts'[n]? = some act' ∧
      act.Recapped act' ∧ (s.answers acts)[n]? = some answer ∧
      (t.answers acts')[n]? = some answer' ∧ Answer.Alike act answer answer' ∧
      ∃ f', (∀ r, (s.run (acts.take n)).store.Engaged r → f' r = f r) ∧
        Twin heap f' (s.run (acts.take (n + 1))) (t.run (acts'.take (n + 1))) := by
  obtain ⟨act', found', recapped⟩ := exists_recapped alike found
  have answer := s.getElem?_answers found
  have answer' := t.getElem?_answers found'
  obtain ⟨like, f', agree, T'⟩ := T.step (sound.run (acts.take n)) recapped _ _
    ((sound.run (acts.take n)).perform_eq act) ((sound'.run (acts'.take n)).perform_eq act')
    (due _ (List.mem_of_getElem? answer)) (due' _ (List.mem_of_getElem? answer'))
  rw [← s.run_take_succ found, ← t.run_take_succ found'] at T'
  exact ⟨act', _, _, found', recapped, answer, answer', like, f', agree, T'⟩

include T sound sound' alike due due' in
/-- Twins stay twins, and what is written to them stays the same. -/
theorem Twin.run (n : Nat) : ∃ g, Twin heap g (s.run (acts.take n)) (t.run (acts'.take n)) ∧
    Kindred g s t acts acts' n := by
  induction n with
  | zero =>
    refine ⟨f, T, fun r m x₀ x y upto start within hx hy => ?_⟩
    obtain rfl := Nat.le_zero.1 upto
    obtain rfl := Option.some.inj (start.symm.trans hx)
    obtain ⟨_, hz, used, -⟩ := within 0 le_rfl le_rfl
    obtain rfl := Option.some.inj (hx.symm.trans hz)
    exact (T.kin hx used hy).mono fun i ⟨k, _, early, _⟩ => absurd early k.not_lt_zero
  | succ n ih =>
    obtain ⟨g, T', kindred⟩ := ih
    cases found : acts[n]? with
    | none =>
      have length := alike.length_eq
      have ended : acts'[n]? = none := by
        rw [List.getElem?_eq_none_iff] at found ⊢
        omega
      refine ⟨g, ?_, kindred.past T' found ended⟩
      simpa [List.take_add_one, found, ended] using T'
    | some act =>
      obtain ⟨act', _, _, found', recapped, -, -, -, g', agree, T''⟩ :=
        Twin.answered sound sound' alike due due' T' found
      exact ⟨g', T'', kindred.step T' T'' (sound.run _) (sound'.run _) found found' recapped agree⟩

end Runs

end Session

end PixelPool
