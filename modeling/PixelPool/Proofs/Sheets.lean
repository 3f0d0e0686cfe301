import Mathlib
import PixelPool.Proofs.Accounting
import PixelPool.Proofs.Listings

/-!
The sheet of a cache: its counts, how many buffers idle in its reserve, and how many of its buffers
are in use.

`World.Turn` says what a move makes of a sheet, in full, and `World.Step.turn` that it makes nothing
else of it. An equation between counts is a value of the cache that stays zero, or to which
something is added (`Store.Adds`); main statement: a sequence of moves adds nothing to a value that
shows none of their turns (`World.Reaches.adds`).
-/

namespace PixelPool

/-- What a record adds to the number of a cache's buffers in use. -/
def Record.uses (c : CacheId) (x : Record) : Nat :=
  if x.origin = c ∧ x.image.isSome = true then 1 else 0

namespace Record

variable {x : Record} {c : CacheId}

theorem uses_of_idle (idle : x.image = none) (c : CacheId) : x.uses c = 0 := by
  simp [uses, idle]

theorem uses_of_used {k : ImageKey} (image : x.image = some k) (c : CacheId) :
    x.uses c = if c = x.origin then 1 else 0 := by
  simp [uses, image, eq_comm]

end Record

namespace Store

variable {w v : Store} {c d : CacheId} {r : RecordId} {x y : Record} {s z : Cache}

/-- A cache that was changed, or that was left alone. -/
theorem get?_of_update {f : Cache → Cache} (caches : v.caches = w.caches.update d f)
    (hz : v.caches.get? c = some z) :
    ∃ y, w.caches.get? c = some y ∧ z = if c = d then f y else y := by
  rw [caches, Table.get?_update] at hz
  split at hz
  · next same =>
    obtain ⟨y, hy, rfl⟩ := Option.map_eq_some_iff.1 hz
    exact ⟨y, hy, by simp [same]⟩
  · next other => exact ⟨z, hz, by simp [other]⟩

/-! ## 1. Buffers in use -/

/-- How many of the buffers that a cache made are in use. -/
def inUse (w : Store) (c : CacheId) : Nat := w.records.total (Record.uses c)

/-- A cache that is not made yet has no buffers. -/
theorem Rooted.inUse_next (h : w.Rooted) : w.inUse w.caches.next = 0 := by
  refine Table.total_eq_zero _ fun r x hx => ?_
  have below := (h r x hx).1
  simp [Record.uses, Nat.ne_of_lt below]

/-- A buffer's part in the number is exchanged for that of its new record. -/
theorem inUse_setRecord (hx : w.records.get? r = some x) (y : Record) (c : CacheId) :
    (w.setRecord r y).inUse c + x.uses c = w.inUse c + y.uses c := by
  rw [inUse, inUse, records_setRecord, Table.total_update _ _ hx, Table.total_erase _ hx]
  omega

/-- A buffer that is taken into use is counted for the cache that made it. -/
theorem inUse_taken (hx : w.records.get? r = some x) (idle : x.image = none) (i : Image)
    (c : CacheId) :
    (w.setRecord r (x.takenFor i)).inUse c = w.inUse c + if c = x.origin then 1 else 0 := by
  have replaced := inUse_setRecord hx (x.takenFor i) c
  rwa [Record.uses_of_idle idle, Record.uses_of_used rfl] at replaced

/-- A buffer that goes out of use is no longer counted. -/
theorem inUse_parked {k : ImageKey} (hx : w.records.get? r = some x) (image : x.image = some k)
    (origin : d = x.origin) (c : CacheId) :
    (w.setRecord r x.parked).inUse c + (if c = d then 1 else 0) = w.inUse c := by
  have replaced := inUse_setRecord hx x.parked c
  rwa [Record.uses_of_used image, Record.uses_of_idle rfl, add_zero, ← origin] at replaced

theorem inUse_setRecord_of_same (hx : w.records.get? r = some x) (origin : y.origin = x.origin)
    (image : y.image = x.image) (c : CacheId) : (w.setRecord r y).inUse c = w.inUse c := by
  have replaced := inUse_setRecord hx y c
  rw [Record.uses, Record.uses, origin, image] at replaced
  omega

/-- A buffer that ends is no longer counted. -/
theorem inUse_without (hx : w.records.get? r = some x) (c : CacheId) :
    (w.without r).inUse c + x.uses c = w.inUse c := by
  have erased : (w.without r).records = w.records.erase r := by simp [without, hx]
  rw [inUse, inUse, erased, Table.total_erase _ hx]
  omega

theorem inUse_without_of_used {k : ImageKey} (hx : w.records.get? r = some x)
    (image : x.image = some k) (origin : d = x.origin) (c : CacheId) :
    (w.without r).inUse c + (if c = d then 1 else 0) = w.inUse c := by
  rw [← inUse_without hx, Record.uses_of_used image, ← origin]

/-- The end of idle buffers does not show. -/
theorem inUse_withoutAll {rs : List RecordId}
    (idle : ∀ r ∈ rs, ∀ x, w.records.get? r = some x → x.image = none) (c : CacheId) :
    (w.withoutAll rs).inUse c = w.inUse c := by
  induction rs generalizing w with
  | nil => rfl
  | cons r rs ih =>
    rw [withoutAll_cons, ih]
    · cases hx : w.records.get? r with
      | none => simp [without, hx]
      | some x =>
        have gone := inUse_without hx c
        rwa [Record.uses_of_idle (idle r List.mem_cons_self x hx), add_zero] at gone
    · intro j hj x hx
      rw [get?_records_without] at hx
      exact idle j (List.mem_cons_of_mem _ hj) x (Option.ite_none_left_eq_some.1 hx).2

theorem inUse_unmarkAll (w : Store) (rs : List RecordId) (c : CacheId) :
    (w.unmarkAll rs).inUse c = w.inUse c := by
  have same : ∀ t : Table Record, (rs.foldl (fun t r => t.update r Record.unmark) t).total
      (Record.uses c) = t.total (Record.uses c) := by
    induction rs with
    | nil => exact fun _ => rfl
    | cons r rs ih =>
      exact fun t => (ih _).trans (Table.total_update_self _ t r fun _ => rfl)
  exact same w.records

/-- What fitting makes of a record does not show. -/
theorem Fits.inUse {area : Rect} {outcome : Except StorageError Bool}
    (fits : w.Fits r x area outcome v) (hx : w.records.get? r = some x) (c : CacheId) :
    v.inUse c = w.inUse c := by
  cases fits with
  | invalid => rfl
  | kept => refine inUse_setRecord_of_same hx ?_ ?_ c <;> rfl
  | renewed => refine inUse_setRecord_of_same (w := w.setAllocator _ _) hx ?_ ?_ c <;> rfl
  | lost => refine inUse_setRecord_of_same (w := w.setAllocator _ _) hx ?_ ?_ c <;> rfl

end Store

/-! ## 2. Sheets and what moves make of them -/

/-- The counts of a cache, the number of buffers in its reserve, and the number of its buffers that
are in use. -/
structure Sheet where
  stats : Stats
  idle : Nat
  used : Nat

/-- The sheet of a new cache. -/
def Sheet.blank : Sheet := ⟨{}, 0, 0⟩

/-- The sheet of a cache in the state `z`. -/
def Store.sheet (w : Store) (c : CacheId) (z : Cache) : Sheet :=
  ⟨z.stats, z.reserve.slots.length, w.inUse c⟩

/-- A value of caches that their sheets show. -/
def Store.shows (f : Sheet → Int) (w : Store) (c : CacheId) (z : Cache) : Int := f (w.sheet c z)

namespace World

variable {W V : World} {m : Move} {c : CacheId} {z : Cache}

/-- `Turn c m S T`: the move `m` makes the sheet `T` of the sheet `S` of the cache `c`. -/
inductive Turn (c : CacheId) : Move → Sheet → Sheet → Prop where
  | spared {m : Move} {S : Sheet} : Turn c m S S
  | published {b : Handle} {t : Stats} {n k : Nat} (own : b.cache = c) :
      Turn c (.publish b) ⟨t, n, k⟩ ⟨t.addPublish, n, k⟩
  | renewed {r : RecordId} {t : Stats} {n k : Nat} (newBlock : Bool) :
      Turn c (.refit r) ⟨t, n, k⟩ ⟨t.addAllocation newBlock, n, k⟩
  | reused {b : Handle} {t : Stats} {n k : Nat} :
      Turn c (.take b) ⟨t, n + 1, k⟩ ⟨t.addReused, n, k + 1⟩
  | made {b : Handle} {t : Stats} {k : Nat} : Turn c (.take b) ⟨t, 0, k⟩ ⟨t.addMade, 0, k + 1⟩
  | kept {m : Move} {b : Handle} {t : Stats} {n k : Nat} (how : m = .keep b ∨ m = .retire b) :
      Turn c m ⟨t, n, k + 1⟩ ⟨t.addKept, n + 1, k⟩
  | freed {m : Move} {b : Handle} {t : Stats} {n k : Nat} (how : m = .free b ∨ m = .retire b) :
      Turn c m ⟨t, n, k + 1⟩ ⟨t.addFreed, n, k⟩
  | failed {b : Handle} {t : Stats} {n k : Nat} :
      Turn c (.discard b) ⟨t, n, k + 1⟩ ⟨t.addFailure, n, k⟩
  | tallied {f : Stats → Stats} {t : Stats} {n k : Nat} :
      Turn c (.tally c f) ⟨t, n, k⟩ ⟨f t, n, k⟩
  | emptied {t : Stats} {n k : Nat} : Turn c (.emptyReserve c) ⟨t, n, k⟩ ⟨t, 0, k⟩

theorem Turn.of_eq {S T : Sheet} (same : T = S) : Turn c m S T := same ▸ .spared

/-- Withdrawing turns no sheet. -/
theorem Turn.of_withdraw {r : RecordId} {S T : Sheet} (turn : Turn c (.withdraw r) S T) :
    T = S := by
  cases turn with
  | spared => rfl
  | kept how | freed how => simp at how

theorem Turn.of_parted {b : Handle} {S T : Sheet} (turn : Turn c m S T)
    (how : m = .keep b ∨ m = .free b) : Turn c (.retire b) S T := by
  cases turn with
  | spared => exact .spared
  | kept => exact .kept (.inr rfl)
  | freed => exact .freed (.inr rfl)
  | _ => simp at how

/-- The move made the cache's sheet of what it was, or the cache is new. -/
def Turns (W : World) (m : Move) (V : World) (c : CacheId) (z : Cache) : Prop :=
  (∃ y, W.store.caches.get? c = some y ∧ Turn c m (W.store.sheet c y) (V.store.sheet c z)) ∨
    W.store.caches.next ≤ c ∧ V.store.sheet c z = .blank

/-- A move turns no sheet if it leaves caches alone, and the number of buffers in use. -/
theorem Turns.of_caches (caches : V.store.caches = W.store.caches)
    (used : V.store.inUse c = W.store.inUse c) (hz : V.store.caches.get? c = some z) :
    W.Turns m V c z :=
  .inl ⟨z, caches ▸ hz, .of_eq (by rw [Store.sheet, used, Store.sheet])⟩

/-- A move that changes one cache turns its sheet, if it leaves the others' buffers in use. -/
theorem Turns.of_update {d : CacheId} {f : Cache → Cache}
    (caches : V.store.caches = W.store.caches.update d f)
    (others : ∀ c, c ≠ d → V.store.inUse c = W.store.inUse c)
    (here : ∀ y, W.store.caches.get? d = some y →
      Turn d m (W.store.sheet d y) (V.store.sheet d (f y)))
    (hz : V.store.caches.get? c = some z) : W.Turns m V c z := by
  obtain ⟨y, hy, rfl⟩ := Store.get?_of_update caches hz
  refine .inl ⟨y, hy, ?_⟩
  by_cases same : c = d
  · subst same
    simpa using here y hy
  · exact .of_eq (by rw [if_neg same, Store.sheet, others c same, Store.sheet])

/-- The same, if all caches keep the number of their buffers in use. -/
theorem Turns.of_counts {d : CacheId} {f : Cache → Cache}
    (caches : V.store.caches = W.store.caches.update d f)
    (used : ∀ c, V.store.inUse c = W.store.inUse c)
    (here : ∀ y k, W.store.caches.get? d = some y →
      Turn d m ⟨y.stats, y.reserve.slots.length, k⟩ ⟨(f y).stats, (f y).reserve.slots.length, k⟩)
    (hz : V.store.caches.get? c = some z) : W.Turns m V c z :=
  .of_update caches (fun c _ => used c) (fun y hy => by
    rw [Store.sheet, Store.sheet, used]
    exact here y _ hy) hz

/-- The same, if one buffer of the cache comes into use. -/
theorem Turns.of_taken {d : CacheId} {f : Cache → Cache}
    (caches : V.store.caches = W.store.caches.update d f)
    (used : ∀ c, V.store.inUse c = W.store.inUse c + if c = d then 1 else 0)
    (here : ∀ y k, W.store.caches.get? d = some y →
      Turn d m ⟨y.stats, y.reserve.slots.length, k⟩
        ⟨(f y).stats, (f y).reserve.slots.length, k + 1⟩)
    (hz : V.store.caches.get? c = some z) : W.Turns m V c z :=
  .of_update caches (fun c other => by rw [used, if_neg other, add_zero]) (fun y hy => by
    rw [Store.sheet, Store.sheet, used, if_pos rfl]
    exact here y _ hy) hz

/-- The same, if one buffer of the cache goes out of use. -/
theorem Turns.of_parted {d : CacheId} {f : Cache → Cache}
    (caches : V.store.caches = W.store.caches.update d f)
    (used : ∀ c, V.store.inUse c + (if c = d then 1 else 0) = W.store.inUse c)
    (here : ∀ y k, W.store.caches.get? d = some y →
      Turn d m ⟨y.stats, y.reserve.slots.length, k + 1⟩
        ⟨(f y).stats, (f y).reserve.slots.length, k⟩)
    (hz : V.store.caches.get? c = some z) : W.Turns m V c z :=
  .of_update caches (fun c other => by rw [← used, if_neg other, add_zero]) (fun y hy => by
    rw [Store.sheet, Store.sheet, ← used, if_pos rfl]
    exact here y _ hy) hz

/-- Tearing a cache down ends idle buffers only. -/
theorem Sound.inUse_tornDown (h : W.Sound) {d : CacheId} (hz : W.store.caches.get? d = some z)
    (c : CacheId) : (W.store.tornDown d z).inUse c = W.store.inUse c := by
  refine (Store.inUse_withoutAll (fun r hr x hx => ?_) c).trans (Store.inUse_unmarkAll ..)
  obtain ⟨y, hy, -, -, image, -⟩ := h.idle_of_slot hz hr
  rw [Store.get?_records_unmarkAll, hy] at hx
  split at hx <;> cases hx <;> exact image

/-- Emptying a reserve ends idle buffers only. -/
theorem Sound.inUse_emptied (h : W.Sound) {d : CacheId} (hz : W.store.caches.get? d = some z)
    (c : CacheId) : (W.store.emptied d z).inUse c = W.store.inUse c := by
  refine Store.inUse_withoutAll (w := W.store.setCache d _) (fun r hr x hx => ?_) c
  obtain ⟨y, hy, -, -, image, -⟩ := h.idle_of_slot hz hr
  obtain rfl := Option.some.inj (hy.symm.trans hx)
  exact image

/-- What a move makes of the sheet of a cache. -/
theorem Step.turn (move : Step m W V) (sound : W.Sound) (rooted : W.store.Rooted)
    (hz : V.store.caches.get? c = some z) : W.Turns m V c z := by
  induction move generalizing z with
  | retain hx =>
    exact .of_caches rfl (by refine Store.inUse_setRecord_of_same hx ?_ ?_ c <;> rfl) hz
  | letGo held hx =>
    exact .of_caches rfl (by refine Store.inUse_setRecord_of_same hx ?_ ?_ c <;> rfl) hz
  | @publish W b x s held hx undone hs =>
    refine .of_counts (Store.caches_count_setCache ..) (fun c => ?_) (fun y k hy => ?_) hz
    · refine Store.inUse_setRecord_of_same (w := W.store.setCache b.cache _) hx ?_ ?_ c <;> rfl
    · obtain rfl := Option.some.inj (hs.symm.trans hy)
      exact .published rfl
  | @withdraw W r x s k hx done image hs =>
    refine .of_counts (Store.caches_setCache ..) (fun c => ?_) (fun y k hy => ?_) hz
    · refine Store.inUse_setRecord_of_same (w := W.store.setCache x.origin _) hx ?_ ?_ c <;> rfl
    · obtain rfl := Option.some.inj (hs.symm.trans hy)
      exact .spared
  | @refit W r x area newBlock w hx undone sole fits =>
    have caches : w.caches = W.store.caches := by cases fits <;> rfl
    refine .of_counts (by rw [← caches]; exact Store.caches_count ..) (fun c => fits.inUse hx c)
      (fun y k hy => .renewed newBlock) hz
  | @refitFailed W r x area e w hx undone sole fails =>
    have caches : w.caches = W.store.caches := by cases fails <;> rfl
    exact .of_caches caches (fails.inUse hx c) hz
  | @write W b x y n fill held hx written =>
    obtain ⟨-, -, block, -, rfl⟩ := Record.write_eq written
    exact .of_caches rfl (by refine Store.inUse_setRecord_of_same hx ?_ ?_ c <;> rfl) hz
  | @reuse W c s r rest x i hs top hx =>
    obtain ⟨y, hy, -, rfl, image, -⟩ := sound.idle_of_slot (r := r) hs (by simp [top])
    obtain rfl := Option.some.inj (hx.symm.trans hy)
    refine .of_taken (Store.caches_count_setCache ..) (fun d => ?_) (fun y k hy => ?_) hz
    · exact Store.inUse_taken (w := (W.store.setCache x.origin _).count x.origin .addReused) hx
        image i d
    · obtain rfl := Option.some.inj (hs.symm.trans hy)
      rw [top]
      exact .reused
  | @make W d s i hs empty =>
    refine .of_taken (Store.caches_count ..) (fun d => ?_) (fun y k hy => ?_) hz
    · rw [Store.inUse, Table.total_add, add_comm, Record.uses_of_used rfl]
      rfl
    · obtain rfl := Option.some.inj (hs.symm.trans hy)
      rw [empty]
      exact .made
  | @keep W H b x s held hx undone last hs room =>
    obtain ⟨origin, image⟩ := (sound.at_record hx).holders b (by simp [held]) rfl
    refine .of_parted (Store.caches_count_setCache ..) (Store.inUse_parked hx image origin)
      (fun y k hy => ?_) hz
    obtain rfl := Option.some.inj (hs.symm.trans hy)
    exact .kept (.inl rfl)
  | @free W H b x s held hx undone last hs full =>
    obtain ⟨origin, image⟩ := (sound.at_record hx).holders b (by simp [held]) rfl
    exact .of_parted (f := fun y => { y with stats := y.stats.addFreed })
      (by simp [Store.crowdedOut]) (Store.inUse_without_of_used
        (w := (W.store.count b.cache .addFreed).emit (.reserveFull b.cache x.capacity)) hx image
        origin) (fun _ _ _ => .freed (.inl rfl)) hz
  | @outlive W H b x held hx undone last dead =>
    obtain ⟨origin, image⟩ := (sound.at_record hx).holders b (by simp [held]) rfl
    have caches : ((W.store.emit (.outlivedCache b.image)).without b.record).caches
        = W.store.caches := by simp
    have gone := Store.inUse_without_of_used (w := W.store.emit (.outlivedCache b.image)) hx image
      origin c
    have other : c ≠ b.cache := by
      rintro rfl
      simp [dead] at hz
    rw [if_neg other, add_zero] at gone
    exact .of_caches caches gone hz
  | @discard W H b x area e held hx undone last =>
    obtain ⟨origin, image⟩ := (sound.at_record hx).holders b (by simp [held]) rfl
    exact .of_parted (f := fun y => { y with stats := y.stats.addFailure }) (by simp)
      (Store.inUse_without_of_used (w := (W.store.count b.cache .addFailure).emit
        (.acquisitionFailed b.cache b.image area e)) hx image origin) (fun _ _ _ => .failed) hz
  | @retire W V W' b m withdrawn parted how withdraws parts =>
    rcases parts (sound.step withdrawn) (withdrawn.rooted rooted) hz
      with ⟨y, hy, turn⟩ | ⟨new, blank⟩
    · rcases withdraws sound rooted hy with ⟨x, hx, spared⟩ | ⟨new, blank⟩
      · exact .inl ⟨x, hx, spared.of_withdraw ▸ turn.of_parted how⟩
      · have below := Table.lt_next_of_get? hy
        cases withdrawn with
        | withdraw => exact absurd new (Nat.not_le.2 below)
    · exact .inr ⟨withdrawn.next_caches_le.trans new, blank⟩
  | @addCache W t config a known =>
    rw [Store.createCache, Store.caches_emit, Table.get?_add] at hz
    split at hz
    · next new =>
      subst new
      cases hz
      exact .inr ⟨le_refl _, congrArg (Sheet.mk {} 0) rooted.inUse_next⟩
    · exact .inl ⟨z, hz, .spared⟩
  | @share W d alive =>
    exact .of_counts (Store.caches_addOwner ..) (fun _ => rfl) (fun _ _ _ => .spared) hz
  | @unshare W O d s held hs more =>
    refine .of_counts (Store.caches_setCache ..) (fun _ => rfl) (fun y k hy => ?_) hz
    obtain rfl := Option.some.inj (hs.symm.trans hy)
    exact .spared
  | @tally W d f =>
    exact .of_counts (Store.caches_count ..) (fun _ => rfl) (fun _ _ _ => .tallied) hz
  | @tearDown W O d s held hs last =>
    have alive : W.store.caches.get? c = some z := by
      rw [Store.caches_tornDown, Table.get?_erase] at hz
      exact (Option.ite_none_left_eq_some.1 hz).2
    exact .inl ⟨z, alive, .of_eq (by rw [Store.sheet, sound.inUse_tornDown hs, Store.sheet])⟩
  | @emptyReserve W d s hs =>
    refine .of_counts (Store.caches_emptied ..) (sound.inUse_emptied hs) (fun y k hy => ?_) hz
    obtain rfl := Option.some.inj (hs.symm.trans hy)
    exact .emptied
  | _ => exact .of_caches rfl rfl hz

end World

/-! ## 3. Values of caches -/

namespace Store

variable {u v w : Store} {c : CacheId} {value : Store → CacheId → Cache → Int}
  {d e : CacheId → Int}

/-- A value of caches: `v` has, for every cache of `w` that is left, what `w` has and `d` more, and
nothing for the new ones. -/
structure Adds (value : Store → CacheId → Cache → Int) (d : CacheId → Int) (w v : Store) :
    Prop where
  rooted : v.Rooted
  later : w.caches.next ≤ v.caches.next
  values : ∀ c z, v.caches.get? c = some z →
    (∃ y, w.caches.get? c = some y ∧ value v c z = value w c y + d c) ∨
    w.caches.next ≤ c ∧ value v c z = 0

namespace Adds

theorem refl (value : Store → CacheId → Cache → Int) (rooted : w.Rooted) : Adds value 0 w w :=
  ⟨rooted, le_refl _, fun _ z hz => .inl ⟨z, hz, (add_zero _).symm⟩⟩

/-- A change of one cache adds to the value of that cache. -/
theorem of_update {f : Cache → Cache} (caches : v.caches = w.caches.update c f) (rooted : v.Rooted)
    (here : ∀ y, w.caches.get? c = some y → value v c (f y) = value w c y + d c)
    (others : ∀ e z, e ≠ c → value v e z = value w e z ∧ d e = 0) : Adds value d w v where
  rooted := rooted
  later := by rw [caches, Table.next_update]
  values e z hz := by
    obtain ⟨y, hy, rfl⟩ := get?_of_update caches hz
    refine .inl ⟨y, hy, ?_⟩
    by_cases same : e = c
    · subst same
      simpa using here y hy
    · obtain ⟨kept, none⟩ := others e y same
      rw [if_neg same, kept, none, add_zero]

/-- What is added in turn is added together, if nothing is added for caches that were new. -/
theorem trans (h : Adds value d w v) (h' : Adds value e v u)
    (old : ∀ c, w.caches.next ≤ c → e c = 0) : Adds value (d + e) w u where
  rooted := h'.rooted
  later := h.later.trans h'.later
  values c z hz := by
    rcases h'.values c z hz with ⟨y, hy, here⟩ | ⟨new, none⟩
    · rcases h.values c y hy with ⟨x, hx, before⟩ | ⟨new, none⟩
      · exact .inl ⟨x, hx, by rw [here, before, Pi.add_apply, add_assoc]⟩
      · exact .inr ⟨new, by rw [here, none, old c new, add_zero]⟩
    · exact .inr ⟨h.later.trans new, none⟩

theorem trans_zero (h : Adds value d w v) (h' : Adds value 0 v u) : Adds value d w u :=
  add_zero d ▸ h.trans h' fun _ _ => rfl

/-- What adds nothing adds any number that is zero for all caches. -/
theorem of_zero (h : Adds value 0 w v) (none : ∀ c, d c = 0) : Adds value d w v :=
  funext none ▸ h

end Adds

end Store

namespace World

variable {W V : World} {m : Move} {f : Sheet → Int}

/-- A move adds nothing to a value that shows none of the turns it can make. -/
theorem Step.adds (move : Step m W V) (sound : W.Sound) (rooted : W.store.Rooted)
    (blank : f .blank = 0) (same : ∀ c S T, Turn c m S T → f T = f S) :
    W.store.Adds (Store.shows f) 0 V.store where
  rooted := move.rooted rooted
  later := move.next_caches_le
  values c z hz := by
    rcases move.turn sound rooted hz with ⟨y, hy, turn⟩ | ⟨new, none⟩
    · exact .inl ⟨y, hy, (same c _ _ turn).trans (add_zero _).symm⟩
    · exact .inr ⟨new, (congrArg f none).trans blank⟩

theorem Reaches.adds {P : Move → Prop} (moves : W.Reaches P V) (sound : W.Sound)
    (rooted : W.store.Rooted) (blank : f .blank = 0)
    (same : ∀ m, P m → ∀ c S T, Turn c m S T → f T = f S) :
    W.store.Adds (Store.shows f) 0 V.store := by
  have kept := moves.keeps (I := fun V => V.Sound ∧ W.store.Adds (Store.shows f) 0 V.store)
    (fun m V V' allowed move ⟨sound, adds⟩ => ⟨sound.step move,
      adds.trans_zero (move.adds sound adds.rooted blank (same m allowed))⟩)
    ⟨sound, .refl _ rooted⟩
  exact kept.2

end World

end PixelPool
