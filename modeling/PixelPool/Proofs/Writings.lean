import PixelPool.Proofs.Swaps

/-!
Which bytes of a buffer are still those that its holder wrote.

An act that does not write a buffer leaves its storage as it is, loses it, or replaces it by a block
of zeros where it was too small for the pixels (`Record.Reshaped`). Only an act that moves the
buffer can do the latter two, and then only in one of the ways in which a resize ends; every other
part of such an act leaves the content of what stays in use alone (`Move.Leaves`). Main statement:
`Session.Sound.step_reshaped`. So what was written stays as long as the pixels take no more bytes
than the buffer was seen to hold (`Session.Written`).
-/

namespace PixelPool

variable {r : RecordId} {x y z : Record} {k : Content}

/-! ## 1. Moves that leave a buffer alone -/

/-- The move does not change the area or the storage of a buffer, but may end its use. -/
def Move.Leaves (r : RecordId) (m : Move) : Prop :=
  m ≠ .withdraw r ∧ m ≠ .refit r ∧ m ≠ .write r ∧ ∀ b : Handle, b.record = r → m ≠ .take b

theorem Move.Quiet.leaves {m : Move} (quiet : m.Quiet) (r : RecordId) : m.Leaves r := by
  refine ⟨?_, ?_, ?_, fun b _ => ?_⟩ <;> rintro rfl <;> exact quiet

theorem Fate.of_leaves {m : Move} {o after : Option Record} (h : Fate m r o after)
    (leaves : m.Leaves r) :
    ∀ y ∈ after, y.image ≠ none → ∃ x ∈ o, x.image ≠ none ∧ x.content = y.content := by
  obtain ⟨unwithdrawn, unmoved, unwritten, untaken⟩ := leaves
  cases h with
  | withdrawn => exact absurd rfl unwithdrawn
  | refitted => exact absurd rfl unmoved
  | written => exact absurd rfl unwritten
  | taken | made => exact absurd rfl (untaken _ rfl)
  | spared => exact fun y hy used => ⟨y, hy, used, rfl⟩
  | counted | published | unmarked =>
    rintro y ⟨⟩ used
    exact ⟨_, rfl, used, rfl⟩
  | parked =>
    rintro y ⟨⟩ used
    exact absurd rfl used
  | retired kept => exact fun y hy used => absurd (kept y hy ▸ rfl) used
  | ended => nofun

/-- A buffer is in use and has the content `k`. -/
def Store.Holds (w : Store) (r : RecordId) (k : Content) : Prop :=
  ∃ x, w.records.get? r = some x ∧ x.image ≠ none ∧ x.content = k

/-- A buffer that is in use after moves that leave it alone was so before them. -/
theorem World.Sound.holds_of_reaches {W V : World} (h : W.Sound)
    (moves : W.Reaches (Move.Leaves r) V) (holds : V.store.Holds r k) : W.store.Holds r k := by
  have kept := moves.keeps (I := fun V => V.Sound ∧ (V.store.Holds r k → W.store.Holds r k))
    (fun m V V' leaves move ⟨sound, back⟩ => ⟨sound.step move, fun ⟨y, hy, used, same⟩ => ?_⟩)
    ⟨h, id⟩
  · exact kept.2 holds
  · obtain ⟨x, hx, used, same'⟩ := (move.fate sound r).of_leaves leaves y hy used
    exact back ⟨x, hx, used, same'.trans same⟩

/-- A buffer in use is not what a cache takes. -/
theorem World.Sound.allowsTaking_leaves {W : World} (h : W.Sound)
    (hx : W.store.records.get? r = some x) (used : x.image ≠ none) (c : CacheId) :
    W.store.AllowsTaking c (Move.Leaves r) where
  takes j available := by
    have other : j ≠ r := by
      rintro rfl
      rcases available with shelved | rfl
      · obtain ⟨y, hy, -, -, image, -⟩ := h.idle_of_shelved shelved
        obtain rfl := Option.some.inj (hx.symm.trans hy)
        exact used image
      · simp at hx
    refine ⟨fun b hb => ⟨nofun, nofun, nofun, ?_⟩, nofun, ?_, nofun, nofun⟩
    · rintro _ hr ⟨⟩
      exact other (hb.symm.trans hr)
    · rintro ⟨⟩
      exact other rfl
  counts _ _ := ⟨nofun, nofun, nofun, nofun⟩

/-! ## 2. Storage -/

/-- What becomes of the storage of a buffer that is in use before and after: it stays, it is lost,
or a block of zeros is in its place, since it was too small for the pixels. -/
inductive Record.Reshaped (x y : Record) : Prop where
  | kept (same : y.storage = x.storage)
  | lost (none : y.storage = none)
  | renewed (small : ∀ b, x.storage = some b → b.size < y.contentSize)
      (zeros : y.storage = some (.zeroed y.contentSize))

namespace Record

theorem contentSize_of_content (same : y.content = z.content) : y.contentSize = z.contentSize := by
  have bytesPerPixel : y.bytesPerPixel = z.bytesPerPixel := congrArg Content.bytesPerPixel same
  rw [contentSize, contentSize, area_of_content same, bytesPerPixel]

theorem Reshaped.of_content (h : x.Reshaped y) (same : y.content = z.content) : x.Reshaped z := by
  have storage := storage_of_content same
  cases h with
  | kept same' => exact .kept (storage ▸ same')
  | lost none => exact .lost (storage ▸ none)
  | renewed small zeros =>
    rw [contentSize_of_content same] at small zeros
    exact .renewed small (storage ▸ zeros)

theorem Reshaped.of_kept (same : y.content = x.content) : x.Reshaped y :=
  .kept (storage_of_content same)

end Record

namespace Store

variable {w v : Store} {b : Handle} {area : Rect}

/-- A record that was moved, or could not be. -/
theorem Fits.reshaped {outcome : Except StorageError Bool} (fits : w.Fits r x area outcome v)
    (hx : w.records.get? r = some x) (hy : v.records.get? r = some y) :
    x.Reshaped y ∧ ∀ e, outcome = .error e → y.storage = x.storage ∨ y.storage = none := by
  cases fits with
  | invalid =>
    obtain rfl := Option.some.inj (hx.symm.trans hy)
    exact ⟨.kept rfl, fun _ _ => .inl rfl⟩
  | kept =>
    obtain rfl : { x with area } = y := by simpa [Table.get?_update, hx] using hy
    exact ⟨.kept rfl, nofun⟩
  | renewed size lacking source granted =>
    obtain ⟨rfl, -⟩ := Allocator.allocate_eq_ok granted
    obtain rfl : { x with area, storage := some (.zeroed _) } = y := by
      simpa [Table.get?_update, hx] using hy
    refine ⟨.renewed ?_ ?_, nofun⟩
    · simpa [Record.contentSize, size] using lacking_iff.1 lacking
    · simp [Record.contentSize, size]
  | lost =>
    obtain rfl : { x with area := .zero, storage := none } = y := by
      simpa [Table.get?_update, hx] using hy
    exact ⟨.lost rfl, fun _ _ => .inr rfl⟩

/-- A buffer that stays in use when a handle on it is given up keeps its content. -/
theorem Parted.content_eq (h : Parted w b x v) (hx : w.records.get? b.record = some x)
    (hy : v.records.get? b.record = some y) (used : y.image ≠ none) : y.content = x.content := by
  cases h with
  | more =>
    obtain rfl : { x with references := x.references - 1 } = y := by
      simpa [Table.get?_update, hx] using hy
    rfl
  | kept last withdrawn =>
    obtain rfl : Record.parked _ = y := by
      simpa [shelved, Table.get?_update, withdrawn.get? hx] using hy
    exact absurd rfl used
  | freed => simp [crowdedOut, get?_records_without] at hy
  | outlived => simp [get?_records_without] at hy

end Store

/-! ## 3. Resizes and exchanges -/

namespace World.Sound

variable {W : World} {b : Handle} {c : CacheId} {i : Image} {area : Rect} {v : Store}

/-- A resize reshapes its buffer; if it is refused, the storage stays or is lost. -/
theorem resize_reshaped (h : W.Sound) (held : b ∈ W.handles) {viewHeld : Bool}
    {outcome : Except Refusal Unit}
    (run : W.store.resize c b area viewHeld = .ok (outcome, v))
    (hx : W.store.records.get? b.record = some x) (hy : v.records.get? b.record = some y) :
    x.Reshaped y ∧ ∀ e, outcome = .error e → y.storage = x.storage ∨ y.storage = none := by
  have untouched : v = W.store →
      x.Reshaped y ∧ ∀ e, outcome = .error e → y.storage = x.storage ∨ y.storage = none := by
    rintro rfl
    obtain rfl := Option.some.inj (hx.symm.trans hy)
    exact ⟨.kept rfl, fun _ _ => .inl rfl⟩
  by_cases foreign : b.cache ≠ c
  · simp only [Store.resize, if_pos foreign] at run
    exact untouched (congrArg Prod.snd (Except.ok.inj run)).symm
  obtain rfl := not_not.1 foreign
  by_cases shared : x.references ≠ 1
  · simp only [Store.resize, if_neg foreign, Store.record_of_get? hx, Fault.ok_bind,
      if_pos shared] at run
    exact untouched (congrArg Prod.snd (Except.ok.inj run)).symm
  have sole := not_not.1 shared
  by_cases viewed : Store.Viewed viewHeld x area
  · obtain ⟨z, u, withdrawn, withdraws⟩ := h.withdraw_own held hx
    rw [Store.resize_of_viewed hx sole withdraws viewed] at run
    obtain ⟨-, rfl⟩ := Prod.mk.inj (Except.ok.inj run)
    obtain rfl := Option.some.inj ((withdrawn.get? hx).symm.trans hy)
    obtain ⟨-, -, -, -, -, -, storage⟩ := withdrawn.same
    exact ⟨.kept storage, fun _ _ => .inl storage⟩
  · obtain ⟨z, u, moved, u', withdrawn, fits, run'⟩ := h.resize_eq held hx sole area
    rw [Store.resize_of_unviewed hx viewed, run'] at run
    have records : v.records = u'.records := by
      cases moved <;> obtain ⟨-, rfl⟩ := Prod.mk.inj (Except.ok.inj run) <;> rfl
    obtain ⟨-, -, -, -, -, -, storage⟩ := withdrawn.same
    obtain ⟨reshaped, failed⟩ := fits.reshaped (withdrawn.get? hx) (records ▸ hy)
    refine ⟨?_, fun e he => ?_⟩
    · cases reshaped with
      | kept same => exact .kept (same.trans storage)
      | lost none => exact .lost none
      | renewed small zeros => exact .renewed (storage ▸ small) zeros
    · cases moved with
      | ok =>
        obtain ⟨rfl, -⟩ := Prod.mk.inj (Except.ok.inj run)
        cases he
      | error e' => exact storage ▸ failed e' rfl

/-- An exchange leaves the old buffer alone if it stays in use, or reshapes it. -/
theorem exchange_reshaped (h : W.Sound) (owned : c ∈ W.shares) (held : b ∈ W.handles)
    {outcome : Except Refusal Handle}
    (run : W.store.exchange c (some b) i area = .ok (outcome, v))
    (hx : W.store.records.get? b.record = some x) (hy : v.records.get? b.record = some y)
    (used : y.image ≠ none) : x.Reshaped y := by
  obtain ⟨u, parted, dropped⟩ := h.dropHandle_eq held hx
  by_cases foreign : b.cache ≠ c
  · simp only [Store.exchange, if_pos foreign] at run
    rw [dropped] at run
    obtain ⟨-, rfl⟩ := Prod.mk.inj (Except.ok.inj run)
    exact .of_kept (parted.content_eq hx hy used)
  by_cases other : b.image ≠ i.key
  · simp only [Store.exchange, if_neg foreign, if_pos other] at run
    rw [dropped] at run
    obtain ⟨-, rfl⟩ := Prod.mk.inj (Except.ok.inj run)
    exact .of_kept (parted.content_eq hx hy used)
  obtain rfl := not_not.1 foreign
  obtain ⟨s, hs, -⟩ := h.exists_cache owned
  obtain ⟨outcome', v', run', swaps⟩ := h.exchangeSome_swaps hs held (not_not.1 other) area
  obtain ⟨rfl, rfl⟩ := Prod.mk.inj (Except.ok.inj (run'.symm.trans run))
  have inUse : x.image ≠ none := by simp [((h.at_record hx).holders b held rfl).2]
  cases swaps with
  | kept =>
    obtain rfl := Option.some.inj (hx.symm.trans hy)
    exact .kept rfl
  | @found j z _ outside hit hz left =>
    have other : b.record ≠ j := by
      rintro rfl
      have encloses := (Store.mem_of_hit? hit).2
      simp [outside b rfl] at encloses
    cases left with
    | handle hx' parted =>
      rw [Store.get?_hitAt_of_ne _ _ _ other] at hx'
      obtain rfl := Option.some.inj (hx.symm.trans hx')
      exact .of_kept (parted.content_eq ((Store.get?_hitAt_of_ne _ _ _ other).trans hx) hy used)
  | moved given _ _ _ _ resized =>
    obtain rfl := Option.some.inj given
    exact (h.resize_reshaped held resized hx (by simpa using hy)).1
  | refused given _ _ _ _ resized left =>
    obtain rfl := Option.some.inj given
    cases left with
    | handle hz parted =>
      obtain same | none := (h.resize_reshaped held resized hx hz).2 _ rfl
      · exact .kept ((Record.storage_of_content (parted.content_eq hz hy used)).trans same)
      · exact .lost ((Record.storage_of_content (parted.content_eq hz hy used)).trans none)
  | missed _ _ shared left sound hs acquired =>
    have many : 1 < x.references := by
      have positive := (h.at_record hx).bound.not.1 inUse
      have sole := shared b rfl
      rw [Store.referencesOf_of_get? hx] at sole
      omega
    have fewer := left.get?_of_shared hx many
    have kept := sound.acquire_get? (y := { x with references := x.references - 1 }) hs acquired
      fewer inUse
    obtain rfl := Option.some.inj (kept.symm.trans hy)
    exact .kept rfl

end World.Sound

/-! ## 4. Acts -/

namespace Session

variable {s : Session} {out : Multiset Loan} {act : Act} {name : String} {p : Answer × Session}
  {b : Handle}

/-- Naming what an operation gave leaves what stays in use alone. -/
theorem holds_of_nameOutcome {outcome : Except Refusal Handle}
    (h : ({ s.world out with handles := World.given outcome + s.handles } : World).Sound)
    (run : s.nameOutcome name outcome = .ok p) (holds : p.2.store.Holds r k) :
    s.store.Holds r k := by
  cases outcome with
  | error e =>
    obtain rfl := Except.ok.inj run
    exact holds
  | ok b =>
    rw [World.given_ok, Multiset.singleton_add] at h
    obtain ⟨s', V, named, moves, rfl, -⟩ :=
      nameHandle_does h (P := Move.Leaves r) (fun m quiet => quiet.leaves r) name
    unfold nameOutcome at run
    cases view : handleView s.store b with
    | error => simp [view] at run
    | ok shown =>
      simp only [view, named, Fault.ok_bind] at run
      obtain rfl := Except.ok.inj run
      exact h.holds_of_reaches moves holds

/-- What an operation made of a buffer is not changed by naming what it gave. -/
theorem reshaped_of_nameOutcome {outcome : Except Refusal Handle}
    (h : ({ s.world out with handles := World.given outcome + s.handles } : World).Sound)
    (run : s.nameOutcome name outcome = .ok p)
    (reshaped : ∀ z, s.store.records.get? r = some z → z.image ≠ none → x.Reshaped z)
    (hy : p.2.store.records.get? r = some y) (used : y.image ≠ none) : x.Reshaped y := by
  obtain ⟨z, hz, used, same⟩ := holds_of_nameOutcome h run ⟨y, hy, used, rfl⟩
  exact (reshaped z hz used).of_content same

theorem Sound.reshaped_of_resize (h : s.Sound out) {cache buffer : String} {area : Rect}
    {viewHeld : Bool} (found : s.frame.handles.get? buffer = some b)
    (run : s.perform (.resize cache buffer area viewHeld) = .ok p)
    (hx : s.store.records.get? b.record = some x) (hy : p.2.store.records.get? b.record = some y) :
    x.Reshaped y := by
  simp only [perform, withCache, withHandle, found] at run
  split at run
  · next c hc =>
    cases resized : s.store.resize c b area viewHeld with
    | error => simp [resized] at run
    | ok a =>
      rw [resized] at run
      obtain rfl := Except.ok.inj run
      exact (h.world.resize_reshaped (W := s.world out) (mem_handles found) resized hx hy).1
  · obtain rfl := Except.ok.inj run
    obtain rfl := Option.some.inj (hx.symm.trans hy)
    exact .kept rfl

theorem Sound.reshaped_of_exchange (h : s.Sound out) {cache image buffer : String} {area : Rect}
    (found : s.frame.handles.get? buffer = some b)
    (run : s.perform (.exchange cache image area (some buffer) name) = .ok p)
    (hx : s.store.records.get? b.record = some x) (hy : p.2.store.records.get? b.record = some y)
    (used : y.image ≠ none) : x.Reshaped y := by
  have untouched : p.2 = s → x.Reshaped y := by
    rintro rfl
    obtain rfl := Option.some.inj (hx.symm.trans hy)
    exact .kept rfl
  simp only [perform, withCache, withImage, withHandle?, withHandle, found] at run
  split at run
  · next c hc =>
    split at run
    · next i hi =>
      have held := s.handles_forget (some buffer)
      have given : s.handle? (some buffer) = some b := found
      rw [given] at held
      have does : (s.world out).Does (fun _ => True) (s.store.exchange c (some b) i area) _ :=
        World.exchange_does h.world World.any_quiet (mem_shares hc) held
          (World.allowsTaking_any _ _) fun _ _ _ _ _ => ⟨trivial, trivial⟩
      obtain ⟨⟨outcome, w⟩, V, exchanged, moves, rfl, -⟩ := does
      have sound := h.world.reaches moves
      rw [world_forget s (some buffer)] at sound
      rw [exchanged] at run
      exact reshaped_of_nameOutcome (s := (s.forgetHandle? (some buffer)).withStore w) sound run
        (fun z hz used => h.world.exchange_reshaped (W := s.world out) (mem_shares hc)
          (mem_handles found) exchanged hx hz used) hy used
    · exact untouched (congrArg Prod.snd (Except.ok.inj run)).symm
  · exact untouched (congrArg Prod.snd (Except.ok.inj run)).symm

/-- An exchange on a thread leaves the old buffer alone, as that of its cache does, or because the
cache is gone and nothing is moved. -/
theorem Sound.exchangeHere_reshaped (h : s.Sound out) {i : Image} {area : Rect}
    {result : (Except Refusal Handle × Thread) × Store} (held : b ∈ s.handles)
    (run : s.frame.thread.exchange s.store (some b) i area = .ok result)
    (hx : s.store.records.get? b.record = some x) (used : x.image ≠ none)
    (hy : result.2.records.get? b.record = some y) (used' : y.image ≠ none) : x.Reshaped y := by
  by_cases alive : s.store.isAlive b.cache = true
  · simp only [Thread.exchange, Option.filter_some, alive, if_true] at run
    cases own : s.store.exchange b.cache (some b) i area with
    | error => simp [own] at run
    | ok a =>
      rw [own] at run
      obtain rfl := Except.ok.inj run
      exact h.world.exchange_reshaped (W := s.world out) (h.world.alive_iff.1 alive) held own hx hy
        used'
  · obtain ⟨H, others⟩ := Multiset.exists_cons_of_mem held
    have leaves : (s.world out).Does (Move.Leaves b.record)
        (s.frame.thread.exchange s.store (some b) i area) _ :=
      World.exchangeHere_does h.world (fun _ quiet => quiet.leaves _) s.frame.thread others
        s.shares_eq (h.world.allowsTaking_leaves (W := s.world out) hx used)
        fun d given lives => by
          obtain rfl := Option.some.inj given
          exact absurd lives alive
    obtain ⟨a, V, run', moves, rfl, -⟩ := leaves
    obtain rfl := Except.ok.inj (run.symm.trans run')
    obtain ⟨x', hx', -, same⟩ := h.world.holds_of_reaches moves ⟨y, hy, used', rfl⟩
    obtain rfl := Option.some.inj (hx.symm.trans hx')
    exact .of_kept same.symm

theorem Sound.reshaped_of_exchangeOwn (h : s.Sound out) {image buffer : String} {area : Rect}
    (found : s.frame.handles.get? buffer = some b)
    (run : s.perform (.exchangeOwn image area (some buffer) name) = .ok p)
    (hx : s.store.records.get? b.record = some x) (used : x.image ≠ none)
    (hy : p.2.store.records.get? b.record = some y) (used' : y.image ≠ none) : x.Reshaped y := by
  simp only [perform, withImage, withHandle?, withHandle, found] at run
  split at run
  · next i hi =>
    have held := s.handles_forget (some buffer)
    have given : s.handle? (some buffer) = some b := found
    rw [given] at held
    have does : (s.world out).Does (fun _ => True)
        (s.frame.thread.exchange s.store (some b) i area) _ :=
      World.exchangeHere_does h.world World.any_quiet s.frame.thread held s.shares_eq
        (World.allowsTaking_any _) fun _ _ _ _ _ _ => ⟨trivial, trivial⟩
    obtain ⟨⟨⟨outcome, thread⟩, w⟩, V, exchanged, moves, rfl, -⟩ := does
    have sound := h.world.reaches moves
    rw [← s.shares_withThread thread] at sound
    rw [exchanged] at run
    exact reshaped_of_nameOutcome
      (s := ((s.forgetHandle? (some buffer)).withThread thread).withStore w) sound run
      (fun z hz inUse => h.exchangeHere_reshaped (mem_handles found) exchanged hx used hz inUse)
      hy used'
  · obtain rfl := Except.ok.inj run
    obtain rfl := Option.some.inj (hx.symm.trans hy)
    exact .kept rfl

/-- An act that does not write a buffer reshapes it at most. -/
theorem Sound.step_reshaped (h : s.Sound out) (act : Act) (unwritten : ¬ s.Writes act r)
    (hx : s.store.records.get? r = some x) (used : x.image ≠ none)
    (hy : (s.step act).2.store.records.get? r = some y) (used' : y.image ≠ none) :
    x.Reshaped y := by
  have run := h.perform_eq act
  by_cases moves : s.Moves act r
  · cases moves with
    | resize found => exact h.reshaped_of_resize found run hx hy
    | exchange found => exact h.reshaped_of_exchange found run hx hy used'
    | exchangeOwn found => exact h.reshaped_of_exchangeOwn found run hx used hy used'
  · refine .kept (not_not.1 fun changed => ?_)
    obtain writes | moves' | takes := h.step_storage act hx hy changed
    · exact unwritten writes
    · exact moves moves'
    · exact used (takes.idle x hx)

/-! ## 5. Bytes that were written -/

/-- From the `m`-th of the acts up to the `n`-th the buffer is in use, and its pixels take at most
`size` bytes. -/
def StaysWithin (s : Session) (acts : List Act) (r : RecordId) (size m n : Nat) : Prop :=
  ∀ k, m ≤ k → k ≤ n → ∃ x, (s.run (acts.take k)).store.records.get? r = some x ∧
    x.image ≠ none ∧ x.contentSize ≤ size

/-- The `k`-th of the acts writes the byte `i` of the pixels of a buffer. -/
def WritesByte (s : Session) (acts : List Act) (r : RecordId) (k i : Nat) : Prop :=
  ∃ act x, acts[k]? = some act ∧ (s.run (acts.take k)).Writes act r ∧
    (s.run (acts.take k)).store.records.get? r = some x ∧ i < x.contentSize

theorem run_take_succ (s : Session) {acts : List Act} {n : Nat} (found : acts[n]? = some act) :
    s.run (acts.take (n + 1)) = ((s.run (acts.take n)).step act).2 := by
  rw [List.take_add_one, found, Option.toList_some, run_append]
  rfl

theorem StaysWithin.of_le {acts : List Act} {size m n l : Nat} (h : s.StaysWithin acts r size m n)
    (less : l ≤ n) : s.StaysWithin acts r size m l :=
  fun k from' upto => h k from' (upto.trans less)

theorem writesByte_iff {acts : List Act} {k i : Nat} (found : acts[k]? = some act)
    (hx : (s.run (acts.take k)).store.records.get? r = some x) :
    s.WritesByte acts r k i ↔ (s.run (acts.take k)).Writes act r ∧ i < x.contentSize := by
  refine ⟨fun ⟨act', x', found', writes, hx', below⟩ => ?_, fun ⟨writes, below⟩ =>
    ⟨act, x, found, writes, hx, below⟩⟩
  obtain rfl := Option.some.inj (found.symm.trans found')
  obtain rfl := Option.some.inj (hx.symm.trans hx')
  exact ⟨writes, below⟩

/-- What a writing of pixels leaves of its buffer. -/
theorem get?_step_writePixels {buffer : String} (fill : Nat → UInt8)
    (found : s.frame.handles.get? buffer = some b)
    (hx : s.store.records.get? b.record = some x) :
    (s.step (.writePixels buffer fill)).2.store.records.get? b.record
      = some ((x.write fill).elim x Prod.snd) := by
  have run : s.perform (.writePixels buffer fill) = s.writePixels b fill := by
    simp only [perform, withHandle, found]
  unfold step
  rw [run, writePixels, Store.record_of_get? hx, Fault.ok_bind]
  cases x.write fill with
  | none => exact hx
  | some written => simp [withStore, Table.get?_update, hx]

end Session

end PixelPool
