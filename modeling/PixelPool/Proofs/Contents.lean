import PixelPool.Proofs.Runs

/-!
What a buffer holds, and when that changes.

The content of a buffer is its area, its bytes per pixel, and its storage to the byte. `Fate` says
what a move can make of a record, and `World.Step.fate` that moves make nothing else of it. From it
follow, for a whole act, that a published buffer keeps its content until it is withdrawn
(`Session.Sound.step_published`), that only publishing makes a buffer published
(`Session.Sound.step_undone`), and that only writing and moving change stored bytes
(`Session.Sound.step_storage`). Main statement: `Session.content_since_publish`, which follows a
published buffer back to the act that published it last.
-/

namespace PixelPool

/-! ## 1. Content -/

/-- What can be seen through a handle on a buffer, with the storage behind it. -/
structure Content where
  area : Rect
  bytesPerPixel : Nat
  storage : Option Block

namespace Record

/-- The content of a record. -/
def content (x : Record) : Content := ⟨x.area, x.bytesPerPixel, x.storage⟩

variable {x y : Record}

theorem area_of_content (same : x.content = y.content) : x.area = y.area :=
  congrArg Content.area same

theorem storage_of_content (same : x.content = y.content) : x.storage = y.storage :=
  congrArg Content.storage same

theorem capacity_of_content (same : x.content = y.content) : x.capacity = y.capacity := by
  rw [capacity, storage_of_content same, capacity]

/-- Buffers of the same content show the same pixels, or none. -/
theorem pixels_of_content (same : x.content = y.content) : x.pixels = y.pixels := by
  have bytesPerPixel : x.bytesPerPixel = y.bytesPerPixel := congrArg Content.bytesPerPixel same
  unfold pixels contentSize
  rw [area_of_content same, storage_of_content same, bytesPerPixel]

end Record

/-! ## 2. What a move makes of a record -/

/-- `Fate m r before after`: the move `m` can make `after` of the record under `r`, which was
`before`; there may be none before or after. -/
inductive Fate : Move → RecordId → Option Record → Option Record → Prop where
  | spared {m : Move} {r : RecordId} {o : Option Record} : Fate m r o o
  | counted {m : Move} {r : RecordId} {x : Record} (n : Nat) :
      Fate m r (some x) (some { x with references := n })
  | published {b : Handle} {x : Record} (undone : x.published = false) :
      Fate (.publish b) b.record (some x) (some (x.markPublished b.cache))
  | withdrawn {r : RecordId} {x : Record} :
      Fate (.withdraw r) r (some x) (some x.unmark.withoutArea)
  | refitted {r : RecordId} {x : Record} {area : Rect} {storage : Option Block}
      (undone : x.published = false) : Fate (.refit r) r (some x) (some { x with area, storage })
  | written {r : RecordId} {x : Record} {storage : Option Block} (undone : x.published = false) :
      Fate (.write r) r (some x) (some { x with storage })
  | taken {b : Handle} {x : Record} {i : Image} (undone : x.published = false) :
      Fate (.take b) b.record (some x) (some (x.takenFor i))
  | made {b : Handle} {x : Record} {i : Image} : Fate (.take b) b.record none (some (x.takenFor i))
  | parked {b : Handle} {x : Record} (undone : x.published = false) :
      Fate (.keep b) b.record (some x) (some x.parked)
  | retired {b : Handle} {x : Record} {o : Option Record}
      (kept : ∀ y ∈ o, y = x.unmark.withoutArea.parked) :
      Fate (.retire b) b.record (some x) o
  | unmarked {r : RecordId} {x : Record} : Fate (.tearDown x.origin) r (some x) (some x.unmark)
  | ended {m : Move} {r : RecordId} {x : Record} (undone : x.published = false) :
      Fate m r (some x) none

namespace Fate

variable {m : Move} {r j : RecordId} {x y : Record} {o after : Option Record} {t : Table Record}

/-- The fate of records of which one is replaced. -/
theorem of_update (hx : t.get? j = some x) (here : Fate m j (some x) (some y)) (r : RecordId) :
    Fate m r (t.get? r) ((t.update j fun _ => y).get? r) := by
  rw [Table.get?_update]
  split
  · next same =>
    subst same
    simpa [hx] using here
  · exact .spared

/-- The fate of records of which one ends. -/
theorem of_erased {t' : Table Record} (hx : t.get? j = some x) (undone : x.published = false)
    (erased : t'.get? r = if r = j then none else t.get? r) : Fate m r (t.get? r) (t'.get? r) := by
  rw [erased]
  split
  · next same =>
    subst same
    exact hx ▸ .ended undone
  · exact .spared

/-- A published record is spared but for its references, or it is withdrawn. -/
theorem of_published (h : Fate m r (some x) after) (done : x.published = true) :
    (∃ n, after = some { x with references := n }) ∨
      (∀ y ∈ after, y.published = false) ∧ (m = .withdraw r ∨ m = .tearDown x.origin ∨
        (∃ b, m = .retire b) ∧ ∀ y ∈ after, y.image = none) := by
  cases h with
  | spared => exact .inl ⟨x.references, rfl⟩
  | counted n => exact .inl ⟨n, rfl⟩
  | withdrawn => exact .inr ⟨by simp [Record.unmark, Record.withoutArea], .inl rfl⟩
  | unmarked => exact .inr ⟨by simp [Record.unmark], .inr (.inl rfl)⟩
  | retired kept =>
    exact .inr ⟨fun y hy => kept y hy ▸ rfl, .inr (.inr ⟨⟨_, rfl⟩, fun y hy => kept y hy ▸ rfl⟩)⟩
  | published undone | refitted undone | written undone | taken undone | parked undone
  | ended undone => simp [undone] at done

/-- A record that is not published stays so unless it is published. -/
theorem of_undone (h : Fate m r o after) (undone : ∀ x ∈ o, x.published = false)
    (silent : ∀ b, b.record = r → m ≠ .publish b) : ∀ y ∈ after, y.published = false := by
  cases h with
  | published => exact absurd rfl (silent _ rfl)
  | spared => exact undone
  | counted | refitted | written | parked => simpa [Record.parked] using undone
  | withdrawn | taken | made | unmarked =>
    simp [Record.unmark, Record.withoutArea, Record.takenFor]
  | retired kept => exact fun y hy => kept y hy ▸ rfl
  | ended => simp

/-- A record that nobody uses stays so unless it is taken. -/
theorem of_unused (h : Fate m r o after) (unused : ∀ x ∈ o, x.image = none)
    (untaken : ∀ b, b.record = r → m ≠ .take b) : ∀ y ∈ after, y.image = none := by
  cases h with
  | taken | made => exact absurd rfl (untaken _ rfl)
  | spared => exact unused
  | counted | published | withdrawn | refitted | written | unmarked =>
    simpa [Record.markPublished, Record.unmark, Record.withoutArea] using unused
  | parked => simp [Record.parked]
  | retired kept => exact fun y hy => kept y hy ▸ rfl
  | ended => simp

/-- A record that is not moved, written or taken keeps its storage for as long as it is there. -/
theorem of_unmoved (h : Fate m r o after) {storage : Option Block}
    (stored : ∀ x ∈ o, x.storage = storage) (unmoved : m ≠ .refit r) (unwritten : m ≠ .write r)
    (untaken : ∀ b, b.record = r → m ≠ .take b) : ∀ y ∈ after, y.storage = storage := by
  cases h with
  | refitted => exact absurd rfl unmoved
  | written => exact absurd rfl unwritten
  | taken | made => exact absurd rfl (untaken _ rfl)
  | spared => exact stored
  | counted | published | withdrawn | parked | unmarked =>
    simpa [Record.markPublished, Record.unmark, Record.withoutArea, Record.parked] using stored
  | @retired b x o kept => exact fun y hy => kept y hy ▸ stored x rfl
  | ended => simp

end Fate

/-- A buffer in a reserve may end. -/
theorem World.Sound.fate_shelved {W : World} {m : Move} {c : CacheId} {s : Cache} {r : RecordId}
    (h : W.Sound) (hs : W.store.caches.get? c = some s) (shelved : r ∈ s.reserve.slots) :
    Fate m r (W.store.records.get? r) none := by
  obtain ⟨x, hx, hc, -, image, -⟩ := h.idle_of_slot hs shelved
  exact hx ▸ .ended (hc.idle image).2

/-- A move makes of a record nothing but what `Fate` says. -/
theorem World.Step.fate {W W' : World} {m : Move} (h : W.Sound) (move : Step m W W')
    (r : RecordId) : Fate m r (W.store.records.get? r) (W'.store.records.get? r) := by
  cases move with
  | retain hx => exact .of_update hx (.counted _) r
  | letGo held hx => exact .of_update hx (.counted _) r
  | publish held hx undone => exact .of_update hx (.published undone) r
  | withdraw hx => exact .of_update hx .withdrawn r
  | refit hx undone sole fits =>
    cases fits with
    | kept => exact .of_update hx (.refitted undone) r
    | renewed => exact .of_update hx (.refitted undone) r
  | refitFailed hx undone sole fails =>
    cases fails with
    | invalid => exact .spared
    | lost => exact .of_update hx (.refitted undone) r
  | write held hx written =>
    obtain ⟨-, undone, block, -, rfl⟩ := Record.write_eq written
    exact .of_update hx (.written undone) r
  | @reuse W c s j rest x i hs top hx =>
    obtain ⟨y, hy, hc, -, image, -⟩ := h.idle_of_slot (r := j) hs (by simp [top])
    obtain rfl := Option.some.inj (hx.symm.trans hy)
    exact .of_update (t := W.store.records) (m := .take ⟨j, c, i.key⟩) hx
      (.taken (b := ⟨j, c, i.key⟩) (hc.idle image).2) r
  | @make W c s i hs empty =>
    simp only [Table.get?_add]
    split
    · next new =>
      subst new
      rw [Table.get?_next]
      exact .made (b := ⟨W.store.records.next, c, i.key⟩)
    · exact .spared
  | keep held hx undone => exact .of_update hx (.parked undone) r
  | free held hx undone => exact .of_erased hx undone (Store.get?_records_without ..)
  | outlive held hx undone => exact .of_erased hx undone (Store.get?_records_without ..)
  | discard held hx undone => exact .of_erased hx undone (Store.get?_records_without ..)
  | @retire W V W' b m withdrawn parted how =>
    cases withdrawn with
    | @withdraw _ _ x s k hx done image hs =>
      by_cases same : r = b.record
      · subst same
        rw [hx]
        refine .retired fun y hy => ?_
        rcases how with rfl | rfl
        · cases parted with
          | keep held hz =>
            simp_all [Store.withdrawn, Store.shelved, Table.get?_update]
        · cases parted with
          | free held hz => simp [Store.crowdedOut, Store.get?_records_without] at hy
      · have others : W'.store.records.get? r = W.store.records.get? r := by
          rcases how with rfl | rfl
          · cases parted
            simp [Store.withdrawn, Store.shelved, Table.get?_update, same]
          · cases parted
            simp [Store.withdrawn, Store.crowdedOut, Store.get?_records_without, Table.get?_update,
              same]
        exact others ▸ .spared
  | @tearDown W O c s held hs last =>
    rw [Store.get?_records_tornDown]
    split
    · next shelved => exact h.fate_shelved hs shelved
    · split
      · next listed =>
        obtain ⟨k, hk⟩ := Lists.mem_all_iff.1 listed
        obtain ⟨x, hx, -, rfl, -⟩ := h.exists_listed ((Store.listOf_of_get? hs k).symm ▸ hk)
        rw [hx]
        exact .unmarked
      · exact .spared
  | @emptyReserve W c s hs =>
    rw [Store.get?_records_emptied]
    split
    · next shelved => exact h.fate_shelved hs shelved
    · exact .spared
  | _ => exact .spared

/-! ## 3. Caches that are gone -/

namespace Table

variable {α : Type} {t : Table α} {j k : Nat}

/-- There was a key `k`, and there is nothing under it any more. -/
def Past (t : Table α) (k : Nat) : Prop := k < t.next ∧ t.get? k = none

@[simp] theorem past_update (t : Table α) (j k : Nat) (f : α → α) :
    (t.update j f).Past k ↔ t.Past k := by
  rw [Past, Past, get?_update, next_update]
  split <;> simp

theorem Past.add (h : t.Past k) (a : α) : (t.add a).Past k := by
  refine ⟨Nat.lt_succ_of_lt h.1, ?_⟩
  rw [get?_add, if_neg (Nat.ne_of_lt h.1), h.2]

theorem Past.erase (h : t.Past k) (j : Nat) : (t.erase j).Past k := by
  refine ⟨h.1, ?_⟩
  rw [get?_erase, h.2, ite_self]

end Table

namespace World

variable {W W' : World} {m : Move} {c : CacheId}

/-- A cache that is gone does not come back: its number is not given again. -/
theorem Step.past (move : Step m W W') (h : W.store.caches.Past c) : W'.store.caches.Past c := by
  induction move with
  | publish | withdraw | keep | share | unshare | tally | reuse | make =>
    simpa [Store.enlisted, Store.withdrawn, Store.shelved] using h
  | refit hx undone sole fits => cases fits <;> simpa using h
  | refitFailed hx undone sole fails => cases fails <;> simpa using h
  | free | outlive | discard => simpa [Store.crowdedOut] using h
  | retire withdrawn parted how withdraws parts => exact parts (withdraws h)
  | addCache => exact h.add _
  | tearDown => simpa using h.erase _
  | emptyReserve => simpa using h
  | _ => exact h

theorem Step.past_of_tearDown (move : Step (.tearDown c) W W') : W'.store.caches.Past c := by
  cases move with
  | tearDown held hs last =>
    have below := Table.lt_next_of_get? hs
    exact ⟨by simpa using below, by simp [Table.get?_erase]⟩

end World

namespace Session

variable {s : Session} {act : Act} {out : Multiset Loan} {r : RecordId} {x y : Record}

/-! ## 4. Single acts -/

/-- How a published buffer comes to be withdrawn: through a handle, by an act that moves it, with
its last handle, or with its cache. -/
inductive Withdraws (s : Session) (act : Act) (r : RecordId) (x : Record) : Prop where
  | unpublished (through : s.Unpublishes act r)
  | moved (through : s.Moves act r)
  | released (unheld : ∀ b ∈ (s.step act).2.handles, b.record ≠ r)
  | tornDown (gone : (s.step act).2.store.caches.get? x.origin = none)

theorem Publishes.publishes {b : Handle} (h : s.Publishes act b) : act.publishes = true := by
  cases h <;> rfl

/-- An act that withdraws a buffer publishes none. -/
theorem publishes_of_withdraw (allowed : s.Unpublishes act r ∨ s.Moves act r) :
    act.publishes = false := by
  rcases allowed with allowed | allowed
  · cases allowed <;> rfl
  · cases allowed <;> rfl

theorem Writes.sole (writes : s.Writes act r) (hx : s.store.records.get? r = some x) :
    x.references = 1 := by
  cases writes with
  | writePixels _ hy sole => exact Option.some.inj (hx.symm.trans hy) ▸ sole

theorem Moves.sole (moves : s.Moves act r) (hx : s.store.records.get? r = some x) :
    x.references = 1 := by
  cases moves with
  | resize _ hy sole | exchange _ hy sole | exchangeOwn _ hy sole =>
    exact Option.some.inj (hx.symm.trans hy) ▸ sole

/-- What is taken was not published before. -/
theorem Sound.not_takes (h : s.Sound out) (hx : s.store.records.get? r = some x)
    (done : x.published = true) : ¬ s.Takes act r := by
  intro takes
  have hc : (s.world out).Consistent r x := h.world.at_record hx
  simp [(hc.idle (takes.idle x hx)).2] at done

/-- An act leaves a published buffer published with its content, or withdraws it. -/
theorem Sound.step_published (h : s.Sound out) (act : Act)
    (hx : s.store.records.get? r = some x) (done : x.published = true) :
    (∃ y, (s.step act).2.store.records.get? r = some y ∧ y.published = true ∧
      y.content = x.content) ∨
    (∀ y ∈ (s.step act).2.store.records.get? r, y.published = false) ∧ s.Withdraws act r x := by
  -- Once it is withdrawn it stays so, since no act does both, and the reason stays too.
  have kept := h.step_keeps act (I := fun V =>
    (∃ n, V.store.records.get? r = some { x with references := n }) ∨
      (∀ y ∈ V.store.records.get? r, y.published = false) ∧ act.publishes = false ∧
        ((s.Unpublishes act r ∨ s.Moves act r) ∨ V.store.caches.Past x.origin ∨
          ∀ y ∈ V.store.records.get? r, y.image = none))
    (fun m V V' sound allowed move state => ?_) (.inl ⟨x.references, hx⟩)
  · rcases kept with ⟨n, hn⟩ | ⟨undone, -, reason⟩
    · exact .inl ⟨_, hn, done, rfl⟩
    · refine .inr ⟨undone, ?_⟩
      rcases reason with (unpublishes | moves) | gone | unused
      · exact .unpublished unpublishes
      · exact .moved moves
      · exact .tornDown gone.2
      · refine .released fun b hb hr => ?_
        obtain ⟨y, hy, -, -, image, -⟩ := (h.step act).world.exists_record hb
        simp [unused y (hr ▸ hy)] at image
  · have fate := move.fate sound r
    rcases state with ⟨n, hn⟩ | ⟨undone, silent, reason⟩
    · rw [hn] at fate
      rcases fate.of_published done with kept | ⟨undone, rfl | rfl | ⟨⟨b, rfl⟩, unused⟩⟩
      · exact .inl kept
      · exact .inr ⟨undone, publishes_of_withdraw allowed, .inl allowed⟩
      · exact .inr ⟨undone, allowed, .inr (.inl move.past_of_tearDown)⟩
      · exact .inr ⟨undone, allowed, .inr (.inr unused)⟩
    · refine .inr ⟨fate.of_undone undone ?_, silent, ?_⟩
      · rintro b - rfl
        simp [Publishes.publishes allowed] at silent
      · rcases reason with withdrawn | gone | unused
        · exact .inl withdrawn
        · exact .inr (.inl (move.past gone))
        · refine .inr (.inr (fate.of_unused unused ?_))
          rintro b rfl rfl
          exact h.not_takes hx done allowed

/-- Only an act that publishes a handle on it makes a buffer published. -/
theorem Sound.step_undone (h : s.Sound out) (act : Act)
    (undone : ∀ x ∈ s.store.records.get? r, x.published = false)
    (hy : (s.step act).2.store.records.get? r = some y) (done : y.published = true) :
    ∃ b, s.Publishes act b ∧ b.record = r := by
  by_contra silent
  have kept := h.step_keeps act (I := fun V => ∀ y ∈ V.store.records.get? r, y.published = false)
    (fun m V V' sound allowed move undone => ?_) undone
  · simp [kept y hy] at done
  · refine (move.fate sound r).of_undone undone ?_
    rintro b hb rfl
    exact silent ⟨b, allowed, hb⟩

/-- Stored bytes change only as the buffer is written, or as it is moved by its holder or by who
takes it into use. -/
theorem Sound.step_storage (h : s.Sound out) (act : Act)
    (hx : s.store.records.get? r = some x)
    (hy : (s.step act).2.store.records.get? r = some y) (changed : y.storage ≠ x.storage) :
    s.Writes act r ∨ s.Moves act r ∨ s.Takes act r := by
  by_contra none
  obtain ⟨writes, moves, takes⟩ : ¬ s.Writes act r ∧ ¬ s.Moves act r ∧ ¬ s.Takes act r := by
    simpa only [not_or] using none
  have kept := h.step_keeps act
    (I := fun V => ∀ y ∈ V.store.records.get? r, y.storage = x.storage)
    (fun m V V' sound allowed move stored => ?_) ?_
  · exact changed (kept y hy)
  · refine (move.fate sound r).of_unmoved stored ?_ ?_ ?_
    · rintro rfl
      exact allowed.elim moves takes
    · rintro rfl
      exact writes allowed
    · rintro b rfl rfl
      exact takes allowed
  · intro z hz
    rw [Option.some.inj (hx.symm.trans hz)]

/-! ## 5. Runs -/

/-- The act makes an unpublished buffer published, through a handle on it, with the record `x`. -/
structure MakesPublished (s : Session) (act : Act) (r : RecordId) (x : Record) : Prop where
  through : ∃ b, s.Publishes act b ∧ b.record = r
  undone : ∀ y ∈ s.store.records.get? r, y.published = false
  found : (s.step act).2.store.records.get? r = some x
  done : x.published = true

/-- The acts made the buffer published, last with the record `x`: it has been published with the
same content ever since. -/
def PublishedLast (s : Session) (acts : List Act) (r : RecordId) (x : Record) : Prop :=
  ∃ before act after, acts = before ++ act :: after ∧ (s.run before).MakesPublished act r x ∧
    ∀ mid, mid <+: after → ∃ y, (s.run (before ++ act :: mid)).store.records.get? r = some y ∧
      y.published = true ∧ y.content = x.content

theorem run_concat (s : Session) (acts : List Act) (act : Act) :
    s.run (acts ++ [act]) = ((s.run acts).step act).2 := s.run_append acts [act]

/-- One more act that leaves the buffer published with its content. -/
theorem PublishedLast.concat {acts : List Act} (h : s.PublishedLast acts r x) (act : Act)
    (hy : (s.run (acts ++ [act])).store.records.get? r = some y) (done : y.published = true)
    (same : y.content = x.content) : s.PublishedLast (acts ++ [act]) r x := by
  obtain ⟨before, publish, after, rfl, makes, since⟩ := h
  refine ⟨before, publish, after ++ [act], by simp, makes, fun mid hmid => ?_⟩
  rcases List.prefix_concat_iff.1 hmid with rfl | hmid
  · exact ⟨y, by simpa using hy, done, same⟩
  · exact since mid hmid

/-- A buffer that a run leaves published was published by an act of the run, and has had its content
since the last one that did so. -/
theorem Sound.exists_publishedLast (h : s.Sound out)
    (undone : ∀ y ∈ s.store.records.get? r, y.published = false) (acts : List Act)
    (hx : (s.run acts).store.records.get? r = some x) (done : x.published = true) :
    ∃ p, s.PublishedLast acts r p ∧ x.content = p.content := by
  induction acts using List.reverseRecOn generalizing x with
  | nil => simp [undone x hx] at done
  | append_singleton acts act ih =>
    have sound := h.run acts
    rw [run_concat] at hx
    by_cases old : ∃ z, (s.run acts).store.records.get? r = some z ∧ z.published = true
    · obtain ⟨z, hz, doneThen⟩ := old
      rcases sound.step_published act hz doneThen with ⟨y, hy, -, same⟩ | ⟨withdrawn, -⟩
      · obtain rfl := Option.some.inj (hx.symm.trans hy)
        obtain ⟨p, last, holds⟩ := ih hz doneThen
        have holds := same.trans holds
        exact ⟨p, last.concat act (by rw [run_concat]; exact hx) done holds, holds⟩
      · simp [withdrawn x hx] at done
    · have before : ∀ y ∈ (s.run acts).store.records.get? r, y.published = false := by
        intro y hy
        simpa using fun published => old ⟨y, hy, published⟩
      have through := sound.step_undone act before hx done
      refine ⟨x, ⟨acts, act, [], rfl, ⟨through, before, hx, done⟩, fun mid hmid => ?_⟩, rfl⟩
      rw [List.prefix_nil.1 hmid, run_concat]
      exact ⟨x, hx, done, rfl⟩

/-- While a buffer is published no act changes its content: an act leaves it published with its
content, or it withdraws it. So a handle that is answered on a published buffer shows what the
buffer held when it was published last. And the bytes of any buffer change only as they are written
through its only handle while it is unpublished, as it is moved through its only handle, or as it is
taken into use out of a reserve. -/
theorem content_since_publish {w : Store} (initial : w.Initial) (acts : List Act) (act : Act)
    {s s' : Session} (now : s = (start w).run acts) (next : s' = (s.step act).2) :
    (∀ r x, s.store.records.get? r = some x → x.published = true →
      (∃ y, s'.store.records.get? r = some y ∧ y.published = true ∧ y.content = x.content) ∨
      (∀ y ∈ s'.store.records.get? r, y.published = false) ∧ s.Withdraws act r x) ∧
    (∀ v, (s.step act).1 = .handle v → v.published = true →
      ∃ name b x p, act.result? = some name ∧ s'.frame.handles.get? name = some b ∧
        s'.store.records.get? b.record = some x ∧
        (start w).PublishedLast (acts ++ [act]) b.record p ∧
        v.area = p.area ∧ v.capacity = p.capacity ∧ x.area = p.area ∧ x.pixels = p.pixels) ∧
    ∀ r x y, s.store.records.get? r = some x → s'.store.records.get? r = some y →
      y.storage ≠ x.storage →
        s.handles.countP (·.record = r) = 1 ∧ (s.Writes act r ∨ s.Moves act r) ∨
        x.image = none ∧ s.Takes act r := by
  subst now next
  have sound := (sound_start initial).run acts
  refine ⟨fun r x hx done => sound.step_published act hx done, fun v answer done => ?_,
    fun r x y hx hy changed => ?_⟩
  · obtain ⟨name, b, x, names, hb, hx, area, published, capacity, -⟩ := sound.shows answer
    have undone : ∀ y ∈ (start w).store.records.get? b.record, y.published = false := by
      simp [start, initial.get?_records]
    obtain ⟨p, last, same⟩ := (sound_start initial).exists_publishedLast undone (acts ++ [act])
      (by rw [run_concat]; exact hx) (published.trans done)
    exact ⟨name, b, x, p, names, hb, hx, last, area ▸ Record.area_of_content same,
      capacity ▸ Record.capacity_of_content same, Record.area_of_content same,
      Record.pixels_of_content same⟩
  · have references := (sound.world.at_record hx).references
    rcases sound.step_storage act hx hy changed with writes | moves | takes
    · exact .inl ⟨references.symm.trans (writes.sole hx), .inl writes⟩
    · exact .inl ⟨references.symm.trans (moves.sole hx), .inr moves⟩
    · exact .inr ⟨takes.idle x hx, takes⟩

/-- After the short run the buffer is found again, with the pixels that it was published with. -/
theorem content_since_publish_sample :
    ∃ v, (sample.step (.lookup "cache" "image" ⟨0, 0, 1, 1⟩ "again")).1 = .handle v ∧
      v.published = true ∧ ∃ b, ∃ x p : Record,
        (sample.step (.lookup "cache" "image" ⟨0, 0, 1, 1⟩ "again")).2.store.records.get? b
          = some x ∧
        x.area = p.area ∧ x.pixels = p.pixels ∧ p.published = true := by
  have initial : (Store.fresh none).Initial := .fresh none
  obtain ⟨-, answered, -⟩ := content_since_publish initial sampleActs
    (.lookup "cache" "image" ⟨0, 0, 1, 1⟩ "again") (s := sample) rfl rfl
  obtain ⟨name, b, x, p, -, -, hx, last, -, -, area, pixels⟩ := answered _ rfl rfl
  obtain ⟨before, act, after, -, makes, -⟩ := last
  exact ⟨_, rfl, rfl, b.record, x, p, hx, area, pixels, makes.done⟩

end Session

end PixelPool
