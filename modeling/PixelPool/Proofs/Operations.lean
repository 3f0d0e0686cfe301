import PixelPool.Proofs.Sound
import PixelPool.Store.Swap

/-!
The operations of a store as sequences of moves.

`World.Does P W program post` says that on the world `W` the program ends without a fault, that what
it did are moves of which `P` holds, and that `post` holds of its result and of the world it leaves.
Each operation has one lemma of this form, which says where the handles went. The lemmas leave `P`
open: they ask only that it holds of the moves the operation can make, which for most operations are
quiet ones (`Move.Quiet`).
-/

namespace PixelPool

/-- An event that is reported on its own. The others come with a move, which changes something. -/
def Event.Aside : Event → Prop
  | .cacheCreated .. | .cacheTornDown .. | .published .. | .unpublished .. | .reserveFull ..
  | .reserveShrunk .. | .outlivedCache .. | .acquisitionFailed .. => False
  | _ => True

/-- A move that any operation may make: it does not publish or withdraw a buffer that stays in use,
take one into use or rewrite one, it leaves reserves filled and counts no request, it neither has a
block handed out nor corrupts an allocator, and it reports nothing that comes with another move. -/
def Move.Quiet : Move → Prop
  | .publish _ | .withdraw _ | .take _ | .refit _ | .write _ | .misfree _ | .tally .. | .lend _
  | .emptyReserve _ => False
  | .report e => e.Aside
  | _ => True

/-- The counts of how requests are answered. -/
def Stats.CountsRequest (f : Stats → Stats) : Prop := f = addHit ∨ f = addMiss ∨ f = addMoved

namespace Stats

theorem countsRequest_addHit : CountsRequest addHit := .inl rfl
theorem countsRequest_addMiss : CountsRequest addMiss := .inr (.inl rfl)
theorem countsRequest_addMoved : CountsRequest addMoved := .inr (.inr rfl)

end Stats

namespace Store

/-- `P` allows to take into use what a cache would take next, to move it, and to count how a request
was answered. -/
structure AllowsTaking (w : Store) (c : CacheId) (P : Move → Prop) : Prop where
  takes : ∀ r, r ∈ w.shelf c ∨ r = w.records.next →
    (∀ b : Handle, b.record = r → P (.take b)) ∧ P (.refit r)
  counts : ∀ f, Stats.CountsRequest f → P (.tally c f)

theorem AllowsTaking.of_same {w w' : Store} {c : CacheId} {P : Move → Prop}
    (h : w.AllowsTaking c P) (shelf : w'.shelf c = w.shelf c)
    (next : w'.records.next = w.records.next) : w'.AllowsTaking c P where
  takes r hr := h.takes r (shelf ▸ next ▸ hr)
  counts := h.counts

/-- `P` allows to withdraw and to move the buffer of a handle that is its only one. -/
def AllowsMoving (w : Store) (b : Handle) (P : Move → Prop) : Prop :=
  ∀ x, w.records.get? b.record = some x → x.references = 1 →
    P (.withdraw b.record) ∧ P (.refit b.record)

end Store

namespace World

/-! ## 1. Programs on a world -/

/-- The program ends without a fault, by moves of which `P` holds, and `post` holds in the end. -/
def Does {α : Type} (P : Move → Prop) (W : World) (program : Except Fault α)
    (post : α → World → Prop) : Prop :=
  ∃ a V, program = .ok a ∧ W.Reaches P V ∧ post a V

variable {α β : Type} {P : Move → Prop} {W V : World} {r : RecordId} {x : Record} {c : CacheId}
  {s : Cache} {b : Handle} {i : Image} {area : Rect}

namespace Does

variable {program : Except Fault α} {post mid : α → World → Prop} {a : α}

theorem done (h : program = .ok a) (moves : W.Reaches P V) (holds : post a V) :
    W.Does P program post := ⟨a, V, h, moves, holds⟩

theorem still (h : program = .ok a) (holds : post a W) : W.Does P program post :=
  done h .refl holds

/-- What a program did if it gave a result. -/
theorem reaches (h : W.Does P program post) (run : program = .ok a) :
    ∃ V, W.Reaches P V ∧ post a V := by
  obtain ⟨a', V, run', moves, holds⟩ := h
  obtain rfl := Except.ok.inj (run'.symm.trans run)
  exact ⟨V, moves, holds⟩

theorem weaken (h : W.Does P program mid) (weaker : ∀ a V, V.Sound → mid a V → post a V)
    (sound : W.Sound) : W.Does P program post := by
  obtain ⟨a, V, run, moves, holds⟩ := h
  exact done run moves (weaker a V (sound.reaches moves) holds)

/-- Moves may come before a program. -/
theorem after (moves : W.Reaches P V) (h : V.Does P program post) : W.Does P program post := by
  obtain ⟨a, V', run, more, holds⟩ := h
  exact done run (moves.trans more) holds

/-- A program and the rest of it. -/
theorem bind {f : α → Except Fault β} {post : β → World → Prop} (sound : W.Sound)
    (first : W.Does P program mid)
    (rest : ∀ a V, V.Sound → mid a V → V.Does P (f a) post) : W.Does P (program >>= f) post := by
  obtain ⟨a, V, run, moves, holds⟩ := first
  rw [run, Fault.ok_bind]
  exact after moves (rest a V (sound.reaches moves) holds)

end Does

/-- Moves, and a report of them. -/
theorem Reaches.report (moves : W.Reaches P V) (quiet : ∀ m : Move, m.Quiet → P m) {e : Event}
    (aside : e.Aside) : W.Reaches P { V with store := V.store.emit e } :=
  moves.tail (quiet (.report e) aside) .report

/-- Moves, and a count of them. -/
theorem Reaches.tally {f : Stats → Stats} (moves : W.Reaches P V) (allowed : P (.tally c f)) :
    W.Reaches P { V with store := V.store.count c f } :=
  moves.tail allowed .tally

/-- The handle that an operation gave, if it gave one. -/
def given {ε : Type} : Except ε Handle → Multiset Handle
  | .ok b => {b}
  | .error _ => 0

@[simp] theorem given_ok {ε : Type} (b : Handle) : given (.ok b : Except ε Handle) = {b} := rfl
@[simp] theorem given_error {ε : Type} (e : ε) : given (.error e) = 0 := rfl
@[simp] theorem given_asRefusal (outcome : Except StorageError Handle) :
    given (Store.asRefusal outcome) = given outcome := by
  cases outcome <;> rfl

/-! ## 2. What soundness gives to an operation -/

namespace Sound

/-- A cache exists exactly if somebody shares in it. -/
theorem alive_iff (h : W.Sound) : (W.store.caches.get? c).isSome = true ↔ c ∈ W.shares := by
  refine ⟨fun alive => ?_, h.shares c⟩
  obtain ⟨s, hs⟩ := Option.isSome_iff_exists.1 alive
  have tidy := h.tidy c s hs
  exact Multiset.count_pos.1 (tidy.owners ▸ tidy.owned)

theorem exists_cache (h : W.Sound) (held : c ∈ W.shares) :
    ∃ s, W.store.caches.get? c = some s ∧ W.Tidy c s := by
  obtain ⟨s, hs⟩ := Option.isSome_iff_exists.1 (h.shares c held)
  exact ⟨s, hs, h.tidy c s hs⟩

/-- A published buffer is in the list of its image in its cache, which therefore exists. -/
theorem exists_publisher (h : W.Sound) (hx : W.store.records.get? r = some x)
    (done : x.published = true) :
    ∃ k s, x.image = some k ∧ W.store.caches.get? x.origin = some s ∧ r ∈ s.lists.members k := by
  have hc := h.at_record hx
  cases image : x.image with
  | none => simp [(hc.idle image).2] at done
  | some k =>
    have listed := (hc.listed x.origin k).2 ⟨rfl, image, done⟩
    cases hs : W.store.caches.get? x.origin with
    | none => simp [Store.listOf, hs] at listed
    | some s => exact ⟨k, s, rfl, rfl, by rwa [Store.listOf_of_get? hs] at listed⟩

/-- A handle can be had again from what it stands for. -/
theorem handOut_held (h : W.Sound) (held : b ∈ W.handles) :
    W.store.handOut b.cache b.record = .ok b := by
  obtain ⟨x, hx, -, -, image, -⟩ := h.exists_record held
  exact Store.handOut_of_get? hx image

/-- The buffers of a reserve exist, and so do their allocators. -/
theorem known_slots (h : W.Sound) (hs : W.store.caches.get? c = some s) :
    ∀ r ∈ s.reserve.slots, ∃ x, W.store.records.get? r = some x ∧
      (W.store.allocators.get? x.allocator).isSome = true := by
  intro r hr
  obtain ⟨x, hx, hc, -⟩ := h.idle_of_slot hs hr
  exact ⟨x, hx, hc.source⟩

end Sound

/-! ## 3. Withdrawing and publishing -/

/-- Withdrawing a buffer in its own cache, published or not. -/
theorem withdraw_does (h : W.Sound) (allowed : P (.withdraw r))
    (hx : W.store.records.get? r = some x) :
    W.Does P (W.store.withdraw x.origin r) fun w V =>
      V = { W with store := w } ∧
        ∃ y, w.records.get? r = some y ∧ y.published = false ∧ y.references = x.references := by
  have hc := h.at_record hx
  by_cases done : x.published = true
  · obtain ⟨k, s, image, hs, listed⟩ := h.exists_publisher hx done
    have owner : x.publisher = some x.origin := by simp [hc.publisher, done]
    refine .done (Store.withdraw_of_done h.calm hx done owner image hs listed)
      (.single allowed (.withdraw hx done image hs)) ⟨rfl, x.unmark.withoutArea, ?_, rfl, rfl⟩
    simp [Store.withdrawn, Table.get?_update, hx]
  · have undone : x.published = false := by simpa using done
    exact .still (Store.withdraw_of_undone hx undone) ⟨rfl, x, hx, undone, rfl⟩

/-- Publishing a buffer in its own cache, published or not. -/
theorem Sound.publish_eq (h : W.Sound) (hx : W.store.records.get? b.record = some x)
    (hs : W.store.caches.get? b.cache = some s) :
    (x.published = true ∧ W.store.publish b.cache b = .ok (.ok (), W.store)) ∨
    (x.published = false ∧ W.store.publish b.cache b = .ok (.ok (), W.store.enlisted b s x)) := by
  by_cases done : x.published = true
  · exact .inl ⟨done, Store.publish_of_done hx done⟩
  · have undone : x.published = false := by simpa using done
    have fresh : b.record ∉ s.lists.members b.image := by
      rw [← Store.listOf_of_get? hs, (h.at_record hx).listed]
      simp [undone]
    exact .inr ⟨undone, Store.publish_of_undone h.calm hx undone hs fresh⟩

/-- Publishing a buffer in a cache, its own or another one. -/
theorem publish_does (h : W.Sound) (allowed : P (.publish b)) (held : b ∈ W.handles)
    (owned : c ∈ W.shares) :
    W.Does P (W.store.publish c b) fun a V =>
      V = { W with store := a.2 } ∧
        ∀ v, a.1 = .error (.violation v) → v = .foreignCache ∧ b.cache ≠ c := by
  by_cases foreign : b.cache ≠ c
  · refine .still (Store.publish_of_foreign foreign) ⟨rfl, fun v hv => ?_⟩
    cases hv
    exact ⟨rfl, foreign⟩
  · obtain rfl := not_not.1 foreign
    obtain ⟨x, hx, -⟩ := h.exists_record held
    obtain ⟨s, hs, -⟩ := h.exists_cache owned
    rcases h.publish_eq hx hs with ⟨done, run⟩ | ⟨undone, run⟩
    · exact .still run ⟨rfl, by simp⟩
    · exact .done run (.single allowed (.publish held hx undone hs)) ⟨rfl, by simp⟩

/-- Withdrawing a buffer through a cache, its own or another one. -/
theorem unpublish_does (h : W.Sound) (allowed : P (.withdraw b.record)) (held : b ∈ W.handles) :
    W.Does P (W.store.unpublish c b) fun a V =>
      V = { W with store := a.2 } ∧
        ∀ v, a.1 = .error (.violation v) → v = .foreignCache ∧ b.cache ≠ c := by
  by_cases foreign : b.cache ≠ c
  · refine .still (a := (.error (.violation .foreignCache), W.store)) ?_ ⟨rfl, fun v hv => ?_⟩
    · simp [Store.unpublish, foreign]
    · cases hv
      exact ⟨rfl, foreign⟩
  · obtain rfl := not_not.1 foreign
    obtain ⟨x, hx, hc, origin, -⟩ := h.exists_record held
    have withdrawn := withdraw_does h allowed hx
    rw [← origin] at withdrawn
    simp only [Store.unpublish, ne_eq, not_true_eq_false, if_false]
    refine .bind h withdrawn fun w V _ hV => .still rfl ⟨hV.1, by simp⟩

/-! ## 4. Giving up a handle -/

/-- What giving up a handle leaves: the other buffers as they were, and this one too, with one
reference less, if there was another reference. The caches change only with a last reference. -/
structure Dropped (w : Store) (b : Handle) (w' : Store) : Prop where
  next : w'.records.next = w.records.next
  kept : ∀ j x, w.records.get? j = some x → j ≠ b.record ∨ x.references ≠ 1 →
    ∃ n, w'.records.get? j = some { x with references := n }
  caches : ∀ x, w.records.get? b.record = some x →
    x.references ≠ 1 ∨ w.caches.get? b.cache = none → w'.caches = w.caches

/-- A handle that is not the last one goes. -/
theorem dropHandle_of_more {w : Store} (hx : w.records.get? b.record = some x)
    (more : 1 < x.references) :
    w.dropHandle b = .ok (w.setRecord b.record { x with references := x.references - 1 }) := by
  have used : x.references ≠ 0 := by omega
  have rest : 0 < x.references - 1 := by omega
  unfold Store.dropHandle
  split
  · simp [Store.releaseRecord, Store.record_of_get? hx, Record.letGo, used, rest]
  · simp [Store.releaseOrphan, Store.record_of_get? hx, Record.letGo, used, rest]

/-- With the last reference a buffer is withdrawn, and parked in what that leaves. -/
theorem releaseRecord_of_last {w v : Store} {y : Record} (hx : w.records.get? r = some x)
    (last : x.references = 1)
    (withdrawn : (w.setRecord r { x with references := 0 }).withdraw c r = .ok v)
    (hy : v.records.get? r = some y) (unreferenced : y.references = 0)
    (undone : y.published = false) :
    w.releaseRecord c r = (v.setRecord r y.parked).keepOrFree c r := by
  have shelved : y.shelve r = .ok y.parked := by
    simp [Record.shelve, Record.parked, unreferenced, undone]
  simp [Store.releaseRecord, Store.record_of_get? hx, Record.letGo, last, withdrawn,
    Store.record_of_get? hy, shelved]

/-- The last handle goes, and the buffer into the reserve, or it ends there. -/
theorem keepOrFree_step (h : W.Sound) {H : Multiset Handle} (held : W.handles = b ::ₘ H)
    (hx : W.store.records.get? b.record = some x) (undone : x.published = false)
    (last : x.references = 1) (hs : W.store.caches.get? b.cache = some s) :
    ∃ w m, (W.store.setRecord b.record x.parked).keepOrFree b.cache b.record = .ok w ∧
      Step m W { W with store := w, handles := H } ∧ (m = .keep b ∨ m = .free b) ∧
      w.records.next = W.store.records.next ∧
        ∀ j, j ≠ b.record → w.records.get? j = W.store.records.get? j := by
  have parked : (W.store.setRecord b.record x.parked).records.get? b.record = some x.parked := by
    simp [Table.get?_update, hx]
  by_cases room : s.reserve.slots.length < s.reserve.cap
  · refine ⟨_, _, Store.keepOrFree_of_room h.calm parked rfl hs room,
      .keep held hx undone last hs room, .inl rfl, rfl, fun j hj => ?_⟩
    simp [Store.shelved, Table.get?_update, hj]
  · have full := Nat.le_of_not_lt room
    have gone : (W.store.setRecord b.record x.parked).crowdedOut b.cache b.record x.parked
        = W.store.crowdedOut b.cache b.record x :=
      Store.without_setRecord
        (w := (W.store.count b.cache .addFreed).emit (.reserveFull b.cache x.capacity)) hx rfl rfl
    have run := Store.keepOrFree_of_full (w := W.store.setRecord b.record x.parked) h.calm parked
      (h.at_record hx).source hs full
    refine ⟨_, _, run.trans (congrArg _ gone), .free held hx undone last hs full, .inr rfl, ?_,
      fun j hj => ?_⟩
    · simp [Store.crowdedOut]
    · simp [Store.crowdedOut, Store.get?_records_without, hj]

/-- The last handle on a buffer of a cache that exists goes. -/
theorem releaseRecord_does (h : W.Sound) (quiet : ∀ m : Move, m.Quiet → P m) {H : Multiset Handle}
    (held : W.handles = b ::ₘ H) (hx : W.store.records.get? b.record = some x)
    (last : x.references = 1) (hs : W.store.caches.get? b.cache = some s) :
    W.Does P (W.store.releaseRecord b.cache b.record) fun w V =>
      V = { W with store := w, handles := H } ∧ w.records.next = W.store.records.next ∧
        ∀ j, j ≠ b.record → w.records.get? j = W.store.records.get? j := by
  have hc := h.at_record hx
  obtain ⟨origin, image⟩ := hc.holders b (by simp [held]) rfl
  have zero : (W.store.setRecord b.record { x with references := 0 }).records.get? b.record
      = some { x with references := 0 } := by simp [Table.get?_update, hx]
  by_cases done : x.published = true
  · have listed : b.record ∈ s.lists.members b.image := by
      rw [← Store.listOf_of_get? hs, hc.listed]
      exact ⟨origin, image, done⟩
    have owner : x.publisher = some b.cache := by simp [hc.publisher, done, origin]
    have withdrawn := Store.withdraw_of_done
      (w := W.store.setRecord b.record { x with references := 0 }) h.calm zero done owner image hs
      listed
    have run := releaseRecord_of_last hx last withdrawn
      (y := ({ x with references := 0 } : Record).unmark.withoutArea)
      (by simp [Store.withdrawn, Table.get?_update, hx]) rfl rfl
    -- The move withdraws the buffer while it has its reference still; parking forgets that.
    have first : Step (.withdraw b.record) W
        { W with store := W.store.withdrawn b.cache s b.record x b.image } := by
      rw [origin] at hs ⊢
      exact .withdraw hx done image hs
    have same : ((W.store.setRecord b.record { x with references := 0 }).withdrawn b.cache s
          b.record { x with references := 0 } b.image).setRecord b.record
            ({ x with references := 0 } : Record).unmark.withoutArea.parked
        = (W.store.withdrawn b.cache s b.record x b.image).setRecord b.record
            x.unmark.withoutArea.parked := by
      simp [Store.withdrawn, Store.setRecord, Store.setCache, Store.emit, Table.update_update,
        Record.parked, Record.unmark, Record.withoutArea]
    obtain ⟨w, m, parting, step, how, next, others⟩ := keepOrFree_step
      (x := x.unmark.withoutArea) (h.step first) held
      (by simp [Store.withdrawn, Table.get?_update, hx]) rfl last
      (s := { s with lists := s.lists.put b.image ((s.lists.members b.image).erase b.record) })
      (by simp [Store.withdrawn, Table.get?_update, hs])
    refine .done (run.trans (same ▸ parting))
      (.single (quiet _ (by trivial)) (.retire first step how))
      ⟨rfl, next, fun j hj => (others j hj).trans ?_⟩
    simp [Store.withdrawn, Table.get?_update, hj]
  · have undone : x.published = false := by simpa using done
    have run := releaseRecord_of_last hx last (Store.withdraw_of_undone (c := b.cache) zero undone)
      zero rfl undone
    rw [Store.setRecord_setRecord] at run
    obtain ⟨w, m, parting, step, how, next, others⟩ := keepOrFree_step h held hx undone last hs
    have allowed : P m := by
      rcases how with rfl | rfl
      · exact quiet _ trivial
      · exact quiet _ trivial
    exact .done (run.trans parting) (.single allowed step) ⟨rfl, next, others⟩

/-- The last handle on a buffer goes whose cache is gone. -/
theorem releaseOrphan_of_last (h : W.Sound) (hx : W.store.records.get? b.record = some x)
    (last : x.references = 1) :
    W.store.releaseOrphan b = .ok ((W.store.emit (.outlivedCache b.image)).without b.record) := by
  have shelved : (({ x with references := 0 } : Record).unmark).shelve b.record
      = .ok x.unmark.parked := by
    simp [Record.shelve, Record.unmark, Record.parked]
  have ended := Store.destroy_eq (r := b.record) (x := x.unmark.parked)
    (w := (W.store.setRecord b.record x.unmark.parked).emit (.outlivedCache b.image))
    (by simp [Table.get?_update, hx]) (h.at_record hx).source
  have gone : ((W.store.setRecord b.record x.unmark.parked).emit (.outlivedCache b.image)).without
      b.record = (W.store.emit (.outlivedCache b.image)).without b.record :=
    Store.without_setRecord (w := W.store.emit (.outlivedCache b.image)) hx rfl rfl
  simp only [Store.releaseOrphan, Store.record_of_get? hx, Fault.ok_bind, Record.letGo, last,
    Nat.one_ne_zero, if_false, Nat.sub_self, Nat.lt_irrefl, shelved, Store.setRecord_setRecord]
  rw [ended, gone]

/-- Giving up a handle, whatever became of its cache and whoever else holds the buffer. -/
theorem dropHandle_does (h : W.Sound) (quiet : ∀ m : Move, m.Quiet → P m) {H : Multiset Handle}
    (held : W.handles = b ::ₘ H) :
    W.Does P (W.store.dropHandle b) fun w V =>
      V = { W with store := w, handles := H } ∧ Dropped W.store b w := by
  obtain ⟨x, hx, hc, origin, image, used⟩ := h.exists_record (b := b) (by simp [held])
  by_cases more : 1 < x.references
  · refine .done (dropHandle_of_more hx more) (.single (quiet _ (by trivial)) (.letGo held hx more))
      ⟨rfl, rfl, fun j y hy _ => ?_, fun _ _ _ => rfl⟩
    by_cases hj : j = b.record
    · subst hj
      obtain rfl := Option.some.inj (hx.symm.trans hy)
      exact ⟨x.references - 1, by simp [Table.get?_update, hx]⟩
    · exact ⟨y.references, by simp [Table.get?_update, hj, hy]⟩
  · have last : x.references = 1 := by omega
    have kept : ∀ {w : Store}, (∀ j, j ≠ b.record → w.records.get? j = W.store.records.get? j) →
        ∀ j y, W.store.records.get? j = some y → j ≠ b.record ∨ y.references ≠ 1 →
          ∃ n, w.records.get? j = some { y with references := n } := by
      intro w others j y hy spared
      rcases spared with hj | hj
      · exact ⟨y.references, (others j hj).trans hy⟩
      · by_cases hjb : j = b.record
        · subst hjb
          exact absurd (Option.some.inj (hx.symm.trans hy) ▸ last) hj
        · exact ⟨y.references, (others j hjb).trans hy⟩
    cases hs : W.store.caches.get? b.cache with
    | some s =>
      simp only [Store.dropHandle, Store.isAlive, hs, Option.isSome_some, if_true]
      refine .weaken (releaseRecord_does h quiet held hx last hs) (fun w V _ hV => ?_) h
      refine ⟨hV.1, hV.2.1, kept hV.2.2, fun y hy spared => ?_⟩
      obtain rfl := Option.some.inj (hx.symm.trans hy)
      exact absurd spared (by simp [last, hs])
    | none =>
      have undone : x.published = false := by
        by_contra done
        obtain ⟨k, s, -, alive, -⟩ := h.exists_publisher hx (by simpa using done)
        simp [← origin, hs] at alive
      simp only [Store.dropHandle, Store.isAlive, hs, Option.isSome_none, Bool.false_eq_true,
        if_false]
      refine .done (releaseOrphan_of_last h hx last)
        (.single (quiet _ (by trivial)) (.outlive held hx undone last hs))
        ⟨rfl, by simp, kept fun j hj => ?_, fun _ _ _ => by simp⟩
      simp [Store.get?_records_without, hj]

/-- Giving up the handle that had a name, if it had one. -/
theorem dropHandle?_does (h : W.Sound) (quiet : ∀ m : Move, m.Quiet → P m) {old : Option Handle}
    {H : Multiset Handle} (held : W.handles = old.toList + H) :
    W.Does P (W.store.dropHandle? old) fun w V =>
      V = { W with store := w, handles := H } ∧ (old = none → w = W.store) ∧
        ∀ b, old = some b → Dropped W.store b w := by
  cases old with
  | none =>
    obtain rfl : W.handles = H := by simpa using held
    exact .still rfl ⟨rfl, by simp, by simp⟩
  | some b =>
    refine .weaken (dropHandle_does h quiet (b := b) (by simpa using held)) (fun w V _ hV => ?_) h
    exact ⟨hV.1, by simp, fun _ hb => Option.some.inj hb ▸ hV.2⟩

/-- Giving up a handle through a cache, its own or another one. -/
theorem release_does (h : W.Sound) (quiet : ∀ m : Move, m.Quiet → P m) {H : Multiset Handle}
    (held : W.handles = b ::ₘ H) :
    W.Does P (W.store.release c b) fun a V =>
      V = { W with store := a.2, handles := H } ∧
        ∀ v, a.1 = .error (.violation v) → v = .foreignCache ∧ b.cache ≠ c := by
  refine .bind h (dropHandle_does h quiet held) fun w V _ hV => .still rfl ⟨hV.1, fun v hv => ?_⟩
  by_cases foreign : b.cache ≠ c
  · exact ⟨by simpa [foreign, eq_comm] using hv, foreign⟩
  · simp [foreign] at hv

/-- A second handle on a buffer. -/
theorem copyHandle_does (h : W.Sound) (quiet : ∀ m : Move, m.Quiet → P m) (held : b ∈ W.handles) :
    W.Does P (W.store.copyHandle b) fun a V =>
      a.1 = b ∧ V = { W with store := a.2, handles := b ::ₘ W.handles } := by
  obtain ⟨x, hx, hc, origin, image, -⟩ := h.exists_record held
  refine .done (a := (b, W.store.retained b.record x)) ?_
    (.single (quiet _ (by trivial)) (.retain hx image origin.symm)) ⟨rfl, rfl⟩
  simp [Store.copyHandle, Store.record_of_get? hx, Record.retain, image, Store.retained]

/-! ## 5. Getting a handle -/

/-- Finding a published buffer: nothing happens if there is none. -/
theorem lookup_does (h : W.Sound) (quiet : ∀ m : Move, m.Quiet → P m) (owned : c ∈ W.shares) :
    W.Does P (W.store.lookup c i area) fun a V =>
      (a = (none, W.store) ∧ V = W) ∨
        ∃ b, a.1 = some b ∧ V = { W with store := a.2, handles := b ::ₘ W.handles } := by
  obtain ⟨s, hs, -⟩ := h.exists_cache owned
  cases hit : (s.lists.members i.key).find? fun r => (W.store.areaOf r).encloses area with
  | none => exact .still (Store.lookup_of_none h.calm hs hit) (.inl ⟨rfl, rfl⟩)
  | some r =>
    have listed : r ∈ W.store.listOf c i.key := by
      rw [Store.listOf_of_get? hs]
      exact List.mem_of_find?_eq_some hit
    obtain ⟨x, hx, hc, origin, image, -⟩ := h.exists_listed listed
    exact .done (Store.lookup_of_some h.calm hs hit hx image)
      (.single (quiet _ (by trivial)) (.retain (b := ⟨r, c, i.key⟩) hx image origin))
      (.inr ⟨⟨r, c, i.key⟩, rfl, rfl⟩)

/-- A record that was moved, or could not be, differs in its area and its storage only. -/
theorem fits_record {w w' : Store} {outcome : Except StorageError Bool}
    (fits : w.Fits r x area outcome w') (hx : w.records.get? r = some x) :
    ∃ area storage, w'.records.get? r = some { x with area, storage } := by
  cases fits with
  | invalid => exact ⟨x.area, x.storage, hx⟩
  | kept => exact ⟨area, x.storage, by simp [Table.get?_update, hx]⟩
  | renewed => exact ⟨area, _, by simp [Table.get?_update, hx]; rfl⟩
  | lost => exact ⟨.zero, none, by simp [Table.get?_update, hx]⟩

/-- A buffer that was taken into use is moved to its area, or ends. -/
theorem fitTaken_does (h : W.Sound) (quiet : ∀ m : Move, m.Quiet → P m) {H : Multiset Handle}
    (refits : P (.refit r)) (held : W.handles = ⟨r, c, i.key⟩ ::ₘ H)
    (hx : W.store.records.get? r = some x) (undone : x.published = false)
    (sole : x.references = 1) :
    W.Does P (W.store.fitTaken c i area r)
      fun (a : Except StorageError Handle × Store) V =>
        V = { W with store := a.2, handles := given a.1 + H } := by
  have hc := h.at_record hx
  have origin : c = x.origin := (hc.holders ⟨r, c, i.key⟩ (by simp [held]) rfl).1
  obtain ⟨outcome, w, run, fits⟩ := Store.fit_fits hx undone hc.source area
  obtain ⟨newArea, newStorage, hy⟩ := fits_record fits hx
  rw [Store.fitTaken, run, Fault.ok_bind]
  cases outcome with
  | ok newBlock =>
    have moved : W.Reaches P { W with store := w.count c (·.addAllocation newBlock) } := by
      rw [origin]
      exact .single refits (.refit hx undone sole fits)
    have told := moved.report quiet
      (e := .acquired c i.key area (w.capacityOf r)) trivial
    have out := (h.reaches told).handOut_held (b := ⟨r, c, i.key⟩) (by simp [held])
    refine .after told ?_
    dsimp only at out ⊢
    rw [out]
    exact .still rfl (by simp [held])
  | error e =>
    have failed : W.Reaches P { W with store := w } :=
      .single refits (.refitFailed hx undone sole fits)
    have sound := h.reaches failed
    have gone := Store.destroy_eq (r := r)
      (w := (w.count c .addFailure).emit (.acquisitionFailed c i.key area e)) hy
      (sound.at_record hy).source
    have ended : Step (.discard ⟨r, c, i.key⟩) { W with store := w } { W with
        store := ((w.count c .addFailure).emit
          (.acquisitionFailed c i.key area e)).without r
        handles := H } := .discard (b := ⟨r, c, i.key⟩) held hy undone sole
    refine .after (failed.tail (quiet _ (by trivial)) ended) ?_
    dsimp only
    rw [gone]
    exact .still rfl (by simp)

/-- Getting a buffer of one's own. -/
theorem acquire_does (h : W.Sound) (quiet : ∀ m : Move, m.Quiet → P m) (owned : c ∈ W.shares)
    (takes : W.store.AllowsTaking c P) :
    W.Does P (W.store.acquire c i area) fun a V =>
      V = { W with store := a.2, handles := given a.1 + W.handles } := by
  obtain ⟨s, hs, -⟩ := h.exists_cache owned
  cases slots : s.reserve.slots with
  | cons r rest =>
    have shelved : r ∈ W.store.shelf c := by simp [Store.shelf_of_get? hs, slots]
    obtain ⟨x, hx, hc, origin, image, -⟩ := h.idle_of_shelved shelved
    have idle : x.isIdle = true := by simp [Record.isIdle, image, hc.bound.1 image]
    obtain ⟨takes, refits⟩ := takes.takes r (.inl shelved)
    have taken : W.Reaches P _ := .single (takes ⟨r, c, i.key⟩ rfl) (.reuse (i := i) hs slots hx)
    have assigned : x.assign r i = .ok (x.takenFor i) := by
      simp [Record.assign, idle, Record.takenFor]
    have found : (((W.store.setCache c { s with
        reserve := { s.reserve with slots := rest } }).count c .addReused).record r) = .ok x :=
      Store.record_of_get? hx
    simp only [Store.acquire, Store.takeIdle_of_cons h.calm hs slots, Fault.ok_bind, found,
      assigned]
    exact .after taken (fitTaken_does (x := x.takenFor i) (h.reaches taken)
      quiet refits rfl (by simp [Table.get?_update, hx]) rfl rfl)
  | nil =>
    obtain ⟨takes, refits⟩ := takes.takes W.store.records.next (.inr rfl)
    have taken : W.Reaches P _ :=
      .single (takes ⟨W.store.records.next, c, i.key⟩ rfl) (.make (i := i) hs slots)
    have assigned : ({ origin := c, allocator := s.allocator } : Record).assign
        W.store.records.next i
          = .ok (Record.takenFor { origin := c, allocator := s.allocator } i) :=
      rfl
    have found : ({ W.store.count c .addMade with
        records := W.store.records.add { origin := c, allocator := s.allocator } } : Store).record
          W.store.records.next = .ok { origin := c, allocator := s.allocator } := by
      simp [Store.record, Table.get?_add]
    simp only [Store.acquire, Store.takeIdle_of_nil h.calm hs slots, Fault.ok_bind, found, assigned,
      Store.setRecord, Table.update_add]
    exact .after taken (fitTaken_does (h.reaches taken)
      (x := Record.takenFor { origin := c, allocator := s.allocator } i) quiet
      refits rfl (by simp [Table.get?_add]) rfl rfl)

/-- Getting a published buffer, or one of one's own. -/
theorem request_does (h : W.Sound) (quiet : ∀ m : Move, m.Quiet → P m) (owned : c ∈ W.shares)
    (takes : W.store.AllowsTaking c P) :
    W.Does P (W.store.request c i area) fun a V =>
      V = { W with store := a.2, handles := given a.1 + W.handles } := by
  refine .bind h (lookup_does h quiet owned) ?_
  rintro ⟨found, w⟩ V hV (⟨hw, rfl⟩ | ⟨b, rfl, rfl⟩)
  · obtain ⟨rfl, rfl⟩ := Prod.mk.inj hw
    have missed := (Reaches.refl (W := V)).tally (takes.counts _ Stats.countsRequest_addMiss)
    exact .after missed (acquire_does (h.reaches missed) quiet owned
      (takes.of_same (by simp) (by simp)))
  · have counted := takes.counts _ Stats.countsRequest_addHit
    refine .done rfl ((Reaches.refl.tally counted).report quiet
      (e := .hit c i.key area (w.referencesOf b.record)) trivial) ?_
    simp

/-! ## 6. Resizing and exchanging -/

/-- The rules that resizing a buffer through a cache can break. -/
inductive ForbidsResize (w : Store) (c : CacheId) (b : Handle) (viewHeld : Bool) :
    Violation → Prop where
  | foreign (foreign : b.cache ≠ c) : ForbidsResize w c b viewHeld .foreignCache
  | shared {x : Record} (hx : w.records.get? b.record = some x) (shared : x.references ≠ 1) :
      ForbidsResize w c b viewHeld .sharedResize
  | viewed {x : Record} (hx : w.records.get? b.record = some x) (pixels : x.pixels.isSome = true)
      (viewed : viewHeld = true) : ForbidsResize w c b viewHeld .viewHeld

theorem resize_does (h : W.Sound) (quiet : ∀ m : Move, m.Quiet → P m) (held : b ∈ W.handles)
    (allows : W.store.AllowsMoving b P) (viewHeld : Bool) :
    W.Does P (W.store.resize c b area viewHeld) fun a V =>
      V = { W with store := a.2 } ∧
        ∀ v, a.1 = .error (.violation v) → ForbidsResize W.store c b viewHeld v := by
  by_cases foreign : b.cache ≠ c
  · refine .still (a := (.error (.violation .foreignCache), W.store)) ?_ ⟨rfl, fun v hv => ?_⟩
    · simp [Store.resize, foreign]
    · cases hv
      exact .foreign foreign
  obtain rfl := not_not.1 foreign
  obtain ⟨x, hx, hc, origin, image, -⟩ := h.exists_record held
  by_cases shared : x.references ≠ 1
  · refine .still (a := (.error (.violation .sharedResize), W.store)) ?_ ⟨rfl, fun v hv => ?_⟩
    · simp [Store.resize, Store.record_of_get? hx, shared]
    · cases hv
      exact .shared hx shared
  have sole := not_not.1 shared
  simp only [Store.resize, ne_eq, not_true_eq_false, if_false, Store.record_of_get? hx,
    Fault.ok_bind, sole]
  rw [origin]
  obtain ⟨withdraws, refits⟩ := allows x hx sole
  refine .bind h (withdraw_does h withdraws hx) ?_
  rintro w V hV ⟨rfl, y, hy, undone, references⟩
  by_cases viewed : (viewHeld && x.pixels.isSome) = true ∧
      (byteSize? area x.bytesPerPixel).isSome = true
  · obtain ⟨viewing, pixels⟩ := Bool.and_eq_true_iff.1 viewed.1
    rw [if_pos viewed]
    refine .still rfl ⟨rfl, fun v hv => ?_⟩
    cases hv
    exact .viewed hx pixels viewing
  · rw [if_neg viewed]
    have source := (hV.at_record hy).source
    obtain ⟨outcome, u, run, fits⟩ := Store.fit_fits hy undone source area
    have sole : y.references = 1 := references.trans sole
    have same : y.origin = x.origin := by
      have := ((hV.at_record hy).holders b held rfl).1
      exact this.symm.trans origin
    rw [run, Fault.ok_bind]
    cases outcome with
    | ok newBlock =>
      refine .done rfl (.single refits (.refit hy undone sole fits)) ⟨?_, by simp⟩
      simp [same]
    | error e =>
      have failed : Reaches P _ { W with store := u } :=
        .single refits (.refitFailed (W := { W with store := w }) hy undone sole fits)
      refine .done rfl (failed.report quiet (e := .resizeFailed x.origin b.image area e) trivial)
        ⟨?_, by simp⟩
      simp

/-- A miss in an exchange. -/
theorem acquireMissed_does (h : W.Sound) (quiet : ∀ m : Move, m.Quiet → P m) (owned : c ∈ W.shares)
    (takes : W.store.AllowsTaking c P) :
    W.Does P (W.store.acquireMissed c i area) fun a V =>
      V = { W with store := a.2, handles := given a.1 + W.handles } ∧
        ∀ v, a.1 ≠ .error (.violation v) := by
  have missed := (Reaches.refl (W := W)).tally (takes.counts _ Stats.countsRequest_addMiss)
  have sound := h.reaches missed
  refine .after missed (.bind sound
    (acquire_does sound quiet owned (takes.of_same (by simp) (by simp))) fun a V _ hV => ?_)
  refine .still rfl ⟨by simp [hV], fun v => ?_⟩
  cases a.1 <;> simp [Store.asRefusal]

/-- The rules that an exchange can break. -/
inductive ForbidsExchange (c : CacheId) (b : Handle) (i : Image) : Violation → Prop where
  | foreign (foreign : b.cache ≠ c) : ForbidsExchange c b i .foreignCache
  | other (other : b.image ≠ i.key) : ForbidsExchange c b i .otherImage

/-- Exchanging nothing for a buffer. -/
theorem exchangeNone_does (h : W.Sound) (quiet : ∀ m : Move, m.Quiet → P m) (owned : c ∈ W.shares)
    (takes : W.store.AllowsTaking c P) :
    W.Does P (W.store.exchange c none i area) fun a V =>
      V = { W with store := a.2, handles := given a.1 + W.handles } ∧
        ∀ v, a.1 ≠ .error (.violation v) := by
  refine .bind h (lookup_does h quiet owned) ?_
  rintro ⟨found, w⟩ V hV (⟨hw, rfl⟩ | ⟨b, rfl, rfl⟩)
  · obtain ⟨rfl, rfl⟩ := Prod.mk.inj hw
    exact acquireMissed_does h quiet owned takes
  · have counted := takes.counts _ Stats.countsRequest_addHit
    exact .done rfl (Reaches.refl.tally counted) ⟨by simp, by simp⟩

/-- Exchanging a handle for one on a buffer that encloses the area. -/
theorem exchangeSome_does (h : W.Sound) (quiet : ∀ m : Move, m.Quiet → P m) (owned : c ∈ W.shares)
    {H : Multiset Handle} (held : W.handles = b ::ₘ H)
    (takes : W.store.AllowsTaking c P) (allows : W.store.AllowsMoving b P) :
    W.Does P (W.store.exchange c (some b) i area) fun a V =>
      V = { W with store := a.2, handles := given a.1 + H } ∧
        ∀ v, a.1 = .error (.violation v) → ForbidsExchange c b i v := by
  have refused : ∀ v, ForbidsExchange c b i v →
      W.Does P (W.store.dropHandle b >>= fun w => .ok (.error (.violation v), w))
        fun (a : Except Refusal Handle × Store) V =>
          V = { W with store := a.2, handles := given a.1 + H } ∧
            ∀ v, a.1 = .error (.violation v) → ForbidsExchange c b i v := by
    intro v forbidden
    refine .bind h (dropHandle_does h quiet held) fun w V _ hV => .still rfl ⟨by simp [hV.1], ?_⟩
    intro u hu
    cases hu
    exact forbidden
  by_cases foreign : b.cache ≠ c
  · simpa [Store.exchange, foreign] using refused _ (.foreign foreign)
  obtain rfl := not_not.1 foreign
  by_cases other : b.image ≠ i.key
  · simpa [Store.exchange, other] using refused _ (.other other)
  simp only [Store.exchange, ne_eq, not_true_eq_false, if_false, other, Fault.pure_eq]
  by_cases encloses : (W.store.areaOf b.record).encloses area = true
  · rw [if_pos encloses]
    exact .still rfl ⟨by simp [← held], by simp⟩
  rw [if_neg encloses]
  refine .bind h (lookup_does h quiet owned) ?_
  rintro ⟨found, w⟩ V hV (⟨hw, rfl⟩ | ⟨hit, rfl, rfl⟩)
  · obtain ⟨rfl, rfl⟩ := Prod.mk.inj hw
    obtain ⟨x, hx, -⟩ := h.exists_record (b := b) (by simp [held])
    have references : V.store.referencesOf b.record = x.references := by
      simp [Store.referencesOf, hx]
    dsimp only
    rw [references]
    by_cases sole : x.references = 1
    · rw [if_pos sole]
      refine .bind h (resize_does h quiet (by simp [held]) allows false) ?_
      rintro ⟨outcome, w⟩ V' hV' ⟨rfl, rules⟩
      cases outcome with
      | ok _ =>
        have counted := takes.counts _ Stats.countsRequest_addMoved
        exact .done rfl (Reaches.refl.tally counted) ⟨by simp [held], by simp⟩
      | error e =>
        refine .bind hV' (dropHandle_does hV' quiet held) fun w V'' _ hV => ?_
        refine .still rfl ⟨by simp [hV.1], fun v hv => ?_⟩
        cases hv
        -- The cache is the handle's own, and there is one reference: no rule is broken.
        cases rules v rfl with
        | foreign foreign => exact absurd rfl foreign
        | shared hy shared => exact absurd (Option.some.inj (hx.symm.trans hy) ▸ sole) shared
        | viewed _ _ viewed => cases viewed
    · rw [if_neg sole]
      refine .bind h (dropHandle_does h quiet held) ?_
      rintro w V' hV' ⟨rfl, dropped⟩
      have caches := dropped.caches x hx (.inl sole)
      exact .weaken (acquireMissed_does hV' quiet owned
        (takes.of_same (by simp [Store.shelf, caches]) dropped.next))
        (fun a V'' _ hV => ⟨hV.1, fun v hv => absurd hv (hV.2 v)⟩) hV'
  · have counted := (Reaches.refl (W := { W with store := w, handles := hit ::ₘ W.handles })).tally
      (takes.counts _ Stats.countsRequest_addHit)
    have sound := hV.reaches counted
    refine .after counted (.bind sound (dropHandle_does (b := b) (H := hit ::ₘ H) sound quiet ?_)
      fun w' V' _ hV' => .still rfl ⟨by simp [hV'.1], by simp⟩)
    simp [held, Multiset.cons_swap]

/-- Exchanging a handle, or nothing, for a handle on a buffer that encloses the area. -/
theorem exchange_does (h : W.Sound) (quiet : ∀ m : Move, m.Quiet → P m) (owned : c ∈ W.shares)
    {old : Option Handle} {H : Multiset Handle} (held : W.handles = old.toList + H)
    (takes : W.store.AllowsTaking c P)
    (allows : ∀ b, old = some b → W.store.AllowsMoving b P) :
    W.Does P (W.store.exchange c old i area) fun a V =>
      V = { W with store := a.2, handles := given a.1 + H } ∧
        ∀ v, a.1 = .error (.violation v) → ∃ b, old = some b ∧ ForbidsExchange c b i v := by
  cases old with
  | none =>
    obtain rfl : W.handles = H := by simpa using held
    exact .weaken (exchangeNone_does h quiet owned takes)
      (fun a V _ hV => ⟨hV.1, fun v hv => absurd hv (hV.2 v)⟩) h
  | some b =>
    exact .weaken (exchangeSome_does h quiet owned (by simpa using held) takes (allows b rfl))
      (fun a V _ hV => ⟨hV.1, fun v hv => ⟨b, rfl, hV.2 v hv⟩⟩) h

end World

end PixelPool
