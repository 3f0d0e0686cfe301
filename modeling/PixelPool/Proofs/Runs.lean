import PixelPool.Proofs.Acts

/-!
Runs of a session: any acts, one after another, on a store in which nothing has happened yet.

Every act of a sound session runs through and leaves it sound, with what that says of its moves and
its answer (`Session.Sound.step` and its companions), and so does every run (`Session.Sound.run`).
What moves keep, acts and runs keep (`Session.Sound.step_keeps`, `Session.Sound.run_keeps`). Main
statement: in no session that acts lead to does a check of the pool on itself fail
(`Session.Reachable.runs_without_fault`).
-/

namespace PixelPool

namespace World

/-- Allocators stay. -/
theorem Step.known {m : Move} {W W' : World} (move : Step m W W') (a : AllocatorId)
    (known : (W.store.allocators.get? a).isSome = true) :
    (W'.store.allocators.get? a).isSome = true := by
  induction move with
  | refit hx undone sole fits => cases fits <;> simpa using known
  | refitFailed hx undone sole fails => cases fails <;> simpa using known
  | free => simpa [Store.crowdedOut, Store.isSome_allocators_without] using known
  | outlive => simpa [Store.isSome_allocators_without] using known
  | discard => simpa [Store.isSome_allocators_without] using known
  | retire withdrawn parted how withdraws parts => exact parts (withdraws known)
  | addAllocator =>
    simp only [Store.createAllocator, Table.get?_add]
    split
    · rfl
    · exact known
  | tearDown => simpa using known
  | emptyReserve => simpa using known
  | lend => simpa using known
  | refuse => simpa using known
  | repay => simpa using known
  | misfree => simpa using known
  | _ => exact known

/-- The host stays the same. -/
theorem Step.host {m : Move} {W W' : World} (move : Step m W W') :
    W'.store.host = W.store.host := by
  induction move with
  | refit hx undone sole fits => exact fits.host
  | refitFailed hx undone sole fails => exact fails.host
  | free => simp [Store.crowdedOut]
  | outlive => simp
  | discard => simp
  | retire withdrawn parted how withdraws parts => exact parts.trans withdraws
  | tearDown => simp [Store.tornDown, Store.unmarkAll]
  | emptyReserve => simp [Store.emptied]
  | _ => rfl

/-- A world without buffers and caches is sound if nobody holds any. -/
theorem sound_of_empty {W : World} (calm : W.store.inside = [])
    (records : W.store.records = .startingAt 0) (caches : W.store.caches = .startingAt 1)
    (handles : W.handles = 0) (shares : W.shares = 0)
    (shared : ∀ a, W.store.settings.allocator = some a →
      (W.store.allocators.get? a).isSome = true) : W.Sound where
  calm := calm
  agrees r := by
    refine .of_none (by simp [records]) ⟨?_, ?_, ?_⟩
    · simp [handles]
    · simp [Store.shelf, caches]
    · simp [Store.listOf, caches]
  tidy c s hs := by simp [caches] at hs
  shares c hc := by simp [shares] at hc
  shared := shared

end World

/-- A store in which nothing has happened yet, on any host, with the shared settings open or
fixed. -/
def Store.Initial (w : Store) : Prop :=
  ∃ environment host, w = (fresh environment).on host ∨ w = (settled environment).on host

theorem Store.Initial.fresh (environment : Option String) : (Store.fresh environment).Initial :=
  ⟨environment, .usual, .inl rfl⟩

theorem Store.Initial.get?_records {w : Store} (h : w.Initial) (r : RecordId) :
    w.records.get? r = none := by
  obtain ⟨environment, host, rfl | rfl⟩ := h <;> rfl

theorem Store.Initial.get?_caches {w : Store} (h : w.Initial) (c : CacheId) :
    w.caches.get? c = none := by
  obtain ⟨environment, host, rfl | rfl⟩ := h <;> rfl

namespace Session

variable {s : Session} {act : Act} {out : Multiset Loan}

/-! ## 1. Single acts -/

theorem Sound.step_after (h : s.Sound out) (act : Act) :
    ∃ V, s.perform act = .ok (s.step act) ∧ (s.world out).Reaches (s.Makes act) V ∧
      s.After act out (s.step act) V := by
  obtain ⟨a, V, run, moves, after⟩ := perform_does h act
  have same : s.step act = a := by simp [Session.step, run]
  exact ⟨V, same ▸ run, moves, same ▸ after⟩

/-- An act runs through. -/
theorem Sound.perform_eq (h : s.Sound out) (act : Act) : s.perform act = .ok (s.step act) := by
  obtain ⟨_, run, _⟩ := h.step_after act
  exact run

/-- An act comes down to moves that it makes. -/
theorem Sound.reaches (h : s.Sound out) (act : Act) :
    (s.world out).Reaches (s.Makes act)
      ((s.step act).2.world (s.ledger act (s.step act).1 out)) := by
  obtain ⟨V, -, moves, after⟩ := h.step_after act
  exact after.world ▸ moves

/-- What the moves of an act keep on sound worlds, the act keeps. -/
theorem Sound.made_keeps {I : World → Prop} (h : s.Sound out) (act : Act)
    (each : ∀ m V V', V.Sound → s.Makes act m → World.Step m V V' → I V → I V')
    (start : I (s.world out)) : I ((s.step act).2.world (s.ledger act (s.step act).1 out)) := by
  have kept := (h.reaches act).keeps (I := fun V => V.Sound ∧ I V)
    (fun m V V' allowed move ⟨sound, holds⟩ =>
      ⟨sound.step move, each m V V' sound allowed move holds⟩) ⟨h.world, start⟩
  exact kept.2

/-- What the moves that an act may make keep on sound worlds, the act keeps. -/
theorem Sound.step_keeps {I : World → Prop} (h : s.Sound out) (act : Act)
    (each : ∀ m V V', V.Sound → s.Permits act m → World.Step m V V' → I V → I V')
    (start : I (s.world out)) : I ((s.step act).2.world (s.ledger act (s.step act).1 out)) :=
  h.made_keeps act (fun m V V' sound made => each m V V' sound made.1) start

theorem Sound.breaks (h : s.Sound out) {v : Violation}
    (answer : (s.step act).1 = .refused (.violation v)) : s.Breaks act v := by
  obtain ⟨_, _, _, after⟩ := h.step_after act
  exact after.broken v answer

theorem Sound.shows (h : s.Sound out) {v : HandleView} (answer : (s.step act).1 = .handle v) :
    (s.step act).2.Shows act v := by
  obtain ⟨_, _, _, after⟩ := h.step_after act
  exact after.shown v answer

/-- An act leaves a sound session sound. -/
theorem Sound.step (h : s.Sound out) (act : Act) :
    (s.step act).2.Sound (s.ledger act (s.step act).1 out) := by
  obtain ⟨V, -, moves, after⟩ := h.step_after act
  have sound := h.world.reaches moves
  have stay := h.step_keeps act (I := fun V => ∀ a, (s.store.allocators.get? a).isSome = true →
    (V.store.allocators.get? a).isSome = true)
    (fun _ _ _ _ _ move known a ha => move.known a (known a ha)) fun _ => id
  rw [after.world] at sound
  refine ⟨sound, fun name a ha => ?_, after.blocks⟩
  exact (after.known name a ha).elim (fun old => stay a (h.known name a old)) id

/-! ## 2. Runs -/

/-- The blocks that are out after several acts. -/
def owing (s : Session) (out : Multiset Loan) : List Act → Multiset Loan
  | [] => out
  | act :: rest => (s.step act).2.owing (s.ledger act (s.step act).1 out) rest

@[simp] theorem run_nil (s : Session) : s.run [] = s := rfl

@[simp] theorem run_cons (s : Session) (act : Act) (rest : List Act) :
    s.run (act :: rest) = (s.step act).2.run rest := rfl

theorem run_append (s : Session) (before after : List Act) :
    s.run (before ++ after) = (s.run before).run after := List.foldl_append

/-- Any acts leave a sound session sound. -/
theorem Sound.run (h : s.Sound out) (acts : List Act) : (s.run acts).Sound (s.owing out acts) := by
  induction acts generalizing s out with
  | nil => exact h
  | cons act rest ih => exact ih (h.step act)

/-- What all moves keep on sound worlds, all runs keep. -/
theorem Sound.run_keeps {I : World → Prop} (h : s.Sound out) (acts : List Act)
    (each : ∀ m V V', V.Sound → World.Step m V V' → I V → I V') (start : I (s.world out)) :
    I ((s.run acts).world (s.owing out acts)) := by
  induction acts generalizing s out with
  | nil => exact start
  | cons act rest ih =>
    exact ih (h.step act) (h.step_keeps act (fun m V V' sound _ => each m V V' sound) start)

/-- The sum of what is counted act by act along a run. -/
def tallied (count : Session → Act → Nat) (s : Session) : List Act → Nat
  | [] => 0
  | act :: rest => count s act + (s.step act).2.tallied count rest

theorem tallied_concat (count : Session → Act → Nat) (s : Session) (acts : List Act) (act : Act) :
    s.tallied count (acts ++ [act]) = s.tallied count acts + count (s.run acts) act := by
  induction acts generalizing s with
  | nil => simp [tallied]
  | cons first rest ih =>
    rw [List.cons_append, tallied, ih, tallied, run_cons]
    omega

theorem tallied_zero (s : Session) (acts : List Act) : s.tallied (fun _ _ => 0) acts = 0 := by
  induction acts generalizing s with
  | nil => rfl
  | cons act rest ih => rw [tallied, ih]

/-! ## 3. The start -/

theorem sound_start {w : Store} (h : w.Initial) : (start w).Sound 0 := by
  obtain ⟨environment, host, rfl | rfl⟩ := h
  · exact ⟨World.sound_of_empty rfl rfl rfl rfl rfl nofun, nofun, le_refl _⟩
  · refine ⟨World.sound_of_empty rfl rfl rfl rfl rfl fun a ha => ?_, nofun, le_refl _⟩
    obtain rfl := Option.some.inj ha
    rfl

/-- A session that some acts lead to from its start. -/
def Reachable (s : Session) : Prop := ∃ w acts, w.Initial ∧ s = (start w).run acts

theorem Reachable.sound (h : s.Reachable) : ∃ out, s.Sound out := by
  obtain ⟨w, acts, initial, rfl⟩ := h
  exact ⟨_, (sound_start initial).run acts⟩

/-- A short run: a buffer of two by two pixels is acquired, written and published. -/
def sampleActs : List Act :=
  [.newCache "cache" none none, .newImage "image" 1 (some 1),
    .acquire "cache" "image" ⟨0, 0, 2, 2⟩ "buffer", .writePixels "buffer" (Act.ramp 7 1),
    .publish "cache" "buffer"]

/-- The session after the short run. -/
def sample : Session := (start (.fresh none)).run sampleActs

/-! ## 4. No faults -/

/-- A sound session can be shown: what its names stand for exists, and no part of a cache is being
worked on. -/
theorem Sound.exists_snapshot (h : s.Sound out) : ∃ shown, s.snapshot = .ok shown := by
  refine exists_bind (mapM_ok fun e he => ?_) fun _ => exists_bind (mapM_ok fun e he => ?_)
    fun _ => exists_bind (mapM_ok fun e he => ?_) fun _ => ⟨_, rfl⟩
  · obtain ⟨x, hx⟩ := h.exists_record (mem_handles (Names.get?_of_mem he))
    exact ⟨_, by rw [handleView, Store.record_of_get? hx]; rfl⟩
  · obtain ⟨x, hx⟩ := h.exists_cache (mem_shares (Names.get?_of_mem he))
    exact ⟨_, by rw [cacheView, Store.cacheAt_of_get? h.calm hx]; rfl⟩
  · obtain ⟨a, ha⟩ := Option.isSome_iff_exists.1 (h.known e.1 e.2 (Names.get?_of_mem he))
    exact ⟨_, by rw [Store.allocator_of_get? ha]; rfl⟩

/-- In every session that acts lead to, also after acts that were refused or broke a rule, any act
runs through: no check on the pool's own bookkeeping fails. An answer that a rule was broken comes
from an act that broke it. And the session can be shown. -/
theorem Reachable.runs_without_fault (h : s.Reachable) :
    (∀ act, ∃ answer s', s.perform act = .ok (answer, s') ∧
      ∀ v, answer = .refused (.violation v) → s.Breaks act v) ∧
    ∃ shown, s.snapshot = .ok shown := by
  obtain ⟨out, sound⟩ := h.sound
  refine ⟨fun act => ⟨_, _, sound.perform_eq act, fun v answer => sound.breaks answer⟩, ?_⟩
  exact sound.exists_snapshot

/-- After the short run the buffer can be released. -/
theorem runs_without_fault_sample :
    sample.Reachable ∧
      ∃ answer s', sample.perform (.release "cache" "buffer") = .ok (answer, s') := by
  have reachable : sample.Reachable := ⟨_, sampleActs, .fresh none, rfl⟩
  obtain ⟨answer, s', run, -⟩ := reachable.runs_without_fault.1 (.release "cache" "buffer")
  exact ⟨reachable, answer, s', run⟩

end Session

end PixelPool
