import PixelPool.Proofs.Limits
import PixelPool.Proofs.ReserveCaps

/-!
A limit can be observed only by the refusals that it causes.

Two runs do the same acts on hosts with the same heap, whatever that refuses, except that the
allocators of the second one may have looser limits or none. As long as the first run is never
refused because of a limit, the second one gives the same answers and leaves the same session, down
to the last record, list, reserve, count and event, but for the limits themselves
(`Session.limits_unobservable`). The induction is over the acts; its step is
`Session.perform_spares`, put together from what `Fault.Spares` says of the operations.
-/

namespace PixelPool

/-- Two acts that differ at most in the limit of a new allocator, which is looser in the second. -/
inductive Act.Relimited : Act → Act → Prop where
  | same (act : Act) : Relimited act act
  | newAllocator (name : String) {limit limit' : Option Nat} (loose : Looser limit limit') :
      Relimited (.newAllocator name limit) (.newAllocator name limit')

/-- Whether an answer is a refusal because of a limit. -/
def Answer.overLimit : Answer → Bool
  | .refused e => e.overLimit
  | _ => false

namespace Session

open Fault

variable {s : Session} {g : Loosening} {act act' : Act} {acts acts' : List Act} {name : String}

/-- The session with looser limits. -/
def withLimits (g : Loosening) (s : Session) : Session := s.withStore (s.store.withLimits g)

@[simp] theorem store_withLimits : (s.withLimits g).store = s.store.withLimits g := rfl

@[simp] theorem frame_withLimits : (s.withLimits g).frame = s.frame := rfl

@[simp] theorem images_withLimits : (s.withLimits g).images = s.images := rfl

@[simp] theorem allocators_withLimits : (s.withLimits g).allocators = s.allocators := rfl

/-! ## 1. Names and ends -/

theorem nameHandle_withLimits (b : Handle) :
    (s.withLimits g).nameHandle name b = withLimits g <$> s.nameHandle name b := by
  unfold nameHandle
  exact bind_eq_map (Store.dropHandle?_withLimits _) fun _ => rfl

theorem nameCache_withLimits (c : CacheId) :
    (s.withLimits g).nameCache name c = withLimits g <$> s.nameCache name c := by
  unfold nameCache
  rw [frame_withLimits]
  cases s.frame.caches.get? name with
  | none => rfl
  | some old => exact bind_eq_map Store.dropOwner_withLimits fun _ => rfl

theorem nameOrDropCache_withLimits (name : Option String) (c : CacheId) :
    (s.withLimits g).nameOrDropCache name c = withLimits g <$> s.nameOrDropCache name c := by
  cases name with
  | some name => exact nameCache_withLimits c
  | none => exact bind_eq_map Store.dropOwner_withLimits fun _ => rfl

theorem nameOutcome_withLimits (outcome : Except Refusal Handle) :
    (s.withLimits g).nameOutcome name outcome
      = Prod.map id (withLimits g) <$> s.nameOutcome name outcome := by
  cases outcome with
  | error e => rfl
  | ok b => exact bind_eq_map_same fun _ => bind_eq_map (nameHandle_withLimits b) fun _ => rfl

theorem dropHandles_withLimits {w : Store} (bs : List Handle) :
    dropHandles (w.withLimits g) bs = Store.withLimits g <$> dropHandles w bs := by
  induction bs generalizing w with
  | nil => rfl
  | cons b rest ih => exact bind_eq_map (Store.dropHandle_withLimits b) fun _ => ih

theorem dropOwners_withLimits {w : Store} (cs : List CacheId) :
    dropOwners (w.withLimits g) cs = Store.withLimits g <$> dropOwners w cs := by
  induction cs generalizing w with
  | nil => rfl
  | cons c rest ih => exact bind_eq_map Store.dropOwner_withLimits fun _ => ih

theorem closeFrame_withLimits : (s.withLimits g).closeFrame = withLimits g <$> s.closeFrame := by
  unfold closeFrame
  refine bind_eq_map (dropHandles_withLimits _) fun v => ?_
  refine bind_eq_map (dropOwners_withLimits _) fun u => ?_
  exact bind_eq_map Thread.destroyBinding_withLimits fun _ => rfl

/-! ## 2. Looking up names -/

section
variable {past : Answer → Bool}

theorem withCache_spares {go go' : CacheId → Except Fault (Answer × Session)}
    (rest : ∀ c, Spares (withLimits g) past (go c) (go' c)) :
    Spares (withLimits g) past (s.withCache name go) ((s.withLimits g).withCache name go') := by
  unfold withCache
  rw [frame_withLimits]
  cases s.frame.caches.get? name with
  | some c => exact rest c
  | none => exact .ok

theorem withHandle_spares {go go' : Handle → Except Fault (Answer × Session)}
    (rest : ∀ b, Spares (withLimits g) past (go b) (go' b)) :
    Spares (withLimits g) past (s.withHandle name go) ((s.withLimits g).withHandle name go') := by
  unfold withHandle
  rw [frame_withLimits]
  cases s.frame.handles.get? name with
  | some b => exact rest b
  | none => exact .ok

theorem withHandle?_spares {name : Option String}
    {go go' : Option Handle → Except Fault (Answer × Session)}
    (rest : ∀ b, Spares (withLimits g) past (go b) (go' b)) :
    Spares (withLimits g) past (s.withHandle? name go) ((s.withLimits g).withHandle? name go') := by
  cases name with
  | none => exact rest none
  | some name => exact withHandle_spares fun b => rest (some b)

theorem withImage_spares {go go' : Image → Except Fault (Answer × Session)}
    (rest : ∀ i, Spares (withLimits g) past (go i) (go' i)) :
    Spares (withLimits g) past (s.withImage name go) ((s.withLimits g).withImage name go') := by
  unfold withImage
  rw [images_withLimits]
  cases s.images.get? name with
  | some i => exact rest i
  | none => exact .ok

theorem withAllocator_spares {go go' : AllocatorId → Except Fault (Answer × Session)}
    (rest : ∀ a, Spares (withLimits g) past (go a) (go' a)) :
    Spares (withLimits g) past (s.withAllocator name go)
      ((s.withLimits g).withAllocator name go') := by
  unfold withAllocator
  rw [allocators_withLimits]
  cases s.allocators.get? name with
  | some a => exact rest a
  | none => exact .ok

theorem withBlock_spares {go go' : Loan → Except Fault (Answer × Session)}
    (rest : ∀ b, Spares (withLimits g) past (go b) (go' b)) :
    Spares (withLimits g) past (s.withBlock name go) ((s.withLimits g).withBlock name go') := by
  unfold withBlock
  rw [frame_withLimits]
  cases s.frame.blocks.get? name with
  | some b => exact rest b
  | none => exact .ok

end

/-! ## 3. Single acts -/

/-- An operation that gives a buffer or is refused, and the naming of the buffer. -/
theorem nameOutcome_spares (t : Session) (outcome : Except Refusal Handle) :
    Spares (withLimits g) Answer.overLimit (t.nameOutcome name outcome)
      ((t.withLimits g).nameOutcome name outcome) :=
  .of_map (nameOutcome_withLimits outcome)

theorem nameOutcome_over {outcome : Except Refusal Handle}
    (past : failedBy (·.overLimit) outcome = true) :
    Yields (s.nameOutcome name outcome) fun b => b.1.overLimit = true := by
  cases outcome with
  | ok b => simp [failedBy] at past
  | error e => exact yields_ok past

theorem overLimit_doneOrRefused (outcome : Except Refusal Unit) :
    (doneOrRefused outcome).overLimit = failedBy (·.overLimit) outcome := by
  cases outcome <;> rfl

theorem newCache_withLimits (a : Option AllocatorId) (cap : Option Nat) :
    (s.withLimits g).newCache name a cap
      = Prod.map id (withLimits g) <$> s.newCache name a cap := by
  unfold newCache
  rw [store_withLimits, frame_withLimits]
  cases a with
  | some a =>
    dsimp only
    rw [Store.createCache_withLimits]
    exact bind_eq_map (nameCache_withLimits (s := s.withStore _) _) fun _ => rfl
  | none =>
    dsimp only
    rw [Store.createWithConfig_withLimits]
    exact bind_eq_map (nameCache_withLimits (s := s.withStore _) _) fun _ => rfl

theorem writePixels_withLimits (b : Handle) (fill : Nat → UInt8) :
    (s.withLimits g).writePixels b fill
      = Prod.map id (withLimits g) <$> s.writePixels b fill := by
  unfold writePixels
  refine bind_eq_map_same fun x => ?_
  split <;> rfl

theorem allocateBlock_spares (a : AllocatorId) (size : Nat) :
    Spares (withLimits g) (failedBy (·.overLimit)) (s.allocateBlock a size)
      ((s.withLimits g).allocateBlock a size) := by
  unfold allocateBlock
  refine .after (Store.allocator_withLimits a) fun x => ?_
  let book (t : Session) (p : Except StorageError Block × Allocator) :
      Except Fault (Except StorageError Block × Session) :=
    .ok (p.1, t.withStore (t.store.setAllocator a p.2))
  refine Store.allocate_spares (f := book s) (h := book (s.withLimits g))
    (fun outcome y => .of_map ?_) fun e y past => yields_ok past
  simp only [book, store_withLimits, Store.setAllocator_withLimits]
  rfl

theorem describe_spares (subject : Subject) :
    Spares (withLimits g) Answer.overLimit (s.describe subject)
      ((s.withLimits g).describe subject) := by
  cases subject with
  | buffer name => exact withHandle_spares fun b => .given fun _ => .ok
  | cache name => exact withCache_spares fun c => .given fun _ => .ok
  | image name => exact withImage_spares fun i => .ok

/-- An act on a session with looser limits. -/
theorem perform_spares (old : ∀ name limit, act ≠ .newAllocator name limit) :
    Spares (withLimits g) Answer.overLimit (s.perform act) ((s.withLimits g).perform act) := by
  cases act with
  | newAllocator name limit => exact absurd rfl (old name limit)
  | newImage name bytesPerPixel key => cases key <;> exact .ok
  | newCache name allocator cap =>
    cases allocator with
    | none => exact .of_map (newCache_withLimits none cap)
    | some allocator => exact withAllocator_spares fun a => .of_map (newCache_withLimits a cap)
  | shareCache cache name =>
    exact withCache_spares fun c =>
      .after (nameCache_withLimits (s := s.withStore (s.store.addOwner c)) c) fun _ => .ok
  | dropCache cache =>
    exact withCache_spares fun c => .after Store.dropOwner_withLimits fun _ => .ok
  | inspect cache => exact withCache_spares fun c => .given fun _ => .ok
  | acquire cache image area name =>
    refine withCache_spares fun c => withImage_spares fun i => ?_
    exact .bind (Store.acquire_spares i area) (fun _ v _ => nameOutcome_spares (s.withStore v) _)
      fun outcome v past => nameOutcome_over ((Store.failedBy_asRefusal outcome).trans past)
  | request cache image area name =>
    refine withCache_spares fun c => withImage_spares fun i => ?_
    exact .bind (Store.request_spares i area) (fun _ v _ => nameOutcome_spares (s.withStore v) _)
      fun outcome v past => nameOutcome_over ((Store.failedBy_asRefusal outcome).trans past)
  | lookup cache image area name =>
    refine withCache_spares fun c => withImage_spares fun i => ?_
    refine .after (Store.lookup_withLimits i area) fun ⟨found, v⟩ => ?_
    cases found with
    | none => exact .ok
    | some b => exact nameOutcome_spares (s.withStore v) _
  | publish cache buffer =>
    exact withCache_spares fun c => withHandle_spares fun b =>
      .after (Store.publish_withLimits b) fun _ => .ok
  | unpublish cache buffer =>
    exact withCache_spares fun c => withHandle_spares fun b =>
      .after (Store.unpublish_withLimits b) fun _ => .ok
  | resize cache buffer area viewHeld =>
    refine withCache_spares fun c => withHandle_spares fun b => ?_
    exact .bind (Store.resize_spares b area viewHeld) (fun _ _ _ => .ok)
      fun outcome v past => yields_ok ((overLimit_doneOrRefused outcome).trans past)
  | release cache buffer =>
    exact withCache_spares fun c => withHandle_spares fun b =>
      .after (Store.release_withLimits b) fun _ => .ok
  | dropHandle buffer =>
    exact withHandle_spares fun b => .after (Store.dropHandle_withLimits b) fun _ => .ok
  | copyHandle buffer name =>
    exact withHandle_spares fun b => .after (Store.copyHandle_withLimits b) fun ⟨copy, v⟩ =>
      nameOutcome_spares (s.withStore v) (.ok copy)
  | exchange cache image area buffer name =>
    refine withCache_spares fun c => withImage_spares fun i => withHandle?_spares fun old => ?_
    refine .bind (Store.exchange_spares old i area) (fun _ v _ => ?_) fun _ _ => nameOutcome_over
    cases buffer <;> exact nameOutcome_spares _ _
  | emptyReserve cache =>
    exact withCache_spares fun c => .after Store.emptyReserve_withLimits fun _ => .ok
  | list cache image =>
    refine withCache_spares fun c => withImage_spares fun i => .given fun found => ?_
    cases found <;> exact .ok
  | sameRecord buffer other => exact withHandle_spares fun b => withHandle_spares fun d => .ok
  | readPixels buffer =>
    refine withHandle_spares fun b => .given fun x => ?_
    cases x.pixels <;> exact .ok
  | writePixels buffer fill =>
    exact withHandle_spares fun b => .of_map (writePixels_withLimits b fill)
  | describe subject => exact describe_spares subject
  | allocateBlock allocator size name =>
    refine withAllocator_spares fun a => ?_
    refine .bind (allocateBlock_spares a size) (fun outcome t _ => ?_) fun outcome t past => ?_
    · cases outcome <;> exact .ok
    · cases outcome with
      | ok b => simp [failedBy] at past
      | error e => exact yields_ok past
  | freeBlock allocator block truncate =>
    exact withAllocator_spares fun a => withBlock_spares fun loan =>
      .after (Store.giveBack_withLimits a _) fun _ => .ok
  | requestHere image area name =>
    refine withImage_spares fun i => ?_
    exact .bind (Thread.request_spares i area)
      (fun a v _ => nameOutcome_spares ((s.withThread a.2).withStore v) _)
      fun a v past => nameOutcome_over ((Store.failedBy_asRefusal a.1).trans past)
  | publishOwn buffer =>
    exact withHandle_spares fun b => .after (Store.publishOwn_withLimits b) fun _ => .ok
  | unpublishOwn buffer =>
    exact withHandle_spares fun b => .after (Store.unpublishOwn_withLimits b) fun _ => .ok
  | exchangeOwn image area buffer name =>
    refine withImage_spares fun i => withHandle?_spares fun old => ?_
    refine .bind (Thread.exchange_spares old i area) (fun _ _ _ => ?_) fun _ _ => nameOutcome_over
    cases buffer <;> exact nameOutcome_spares _ _
  | current name =>
    simp only [perform, store_withLimits, frame_withLimits, Thread.current_withLimits]
    obtain ⟨⟨c, t⟩, v⟩ := s.frame.thread.current s.store
    exact .given fun _ => .after
      (nameOrDropCache_withLimits (s := (s.withThread t).withStore v) name c) fun _ => .ok
  | bind cache name =>
    refine withCache_spares fun c => .after
      (Thread.bind_withLimits (w := s.store.addOwner c) c) fun bound => ?_
    obtain ⟨⟨outcome, t⟩, v⟩ := bound
    cases outcome with
    | error e => exact .ok
    | ok previous =>
      cases previous with
      | none => exact .ok
      | some c =>
        exact .after (nameOrDropCache_withLimits (s := (s.withThread t).withStore v) name c)
          fun _ => .ok
  | unbind => exact .after Thread.unbind_withLimits fun _ => .ok
  | install cap =>
    simp only [perform, store_withLimits, Store.install_withLimits]
    exact .ok
  | sharedConfig =>
    simp only [perform, store_withLimits, Store.sharedConfig_withLimits]
    exact .ok
  | environmentConfig =>
    have same : (s.withLimits g).store.environmentConfig = s.store.environmentConfig := rfl
    simp only [perform, same]
    cases s.store.environmentConfig <;> exact .ok
  | installAllocator allocator =>
    refine withAllocator_spares fun a => ?_
    rw [store_withLimits, Store.installAllocator_withLimits]
    exact .ok
  | allocateShared size =>
    simp only [perform, store_withLimits, Store.sharedAllocator_withLimits]
    refine .bind (allocateBlock_spares (s := s.withStore s.store.sharedAllocator.2) _ size)
      (fun outcome t _ => ?_) fun outcome t past => ?_
    · cases outcome with
      | error e => exact .ok
      | ok b => exact .after (Store.giveBack_withLimits _ b) fun _ => .ok
    · cases outcome with
      | ok b => simp [failedBy] at past
      | error e => exact yields_ok past
  | destroyBinding => exact .after Thread.destroyBinding_withLimits fun _ => .ok
  | enterThread => exact .ok
  | leaveThread =>
    refine .after closeFrame_withLimits fun t => ?_
    have waiting : (t.withLimits g).waiting = t.waiting := rfl
    rw [waiting]
    cases t.waiting <;> exact .ok
  | incomplete names field =>
    have knows : (s.withLimits g).knows = s.knows := by
      funext kind name
      cases kind <;> rfl
    simp only [perform, knows]
    split <;> exact .ok

/-- Making an allocator with a looser limit. -/
theorem newAllocator_spares (name : String) {old new : Option Nat} (loose : Looser old new) :
    ∃ g' : Loosening, Spares (withLimits g') Answer.overLimit
      (s.perform (.newAllocator name old)) ((s.withLimits g).perform (.newAllocator name new)) := by
  let g' := g.extend s.store.allocators.next loose
  have still : s.withLimits g = s.withLimits g' :=
    congrArg s.withStore (Store.withLimits_extend loose).symm
  have changed : g'.limit s.store.allocators.next old = new := by simp [g', Loosening.extend]
  refine ⟨g', ?_⟩
  simp only [perform, still, store_withLimits, Store.createAllocator_withLimits changed]
  exact .ok

/-- An act, and the act with a looser limit on a session with looser limits. -/
theorem step_spares (alike : act.Relimited act') : ∃ g' : Loosening,
    Spares (withLimits g') Answer.overLimit (s.perform act) ((s.withLimits g).perform act') := by
  cases alike with
  | newAllocator name loose => exact newAllocator_spares name loose
  | same =>
    by_cases new : ∃ name limit, act = .newAllocator name limit
    · obtain ⟨name, limit, rfl⟩ := new
      exact newAllocator_spares name (.refl limit)
    · exact ⟨g, perform_spares fun name limit same => new ⟨name, limit, same⟩⟩

/-! ## 4. Runs -/

theorem run_withLimits {out : Multiset Loan} (sound : s.Sound out)
    (alike : List.Forall₂ Act.Relimited acts acts')
    (within : ∀ answer ∈ s.answers acts, answer.overLimit = false) :
    (s.withLimits g).answers acts' = s.answers acts ∧
    ∃ g' : Loosening, (s.withLimits g).run acts' = (s.run acts).withLimits g' := by
  induction alike generalizing s g out with
  | nil => exact ⟨rfl, g, rfl⟩
  | @cons act act' rest rest' first alike ih =>
    obtain ⟨g', spares⟩ := step_spares (s := s) (g := g) first
    have next : (s.withLimits g).step act' = ((s.step act).1, (s.step act).2.withLimits g') := by
      have run := spares _ (sound.perform_eq act) (within _ List.mem_cons_self)
      rw [step, run]
    have later := ih (g := g') (sound.step act) fun a ha => within a (List.mem_cons_of_mem _ ha)
    simpa [answers, run, next] using later

/-- Limits can be observed only by the refusals that they cause. If no answer of a run from the
start is such a refusal, then the same acts with looser limits get the same answers, and leave the
same session but for the limits. That holds on every host: its heap may refuse whatever sizes it
likes, also after an allocator reserved them under its limit. -/
theorem limits_unobservable {w : Store} (initial : w.Initial)
    (alike : List.Forall₂ Act.Relimited acts acts')
    (within : ∀ answer ∈ (start w).answers acts, answer.overLimit = false) :
    (start w).answers acts' = (start w).answers acts ∧
    ∃ g : Loosening, (start w).run acts' = ((start w).run acts).withLimits g := by
  have same : (start w).withLimits .same = start w :=
    congrArg (start w).withStore Store.withLimits_same
  have both := run_withLimits (g := .same) (sound_start initial) alike within
  rwa [same] at both

/-- A cache on an allocator with the given limit gets one buffer of four bytes and gives it up. In
between a block of nine bytes is asked for, and one that is larger than any can be. -/
def limitedActs (limit : Option Nat) : List Act :=
  [.newAllocator "heap" limit, .newCache "cache" (some "heap") none,
    .newImage "image" 1 (some 1), .acquire "cache" "image" ⟨0, 0, 2, 2⟩ "buffer",
    .allocateBlock "heap" 9 "block", .allocateBlock "heap" (Word.maxBlock + 1) "block",
    .dropHandle "buffer"]

/-- A store on a heap that has room for blocks of up to eight bytes. -/
def cramped : Store := (Store.fresh none).on { Host.usual with heap := .below 9 }

/-- A limit of three bytes is noticed; one of twenty makes no difference to none, though the heap
refuses nine bytes that it would allow. -/
theorem limits_unobservable_sample :
    ((start cramped).answers (limitedActs (some 3))).any (·.overLimit) = true ∧
    (Answer.refused (.allocation (.outOfMemory 9))
      ∈ (start cramped).answers (limitedActs (some 20))) ∧
    (start cramped).answers (limitedActs none) = (start cramped).answers (limitedActs (some 20)) ∧
    ∃ g : Loosening, (start cramped).run (limitedActs none)
      = ((start cramped).run (limitedActs (some 20))).withLimits g := by
  have loose : Looser (some 20) none := by
    change 20 ≤ Word.max
    decide
  have initial : cramped.Initial := ⟨none, _, .inl rfl⟩
  have answers : (start cramped).answers (limitedActs (some 20))
      = [.done, .number 1, .image ⟨.explicit 1, 1⟩,
        .handle ⟨⟨0, 0, 2, 2⟩, 1, false, 4, .explicit 1⟩,
        .refused (.allocation (.outOfMemory 9)),
        .refused (.allocation (.outOfMemory (Word.maxBlock + 1))), .done] := rfl
  refine ⟨by decide +kernel, by simp [answers], limits_unobservable initial ?_ ?_⟩
  · exact .cons (.newAllocator "heap" loose) (.cons (.same _) (.cons (.same _) (.cons (.same _)
      (.cons (.same _) (.cons (.same _) (.cons (.same _) .nil))))))
  · simp [answers, Answer.overLimit, Refusal.overLimit, StorageError.overLimit]

end Session

end PixelPool
