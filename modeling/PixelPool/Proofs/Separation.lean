import PixelPool.Proofs.Remainders
import PixelPool.Proofs.ReserveCaps

/-!
Caches that have no allocator in common do not interfere.

A cache `C` and its allocator `A` are followed through a run in which every act concerns these two
alone or concerns neither of them (`Session.apart`). The acts of the second kind are left out, which
leaves `Session.kept`: acts on `C`, `A` and their buffers, new images, threads that start and end,
and acts on names that stand for nothing. Main statement: the acts that are kept have the same
answers, and at the end the cache, its allocator and its buffers are the same, up to the numbers of
caches, allocators and buffers (`Session.caches_do_not_interfere`).
-/

namespace PixelPool

/-- Whether a thing is the cache or the allocator given. -/
def Thing.isOf (C : CacheId) (A : AllocatorId) : Thing → Bool
  | .cache c => c == C
  | .allocator a => a == A

theorem Side.owns_single {C : CacheId} {A : AllocatorId} {w : Store} {own : RecordId → Bool}
    {turn : Bool} (thing : Thing) : (single C A w own turn).owns thing = thing.isOf C A := by
  cases thing <;> rfl

namespace Session

variable {C : CacheId} {A : AllocatorId} {s t : Session} {act : Act} {acts : List Act}

/-! ## 1. Erased runs -/

/-- Whether an act concerns nothing but the cache and the allocator. -/
def keeps (C : CacheId) (A : AllocatorId) (s : Session) (act : Act) : Bool :=
  (s.concerns act).all (Thing.isOf C A)

/-- Whether an act keeps the cache and the allocator apart from all other things. -/
def unmixed (C : CacheId) (A : AllocatorId) (s : Session) (act : Act) : Bool :=
  s.keeps C A act || (s.concerns act).all fun thing => !thing.isOf C A

/-- Whether all acts of a run keep the cache and the allocator apart from all other things. -/
def apart (C : CacheId) (A : AllocatorId) (s : Session) : List Act → Bool
  | [] => true
  | act :: rest => s.unmixed C A act && (s.step act).2.apart C A rest

/-- The acts of a run that concern nothing but the cache and the allocator, with their answers. -/
def kept (C : CacheId) (A : AllocatorId) (s : Session) : List Act → List (Act × Answer)
  | [] => []
  | act :: rest =>
    if s.keeps C A act then (act, (s.step act).1) :: (s.step act).2.kept C A rest
    else (s.step act).2.kept C A rest

/-- The run without the acts on other things. -/
def erased (C : CacheId) (A : AllocatorId) (s : Session) (acts : List Act) : List Act :=
  (s.kept C A acts).map Prod.fst

/-! ## 2. What is seen of the cache -/

/-- A buffer is in the reserve of the cache, in one of its lists, or behind a handle of the cache
that a thread has a name for. -/
inductive Uses (C : CacheId) (s : Session) : RecordId → Prop where
  | reserved {r : RecordId} (h : r ∈ s.store.shelf C) : Uses C s r
  | listed {r : RecordId} {k : ImageKey} (h : r ∈ s.store.listOf C k) : Uses C s r
  | held {F : Frame} {b : Handle} (runs : F ∈ s.frame :: s.waiting) (named : b ∈ F.handles.values)
      (cache : b.cache = C) : Uses C s b.record

/-- The frame `F'` of a thread has the names that `F` has for the cache, its buffers and the blocks
of the allocator. -/
structure NamesFor (S : Side) (C : CacheId) (A : AllocatorId) (F F' : Frame) : Prop where
  thread : F'.thread = F.thread
  handles : F'.handles = F.handles.remaining (fun b => b.cache == C) (Handle.renumber S)
  caches : F'.caches = F.caches.remaining (· == C) S.caches.number
  blocks : F'.blocks = F.blocks.remaining (fun l => l.source == A) (Loan.renumber S)

/-- The cache, its allocator and its buffers are in `t` what they are in `s`, up to numbers. -/
structure SameFor (S : Side) (C : CacheId) (A : AllocatorId) (s t : Session) : Prop where
  /-- The lists, the reserve with the order of its buffers, the counters and the owners. -/
  cache : t.store.caches.get? (S.caches.number C) = (s.store.caches.get? C).map (Cache.renumber S)
  /-- The statistics of the allocator. -/
  allocator : t.store.allocators.get? (S.allocators.number A) = s.store.allocators.get? A
  /-- Every buffer of the cache, with its area, references, flag, capacity and bytes. -/
  buffer : ∀ r, Uses C s r → ∃ x, s.store.records.get? r = some x ∧
    t.store.records.get? (S.records.number r) = some (x.renumber S)
  /-- Two handles are on one buffer in both sessions or in neither. -/
  distinct : ∀ r r', Uses C s r → Uses C s r' →
    (S.records.number r = S.records.number r' ↔ r = r')
  frames : List.Forall₂ (NamesFor S C A) (s.frame :: s.waiting) (t.frame :: t.waiting)

/-! ## 3. Runs -/

theorem within_of_keeps {w : Store} {own : RecordId → Bool} {turn : Bool}
    (keeps : s.keeps C A act = true) : Within (.single C A w own turn) s act := by
  intro thing concerned
  rw [Side.owns_single]
  exact List.all_eq_true.1 keeps thing concerned

theorem within_others {w : Store} {own : RecordId → Bool} {turn : Bool}
    (unmixed : s.unmixed C A act = true) (erased : s.keeps C A act = false) :
    Within (Side.single C A w own turn).others s act := by
  intro thing concerned
  have others := (Bool.or_eq_true_iff.1 unmixed).resolve_left (by simp [erased])
  rw [Side.owns_others, Side.owns_single]
  exact List.all_eq_true.1 others thing concerned

theorem concerns_ne_nil (erased : s.keeps C A act = false) : s.concerns act ≠ [] := by
  intro none
  rw [keeps, none] at erased
  cases erased

/-- What remains of a session is kept by a run and the erased run, with the same answers. -/
theorem Remains.run {w : Store} {own : RecordId → Bool} {turn : Bool} {out out' : Multiset Loan}
    (R : Remains (.single C A w own turn) s t) (soundS : s.Sound out) (soundT : t.Sound out')
    (explicit : ∀ act ∈ acts, act.explicit = true) (apart : s.apart C A acts = true) :
    List.Forall₂
      (fun p answer => Answer.Renumbered (Numbering.only C w.caches.next).number p.1 p.2 answer)
      (s.kept C A acts) (t.answers (s.erased C A acts)) ∧
    ∃ own' turn', Remains (.single C A w own' turn') (s.run acts) (t.run (s.erased C A acts)) := by
  -- The induction carries the relation for some choice of the buffers on the side. Before an act
  -- the choice is extended: the buffers that the act makes are on the side that it works on.
  induction acts generalizing s t own turn out out' with
  | nil => exact ⟨.nil, own, turn, R⟩
  | cons act rest ih =>
    obtain ⟨unmixed, apart⟩ := Bool.and_eq_true_iff.1 apart
    have first := explicit act List.mem_cons_self
    have later := fun a (ha : a ∈ rest) => explicit a (List.mem_cons_of_mem _ ha)
    cases keeps : s.keeps C A act with
    | true =>
      obtain ⟨own, R⟩ := R.turned soundS true
      have both := R.step_kept soundS soundT (within_of_keeps keeps) Side.skips_single rfl first
      obtain ⟨answers, remains⟩ :=
        ih both.sessions (soundS.step act) (soundT.step act) later apart
      rw [erased, kept, if_pos keeps]
      exact ⟨.cons both.answer answers, remains⟩
    | false =>
      obtain ⟨own, R⟩ := R.turned soundS false
      have passed := R.step_erased soundS (within_others unmixed keeps) (concerns_ne_nil keeps)
        Side.skips_single rfl first
      have remains := ih passed (soundS.step act) soundT later apart
      have skipped : s.kept C A (act :: rest) = (s.step act).2.kept C A rest := by
        rw [kept, if_neg (by simp [keeps])]
      rw [erased, skipped]
      exact remains

/-! ## 4. The end -/

theorem Remains.sorted {S : Side} (R : Remains S s t) {F : Frame}
    (runs : F ∈ s.frame :: s.waiting) {b : Handle} (named : b ∈ F.handles.values) :
    S.records.own b.record = S.caches.own b.cache := by
  have all : List.Forall₂ (Frame.Remains S) (s.frame :: s.waiting) (t.frame :: t.waiting) :=
    .cons R.frame R.waiting
  have each := (List.forall₂_and_left _ _).1 (all.imp fun _ _ frame => ⟨frame.sorted, frame⟩)
  exact each.1 F runs b named

/-- The buffers of a cache are on its side, and in both stores. -/
theorem Remains.buffer {S : Side} {out : Multiset Loan} (R : Remains S s t) (sound : s.Sound out)
    (own : S.caches.own C = true) {r : RecordId} (uses : Uses C s r) :
    S.records.own r = true ∧ ∃ x, s.store.records.get? r = some x ∧
      t.store.records.get? (S.records.number r) = some (x.renumber S) := by
  have on : ∀ s', s.store.caches.get? C = some s' → s'.On S true :=
    fun s' hs => (R.store.caches.get? own hs).2
  have mine : S.records.own r = true := by
    cases uses with
    | reserved h =>
      unfold Store.shelf at h
      cases hs : s.store.caches.get? C with
      | none => simp [hs] at h
      | some s' => exact (on s' hs).slots r (by simpa [hs] using h)
    | @listed _ k h =>
      unfold Store.listOf at h
      cases hs : s.store.caches.get? C with
      | none => simp [hs] at h
      | some s' => exact (on s' hs).listed r (Lists.mem_all_iff.2 ⟨k, by simpa [hs] using h⟩)
    | held runs named cache =>
      rw [R.sorted runs named, cache]
      exact own
  have there : ∃ x, s.store.records.get? r = some x := by
    cases uses with
    | reserved h =>
      obtain ⟨x, hx, -⟩ := World.Sound.idle_of_shelved (W := s.world out) sound.world h
      exact ⟨x, hx⟩
    | listed h =>
      obtain ⟨x, hx, -⟩ := World.Sound.exists_listed (W := s.world out) sound.world h
      exact ⟨x, hx⟩
    | held runs named cache => exact sound.exists_record (held_of_frame runs named)
  obtain ⟨x, hx⟩ := there
  exact ⟨mine, x, hx, (R.store.records.get? mine hx).1⟩

theorem Remains.sameFor {w : Store} {own : RecordId → Bool} {turn : Bool} {out : Multiset Loan}
    (R : Remains (.single C A w own turn) s t) (sound : s.Sound out) :
    SameFor (.single C A w own turn) C A s t where
  cache := R.store.caches.found C (beq_self_eq_true C)
  allocator := by
    rw [R.store.allocators.found A (beq_self_eq_true A), Option.map_id]
    rfl
  buffer r uses := (R.buffer sound (beq_self_eq_true C) uses).2
  distinct r r' uses uses' :=
    ⟨Numbering.injective _ (R.buffer sound (beq_self_eq_true C) uses).1
      (R.buffer sound (beq_self_eq_true C) uses').1, congrArg _⟩
  frames := by
    have all : List.Forall₂ (Frame.Remains (.single C A w own turn)) (s.frame :: s.waiting)
        (t.frame :: t.waiting) := .cons R.frame R.waiting
    exact all.imp fun _ _ frame => ⟨frame.thread, frame.handles, frame.caches, frame.blocks⟩

/-- Caches do not interfere. Let every act of a run from the start concern a cache `C` and its
allocator `A` alone, or neither of them, and let none look at the caches that threads are bound to.
Then the acts on other things can be left out: the others have the same answers, and what is seen of
`C`, `A` and their buffers at the end is the same, up to numbers. -/
theorem caches_do_not_interfere {w : Store} (initial : w.Initial)
    (explicit : ∀ act ∈ acts, act.explicit = true) (apart : (start w).apart C A acts = true) :
    ∃ S : Side,
      List.Forall₂ (fun p answer => Answer.Renumbered S.caches.number p.1 p.2 answer)
        ((start w).kept C A acts) ((start w).answers ((start w).erased C A acts)) ∧
      SameFor S C A ((start w).run acts) ((start w).run ((start w).erased C A acts)) := by
  have sound := sound_start initial
  obtain ⟨answers, own, turn, remains⟩ :=
    (remains_start initial C A true).run sound sound explicit apart
  exact ⟨.single C A w own turn, answers, remains.sameFor (sound.run acts)⟩

/-- Two caches on two allocators, with buffers for the same image; a third cache comes and goes on
another thread. -/
def separateActs : List Act :=
  [.newAllocator "heap" none, .newAllocator "pool" (some 8), .newCache "first" (some "heap") none,
    .newCache "second" (some "pool") (some 4), .newImage "image" 1 none,
    .acquire "first" "image" ⟨0, 0, 2, 2⟩ "a", .acquire "second" "image" ⟨0, 0, 2, 2⟩ "b",
    .publish "first" "a", .publish "second" "b", .request "second" "image" ⟨0, 0, 1, 1⟩ "c",
    .enterThread, .newCache "third" (some "heap") none,
    .acquire "third" "image" ⟨0, 0, 4, 4⟩ "d", .leaveThread, .dropCache "first",
    .describe (.cache "second"), .acquire "second" "image" ⟨0, 0, 3, 3⟩ "e", .dropHandle "b",
    .unpublishOwn "c", .dropHandle "c", .inspect "second"]

/-- The second cache does not notice the others, even where its allocator has no room. -/
theorem caches_do_not_interfere_sample :
    (start (.fresh none)).apart 2 1 separateActs = true ∧
    ((start (.fresh none)).erased 2 1 separateActs).length = 14 ∧
    ∃ S : Side,
      List.Forall₂ (fun p answer => Answer.Renumbered S.caches.number p.1 p.2 answer)
        ((start (.fresh none)).kept 2 1 separateActs)
        ((start (.fresh none)).answers ((start (.fresh none)).erased 2 1 separateActs)) ∧
      SameFor S 2 1 ((start (.fresh none)).run separateActs)
        ((start (.fresh none)).run ((start (.fresh none)).erased 2 1 separateActs)) := by
  refine ⟨by decide +kernel, by decide +kernel, ?_⟩
  exact caches_do_not_interfere (.fresh none) (by decide) (by decide +kernel)

end Session

end PixelPool
