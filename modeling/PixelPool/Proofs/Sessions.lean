import PixelPool.Proofs.Owners
import PixelPool.Session.Perform

/-!
Sessions as worlds: what their names hold, what an act may do, and the parts that acts are made of.

The world of a session counts as held what the names of all its threads stand for. Blocks are the
exception: they are forgotten with their names, so which of them are still out is told by a ledger
that follows the run (`Session.ledger`).

`Session.Permits` says which moves an act may make and `Session.Makes` which it does make,
`Session.Breaks` which rules it can break, and `Session.After` what holds when it is done. The
lemmas of the later sections are the steps of which acts consist: looking up a name, giving one, and
closing a thread.
-/

namespace PixelPool

namespace Frame

/-- The handles, the shares and the blocks that a thread has names for. Its binding is a share. -/
def handlesHeld (f : Frame) : Multiset Handle := f.handles.values
def sharesHeld (f : Frame) : Multiset CacheId := f.caches.values + f.thread.binding.owned
def blocksHeld (f : Frame) : Multiset Loan := f.blocks.values

@[simp] theorem handlesHeld_start (id : ThreadId) : (Frame.start id).handlesHeld = 0 := rfl
@[simp] theorem sharesHeld_start (id : ThreadId) : (Frame.start id).sharesHeld = 0 := rfl
@[simp] theorem blocksHeld_start (id : ThreadId) : (Frame.start id).blocksHeld = 0 := rfl

end Frame

/-- The acts that may take a buffer into use. -/
def Act.acquires : Act → Bool
  | .acquire .. | .request .. | .exchange .. | .requestHere .. | .exchangeOwn .. => true
  | _ => false

/-- The acts that may have a block handed out directly. -/
def Act.borrows : Act → Bool
  | .allocateBlock .. | .allocateShared .. => true
  | _ => false

/-- The acts that may publish a buffer. -/
def Act.publishes : Act → Bool
  | .publish .. | .publishOwn .. => true
  | _ => false

/-- The name that an act gives to a handle if it gets one. -/
def Act.result? : Act → Option String
  | .acquire _ _ _ name | .request _ _ _ name | .lookup _ _ _ name | .copyHandle _ name
  | .exchange _ _ _ _ name | .requestHere _ _ name | .exchangeOwn _ _ _ name => some name
  | _ => none

namespace Session

/-! ## 1. Sessions as worlds -/

/-- What the names of all threads hold. -/
def handles (s : Session) : Multiset Handle :=
  s.frame.handlesHeld + (s.waiting.map Frame.handlesHeld).sum
def shares (s : Session) : Multiset CacheId :=
  s.frame.sharesHeld + (s.waiting.map Frame.sharesHeld).sum
def blocks (s : Session) : Multiset Loan :=
  s.frame.blocksHeld + (s.waiting.map Frame.blocksHeld).sum

/-- The world of a session, with the blocks that are out. -/
def world (s : Session) (out : Multiset Loan) : World := ⟨s.store, s.handles, s.shares, out⟩

/-- The world of a session is sound, allocators that have names exist, and blocks that have names
are out. -/
structure Sound (s : Session) (out : Multiset Loan) : Prop where
  world : (s.world out).Sound
  known : ∀ name a, s.allocators.get? name = some a → (s.store.allocators.get? a).isSome = true
  blocks : s.blocks ≤ out

/-- The blocks that are out after an act, given its answer. -/
def ledger (s : Session) (act : Act) (answer : Answer) (out : Multiset Loan) : Multiset Loan :=
  match act, answer with
  | .allocateBlock allocator _ _, .block b =>
    match s.allocators.get? allocator with
    | some a => ⟨a, b⟩ ::ₘ out
    | none => out
  | .freeBlock _ block _, .done =>
    match s.frame.blocks.get? block with
    | some loan => out.erase loan
    | none => out
  | _, _ => out

/-! ## 2. What an act may do -/

/-- The act publishes the buffer of a handle, if it does anything. -/
inductive Publishes (s : Session) : Act → Handle → Prop where
  | publish {cache buffer : String} {b : Handle} (found : s.frame.handles.get? buffer = some b) :
      s.Publishes (.publish cache buffer) b
  | publishOwn {buffer : String} {b : Handle} (found : s.frame.handles.get? buffer = some b) :
      s.Publishes (.publishOwn buffer) b

/-- The act writes the pixels of a buffer, through its only handle while it is unpublished. -/
inductive Writes (s : Session) : Act → RecordId → Prop where
  | writePixels {buffer : String} {fill : Nat → UInt8} {b : Handle} {x : Record}
      (found : s.frame.handles.get? buffer = some b)
      (hx : s.store.records.get? b.record = some x) (sole : x.references = 1)
      (undone : x.published = false) : s.Writes (.writePixels buffer fill) b.record

/-- The act withdraws the buffer of a handle, if it does anything. -/
inductive Unpublishes (s : Session) : Act → RecordId → Prop where
  | unpublish {cache buffer : String} {b : Handle} (found : s.frame.handles.get? buffer = some b) :
      s.Unpublishes (.unpublish cache buffer) b.record
  | unpublishOwn {buffer : String} {b : Handle} (found : s.frame.handles.get? buffer = some b) :
      s.Unpublishes (.unpublishOwn buffer) b.record

/-- The act moves a buffer to another area through its only handle, if it does anything. -/
inductive Moves (s : Session) : Act → RecordId → Prop where
  | resize {cache buffer : String} {area : Rect} {viewHeld : Bool} {b : Handle} {x : Record}
      (found : s.frame.handles.get? buffer = some b)
      (hx : s.store.records.get? b.record = some x) (sole : x.references = 1) :
      s.Moves (.resize cache buffer area viewHeld) b.record
  | exchange {cache image buffer name : String} {area : Rect} {b : Handle} {x : Record}
      (found : s.frame.handles.get? buffer = some b)
      (hx : s.store.records.get? b.record = some x) (sole : x.references = 1) :
      s.Moves (.exchange cache image area (some buffer) name) b.record
  | exchangeOwn {image buffer name : String} {area : Rect} {b : Handle} {x : Record}
      (found : s.frame.handles.get? buffer = some b)
      (hx : s.store.records.get? b.record = some x) (sole : x.references = 1) :
      s.Moves (.exchangeOwn image area (some buffer) name) b.record

/-- The act may take a buffer into use that was idle before, if it was there at all. -/
structure Takes (s : Session) (act : Act) (r : RecordId) : Prop where
  acquires : act.acquires = true
  idle : ∀ x, s.store.records.get? r = some x → x.image = none

/-- The act gives a block back that was shortened, or gives it to another allocator than its own. -/
inductive Misfrees (s : Session) : Act → Prop where
  | freeBlock {allocator block : String} {truncate : Option Nat} {a : AllocatorId} {loan : Loan}
      (ha : s.allocators.get? allocator = some a) (hl : s.frame.blocks.get? block = some loan)
      (wrong : loan.source ≠ a ∨ ∃ n, truncate = some n ∧ n < loan.block.size) :
      s.Misfrees (.freeBlock allocator block truncate)

/-- The moves that an act may make. An act that publishes makes no others. -/
def Permits (s : Session) (act : Act) : Move → Prop
  | .publish b => s.Publishes act b
  | .withdraw r => s.Unpublishes act r ∨ s.Moves act r
  | .take b => s.Takes act b.record
  | .refit r => s.Moves act r ∨ s.Takes act r
  | .write r => s.Writes act r
  | .misfree _ => s.Misfrees act
  | .report _ => True
  | _ => act.publishes = false

/-- The moves that an act does make: of those that it may make, it counts requests only if it
acquires, has blocks handed out only if it borrows, empties only the reserve that it names, and
reports only what does not come with another move. -/
def Makes (s : Session) (act : Act) (m : Move) : Prop :=
  s.Permits act m ∧
    match m with
    | .tally _ f => act.acquires = true ∧ Stats.CountsRequest f
    | .lend _ => act.borrows = true
    | .emptyReserve c => ∃ cache, act = .emptyReserve cache ∧ s.frame.caches.get? cache = some c
    | .report e => e.Aside
    | _ => True

/-- The rules of the interface that an act can break. -/
inductive Breaks (s : Session) : Act → Violation → Prop where
  | publish {cache buffer : String} {c : CacheId} {b : Handle}
      (hc : s.frame.caches.get? cache = some c) (hb : s.frame.handles.get? buffer = some b)
      (foreign : b.cache ≠ c) : s.Breaks (.publish cache buffer) .foreignCache
  | unpublish {cache buffer : String} {c : CacheId} {b : Handle}
      (hc : s.frame.caches.get? cache = some c) (hb : s.frame.handles.get? buffer = some b)
      (foreign : b.cache ≠ c) : s.Breaks (.unpublish cache buffer) .foreignCache
  | release {cache buffer : String} {c : CacheId} {b : Handle}
      (hc : s.frame.caches.get? cache = some c) (hb : s.frame.handles.get? buffer = some b)
      (foreign : b.cache ≠ c) : s.Breaks (.release cache buffer) .foreignCache
  | resize {cache buffer : String} {area : Rect} {viewHeld : Bool} {c : CacheId} {b : Handle}
      {v : Violation} (hc : s.frame.caches.get? cache = some c)
      (hb : s.frame.handles.get? buffer = some b)
      (forbidden : World.ForbidsResize s.store c b viewHeld v) :
      s.Breaks (.resize cache buffer area viewHeld) v
  | exchange {cache image buffer name : String} {area : Rect} {c : CacheId} {i : Image} {b : Handle}
      {v : Violation} (hc : s.frame.caches.get? cache = some c) (hi : s.images.get? image = some i)
      (hb : s.frame.handles.get? buffer = some b) (forbidden : World.ForbidsExchange c b i v) :
      s.Breaks (.exchange cache image area (some buffer) name) v
  | exchangeOwn {image buffer name : String} {area : Rect} {i : Image} {b : Handle} {v : Violation}
      (hi : s.images.get? image = some i) (hb : s.frame.handles.get? buffer = some b)
      (forbidden : World.ForbidsExchange b.cache b i v) :
      s.Breaks (.exchangeOwn image area (some buffer) name) v
  | bind {cache : String} {name : Option String}
      (destroyed : s.frame.thread.binding = .destroyed) :
      s.Breaks (.bind cache name) .bindingDestroyed

/-- The view is that of the buffer which the act gave a name to. -/
def Shows (s : Session) (act : Act) (v : HandleView) : Prop :=
  ∃ name b x, act.result? = some name ∧ s.frame.handles.get? name = some b ∧
    s.store.records.get? b.record = some x ∧ x.area = v.area ∧ x.published = v.published ∧
    x.capacity = v.capacity ∧ b.image = v.image

/-- What holds after an act, of its answer, the session after it and the world that its moves
lead to. -/
structure After (s : Session) (act : Act) (out : Multiset Loan) (a : Answer × Session)
    (V : World) : Prop where
  world : V = a.2.world (s.ledger act a.1 out)
  known : ∀ name i, a.2.allocators.get? name = some i →
    s.allocators.get? name = some i ∨ (a.2.store.allocators.get? i).isSome = true
  blocks : a.2.blocks ≤ s.ledger act a.1 out
  broken : ∀ v, a.1 = .refused (.violation v) → s.Breaks act v
  shown : ∀ v, a.1 = .handle v → a.2.Shows act v

variable {s s' s₀ : Session} {act : Act} {out : Multiset Loan} {P : Move → Prop} {name : String}
  {c : CacheId} {b : Handle}

theorem permits_quiet (s : Session) (act : Act) (silent : act.publishes = false) (m : Move)
    (quiet : m.Quiet) : s.Permits act m := by
  cases m <;> first | exact silent | exact trivial | exact absurd quiet id

theorem makes_quiet (s : Session) (act : Act) (silent : act.publishes = false) (m : Move)
    (quiet : m.Quiet) : s.Makes act m := by
  refine ⟨s.permits_quiet act silent m quiet, ?_⟩
  cases m <;> first | exact trivial | exact quiet | exact absurd quiet id

/-! ## 3. Answers that change nothing -/

theorem ledger_unknownName (s : Session) (act : Act) (kind : Kind) (name : String)
    (out : Multiset Loan) : s.ledger act (.unknownName kind name) out = out := by
  cases act <;> rfl

theorem ledger_of_result (gives : act.result? = some name) (answer : Answer) :
    s.ledger act answer out = out := by
  cases act <;> first | rfl | cases gives

/-- After an act that leaves the names of allocators and of blocks alone. -/
theorem After.of_kept {a : Answer × Session} {V : World} (h : s.Sound out)
    (same : s.ledger act a.1 out = out) (world : V = a.2.world out)
    (allocators : a.2.allocators = s.allocators) (blocks : a.2.blocks = s.blocks)
    (broken : ∀ v, a.1 = .refused (.violation v) → s.Breaks act v)
    (shown : ∀ v, a.1 = .handle v → a.2.Shows act v) : s.After act out a V where
  world := by rw [same, world]
  known name i hi := .inl (allocators ▸ hi)
  blocks := by rw [same, blocks]; exact h.blocks
  broken := broken
  shown := shown

/-- After an act that did nothing, with an answer that breaks no rule and shows no handle. -/
theorem After.of_idle {answer : Answer} (h : s.Sound out) (same : s.ledger act answer out = out)
    (obeys : ∀ v, answer ≠ .refused (.violation v)) (hides : ∀ v, answer ≠ .handle v) :
    s.After act out (answer, s) (s.world out) :=
  .of_kept h same rfl rfl rfl (fun v hv => absurd hv (obeys v)) fun v hv => absurd hv (hides v)

/-! ## 4. Looking up names -/

theorem mem_handles (found : s.frame.handles.get? name = some b) : b ∈ s.handles :=
  Multiset.mem_add.2 (.inl (Names.mem_values_of_get? found))

theorem mem_shares (found : s.frame.caches.get? name = some c) : c ∈ s.shares :=
  Multiset.mem_add.2 (.inl (Multiset.mem_add.2 (.inl (Names.mem_values_of_get? found))))

theorem unknownName_does (h : s.Sound out) (kind : Kind) (name : String) :
    (s.world out).Does P (.ok (.unknownName kind name, s)) (s.After act out) :=
  .still rfl (.of_idle h (s.ledger_unknownName ..) (by simp) (by simp))

theorem withCache_does {go : CacheId → Except Fault (Answer × Session)} (h : s.Sound out)
    (rest : ∀ c, s.frame.caches.get? name = some c → c ∈ s.shares →
      (s.world out).Does P (go c) (s.After act out)) :
    (s.world out).Does P (s.withCache name go) (s.After act out) := by
  unfold withCache
  split
  · next c hc => exact rest c hc (mem_shares hc)
  · exact unknownName_does h ..

theorem withHandle_does {go : Handle → Except Fault (Answer × Session)} (h : s.Sound out)
    (rest : ∀ b, s.frame.handles.get? name = some b → b ∈ s.handles →
      (s.world out).Does P (go b) (s.After act out)) :
    (s.world out).Does P (s.withHandle name go) (s.After act out) := by
  unfold withHandle
  split
  · next b hb => exact rest b hb (mem_handles hb)
  · exact unknownName_does h ..

theorem withImage_does {go : Image → Except Fault (Answer × Session)} (h : s.Sound out)
    (rest : ∀ i, s.images.get? name = some i → (s.world out).Does P (go i) (s.After act out)) :
    (s.world out).Does P (s.withImage name go) (s.After act out) := by
  unfold withImage
  split
  · next i hi => exact rest i hi
  · exact unknownName_does h ..

theorem withAllocator_does {go : AllocatorId → Except Fault (Answer × Session)} (h : s.Sound out)
    (rest : ∀ a, s.allocators.get? name = some a → (s.world out).Does P (go a) (s.After act out)) :
    (s.world out).Does P (s.withAllocator name go) (s.After act out) := by
  unfold withAllocator
  split
  · next a ha => exact rest a ha
  · exact unknownName_does h ..

theorem withBlock_does {go : Loan → Except Fault (Answer × Session)} (h : s.Sound out)
    (rest : ∀ l, s.frame.blocks.get? name = some l →
      (s.world out).Does P (go l) (s.After act out)) :
    (s.world out).Does P (s.withBlock name go) (s.After act out) := by
  unfold withBlock
  split
  · next l hl => exact rest l hl
  · exact unknownName_does h ..

/-- The handle that an optional name stands for. -/
def handle? (s : Session) (name : Option String) : Option Handle := name.bind s.frame.handles.get?

theorem withHandle?_does {name : Option String}
    {go : Option Handle → Except Fault (Answer × Session)} (h : s.Sound out)
    (rest : (s.world out).Does P (go (s.handle? name)) (s.After act out)) :
    (s.world out).Does P (s.withHandle? name go) (s.After act out) := by
  unfold withHandle?
  cases name with
  | none => exact rest
  | some name =>
    apply withHandle_does h
    intro b hb _
    simpa [handle?, hb] using rest

/-! ## 5. Names that come and go -/

/-- What is held with and without a name. -/
theorem handles_erase (s : Session) (name : String) :
    s.handles = (s.frame.handles.get? name).toList +
      (s.withHandles (s.frame.handles.erase name)).handles := by
  simp only [handles, withHandles, Frame.handlesHeld, Names.values_erase s.frame.handles name,
    add_assoc]

theorem handles_put (s : Session) (name : String) (b : Handle) :
    (s.withHandles (s.frame.handles.put name b)).handles
      = b ::ₘ (s.withHandles (s.frame.handles.erase name)).handles := by
  simp only [handles, withHandles, Frame.handlesHeld, Names.values_put, Multiset.cons_add]

theorem handles_forget (s : Session) (name : Option String) :
    s.handles = (s.handle? name).toList + (s.forgetHandle? name).handles := by
  cases name with
  | none => simp [handle?, forgetHandle?]
  | some name => exact s.handles_erase name

theorem shares_erase (s : Session) (name : String) :
    s.shares = (s.frame.caches.get? name).toList +
      (s.withCaches (s.frame.caches.erase name)).shares := by
  simp only [shares, withCaches, Frame.sharesHeld, Names.values_erase s.frame.caches name,
    add_assoc]

theorem shares_put (s : Session) (name : String) (c : CacheId) :
    (s.withCaches (s.frame.caches.put name c)).shares
      = c ::ₘ (s.withCaches (s.frame.caches.erase name)).shares := by
  simp only [shares, withCaches, Frame.sharesHeld, Names.values_put, Multiset.cons_add]

/-- The shares that are not the binding of the running thread. -/
def looseShares (s : Session) : Multiset CacheId :=
  s.frame.caches.values + (s.waiting.map Frame.sharesHeld).sum

theorem shares_withThread (s : Session) (t : Thread) :
    (s.withThread t).shares = t.binding.owned + s.looseShares := by
  simp only [shares, withThread, Frame.sharesHeld, looseShares]
  rw [add_comm (s.frame.caches.values : Multiset CacheId), add_assoc]

theorem shares_eq (s : Session) : s.shares = s.frame.thread.binding.owned + s.looseShares :=
  s.shares_withThread s.frame.thread

/-- Naming a handle that is held but has no name yet. -/
theorem nameHandle_does (h : ({ s.world out with handles := b ::ₘ s.handles } : World).Sound)
    (quiet : ∀ m : Move, m.Quiet → P m) (name : String) :
    World.Does P { s.world out with handles := b ::ₘ s.handles } (s.nameHandle name b)
      fun s' V => V = s'.world out ∧ s'.allocators = s.allocators ∧ s'.blocks = s.blocks ∧
        s'.frame.handles.get? name = some b ∧ ∀ x, s.store.records.get? b.record = some x →
          ∃ n, s'.store.records.get? b.record = some { x with references := n } := by
  have held : b ::ₘ s.handles = (s.frame.handles.get? name).toList +
      (s.withHandles (s.frame.handles.put name b)).handles := by
    rw [handles_put, s.handles_erase name, Multiset.add_cons]
  refine .bind h (World.dropHandle?_does h quiet held) ?_
  rintro w V hV ⟨rfl, untouched, dropped⟩
  refine .still rfl ⟨rfl, rfl, rfl, ?_, fun x hx => ?_⟩
  · exact (Names.get?_put ..).trans (if_pos rfl)
  cases old : s.frame.handles.get? name with
  | none => exact ⟨x.references, by rw [withStore, untouched old]; exact hx⟩
  | some d =>
    refine (dropped d old).kept b.record x hx ?_
    by_cases same : b.record = d.record
    · -- The handle that loses its name is on the same buffer, so the buffer has two references.
      have references := (h.at_record hx).references
      have other : d ∈ s.handles := mem_handles old
      have : 0 < s.handles.countP (·.record = b.record) :=
        Multiset.countP_pos.2 ⟨d, other, same.symm⟩
      rw [Multiset.countP_cons_of_pos _ (by rfl)] at references
      exact .inr (by omega)
    · exact .inl same

/-- Naming what an operation gave, and showing it. -/
theorem nameOutcome_does {outcome : Except Refusal Handle}
    (h : ({ s.world out with handles := World.given outcome + s.handles } : World).Sound)
    (quiet : ∀ m : Move, m.Quiet → P m) (gives : act.result? = some name)
    (allocators : s.allocators = s₀.allocators) (blocks : s.blocks = s₀.blocks)
    (start : s₀.Sound out)
    (rules : ∀ v, outcome = .error (.violation v) → s₀.Breaks act v) :
    World.Does P { s.world out with handles := World.given outcome + s.handles }
      (s.nameOutcome name outcome) (s₀.After act out) := by
  have same : ∀ answer, s₀.ledger act answer out = out := ledger_of_result gives
  cases outcome with
  | error e =>
    refine .still rfl (.of_kept start (same _) ?_ allocators blocks (fun v hv => rules v ?_) ?_)
    · simp [world]
    · cases hv
      rfl
    · simp
  | ok b =>
    rw [World.given_ok, Multiset.singleton_add] at h ⊢
    obtain ⟨x, hx, -, -, image, -⟩ := h.exists_record (b := b) (by simp)
    have view : handleView s.store b
        = .ok ⟨x.area, x.references, x.published, x.capacity, b.image⟩ := by
      simp [handleView, Store.record_of_get? (show s.store.records.get? _ = _ from hx)]
    simp only [nameOutcome, view, Fault.ok_bind]
    refine .bind h (nameHandle_does h quiet name) ?_
    rintro s' V hV ⟨rfl, allocators', blocks', found, stays⟩
    refine .still rfl (.of_kept start (same _) rfl (allocators'.trans allocators)
      (blocks'.trans blocks) (by simp) fun v hv => ?_)
    cases hv
    obtain ⟨n, hn⟩ := stays x hx
    exact ⟨name, b, _, gives, found, hn, rfl, rfl, rfl, rfl⟩

/-- Naming what an allocation gave. An allocation breaks no rule. -/
theorem nameAllocated_does {outcome : Except StorageError Handle}
    (h : ({ s.world out with handles := World.given outcome + s.handles } : World).Sound)
    (quiet : ∀ m : Move, m.Quiet → P m) (gives : act.result? = some name)
    (allocators : s.allocators = s₀.allocators) (blocks : s.blocks = s₀.blocks)
    (start : s₀.Sound out) :
    World.Does P { s.world out with handles := World.given outcome + s.handles }
      (s.nameOutcome name (Store.asRefusal outcome)) (s₀.After act out) := by
  rw [← World.given_asRefusal] at h ⊢
  refine nameOutcome_does h quiet gives allocators blocks start ?_
  intro v hv
  cases outcome <;> cases hv

/-- Naming a share that is held but has no name yet. -/
theorem nameCache_does (h : ({ s.world out with shares := c ::ₘ s.shares } : World).Sound)
    (quiet : ∀ m : Move, m.Quiet → P m) (name : String) :
    World.Does P { s.world out with shares := c ::ₘ s.shares } (s.nameCache name c)
      fun s' V => V = s'.world out ∧ s'.allocators = s.allocators ∧ s'.blocks = s.blocks := by
  have held : c ::ₘ s.shares = (s.frame.caches.get? name).toList +
      (s.withCaches (s.frame.caches.put name c)).shares := by
    rw [shares_put, s.shares_erase name, Multiset.add_cons]
  unfold nameCache
  cases old : s.frame.caches.get? name with
  | none =>
    rw [old, Option.toList_none, Multiset.coe_nil, zero_add] at held
    refine .still rfl ⟨?_, rfl, rfl⟩
    rw [held]
    rfl
  | some d =>
    rw [old, Option.toList_some, Multiset.coe_singleton, Multiset.singleton_add] at held
    refine .bind h (World.dropOwner_does h quiet held) ?_
    rintro w V hV rfl
    exact .still rfl ⟨rfl, rfl, rfl⟩

/-- A share gets a name, or is given up. -/
theorem nameOrDropCache_does
    (h : ({ s.world out with shares := c ::ₘ s.shares } : World).Sound)
    (quiet : ∀ m : Move, m.Quiet → P m) (name : Option String) :
    World.Does P { s.world out with shares := c ::ₘ s.shares } (s.nameOrDropCache name c)
      fun s' V => V = s'.world out ∧ s'.allocators = s.allocators ∧ s'.blocks = s.blocks := by
  cases name with
  | some name => exact nameCache_does h quiet name
  | none =>
    refine .bind h (World.dropOwner_does h quiet rfl) ?_
    rintro w V hV rfl
    exact .still rfl ⟨rfl, rfl, rfl⟩

/-! ## 6. Ending a thread -/

theorem dropHandles_does {W : World} (h : W.Sound) (quiet : ∀ m : Move, m.Quiet → P m)
    (bs : List Handle) {H : Multiset Handle} (held : W.handles = bs + H) :
    W.Does P (dropHandles W.store bs) fun w V => V = { W with store := w, handles := H } := by
  induction bs generalizing W with
  | nil =>
    obtain rfl : W.handles = H := by simpa using held
    exact .still rfl rfl
  | cons b bs ih =>
    rw [← Multiset.cons_coe, Multiset.cons_add] at held
    refine .bind h (World.dropHandle_does h quiet held) ?_
    rintro w V hV ⟨rfl, -⟩
    exact ih hV rfl

theorem dropOwners_does {W : World} (h : W.Sound) (quiet : ∀ m : Move, m.Quiet → P m)
    (cs : List CacheId) {O : Multiset CacheId} (held : W.shares = cs + O) :
    W.Does P (dropOwners W.store cs) fun w V => V = { W with store := w, shares := O } := by
  induction cs generalizing W with
  | nil =>
    obtain rfl : W.shares = O := by simpa using held
    exact .still rfl rfl
  | cons c cs ih =>
    rw [← Multiset.cons_coe, Multiset.cons_add] at held
    refine .bind h (World.dropOwner_does h quiet held) ?_
    rintro w V hV rfl
    exact ih hV rfl

/-- Closing a thread gives up all that it holds, and leaves it without a binding. -/
theorem closeFrame_does (h : (s.world out).Sound) (quiet : ∀ m : Move, m.Quiet → P m) :
    (s.world out).Does P s.closeFrame fun s' V =>
      V = s'.world out ∧ s'.allocators = s.allocators ∧ s'.waiting = s.waiting ∧
        s'.frame.handlesHeld = 0 ∧ s'.frame.sharesHeld = 0 ∧ s'.frame.blocksHeld = 0 := by
  refine .bind h (dropHandles_does h quiet s.frame.handles.values rfl) ?_
  rintro w V hV rfl
  refine .bind hV (dropOwners_does hV quiet s.frame.caches.values
    (O := s.frame.thread.binding.owned + (s.waiting.map Frame.sharesHeld).sum) ?_) ?_
  · exact add_assoc ..
  rintro w V hV rfl
  refine .bind hV (World.destroyBinding_does hV quiet s.frame.thread rfl) ?_
  rintro ⟨thread, w⟩ V hV ⟨rfl, destroyed⟩
  have unowned : (⟨thread, .empty, .empty, .empty⟩ : Frame).sharesHeld = 0 := by
    simp only [Frame.sharesHeld, Names.values_empty]
    rw [destroyed]
    rfl
  have unheld : (⟨thread, .empty, .empty, .empty⟩ : Frame).handlesHeld = 0 := rfl
  refine .still rfl ⟨?_, rfl, rfl, unheld, unowned, rfl⟩
  simp only [world, handles, shares, unheld, unowned, zero_add]
  rw [destroyed]
  simp

end Session

end PixelPool
