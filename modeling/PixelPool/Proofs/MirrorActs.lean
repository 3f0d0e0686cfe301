import PixelPool.Proofs.Mirrors
import PixelPool.Proofs.TwinSessions

/-!
Acts on one side of a session.

An act mentions names, and what these stand for, and what it makes, it *concerns*
(`Session.concerns`). `Session.Mirrors S s₀ t₀ s t` says that `t` has names for what is on the side
in `s`, and that since `s₀` and `t₀` nothing has changed on the other side. Main statement: an act
that concerns things of the side alone gets the same answer in both sessions up to the numbers of
caches, and the sessions go on mirroring one another (`Session.Mirrors.perform_mirrors`).
-/

namespace PixelPool

/-! ## 1. What an act concerns -/

/-- The caches and allocators that an act can concern. A buffer concerns its cache. -/
inductive Thing where
  | cache (c : CacheId)
  | allocator (a : AllocatorId)
  deriving DecidableEq

/-- Whether a thing is on the side. -/
def Side.owns (S : Side) : Thing → Bool
  | .cache c => S.caches.own c
  | .allocator a => S.allocators.own a

/-- The names that an act mentions, the name it gives to its result among them. -/
def Act.mentions : Act → List (Kind × String)
  | .newAllocator name _ => [(.allocator, name)]
  | .newCache name none _ => [(.cache, name)]
  | .newCache name (some allocator) _ => [(.allocator, allocator), (.cache, name)]
  | .shareCache cache name => [(.cache, cache), (.cache, name)]
  | .dropCache cache | .inspect cache | .emptyReserve cache => [(.cache, cache)]
  | .list cache image => [(.cache, cache), (.image, image)]
  | .acquire cache image _ name | .request cache image _ name | .lookup cache image _ name =>
    [(.cache, cache), (.image, image), (.buffer, name)]
  | .publish cache buffer | .unpublish cache buffer | .resize cache buffer _ _
  | .release cache buffer => [(.cache, cache), (.buffer, buffer)]
  | .dropHandle buffer | .readPixels buffer | .writePixels buffer _ | .publishOwn buffer
  | .unpublishOwn buffer => [(.buffer, buffer)]
  | .copyHandle buffer name | .sameRecord buffer name => [(.buffer, buffer), (.buffer, name)]
  | .exchange cache image _ buffer name =>
    [(.cache, cache), (.image, image), (.buffer, name)] ++ buffer.toList.map (.buffer, ·)
  | .describe (.buffer name) => [(.buffer, name)]
  | .describe (.cache name) => [(.cache, name)]
  | .describe (.image name) => [(.image, name)]
  | .newImage name _ _ => [(.image, name)]
  | .allocateBlock allocator _ name => [(.allocator, allocator), (.block, name)]
  | .freeBlock allocator block _ => [(.allocator, allocator), (.block, block)]
  | .incomplete names _ => names
  | _ => []

/-- Whether an act works on what it mentions alone, without a look at the running thread or at the
settings that all threads share. -/
def Act.explicit : Act → Bool
  | .requestHere .. | .exchangeOwn .. | .current _ | .bind .. | .unbind | .destroyBinding
  | .install _ | .sharedConfig | .environmentConfig | .installAllocator _
  | .allocateShared _ => false
  | _ => true

/-- Whether an act neither starts nor ends a thread, and makes no image. -/
def Act.plain : Act → Bool
  | .enterThread | .leaveThread | .newImage .. => false
  | _ => true

namespace Session

/-- What a name stands for. -/
def named (s : Session) : Kind × String → List Thing
  | (.cache, name) => (s.frame.caches.get? name).toList.map .cache
  | (.buffer, name) => (s.frame.handles.get? name).toList.map fun b => .cache b.cache
  | (.image, _) => []
  | (.allocator, name) => (s.allocators.get? name).toList.map .allocator
  | (.block, name) => (s.frame.blocks.get? name).toList.map fun l => .allocator l.source

/-- What an act makes, and the allocator that a new cache gets. -/
def makes (s : Session) : Act → List Thing
  | .newAllocator .. => [.allocator s.store.allocators.next]
  | .newCache _ none _ => [.allocator s.store.sharedAllocator.1, .cache s.store.caches.next]
  | .newCache _ (some allocator) _ =>
    (s.allocators.get? allocator).toList.map fun _ => .cache s.store.caches.next
  | _ => []

/-- The things that an act concerns: those that it mentions, and those that it makes. -/
def concerns (s : Session) (act : Act) : List Thing :=
  act.mentions.flatMap s.named ++ s.makes act

end Session

/-! ## 2. Answers up to the numbers of caches -/

/-- The record under other numbers of caches. -/
def Record.relabel (κ : CacheId → CacheId) (x : Record) : Record :=
  { x with publisher := x.publisher.map κ }

/-- Whether an answer to an act shows the number of a cache. -/
def Answer.numbered : Act → Answer → Bool
  | .newCache .., .number _ => true
  | .describe (.buffer _), .text _ => true
  | .describe (.cache _), .text _ => true
  | _, .cacheInfo .. => true
  | _, .cache _ => true
  | _, .listing _ => true
  | _, _ => false

/-- Two answers to an act that differ in the numbers of caches alone. -/
inductive Answer.Renumbered (κ : CacheId → CacheId) : Act → Answer → Answer → Prop where
  | same {act : Act} {answer : Answer} (plain : answer.numbered act = false) :
      Renumbered κ act answer answer
  | newCache {name : String} {allocator : Option String} {cap : Option Nat} (c : CacheId) :
      Renumbered κ (.newCache name allocator cap) (.number c) (.number (κ c))
  | inspect {cache : String} (c : CacheId) (cap length : Nat) (here : Bool) :
      Renumbered κ (.inspect cache) (.cacheInfo c cap length here)
        (.cacheInfo (κ c) cap length here)
  | list {cache image : String} (l : Listing) :
      Renumbered κ (.list cache image) (.listing l) (.listing { l with owner := κ l.owner })
  | describeBuffer {name : String} (k : ImageKey) (x : Record) :
      Renumbered κ (.describe (.buffer name)) (.text (handleText k x))
        (.text (handleText k (x.relabel κ)))
  | describeCache {name : String} (c : CacheId) (images : Nat) (slots : List Record) (cap : Nat) :
      Renumbered κ (.describe (.cache name)) (.text (cacheText c images slots cap))
        (.text (cacheText (κ c) images (slots.map (Record.relabel κ)) cap))

theorem numbered_refused (act : Act) (e : Refusal) :
    (Answer.refused e).numbered act = false := by
  unfold Answer.numbered
  split <;> simp_all

theorem numbered_done (act : Act) : Answer.done.numbered act = false := by
  unfold Answer.numbered
  split <;> simp_all

theorem numbered_handle (act : Act) (v : HandleView) : (Answer.handle v).numbered act = false := by
  unfold Answer.numbered
  split <;> simp_all

theorem numbered_unknownName (act : Act) (kind : Kind) (name : String) :
    (Answer.unknownName kind name).numbered act = false := by
  unfold Answer.numbered
  split <;> simp_all

/-! ## 3. Names -/

namespace Names

variable {α : Type} {own : α → Bool} {g : α → α} {P : α → Prop} {s₀ t₀ s t : Names α}
  {name : String} {a : α}

/-- Names that `t` has for the own things of `s`, changed by `g`; since `s₀` and `t₀` no name of
another thing has changed. -/
structure Mirrors (own : α → Bool) (g : α → α) (P : α → Prop) (s₀ t₀ s t : Names α) : Prop where
  found : ∀ name, (∀ a, s.get? name = some a → own a = true) →
    t.get? name = (s.get? name).map g
  each : ∀ name a, s.get? name = some a → P a
  rest : ∀ name a, own a = false → (s.get? name = some a ↔ s₀.get? name = some a)
  still : ∀ name a, own a = false → s.get? name = some a → t.get? name = t₀.get? name

namespace Mirrors

theorem put (M : Mirrors own g P s₀ t₀ s t) (free : ∀ b, s.get? name = some b → own b = true)
    (mine : own a = true) (holds : P a) :
    Mirrors own g P s₀ t₀ (s.put name a) (t.put name (g a)) where
  found n all := by
    rw [get?_put, get?_put]
    rw [get?_put] at all
    split
    · rfl
    · next h => exact M.found n (by simpa [h] using all)
  each n b hb := by
    rw [get?_put] at hb
    split at hb
    · exact Option.some.inj hb ▸ holds
    · exact M.each n b hb
  rest n b other := by
    rw [get?_put]
    split
    · next h =>
      subst h
      constructor
      · intro hb
        rw [← Option.some.inj hb, mine] at other
        cases other
      · intro hb
        have foreign := free b ((M.rest n b other).2 hb)
        rw [foreign] at other
        cases other
    · exact M.rest n b other
  still n b other hb := by
    rw [get?_put] at hb ⊢
    split at hb
    · rw [← Option.some.inj hb, mine] at other
      cases other
    · next h =>
      rw [if_neg h]
      exact M.still n b other hb

theorem erase (M : Mirrors own g P s₀ t₀ s t) (free : ∀ b, s.get? name = some b → own b = true) :
    Mirrors own g P s₀ t₀ (s.erase name) (t.erase name) where
  found n all := by
    rw [get?_erase, get?_erase]
    rw [get?_erase] at all
    split
    · rfl
    · next h => exact M.found n (by simpa [h] using all)
  each n b hb := by
    rw [get?_erase] at hb
    split at hb
    · cases hb
    · exact M.each n b hb
  rest n b other := by
    rw [get?_erase]
    split
    · next h =>
      subst h
      constructor
      · intro absurd
        cases absurd
      · intro hb
        have foreign := free b ((M.rest n b other).2 hb)
        rw [foreign] at other
        cases other
    · exact M.rest n b other
  still n b other hb := by
    rw [get?_erase] at hb ⊢
    split at hb
    · cases hb
    · next h =>
      rw [if_neg h]
      exact M.still n b other hb

end Mirrors

end Names

/-! ## 4. Sessions -/

/-- The block with the number of its allocator on a side. -/
def Loan.renumber (S : Side) (l : Loan) : Loan :=
  { l with source := S.allocators.number l.source }

namespace Session

open Fault

/-- An act concerns things of the side alone. -/
def Within (S : Side) (s : Session) (act : Act) : Prop :=
  ∀ thing ∈ s.concerns act, S.owns thing = true

namespace Within

variable {S : Side} {s : Session} {act : Act} {n : String}

theorem cache (h : Within S s act) (mentioned : (.cache, n) ∈ act.mentions) (c : CacheId)
    (hc : s.frame.caches.get? n = some c) : S.caches.own c = true :=
  h (.cache c) (List.mem_append_left _
    (List.mem_flatMap.2 ⟨_, mentioned, by simp [named, hc]⟩))

theorem handle (h : Within S s act) (mentioned : (.buffer, n) ∈ act.mentions) (b : Handle)
    (hb : s.frame.handles.get? n = some b) : S.caches.own b.cache = true :=
  h (.cache b.cache) (List.mem_append_left _
    (List.mem_flatMap.2 ⟨_, mentioned, by simp [named, hb]⟩))

theorem allocator (h : Within S s act) (mentioned : (.allocator, n) ∈ act.mentions)
    (a : AllocatorId) (ha : s.allocators.get? n = some a) : S.allocators.own a = true :=
  h (.allocator a) (List.mem_append_left _
    (List.mem_flatMap.2 ⟨_, mentioned, by simp [named, ha]⟩))

theorem block (h : Within S s act) (mentioned : (.block, n) ∈ act.mentions) (l : Loan)
    (hl : s.frame.blocks.get? n = some l) : S.allocators.own l.source = true :=
  h (.allocator l.source) (List.mem_append_left _
    (List.mem_flatMap.2 ⟨_, mentioned, by simp [named, hl]⟩))

theorem made (h : Within S s act) {x : Thing} (made : x ∈ s.makes act) :
    S.owns x = true :=
  h x (List.mem_append_right _ made)

end Within

/-- The session `t` has what `s` has on a side, and names for it; since `s₀` and `t₀` nothing has
changed on the other side. -/
structure Mirrors (S : Side) (s₀ t₀ s t : Session) : Prop where
  store : Store.Mirrors S s₀.store s.store t.store
  handles : Names.Mirrors (fun b => S.caches.own b.cache) (Handle.renumber S)
    (fun b => S.records.own b.record = S.caches.own b.cache) s₀.frame.handles t₀.frame.handles
    s.frame.handles t.frame.handles
  caches : Names.Mirrors S.caches.own S.caches.number (fun _ => True) s₀.frame.caches
    t₀.frame.caches s.frame.caches t.frame.caches
  blocks : Names.Mirrors (fun l => S.allocators.own l.source) (Loan.renumber S) (fun _ => True)
    s₀.frame.blocks t₀.frame.blocks s.frame.blocks t.frame.blocks
  allocators : Names.Mirrors S.allocators.own S.allocators.number (fun _ => True) s₀.allocators
    t₀.allocators s.allocators t.allocators
  images : t.images = s.images
  imaged : s.images = s₀.images
  thread : t.frame.thread = s.frame.thread
  threaded : s.frame.thread = s₀.frame.thread
  waiting : s.waiting = s₀.waiting ∧ t.waiting = t₀.waiting
  nextThread : t.nextThread = s.nextThread
  numbered : s.nextThread = s₀.nextThread

/-- Two answers that agree up to numbers, with sessions that mirror one another. -/
structure Mirrored (S : Side) (s₀ t₀ : Session) (act : Act) (a b : Answer × Session) : Prop where
  answer : Answer.Renumbered S.caches.number act a.1 b.1
  sessions : Mirrors S s₀ t₀ a.2 b.2

namespace Mirrors

variable {S : Side} {s₀ t₀ s t : Session} {act : Act} {name : String} {b : Handle} {c : CacheId}
  {w v : Store}

theorem withStore (M : Mirrors S s₀ t₀ s t) (stores : Store.Mirrors S s₀.store w v) :
    Mirrors S s₀ t₀ (s.withStore w) (t.withStore v) :=
  { M with store := stores }

theorem own_handle (M : Mirrors S s₀ t₀ s t) (hb : s.frame.handles.get? name = some b)
    (own : S.caches.own b.cache = true) : b.Own S :=
  ⟨(M.handles.each name b hb).trans own, own⟩

/-! ### Names that come and go -/

theorem nameHandle_mirrors (M : Mirrors S s₀ t₀ s t) (own : b.Own S)
    (free : ∀ d, s.frame.handles.get? name = some d → S.caches.own d.cache = true) :
    Both (s.nameHandle name b) (t.nameHandle name (b.renumber S)) (Mirrors S s₀ t₀) := by
  unfold nameHandle
  rw [M.handles.found name free]
  refine (M.store.dropHandle?_mirrors fun d hd => M.own_handle hd (free d hd)).bind fun w v N => ?_
  exact both_ok
    { M with
      store := N
      handles := M.handles.put free own.cache (own.record.trans own.cache.symm) }

theorem nameCache_mirrors (M : Mirrors S s₀ t₀ s t) (own : S.caches.own c = true)
    (free : ∀ d, s.frame.caches.get? name = some d → S.caches.own d = true) :
    Both (s.nameCache name c) (t.nameCache name (S.caches.number c)) (Mirrors S s₀ t₀) := by
  have named : Mirrors S s₀ t₀ (s.withCaches (s.frame.caches.put name c))
      (t.withCaches (t.frame.caches.put name (S.caches.number c))) :=
    { M with caches := M.caches.put free own trivial }
  unfold nameCache
  rw [M.caches.found name free]
  cases old : s.frame.caches.get? name with
  | none => exact both_ok named
  | some d =>
    exact (M.store.dropOwner_mirrors (free d old)).bind fun w v N => both_ok (named.withStore N)

theorem handleView_both (M : Mirrors S s₀ t₀ s t) (own : b.Own S) :
    Both (handleView s.store b) (handleView t.store (b.renumber S)) fun x y => y = x :=
  M.store.record_both own.record fun _ _ _ => both_ok rfl

/-- Naming what an operation gave. -/
theorem nameOutcome_mirrors (M : Mirrors S s₀ t₀ s t) {outcome : Except Refusal Handle}
    (own : Store.OwnOutcome S outcome)
    (free : ∀ d, s.frame.handles.get? name = some d → S.caches.own d.cache = true) :
    Both (s.nameOutcome name outcome) (t.nameOutcome name (outcome.map (Handle.renumber S)))
      (Mirrored S s₀ t₀ act) := by
  cases outcome with
  | error e => exact both_ok ⟨.same (numbered_refused act e), M⟩
  | ok b =>
    have ownB := own b rfl
    refine (M.handleView_both ownB).bind fun _ view same => ?_
    subst same
    refine (M.nameHandle_mirrors ownB free).bind fun s t M => ?_
    exact both_ok ⟨.same (numbered_handle act view), M⟩

/-! ### Looking up names -/

theorem unknownName_both (M : Mirrors S s₀ t₀ s t) (kind : Kind) :
    Both (.ok (.unknownName kind name, s)) (.ok (.unknownName kind name, t))
      (Mirrored S s₀ t₀ act) :=
  both_ok ⟨.same (numbered_unknownName act kind name), M⟩

theorem withCache_both {go go' : CacheId → Except Fault (Answer × Session)}
    (M : Mirrors S s₀ t₀ s t)
    (own : ∀ c, s.frame.caches.get? name = some c → S.caches.own c = true)
    (rest : ∀ c, s.frame.caches.get? name = some c → S.caches.own c = true →
      Both (go c) (go' (S.caches.number c)) (Mirrored S s₀ t₀ act)) :
    Both (s.withCache name go) (t.withCache name go') (Mirrored S s₀ t₀ act) := by
  unfold withCache
  rw [M.caches.found name own]
  cases hc : s.frame.caches.get? name with
  | some c => exact rest c hc (own c hc)
  | none => exact M.unknownName_both .cache

theorem withHandle_both {go go' : Handle → Except Fault (Answer × Session)}
    (M : Mirrors S s₀ t₀ s t)
    (own : ∀ b, s.frame.handles.get? name = some b → S.caches.own b.cache = true)
    (rest : ∀ b, s.frame.handles.get? name = some b → b.Own S →
      Both (go b) (go' (b.renumber S)) (Mirrored S s₀ t₀ act)) :
    Both (s.withHandle name go) (t.withHandle name go') (Mirrored S s₀ t₀ act) := by
  unfold withHandle
  rw [M.handles.found name own]
  cases hb : s.frame.handles.get? name with
  | some b => exact rest b hb (M.own_handle hb (own b hb))
  | none => exact M.unknownName_both .buffer

theorem withImage_both {go go' : Image → Except Fault (Answer × Session)}
    (M : Mirrors S s₀ t₀ s t)
    (rest : ∀ i, Both (go i) (go' i) (Mirrored S s₀ t₀ act)) :
    Both (s.withImage name go) (t.withImage name go') (Mirrored S s₀ t₀ act) := by
  unfold withImage
  rw [M.images]
  cases s.images.get? name with
  | some i => exact rest i
  | none => exact M.unknownName_both .image

theorem withAllocator_both {go go' : AllocatorId → Except Fault (Answer × Session)}
    (M : Mirrors S s₀ t₀ s t)
    (own : ∀ a, s.allocators.get? name = some a → S.allocators.own a = true)
    (rest : ∀ a, s.allocators.get? name = some a → S.allocators.own a = true →
      Both (go a) (go' (S.allocators.number a)) (Mirrored S s₀ t₀ act)) :
    Both (s.withAllocator name go) (t.withAllocator name go') (Mirrored S s₀ t₀ act) := by
  unfold withAllocator
  rw [M.allocators.found name own]
  cases ha : s.allocators.get? name with
  | some a => exact rest a ha (own a ha)
  | none => exact M.unknownName_both .allocator

theorem withBlock_both {go go' : Loan → Except Fault (Answer × Session)}
    (M : Mirrors S s₀ t₀ s t)
    (own : ∀ l, s.frame.blocks.get? name = some l → S.allocators.own l.source = true)
    (rest : ∀ l, s.frame.blocks.get? name = some l → S.allocators.own l.source = true →
      Both (go l) (go' (l.renumber S)) (Mirrored S s₀ t₀ act)) :
    Both (s.withBlock name go) (t.withBlock name go') (Mirrored S s₀ t₀ act) := by
  unfold withBlock
  rw [M.blocks.found name own]
  cases hl : s.frame.blocks.get? name with
  | some l => exact rest l hl (own l hl)
  | none => exact M.unknownName_both .block

/-! ## 5. Acts -/

theorem newAllocator_mirrors (M : Mirrors S s₀ t₀ s t) (limit : Option Nat)
    (within : Within S s (.newAllocator name limit)) :
    Both (s.perform (.newAllocator name limit)) (t.perform (.newAllocator name limit))
      (Mirrored S s₀ t₀ (.newAllocator name limit)) := by
  have own : S.allocators.own s.store.allocators.next = true :=
    within.made (x := .allocator _) (by simp [makes])
  have next : t.store.allocators.next = S.allocators.number s.store.allocators.next :=
    M.store.allocators.next
  have free := within.allocator (n := name) (by simp [Act.mentions])
  have named := M.allocators.put free own trivial
  rw [← next] at named
  exact both_ok ⟨.same rfl,
    { M with store := (M.store.createAllocator own limit).2, allocators := named }⟩

/-- A new cache gets its name. -/
theorem nameMade_mirrors (M : Mirrors S s₀ t₀ s t) {allocator : Option String} {cap : Option Nat}
    (within : Within S s (.newCache name allocator cap)) {p q : CacheId × Store}
    (made : Store.Mirrored S s₀.store S.caches.number (fun c => S.caches.own c = true) p q) :
    Both (do let s ← (s.withStore p.2).nameCache name p.1; return (.number p.1, s))
      (do let t ← (t.withStore q.2).nameCache name q.1; return (.number q.1, t))
      (Mirrored S s₀ t₀ (.newCache name allocator cap)) := by
  have free := within.cache (n := name) (by cases allocator <;> simp [Act.mentions])
  rw [made.same]
  refine ((M.withStore made.stores).nameCache_mirrors made.own free).bind fun s t M => ?_
  exact both_ok ⟨.newCache p.1, M⟩

theorem newCache_mirrors (M : Mirrors S s₀ t₀ s t) {allocator : Option String} {cap : Option Nat}
    (within : Within S s (.newCache name allocator cap)) :
    Both (s.perform (.newCache name allocator cap)) (t.perform (.newCache name allocator cap))
      (Mirrored S s₀ t₀ (.newCache name allocator cap)) := by
  cases allocator with
  | none =>
    have ownA : S.allocators.own s.store.sharedAllocator.1 = true :=
      within.made (x := .allocator _) (by simp [makes])
    have own : S.caches.own s.store.caches.next = true :=
      within.made (x := .cache _) (by simp [makes])
    have made : Store.Mirrored S s₀.store S.caches.number (fun c => S.caches.own c = true)
        (s.store.createWithConfig s.frame.thread.id ⟨cap.getD Config.defaultCap⟩)
        (t.store.createWithConfig t.frame.thread.id ⟨cap.getD Config.defaultCap⟩) := by
      rw [M.thread]
      exact M.store.createWithConfig_mirrors ownA own _ _
    exact M.nameMade_mirrors within made
  | some allocator =>
    refine M.withAllocator_both (within.allocator (by simp [Act.mentions])) fun a ha ownA => ?_
    have own : S.caches.own s.store.caches.next = true :=
      within.made (x := .cache _) (by simp [makes, ha])
    have made : Store.Mirrored S s₀.store S.caches.number (fun c => S.caches.own c = true)
        (s.store.createCache s.frame.thread.id ⟨cap.getD Config.defaultCap⟩ a)
        (t.store.createCache t.frame.thread.id ⟨cap.getD Config.defaultCap⟩
          (S.allocators.number a)) := by
      rw [M.thread]
      exact M.store.createCache_mirrors own ownA _ _
    exact M.nameMade_mirrors within made

/-- The name of a handle goes, and the handle with it. -/
theorem eraseHandle (M : Mirrors S s₀ t₀ s t) (stores : Store.Mirrors S s₀.store w v)
    (free : ∀ d, s.frame.handles.get? name = some d → S.caches.own d.cache = true) :
    Mirrors S s₀ t₀ ((s.withHandles (s.frame.handles.erase name)).withStore w)
      ((t.withHandles (t.frame.handles.erase name)).withStore v) :=
  { M with
    store := stores
    handles := M.handles.erase free }

theorem shareCache_mirrors (M : Mirrors S s₀ t₀ s t) {cache : String}
    (within : Within S s (.shareCache cache name)) :
    Both (s.perform (.shareCache cache name)) (t.perform (.shareCache cache name))
      (Mirrored S s₀ t₀ (.shareCache cache name)) := by
  refine M.withCache_both (within.cache (by simp [Act.mentions])) fun c hc own => ?_
  refine ((M.withStore (M.store.addOwner own)).nameCache_mirrors own
    (within.cache (by simp [Act.mentions]))).bind fun s t M => ?_
  exact both_ok ⟨.same rfl, M⟩

/-- What an allocation gave gets its name. -/
theorem nameAllocated_mirrors (M : Mirrors S s₀ t₀ s t)
    {p q : Except StorageError Handle × Store}
    (given : Store.Mirrored S s₀.store (Except.map (Handle.renumber S)) (Store.OwnOutcome S) p q)
    (free : ∀ d, s.frame.handles.get? name = some d → S.caches.own d.cache = true) :
    Both ((s.withStore p.2).nameOutcome name (Store.asRefusal p.1))
      ((t.withStore q.2).nameOutcome name (Store.asRefusal q.1)) (Mirrored S s₀ t₀ act) := by
  have outcome : Store.asRefusal q.1 = (Store.asRefusal p.1).map (Handle.renumber S) := by
    rw [given.same]
    cases p.1 <;> rfl
  have own : Store.OwnOutcome S (Store.asRefusal p.1) := by
    intro b hb
    refine given.own b ?_
    cases h : p.1 with
    | error e =>
      rw [h] at hb
      cases hb
    | ok d =>
      rw [h] at hb
      exact congrArg Except.ok (Except.ok.inj hb)
  rw [outcome]
  exact (M.withStore given.stores).nameOutcome_mirrors own free

/-- An operation that is done or refused. -/
theorem doneOrRefused_mirrors (M : Mirrors S s₀ t₀ s t) {p q : Except Refusal Unit × Store}
    (given : Store.Mirrored S s₀.store id (fun _ => True) p q) :
    Mirrored S s₀ t₀ act (doneOrRefused p.1, s.withStore p.2)
      (doneOrRefused q.1, t.withStore q.2) := by
  have same : q.1 = p.1 := given.same
  refine ⟨?_, M.withStore given.stores⟩
  rw [same]
  cases p.1 with
  | ok => exact .same (numbered_done act)
  | error e => exact .same (numbered_refused act e)

/-- A swap of what a name stands for, if one is given. -/
theorem exchange_mirrors (M : Mirrors S s₀ t₀ s t) {cache image : String} {area : Rect}
    {buffer : Option String} (within : Within S s (.exchange cache image area buffer name))
    (turn : S.turn = true) :
    Both (s.perform (.exchange cache image area buffer name))
      (t.perform (.exchange cache image area buffer name))
      (Mirrored S s₀ t₀ (.exchange cache image area buffer name)) := by
  have free := within.handle (n := name) (by simp [Act.mentions])
  refine M.withCache_both (within.cache (by simp [Act.mentions])) fun c hc own => ?_
  refine M.withImage_both fun i => ?_
  cases buffer with
  | none =>
    have ownOld : ∀ d, (none : Option Handle) = some d → d.Own S := fun _ absurd => by cases absurd
    refine Store.mirrored_bind (M.store.exchange_mirrors own turn ownOld i area)
      fun outcome w v ownB N => ?_
    exact (M.withStore N).nameOutcome_mirrors ownB free
  | some buffer =>
    have mine := within.handle (n := buffer) (by simp [Act.mentions])
    refine M.withHandle_both mine fun b hb ownB => ?_
    have ownOld : ∀ d, some b = some d → d.Own S := fun d hd => Option.some.inj hd ▸ ownB
    refine Store.mirrored_bind (M.store.exchange_mirrors own turn ownOld i area)
      fun outcome w v ownO N => ?_
    refine (M.eraseHandle N mine).nameOutcome_mirrors ownO fun d hd => ?_
    have remains : (s.frame.handles.erase buffer).get? name = some d := hd
    rw [Names.get?_erase] at remains
    split at remains
    · cases remains
    · exact free d remains

theorem listing_both (M : Mirrors S s₀ t₀ s t) (own : S.caches.own c = true) (k : ImageKey) :
    Both (listing s.store c k) (listing t.store (S.caches.number c) k) fun l l' =>
      l' = l.map fun l => { l with owner := S.caches.number l.owner } := by
  refine M.store.cacheAt_both own fun x hx on => both_ok ?_
  have lists : (x.renumber S).lists = x.lists.map S.records.number := rfl
  rw [lists, Lists.find?_map]
  cases found : x.lists.find? k with
  | none => rfl
  | some members =>
    have areas : (members.map S.records.number).map t.store.areaOf
        = members.map s.store.areaOf := by
      rw [List.map_map]
      refine List.map_congr_left fun r hr => M.store.areaOf_eq (on.listed r ?_)
      exact Lists.mem_all_iff.2 ⟨k, by simpa [Lists.members, found] using hr⟩
    simp [areas]

theorem describeHandle_both (M : Mirrors S s₀ t₀ s t) (own : b.Own S) :
    Both (describeHandle s.store b) (describeHandle t.store (b.renumber S)) fun text text' =>
      ∃ x, text = handleText b.image x ∧
        text' = handleText b.image (x.relabel S.caches.number) :=
  M.store.record_both own.record fun x _ _ => both_ok ⟨x, rfl, rfl⟩

/-- The records of several buffers, each described. -/
theorem describeAll_both (M : Mirrors S s₀ t₀ s t) {rs : List RecordId}
    (own : ∀ r ∈ rs, S.records.own r = true) :
    Both (rs.mapM fun r => (s.store.record r).map Record.describe)
      ((rs.map S.records.number).mapM fun r => (t.store.record r).map Record.describe)
      fun texts texts' => ∃ xs : List Record, texts = xs.map Record.describe ∧
        texts' = (xs.map (Record.relabel S.caches.number)).map Record.describe := by
  induction rs with
  | nil => exact both_ok ⟨[], rfl, rfl⟩
  | cons r rest ih =>
    have first : Both ((s.store.record r).map Record.describe)
        ((t.store.record (S.records.number r)).map Record.describe) fun text text' =>
          ∃ x : Record, text = x.describe ∧ text' = (x.relabel S.caches.number).describe := by
      rw [map_eq_bind, map_eq_bind]
      exact M.store.record_both (own r List.mem_cons_self) fun x _ _ => both_ok ⟨x, rfl, rfl⟩
    rw [List.map_cons, List.mapM_cons, List.mapM_cons]
    refine first.bind ?_
    rintro _ _ ⟨x, rfl, rfl⟩
    refine (ih fun j hj => own j (List.mem_cons_of_mem _ hj)).bind ?_
    rintro _ _ ⟨xs, rfl, rfl⟩
    exact both_ok ⟨x :: xs, rfl, rfl⟩

theorem describeCache_both (M : Mirrors S s₀ t₀ s t) (own : S.caches.own c = true) :
    Both (describeCache s.store c) (describeCache t.store (S.caches.number c)) fun text text' =>
      ∃ images slots cap, text = cacheText c images slots cap ∧
        text' = cacheText (S.caches.number c) images
          (slots.map (Record.relabel S.caches.number)) cap := by
  unfold describeCache
  refine M.store.cacheAt_both own fun x hx on => ?_
  refine M.store.cacheAt_both own fun x' hx' on' => ?_
  have slots : (x'.renumber S).reserve.slots.reverse
      = x'.reserve.slots.reverse.map S.records.number := by
    simp [Cache.renumber]
  have images : (x.renumber S).lists.entries.length = x.lists.entries.length := by
    simp [Cache.renumber, Lists.map]
  rw [slots, images]
  refine (M.describeAll_both fun r hr => on'.slots r (List.mem_reverse.1 hr)).bind ?_
  rintro texts texts' ⟨xs, rfl, rfl⟩
  exact both_ok ⟨x.lists.entries.length, xs, x'.reserve.cap, rfl, rfl⟩

theorem describe_mirrors (M : Mirrors S s₀ t₀ s t) {subject : Subject}
    (within : Within S s (.describe subject)) :
    Both (s.perform (.describe subject)) (t.perform (.describe subject))
      (Mirrored S s₀ t₀ (.describe subject)) := by
  cases subject with
  | buffer name =>
    refine M.withHandle_both (within.handle (by simp [Act.mentions])) fun b hb own => ?_
    refine (M.describeHandle_both own).bind ?_
    rintro text text' ⟨x, rfl, rfl⟩
    exact both_ok ⟨.describeBuffer b.image x, M⟩
  | cache name =>
    refine M.withCache_both (within.cache (by simp [Act.mentions])) fun c hc own => ?_
    refine (M.describeCache_both own).bind ?_
    rintro text text' ⟨images, slots, cap, rfl, rfl⟩
    exact both_ok ⟨.describeCache c images slots cap, M⟩
  | image name => exact M.withImage_both fun i => both_ok ⟨.same rfl, M⟩

theorem writePixels_mirrors (M : Mirrors S s₀ t₀ s t) (own : b.Own S) (fill : Nat → UInt8)
    (buffer : String) :
    Both (s.writePixels b fill) (t.writePixels (b.renumber S) fill)
      (Mirrored S s₀ t₀ (.writePixels buffer fill)) := by
  refine M.store.record_both own.record fun x hx on => ?_
  rw [Record.write_renumber]
  cases written : x.write fill with
  | none => exact both_ok ⟨.same rfl, M⟩
  | some p =>
    have on' := on.write written
    exact both_ok ⟨.same rfl, M.withStore (M.store.setRecord own.record on')⟩

theorem allocateBlock_both (M : Mirrors S s₀ t₀ s t) {a : AllocatorId}
    (own : S.allocators.own a = true) (size : Nat) :
    Both (s.allocateBlock a size) (t.allocateBlock (S.allocators.number a) size) fun p q =>
      q.1 = p.1 ∧ Mirrors S s₀ t₀ p.2 q.2 ∧ p.2.frame = s.frame ∧ q.2.frame = t.frame := by
  refine M.store.allocator_both own fun x => ?_
  rw [M.store.host]
  exact both_ok ⟨rfl, M.withStore (M.store.setAllocator own _), rfl, rfl⟩

theorem knows_eq (M : Mirrors S s₀ t₀ s t) {n : Kind × String} (mentioned : n ∈ act.mentions)
    (within : Within S s act) : t.knows n.1 n.2 = s.knows n.1 n.2 := by
  obtain ⟨kind, name⟩ := n
  cases kind with
  | cache => simp [knows, M.caches.found name (within.cache mentioned)]
  | buffer => simp [knows, M.handles.found name (within.handle mentioned)]
  | image => simp [knows, M.images]
  | allocator => simp [knows, M.allocators.found name (within.allocator mentioned)]
  | block => simp [knows, M.blocks.found name (within.block mentioned)]

/-- An act on the things of a side alone. -/
theorem perform_mirrors (M : Mirrors S s₀ t₀ s t) (within : Within S s act)
    (turn : S.turn = true) (explicit : act.explicit = true) (plain : act.plain = true) :
    Both (s.perform act) (t.perform act) (Mirrored S s₀ t₀ act) := by
  cases act with
  | newAllocator name limit => exact M.newAllocator_mirrors limit within
  | newImage name bytesPerPixel key => cases plain
  | newCache name allocator cap => exact M.newCache_mirrors within
  | shareCache cache name => exact M.shareCache_mirrors within
  | dropCache cache =>
    refine M.withCache_both (within.cache (by simp [Act.mentions])) fun c hc own => ?_
    refine (M.store.dropOwner_mirrors own).bind fun w v N => both_ok ⟨.same rfl, ?_⟩
    exact { M with
      store := N
      caches := M.caches.erase (within.cache (by simp [Act.mentions])) }
  | inspect cache =>
    refine M.withCache_both (within.cache (by simp [Act.mentions])) fun c hc own => ?_
    refine M.store.cacheAt_both own fun x hx on => both_ok ⟨?_, M⟩
    have length : (x.renumber S).reserve.slots.length = x.reserve.slots.length := by
      simp [Cache.renumber]
    rw [length, M.thread]
    exact .inspect c x.reserve.cap x.reserve.slots.length (x.thread == s.frame.thread.id)
  | acquire cache image area name =>
    refine M.withCache_both (within.cache (by simp [Act.mentions])) fun c hc own => ?_
    exact M.withImage_both fun i => (M.store.acquire_mirrors own turn i area).bind fun p q given =>
      M.nameAllocated_mirrors given (within.handle (by simp [Act.mentions]))
  | request cache image area name =>
    refine M.withCache_both (within.cache (by simp [Act.mentions])) fun c hc own => ?_
    exact M.withImage_both fun i => (M.store.request_mirrors own turn i area).bind fun p q given =>
      M.nameAllocated_mirrors given (within.handle (by simp [Act.mentions]))
  | lookup cache image area name =>
    refine M.withCache_both (within.cache (by simp [Act.mentions])) fun c hc own => ?_
    refine M.withImage_both fun i =>
      Store.mirrored_bind (M.store.lookup_mirrors own i area) fun found w v ownB N => ?_
    cases found with
    | none => exact both_ok ⟨.same rfl, M.withStore N⟩
    | some b =>
      exact (M.withStore N).nameOutcome_mirrors (Store.ownOutcome_ok (ownB b rfl))
        (within.handle (by simp [Act.mentions]))
  | publish cache buffer =>
    refine M.withCache_both (within.cache (by simp [Act.mentions])) fun c hc own => ?_
    refine M.withHandle_both (within.handle (by simp [Act.mentions])) fun b hb ownB => ?_
    exact (M.store.publish_mirrors own ownB).bind fun p q given =>
      both_ok (M.doneOrRefused_mirrors given)
  | unpublish cache buffer =>
    refine M.withCache_both (within.cache (by simp [Act.mentions])) fun c hc own => ?_
    refine M.withHandle_both (within.handle (by simp [Act.mentions])) fun b hb ownB => ?_
    exact (M.store.unpublish_mirrors own ownB).bind fun p q given =>
      both_ok (M.doneOrRefused_mirrors given)
  | resize cache buffer area viewHeld =>
    refine M.withCache_both (within.cache (by simp [Act.mentions])) fun c hc own => ?_
    refine M.withHandle_both (within.handle (by simp [Act.mentions])) fun b hb ownB => ?_
    exact (M.store.resize_mirrors own ownB area viewHeld).bind fun p q given =>
      both_ok (M.doneOrRefused_mirrors given)
  | release cache buffer =>
    have free := within.handle (n := buffer) (by simp [Act.mentions])
    refine M.withCache_both (within.cache (by simp [Act.mentions])) fun c hc own => ?_
    refine M.withHandle_both free fun b hb ownB => ?_
    refine Store.mirrored_bind (M.store.release_mirrors own ownB) fun outcome w v _ N => ?_
    refine both_ok ⟨?_, M.eraseHandle N free⟩
    cases outcome with
    | ok => exact .same rfl
    | error e => exact .same rfl
  | dropHandle buffer =>
    have free := within.handle (n := buffer) (by simp [Act.mentions])
    refine M.withHandle_both free fun b hb ownB => ?_
    exact (M.store.dropHandle_mirrors ownB).bind fun w v N =>
      both_ok ⟨.same rfl, M.eraseHandle N free⟩
  | copyHandle buffer name =>
    refine M.withHandle_both (within.handle (by simp [Act.mentions])) fun b hb ownB => ?_
    refine Store.mirrored_bind (M.store.copyHandle_mirrors ownB) fun copy w v own N => ?_
    exact (M.withStore N).nameOutcome_mirrors (Store.ownOutcome_ok own)
      (within.handle (by simp [Act.mentions]))
  | exchange cache image area buffer name => exact M.exchange_mirrors within turn
  | emptyReserve cache =>
    refine M.withCache_both (within.cache (by simp [Act.mentions])) fun c hc own => ?_
    refine Store.mirrored_bind (M.store.emptyReserve_mirrors own) fun bytes w v _ N => ?_
    exact both_ok ⟨.same rfl, M.withStore N⟩
  | list cache image =>
    refine M.withCache_both (within.cache (by simp [Act.mentions])) fun c hc own => ?_
    refine M.withImage_both fun i => (M.listing_both own i.key).bind fun l l' same => ?_
    subst same
    cases l with
    | none => exact both_ok ⟨.same rfl, M⟩
    | some l => exact both_ok ⟨.list l, M⟩
  | sameRecord buffer other =>
    refine M.withHandle_both (within.handle (by simp [Act.mentions])) fun b hb ownB => ?_
    refine M.withHandle_both (within.handle (by simp [Act.mentions])) fun d hd ownD => ?_
    have same : ((b.renumber S).record == (d.renumber S).record) = (b.record == d.record) := by
      rw [Bool.eq_iff_iff, beq_iff_eq, beq_iff_eq]
      exact ⟨S.records.injective ownB.record ownD.record, congrArg _⟩
    rw [same]
    exact both_ok ⟨.same rfl, M⟩
  | readPixels buffer =>
    refine M.withHandle_both (within.handle (by simp [Act.mentions])) fun b hb ownB => ?_
    refine M.store.record_both ownB.record fun x hx on => ?_
    rw [show (x.renumber S).pixels = x.pixels from rfl]
    cases x.pixels <;> exact both_ok ⟨.same rfl, M⟩
  | writePixels buffer fill =>
    exact M.withHandle_both (within.handle (by simp [Act.mentions])) fun b hb ownB =>
      M.writePixels_mirrors ownB fill buffer
  | describe subject => exact M.describe_mirrors within
  | allocateBlock allocator size name =>
    refine M.withAllocator_both (within.allocator (by simp [Act.mentions])) fun a ha own => ?_
    refine (M.allocateBlock_both own size).bind ?_
    rintro ⟨outcome, s'⟩ ⟨outcome', t'⟩ ⟨same, M', frame, frame'⟩
    obtain rfl : outcome' = outcome := same
    cases outcome' with
    | error e => exact both_ok ⟨.same rfl, M'⟩
    | ok block =>
      have free := within.block (n := name) (by simp [Act.mentions])
      refine both_ok ⟨.same rfl, { M' with blocks := M'.blocks.put ?_ own trivial }⟩
      exact fun l hl => free l (frame ▸ hl)
  | freeBlock allocator block truncate =>
    have free := within.block (n := block) (by simp [Act.mentions])
    refine M.withAllocator_both (within.allocator (by simp [Act.mentions])) fun a ha own => ?_
    refine M.withBlock_both free fun l hl ownL => ?_
    refine (M.store.giveBack_mirrors own _).bind fun w v N => both_ok ⟨.same rfl, ?_⟩
    exact { M with store := N, blocks := M.blocks.erase free }
  | publishOwn buffer =>
    refine M.withHandle_both (within.handle (by simp [Act.mentions])) fun b hb ownB => ?_
    exact (M.store.publishOwn_mirrors ownB).bind fun p q given =>
      both_ok (M.doneOrRefused_mirrors given)
  | unpublishOwn buffer =>
    refine M.withHandle_both (within.handle (by simp [Act.mentions])) fun b hb ownB => ?_
    exact (M.store.unpublishOwn_mirrors ownB).bind fun p q given =>
      both_ok (M.doneOrRefused_mirrors given)
  | enterThread => cases plain
  | leaveThread => cases plain
  | incomplete names field =>
    have found : (names.find? fun n => !(t.knows n.1 n.2))
        = names.find? fun n => !(s.knows n.1 n.2) :=
      List.find?_congr fun n hn => by rw [M.knows_eq (by exact hn) within]
    simp only [perform, found]
    split
    · exact M.unknownName_both _
    · exact both_ok ⟨.same rfl, M⟩
  | _ => cases explicit

end Mirrors

end Session

end PixelPool
