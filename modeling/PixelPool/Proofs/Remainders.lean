import Mathlib.Data.List.Sort
import Mathlib.Data.Nat.Count
import PixelPool.Proofs.MirrorActs

/-!
What remains of a session without the things on its other side.

`Session.Remains S s t` says that `t` is the session `s` less all caches, allocators, buffers and
names of the other side, under the numbers of the side. It holds between acts, where
`Session.Mirrors` also tells what an act leaves alone. Main statements: an act within the side,
performed in both sessions, has the same answer in both and keeps the relation
(`Session.Remains.step_kept`); an act within the other side may be performed in `s` alone
(`Session.Remains.step_erased`). Which side the next new buffer is on can be chosen between two acts
(`Session.Remains.turned`).
-/

namespace PixelPool

/-! ## 1. Counting -/

namespace Numbering

variable {own own' : Nat → Bool} {first k n : Nat}

/-- The keys that pass a test, numbered one after another from `first` on. -/
def counted (own : Nat → Bool) (first : Nat) : Numbering where
  own := own
  number n := first + Nat.count (fun k => own k = true) n
  injective hm hn same := Nat.count_injective hm hn (Nat.add_left_cancel same)
  succ h := by simp [Nat.count_succ, h, Nat.add_assoc]

theorem counted_skips (other : own n = false) :
    (counted own first).number (n + 1) = (counted own first).number n := by
  simp [counted, Nat.count_succ, other]

theorem counted_mono {m : Nat} (le : m ≤ n) :
    (counted own first).number m ≤ (counted own first).number n :=
  Nat.add_le_add_left (Nat.count_monotone _ le) _

/-- The number of a key depends on the smaller keys alone. -/
theorem counted_congr (same : ∀ k, k < n → own' k = own k) :
    (counted own' first).number n = (counted own first).number n := by
  induction n with
  | zero => rfl
  | succ n ih =>
    have before := ih fun k hk => same k (by omega)
    have here := same n (by omega)
    simp only [counted] at before ⊢
    rw [Nat.count_succ, Nat.count_succ, here]
    omega

/-- A single key, in a table where the keys below `next` have been handed out. -/
def only (k next : Nat) : Numbering := counted (· == k) (if k < next then next - 1 else next)

theorem only_next : (only k n).number n = n := by
  have count : Nat.count (fun j => (j == k) = true) n = if k < n then 1 else 0 := by
    induction n with
    | zero => rfl
    | succ n ih =>
      rw [Nat.count_succ, ih]
      simp only [beq_iff_eq]
      split <;> split <;> split <;> omega
  simp only [only, counted, count]
  split <;> omega

/-- In a table with no other key, a key that is there keeps its number. -/
theorem only_self : (only k 1).number k = if k = 0 then 0 else 1 := by
  have none : Nat.count (fun j => (j == k) = true) k = 0 := by
    rw [Nat.count_iff_forall_not]
    intro j below
    simp [Nat.ne_of_lt below]
  simp only [only, counted, none, Nat.lt_one_iff]
  split <;> rfl

end Numbering

namespace Table

variable {α : Type} {N : Numbering} {g g' : α → α} {P P' : Bool → α → Prop} {t u : Table α}
  {own own' : Nat → Bool} {first : Nat}

theorem get?_of_next_le {k : Nat} (new : t.next ≤ k) : t.get? k = none := by
  by_contra some
  obtain ⟨x, hx⟩ := Option.ne_none_iff_exists'.1 some
  have old := lt_next_of_get? hx
  omega

/-- A table that mirrors itself. -/
theorem Mirrors.unmoved (found : ∀ k, N.own k = true → t.get? (N.number k) = (t.get? k).map g)
    (next : N.number t.next = t.next) (each : ∀ k x, t.get? k = some x → P (N.own k) x) :
    Mirrors N g P t t t where
  found := found
  next := next.symm
  each := each
  grown := Nat.le_refl _
  added _ before after := absurd before (Nat.not_le_of_lt after)
  rest _ _ := rfl

/-- Only what happens to the entries counts. -/
theorem Mirrors.congr (M : Mirrors N g P t t u) (same : ∀ k x, t.get? k = some x → g' x = g x)
    (holds : ∀ own k x, t.get? k = some x → P own x → P' own x) : Mirrors N g' P' t t u :=
  { M with
    found := by
      intro k hk
      rw [M.found k hk]
      cases hx : t.get? k with
      | none => rfl
      | some x => simp [same k x hx]
    each := fun k x hx => holds _ k x hx (M.each k x hx) }

/-- Keys that have not been handed out yet may be on either side. -/
theorem Mirrors.recount (M : Mirrors (.counted own first) g P t t u)
    (same : ∀ k, k < t.next → own' k = own k) : Mirrors (.counted own' first) g P t t u where
  found k hk := by
    by_cases old : k < t.next
    · rw [Numbering.counted_congr fun j hj => same j (Nat.lt_trans hj old)]
      exact M.found k ((same k old).symm.trans hk)
    · -- Keys that are still to come are ahead of the counter in both tables.
      have new := Nat.le_of_not_lt old
      have next : u.next = (Numbering.counted own' first).number t.next :=
        M.next.trans (Numbering.counted_congr same).symm
      have ahead : u.next ≤ (Numbering.counted own' first).number k := by
        rw [next]
        exact Numbering.counted_mono new
      rw [get?_of_next_le new, get?_of_next_le ahead]
      rfl
  next := M.next.trans (Numbering.counted_congr same).symm
  each k x hx := by
    change P (own' k) x
    rw [same k (lt_next_of_get? hx)]
    exact M.each k x hx
  grown := M.grown
  added k before after := absurd before (Nat.not_le_of_lt after)
  rest k _ := rfl

end Table

/-! ## 2. Sides of one cache -/

namespace Side

variable {S : Side} {C : CacheId} {A : AllocatorId} {w : Store} {own own' : RecordId → Bool}
  {turn : Bool}

/-- The side of a cache and its allocator in a pool that starts out as `w`. Which buffers are on it
is told by `own`. -/
def single (C : CacheId) (A : AllocatorId) (w : Store) (own : RecordId → Bool) (turn : Bool) :
    Side where
  caches := .only C w.caches.next
  allocators := .only A w.allocators.next
  records := .counted own 0
  turn := turn

theorem skips_single : (single C A w own turn).Skips where
  caches _ := Numbering.counted_skips
  allocators _ := Numbering.counted_skips
  records _ := Numbering.counted_skips

theorem owns_others (thing : Thing) : S.others.owns thing = !S.owns thing := by
  cases thing <;> rfl

end Side

namespace Lists

theorem map_congr {f g : RecordId → RecordId} {ls : Lists} (same : ∀ r ∈ ls.all, f r = g r) :
    ls.map f = ls.map g := by
  refine ext_entries (List.map_congr_left fun e he => ?_)
  have members : e.2.map f = e.2.map g :=
    List.map_congr_left fun r hr => same r (List.mem_flatMap.2 ⟨e, he, hr⟩)
  rw [members]

end Lists

/-! ## 3. Names -/

namespace Names

variable {α : Type} {own : α → Bool} {g g' : α → α} {P : α → Prop} {s₀ t₀ s t : Names α}

theorem mem_entries_iff {e : String × α} : e ∈ s.entries ↔ s.get? e.1 = some e.2 := by
  constructor
  · exact get?_of_mem
  · intro found
    obtain ⟨d, hd, value⟩ := Option.map_eq_some_iff.1 found
    have name : d.1 = e.1 := by simpa using List.find?_some hd
    have same : d = e := Prod.ext name value
    exact same ▸ List.mem_of_find?_eq_some hd

/-- Names that stand for the same things are the same. -/
theorem ext_get? (same : ∀ name, s.get? name = t.get? name) : s = t := by
  have irrefl : Std.Irrefl fun a b : String × α => a.1 < b.1 := ⟨fun _ => String.lt_irrefl _⟩
  have antisymm : Std.Antisymm fun a b : String × α => a.1 < b.1 :=
    ⟨fun _ _ lt gt => absurd (String.lt_trans lt gt) (String.lt_irrefl _)⟩
  refine ext_entries (List.Pairwise.eq_of_mem_iff s.ascending t.ascending fun e => ?_)
  rw [mem_entries_iff, mem_entries_iff, same]

theorem exists_name {a : α} (h : a ∈ s.values) : ∃ name, s.get? name = some a := by
  obtain ⟨e, he, rfl⟩ := List.mem_map.1 h
  exact ⟨e.1, get?_of_mem he⟩

/-- The names of things that pass a test. -/
def filter (p : α → Bool) (ns : Names α) : Names α where
  entries := ns.entries.filter fun e => p e.2
  ascending := ns.ascending.filter _

@[simp] theorem values_filter (p : α → Bool) (ns : Names α) :
    (ns.filter p).values = ns.values.filter p := by
  simp only [values, filter, List.filter_map]
  rfl

@[simp] theorem get?_filter (p : α → Bool) (ns : Names α) (k : String) :
    (ns.filter p).get? k = (ns.get? k).filter p := by
  refine Option.ext fun a => ?_
  have entry : ((ns.filter p).get? k = some a) ↔ (k, a) ∈ (ns.filter p).entries :=
    (mem_entries_iff (e := (k, a))).symm
  rw [entry, Option.filter_eq_some_iff, ← mem_entries_iff (e := (k, a))]
  exact List.mem_filter

/-- The names that remain, for the things that pass a test, changed by `g`. -/
def remaining (own : α → Bool) (g : α → α) (s : Names α) : Names α := (s.filter own).map g

@[simp] theorem get?_remaining (name : String) :
    (s.remaining own g).get? name = ((s.get? name).filter own).map g := by
  simp [remaining]

@[simp] theorem values_remaining : (s.remaining own g).values = (s.values.filter own).map g := by
  simp [remaining]

theorem remaining_congr (same : ∀ a ∈ s.values, own a = true → g' a = g a) :
    s.remaining own g' = s.remaining own g := by
  refine map_congr fun a ha => ?_
  rw [values_filter, List.mem_filter] at ha
  exact same a ha.1 ha.2

theorem mirrors_remaining (each : ∀ name a, s.get? name = some a → P a) :
    Mirrors own g P s (s.remaining own g) s (s.remaining own g) where
  found name all := by
    rw [get?_remaining]
    cases ha : s.get? name with
    | none => rfl
    | some a => simp [Option.filter, all a ha]
  each := each
  rest _ _ _ := Iff.rfl
  still _ _ _ _ := rfl

theorem mirrors_self (same : ∀ a, g a = a) (each : ∀ name a, s.get? name = some a → P a) :
    Mirrors own g P s s s s where
  found name _ := by
    have unchanged : g = id := funext same
    rw [unchanged, Option.map_id]
    rfl
  each := each
  rest _ _ _ := Iff.rfl
  still _ _ _ _ := rfl

/-- What remained still does after a change of the own things. -/
theorem Mirrors.remaining (M : Mirrors own g P s₀ (s₀.remaining own g) s t) :
    t = s.remaining own g := by
  refine ext_get? fun name => ?_
  rw [get?_remaining]
  by_cases all : ∀ a, s.get? name = some a → own a = true
  · rw [M.found name all]
    cases ha : s.get? name with
    | none => rfl
    | some a => simp [Option.filter, all a ha]
  · push Not at all
    obtain ⟨a, ha, other⟩ := all
    have other : own a = false := by simpa using other
    rw [M.still name a other ha, get?_remaining, ha, (M.rest name a other).1 ha]

/-- What remains does so after a change of the other things. -/
theorem Mirrors.remaining_same (M : Mirrors (fun a => !own a) g' P s₀ t₀ s t) :
    s.remaining own g = s₀.remaining own g := by
  have own_iff : ∀ name a,
      (s.get? name).filter own = some a ↔ (s₀.get? name).filter own = some a := by
    intro name a
    rw [Option.filter_eq_some_iff, Option.filter_eq_some_iff]
    constructor
    · intro ⟨ha, mine⟩
      exact ⟨(M.rest name a (by simp [mine])).1 ha, mine⟩
    · intro ⟨ha, mine⟩
      exact ⟨(M.rest name a (by simp [mine])).2 ha, mine⟩
  refine ext_get? fun name => ?_
  rw [get?_remaining, get?_remaining, Option.ext (own_iff name)]

end Names

/-! ## 4. Frames -/

/-- The frame `F'` of a thread has what is on the side in the frame `F`. -/
structure Frame.Remains (S : Side) (F F' : Frame) : Prop where
  thread : F'.thread = F.thread
  unbound : ∀ c, F.thread.binding ≠ .bound c
  handles : F'.handles = F.handles.remaining (fun b => S.caches.own b.cache) (Handle.renumber S)
  sorted : ∀ b ∈ F.handles.values, S.records.own b.record = S.caches.own b.cache
  caches : F'.caches = F.caches.remaining S.caches.own S.caches.number
  blocks : F'.blocks
    = F.blocks.remaining (fun l => S.allocators.own l.source) (Loan.renumber S)

namespace Frame

theorem remains_empty (S : Side) (thread : Thread) (unbound : ∀ c, thread.binding ≠ .bound c) :
    Remains S ⟨thread, .empty, .empty, .empty⟩ ⟨thread, .empty, .empty, .empty⟩ where
  thread := rfl
  unbound := unbound
  handles := rfl
  sorted _ absurd := by cases absurd
  caches := rfl
  blocks := rfl

end Frame

/-! ## 5. Sessions -/

namespace Session

open Fault

/-- The session `t` has what is on the side in `s`, and nothing else. -/
structure Remains (S : Side) (s t : Session) : Prop where
  store : Store.Mirrors S s.store s.store t.store
  frame : Frame.Remains S s.frame t.frame
  waiting : List.Forall₂ (Frame.Remains S) s.waiting t.waiting
  allocators : t.allocators = s.allocators.remaining S.allocators.own S.allocators.number
  images : t.images = s.images
  nextThread : t.nextThread = s.nextThread

/-- Two answers that agree up to numbers, with sessions of which one remains of the other. -/
structure Remained (S : Side) (act : Act) (a b : Answer × Session) : Prop where
  answer : Answer.Renumbered S.caches.number act a.1 b.1
  sessions : Remains S a.2 b.2

variable {S : Side} {s t s' t' : Session} {act : Act} {out out' : Multiset Loan}

namespace Remains

/-! ### Acts on one side -/

/-- Between two acts nothing has changed on the other side. -/
theorem mirrors (R : Remains S s t) : Mirrors S s t s t where
  store := R.store
  handles := by
    rw [R.frame.handles]
    exact Names.mirrors_remaining fun name b hb => R.frame.sorted b (Names.mem_values_of_get? hb)
  caches := by
    rw [R.frame.caches]
    exact Names.mirrors_remaining fun _ _ _ => trivial
  blocks := by
    rw [R.frame.blocks]
    exact Names.mirrors_remaining fun _ _ _ => trivial
  allocators := by
    rw [R.allocators]
    exact Names.mirrors_remaining fun _ _ _ => trivial
  images := R.images
  imaged := rfl
  thread := R.frame.thread
  threaded := rfl
  waiting := ⟨rfl, rfl⟩
  nextThread := R.nextThread
  numbered := rfl

/-- On the other side a session mirrors itself. -/
theorem mirrors_others (R : Remains S s t) : Mirrors S.others s s s s where
  store := R.store.others
  handles := Names.mirrors_self Side.renumber_others_handle fun _ b hb =>
    congrArg not (R.frame.sorted b (Names.mem_values_of_get? hb))
  caches := Names.mirrors_self (fun _ => rfl) fun _ _ _ => trivial
  blocks := Names.mirrors_self (fun _ => rfl) fun _ _ _ => trivial
  allocators := Names.mirrors_self (fun _ => rfl) fun _ _ _ => trivial
  images := rfl
  imaged := rfl
  thread := rfl
  threaded := rfl
  waiting := ⟨rfl, rfl⟩
  nextThread := rfl
  numbered := rfl

/-- After a change on the side, made in both sessions. -/
theorem keep (R : Remains S s t) (M : Mirrors S s t s' t') : Remains S s' t' where
  store := M.store.afresh
  frame :=
    { thread := M.thread
      unbound := M.threaded ▸ R.frame.unbound
      handles := by
        have names := M.handles
        rw [R.frame.handles] at names
        exact names.remaining
      sorted := by
        intro b hb
        obtain ⟨name, named⟩ := Names.exists_name hb
        exact M.handles.each name b named
      caches := by
        have names := M.caches
        rw [R.frame.caches] at names
        exact names.remaining
      blocks := by
        have names := M.blocks
        rw [R.frame.blocks] at names
        exact names.remaining }
  waiting := by
    rw [M.waiting.1, M.waiting.2]
    exact R.waiting
  allocators := by
    have names := M.allocators
    rw [R.allocators] at names
    exact names.remaining
  images := M.images
  nextThread := M.nextThread

/-- After a change on the other side. -/
theorem pass (R : Remains S s t) (M : Mirrors S.others s s s' s') (skips : S.Skips) :
    Remains S s' t where
  store := R.store.pass M.store skips
  frame :=
    { thread := R.frame.thread.trans M.threaded.symm
      unbound := M.threaded ▸ R.frame.unbound
      handles := R.frame.handles.trans M.handles.remaining_same.symm
      sorted := by
        intro b hb
        obtain ⟨name, named⟩ := Names.exists_name hb
        exact Bool.not_inj (M.handles.each name b named)
      caches := R.frame.caches.trans M.caches.remaining_same.symm
      blocks := R.frame.blocks.trans M.blocks.remaining_same.symm }
  waiting := by
    rw [M.waiting.1]
    exact R.waiting
  allocators := R.allocators.trans M.allocators.remaining_same.symm
  images := R.images.trans M.imaged.symm
  nextThread := R.nextThread.trans M.numbered.symm

end Remains

/-! ### Ending a thread -/

/-- Handles of both sides are given up in one store, those of the side in the other. -/
theorem dropHandles_remain {w v : Store} {bs : List Handle} (M : Store.Mirrors S w w v)
    (skips : S.Skips) (sorted : ∀ b ∈ bs, S.records.own b.record = S.caches.own b.cache) :
    Both (dropHandles w bs)
      (dropHandles v ((bs.filter fun b => S.caches.own b.cache).map (Handle.renumber S)))
      fun w' v' => Store.Mirrors S w' w' v' := by
  -- A handle of the other side is given up in `w` only, while `v` waits.
  induction bs generalizing w v with
  | nil => exact both_ok M
  | cons b rest ih =>
    have later : ∀ b ∈ rest, S.records.own b.record = S.caches.own b.cache :=
      fun d hd => sorted d (List.mem_cons_of_mem _ hd)
    have record := sorted b List.mem_cons_self
    cases own : S.caches.own b.cache with
    | true =>
      rw [List.filter_cons_of_pos (by exact own)]
      unfold dropHandles
      exact (M.dropHandle_mirrors ⟨record.trans own, own⟩).bind fun _ _ N => ih N.afresh later
    | false =>
      rw [List.filter_cons_of_neg (by simp [own])]
      change Both (w.dropHandle b >>= fun w => dropHandles w rest) _ _
      have other : b.Own S.others := ⟨congrArg not (record.trans own), congrArg not own⟩
      have dropped := M.passes (M.others.dropHandle_mirrors other) skips
      exact .left dropped fun _ N => ih N later

/-- Shares in caches of both sides are given up in one store, those of the side in the other. -/
theorem dropOwners_remain {w v : Store} {cs : List CacheId} (M : Store.Mirrors S w w v)
    (skips : S.Skips) :
    Both (dropOwners w cs) (dropOwners v ((cs.filter S.caches.own).map S.caches.number))
      fun w' v' => Store.Mirrors S w' w' v' := by
  induction cs generalizing w v with
  | nil => exact both_ok M
  | cons c rest ih =>
    cases own : S.caches.own c with
    | true =>
      rw [List.filter_cons_of_pos own]
      unfold dropOwners
      exact (M.dropOwner_mirrors own).bind fun _ _ N => ih N.afresh
    | false =>
      rw [List.filter_cons_of_neg (by simp [own])]
      change Both (w.dropOwner c >>= fun w => dropOwners w rest) _ _
      have other : S.others.caches.own c = true := congrArg not own
      have dropped := M.passes (M.others.dropOwner_mirrors other) skips
      exact .left dropped fun _ N => ih N

namespace Remains

theorem closeFrame_remain (R : Remains S s t) (skips : S.Skips) :
    Both s.closeFrame t.closeFrame (Remains S) := by
  unfold closeFrame
  rw [R.frame.handles, R.frame.caches, Names.values_remaining, Names.values_remaining,
    R.frame.thread]
  refine (dropHandles_remain R.store skips R.frame.sorted).bind fun w v M => ?_
  refine (dropOwners_remain M skips).bind fun w v M => ?_
  unfold Thread.destroyBinding
  split
  · next c bound => exact absurd bound (R.frame.unbound c)
  · exact both_ok { R with store := M, frame := Frame.remains_empty S _ nofun }

theorem leaveThread_remain (R : Remains S s t) (skips : S.Skips) :
    Both (s.perform .leaveThread) (t.perform .leaveThread) (Remained S .leaveThread) := by
  refine (R.closeFrame_remain skips).bind fun s t R => ?_
  have waiting := R.waiting
  cases hs : s.waiting with
  | nil =>
    rw [hs] at waiting
    rw [List.forall₂_nil_left_iff.1 waiting]
    exact both_ok ⟨.same rfl, R⟩
  | cons F rest =>
    rw [hs] at waiting
    obtain ⟨F', rest', frame, later, ht⟩ := List.forall₂_cons_left_iff.1 waiting
    rw [ht]
    exact both_ok ⟨.same rfl, { R with frame := frame, waiting := later }⟩

/-! ### Acts on both sides -/

theorem enterThread_remain (R : Remains S s t) :
    Both (s.perform .enterThread) (t.perform .enterThread) (Remained S .enterThread) := by
  have started : Frame.Remains S (.start s.nextThread) (.start t.nextThread) := by
    rw [R.nextThread]
    exact Frame.remains_empty S _ nofun
  refine both_ok ⟨.same rfl, ?_⟩
  exact { R with
    frame := started
    waiting := .cons R.frame R.waiting
    nextThread := congrArg (· + 1) R.nextThread }

theorem newImage_remain (R : Remains S s t) (name : String) (bytesPerPixel : Nat)
    (key : Option Nat) :
    Both (s.perform (.newImage name bytesPerPixel key))
      (t.perform (.newImage name bytesPerPixel key))
      (Remained S (.newImage name bytesPerPixel key)) := by
  cases key with
  | some raw =>
    have host : t.store.host = s.store.host := R.store.host
    have images : t.images.put name ⟨.ofNumber t.store.host.firstKey raw, bytesPerPixel⟩
        = s.images.put name ⟨.ofNumber s.store.host.firstKey raw, bytesPerPixel⟩ := by
      rw [R.images, host]
    have answer : (t.newImage name bytesPerPixel (some raw)).1
        = (s.newImage name bytesPerPixel (some raw)).1 :=
      congrArg (fun h : Host => Answer.image ⟨.ofNumber h.firstKey raw, bytesPerPixel⟩) host
    refine both_ok ⟨?_, { R with images := images }⟩
    rw [answer]
    exact .same rfl
  | none =>
    have key : t.store.freshKeys = s.store.freshKeys := R.store.keys
    have images : t.images.put name ⟨.fresh t.store.freshKeys, bytesPerPixel⟩
        = s.images.put name ⟨.fresh s.store.freshKeys, bytesPerPixel⟩ := by rw [R.images, key]
    have store : Store.Mirrors S { s.store with freshKeys := s.store.freshKeys + 1 }
        { s.store with freshKeys := s.store.freshKeys + 1 }
        { t.store with freshKeys := t.store.freshKeys + 1 } :=
      { R.store with keys := congrArg (· + 1) key, unkeyed := rfl }
    have answer : (t.newImage name bytesPerPixel none).1 = (s.newImage name bytesPerPixel none).1 :=
      congrArg (fun n => Answer.image ⟨.fresh n, bytesPerPixel⟩) key
    refine both_ok ⟨?_, { R with store := store, images := images }⟩
    rw [answer]
    exact .same rfl

theorem concerns_eq_nil (h : act.plain = false) : s.concerns act = [] := by
  cases act <;> first | rfl | cases h

/-- An act within the side, performed in both sessions. -/
theorem perform_remain (R : Remains S s t) (within : Within S s act) (skips : S.Skips)
    (turn : S.turn = true) (explicit : act.explicit = true) :
    Both (s.perform act) (t.perform act) (Remained S act) := by
  have of_plain (plain : act.plain = true) :
      Both (s.perform act) (t.perform act) (Remained S act) := by
    intro a b left right
    have both := R.mirrors.perform_mirrors within turn explicit plain a b left right
    exact ⟨both.answer, R.keep both.sessions⟩
  cases act with
  | enterThread => exact R.enterThread_remain
  | leaveThread => exact R.leaveThread_remain skips
  | newImage name bytesPerPixel key => exact R.newImage_remain name bytesPerPixel key
  | _ => exact of_plain rfl

/-- An act within the side has the same answer in both sessions. -/
theorem step_kept (R : Remains S s t) (soundS : s.Sound out) (soundT : t.Sound out')
    (within : Within S s act) (skips : S.Skips) (turn : S.turn = true)
    (explicit : act.explicit = true) : Remained S act (s.step act) (t.step act) :=
  R.perform_remain within skips turn explicit _ _ (soundS.perform_eq act) (soundT.perform_eq act)

/-- An act within the other side can be left out. -/
theorem step_erased (R : Remains S s t) (sound : s.Sound out) (within : Within S.others s act)
    (some : s.concerns act ≠ []) (skips : S.Skips) (turn : S.turn = false)
    (explicit : act.explicit = true) : Remains S (s.step act).2 t := by
  have plain : act.plain = true := by
    by_contra h
    exact some (concerns_eq_nil (by simpa using h))
  have run := sound.perform_eq act
  have turned : S.others.turn = true := congrArg not turn
  exact R.pass (R.mirrors_others.perform_mirrors within turned explicit plain _ _ run run).sessions
    skips

end Remains

end Session

/-! ## 6. Taking turns -/

section
variable {C : CacheId} {A : AllocatorId} {w₀ : Store} {own own' : RecordId → Bool}
  {turn turn' : Bool} {bound : RecordId}

/-- Which side later buffers are on makes no difference to the numbers of those below `bound`. -/
theorem Numbering.number_turned (same : ∀ r, r < bound → own' r = own r) {r : RecordId}
    (old : r < bound) : (counted own' 0).number r = (counted own 0).number r :=
  counted_congr fun k hk => same k (Nat.lt_trans hk old)

theorem Handle.renumber_turned (same : ∀ r, r < bound → own' r = own r) {b : Handle}
    (old : b.record < bound) :
    b.renumber (.single C A w₀ own' turn') = b.renumber (.single C A w₀ own turn) :=
  congrArg (Handle.mk · _ _) (Numbering.number_turned same old)

theorem Cache.renumber_turned (same : ∀ r, r < bound → own' r = own r) {x : Cache}
    (slots : ∀ r ∈ x.reserve.slots, r < bound) (listed : ∀ r ∈ x.lists.all, r < bound) :
    x.renumber (.single C A w₀ own' turn') = x.renumber (.single C A w₀ own turn) := by
  have slots : x.reserve.slots.map (Numbering.counted own' 0).number
      = x.reserve.slots.map (Numbering.counted own 0).number :=
    List.map_congr_left fun r hr => Numbering.number_turned same (slots r hr)
  have lists : x.lists.map (Numbering.counted own' 0).number
      = x.lists.map (Numbering.counted own 0).number :=
    Lists.map_congr fun r hr => Numbering.number_turned same (listed r hr)
  simp only [Cache.renumber, Side.single, slots, lists]

theorem Cache.On.turned (same : ∀ r, r < bound → own' r = own r) {x : Cache} {mine : Bool}
    (slots : ∀ r ∈ x.reserve.slots, r < bound) (listed : ∀ r ∈ x.lists.all, r < bound)
    (on : x.On (.single C A w₀ own turn) mine) : x.On (.single C A w₀ own' turn') mine where
  allocator := on.allocator
  slots r hr := (same r (slots r hr)).trans (on.slots r hr)
  listed r hr := (same r (listed r hr)).trans (on.listed r hr)

theorem Frame.Remains.turned (same : ∀ r, r < bound → own' r = own r) {F F' : Frame}
    (R : Remains (.single C A w₀ own turn) F F') (old : ∀ b ∈ F.handles.values, b.record < bound) :
    Remains (.single C A w₀ own' turn') F F' :=
  { R with
    handles := by
      rw [R.handles]
      exact Names.remaining_congr fun b hb _ => (Handle.renumber_turned same (old b hb)).symm
    sorted := fun b hb => (same _ (old b hb)).trans (R.sorted b hb) }

theorem Store.Mirrors.turned {w v : Store}
    (M : Mirrors (.single C A w₀ own turn) w w v)
    (same : ∀ r, r < w.records.next → own' r = own r)
    (fresh : ∀ r, w.records.next ≤ r → own' r = turn')
    (slots : ∀ c x, w.caches.get? c = some x → ∀ r ∈ x.reserve.slots, r < w.records.next)
    (listed : ∀ c x, w.caches.get? c = some x → ∀ r ∈ x.lists.all, r < w.records.next) :
    Mirrors (.single C A w₀ own' turn') w w v :=
  { M with
    records := (M.records.recount same).congr (fun _ _ _ => rfl)
      fun _ _ _ _ on => ⟨on.origin, on.allocator, on.publisher⟩
    caches := M.caches.congr
      (fun c x hx => Cache.renumber_turned same (slots c x hx) (listed c x hx))
      fun _ c x hx on => on.turned same (slots c x hx) (listed c x hx)
    fresh := fresh }

end

namespace Session

variable {s t : Session} {out : Multiset Loan}

theorem held_of_frame {F : Frame} {b : Handle} (runs : F ∈ s.frame :: s.waiting)
    (named : b ∈ F.handles.values) : b ∈ s.handles := by
  rcases List.mem_cons.1 runs with rfl | waits
  · exact Multiset.mem_add.2 (.inl named)
  · exact Multiset.mem_of_le (s.handlesHeld_le waits) named

/-- The buffers that the threads and the caches of a sound session refer to have been made. -/
theorem Sound.lt_next_of_handle (sound : s.Sound out) {b : Handle} (held : b ∈ s.handles) :
    b.record < s.store.records.next := by
  obtain ⟨x, hx⟩ := sound.exists_record held
  exact Table.lt_next_of_get? hx

theorem Sound.lt_next_of_slot (sound : s.Sound out) {c : CacheId} {x : Cache} {r : RecordId}
    (hx : s.store.caches.get? c = some x) (hr : r ∈ x.reserve.slots) :
    r < s.store.records.next := by
  have shelved : r ∈ s.store.shelf c := by
    rw [Store.shelf_of_get? hx]
    exact hr
  obtain ⟨y, hy, -⟩ := World.Sound.idle_of_shelved (W := s.world out) sound.world shelved
  exact Table.lt_next_of_get? hy

theorem Sound.lt_next_of_listed (sound : s.Sound out) {c : CacheId} {x : Cache} {r : RecordId}
    (hx : s.store.caches.get? c = some x) (hr : r ∈ x.lists.all) :
    r < s.store.records.next := by
  obtain ⟨k, hk⟩ := Lists.mem_all_iff.1 hr
  have listed : r ∈ s.store.listOf c k := by
    rw [Store.listOf, hx]
    exact hk
  obtain ⟨y, hy, -⟩ := World.Sound.exists_listed (W := s.world out) sound.world listed
  exact Table.lt_next_of_get? hy

/-- The next buffers can be put on either side. -/
theorem Remains.turned {C : CacheId} {A : AllocatorId} {w₀ : Store} {own : RecordId → Bool}
    {turn : Bool} (R : Remains (.single C A w₀ own turn) s t) (sound : s.Sound out)
    (turn' : Bool) : ∃ own', Remains (.single C A w₀ own' turn') s t := by
  let own' : RecordId → Bool := fun r => if r < s.store.records.next then own r else turn'
  have same : ∀ r, r < s.store.records.next → own' r = own r := fun r old => if_pos old
  have fresh : ∀ r, s.store.records.next ≤ r → own' r = turn' :=
    fun r new => if_neg (Nat.not_lt.2 new)
  have old : ∀ F ∈ s.frame :: s.waiting, ∀ b ∈ F.handles.values,
      b.record < s.store.records.next :=
    fun F runs b named => sound.lt_next_of_handle (held_of_frame runs named)
  refine ⟨own', { R with store := ?_, frame := ?_, waiting := ?_ }⟩
  · exact R.store.turned same fresh (fun c x hx r => sound.lt_next_of_slot hx)
      fun c x hx r => sound.lt_next_of_listed hx
  · exact R.frame.turned same (old s.frame List.mem_cons_self)
  · have waits := fun F (waits : F ∈ s.waiting) => old F (List.mem_cons_of_mem _ waits)
    have both := (List.forall₂_and_left _ _).2 ⟨waits, R.waiting⟩
    exact both.imp fun _ _ frame => frame.2.turned same frame.1

end Session

/-! ## 7. The start -/

namespace Store.Initial

variable {w : Store} {C : CacheId} {A : AllocatorId} {turn : Bool}

/-- The one allocator that may be there keeps its number; any other is not there yet. -/
theorem get?_allocators_number (h : w.Initial) :
    w.allocators.get? ((Numbering.only A w.allocators.next).number A) = w.allocators.get? A := by
  obtain ⟨environment, host, rfl | rfl⟩ := h
  · rfl
  · have number : (Numbering.only A 1).number A = if A = 0 then 0 else 1 := Numbering.only_self
    have held : ∀ a, ((Store.settled environment).on host).allocators.get? a
        = if a = 0 then some (.withLimit none) else none :=
      fun a => Table.get?_add _ _ a
    change ((Store.settled environment).on host).allocators.get? ((Numbering.only A 1).number A) = _
    rw [number, held, held]
    split <;> rfl

/-- Before the first act there is nothing to leave out but an allocator. -/
theorem mirrors (h : w.Initial) : Mirrors (.single C A w (fun _ => turn) turn) w w w where
  records := by
    refine .unmoved (fun r _ => ?_) ?_ fun r x hx => ?_
    · simp [h.get?_records]
    · obtain ⟨environment, host, rfl | rfl⟩ := h <;> rfl
    · simp [h.get?_records] at hx
  caches := by
    refine .unmoved (fun c _ => ?_) Numbering.only_next fun c x hx => ?_
    · simp [h.get?_caches]
    · simp [h.get?_caches] at hx
  allocators := by
    refine .unmoved (fun a own => ?_) Numbering.only_next fun _ _ _ => trivial
    obtain rfl : a = A := beq_iff_eq.1 own
    rw [Option.map_id]
    exact h.get?_allocators_number
  fresh _ _ := rfl
  shared all := by
    obtain ⟨environment, host, rfl | rfl⟩ := h
    · rfl
    · have own : (0 == A) = true := all 0 rfl
      obtain rfl : 0 = A := beq_iff_eq.1 own
      rfl
  settled := .inl rfl
  keys := rfl
  unkeyed := rfl
  host := rfl
  unhosted := rfl

end Store.Initial

namespace Session

theorem remains_start {w : Store} (initial : w.Initial) (C : CacheId) (A : AllocatorId)
    (turn : Bool) : Remains (.single C A w (fun _ => turn) turn) (start w) (start w) where
  store := initial.mirrors
  frame := Frame.remains_empty _ _ nofun
  waiting := .nil
  allocators := rfl
  images := rfl
  nextThread := rfl

end Session

end PixelPool
