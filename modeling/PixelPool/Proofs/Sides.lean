import PixelPool.Proofs.Outcomes
import PixelPool.Proofs.Twins

/-!
A part of the pool that keeps to itself, seen in two stores.

A `Side` singles out some of the caches, allocators and buffers, and numbers them anew. Everything
of a store is on the side or on the other one (`Side.others`), and refers only to what is on the
same. `Store.Mirrors S w₀ w v` says that `v` has what is on the side in `w`, under the new numbers,
and that `w` differs from an earlier store `w₀` only in what is on the side. Since `w` mirrors
itself on the other side, one lemma for each operation tells both how it runs in the two stores and
what it leaves alone.
-/

namespace PixelPool

/-! ## 1. Numberings -/

/-- Which keys of a table are singled out, and the keys that they have elsewhere. There too, keys
are handed out one after another. -/
structure Numbering where
  own : Nat → Bool
  number : Nat → Nat
  injective : ∀ {m n}, own m = true → own n = true → number m = number n → m = n
  succ : ∀ {n}, own n = true → number (n + 1) = number n + 1

/-- All other keys, as they are. -/
def Numbering.others (N : Numbering) : Numbering where
  own n := !N.own n
  number n := n
  injective _ _ same := same
  succ _ := rfl

/-! ## 2. Tables -/

namespace Table

variable {α : Type} {N : Numbering} {g : α → α} {P : Bool → α → Prop} {t₀ t u : Table α}
  {k : Nat} {x : α}

/-- The table `u` has the own entries of `t`, changed by `g`, under their new keys; `t` differs from
`t₀` only in own entries; and of every entry of `t` a property holds that depends on whose it is. -/
structure Mirrors (N : Numbering) (g : α → α) (P : Bool → α → Prop) (t₀ t u : Table α) : Prop where
  found : ∀ k, N.own k = true → u.get? (N.number k) = (t.get? k).map g
  next : u.next = N.number t.next
  each : ∀ k x, t.get? k = some x → P (N.own k) x
  grown : t₀.next ≤ t.next
  added : ∀ k, t₀.next ≤ k → k < t.next → N.own k = true
  rest : ∀ k, N.own k = false → t.get? k = t₀.get? k

namespace Mirrors

theorem get? (M : Mirrors N g P t₀ t u) (own : N.own k = true) (hx : t.get? k = some x) :
    u.get? (N.number k) = some (g x) ∧ P true x := by
  refine ⟨by rw [M.found k own, hx]; rfl, ?_⟩
  have holds := M.each k x hx
  rwa [own] at holds

/-- An own entry changes on both sides. -/
theorem update (M : Mirrors N g P t₀ t u) (own : N.own k = true) (f f' : α → α)
    (same : ∀ x, t.get? k = some x → g (f x) = f' (g x))
    (holds : ∀ x, t.get? k = some x → P true (f x)) :
    Mirrors N g P t₀ (t.update k f) (u.update (N.number k) f') where
  found j hj := by
    rw [get?_update, get?_update, M.found j hj]
    by_cases h : j = k
    · subst h
      cases hx : t.get? j with
      | none => simp
      | some x => simp [same x hx]
    · have apart : N.number j ≠ N.number k := fun eq => h (N.injective hj own eq)
      rw [if_neg h, if_neg apart]
  next := M.next
  each j y hy := by
    rw [get?_update] at hy
    split at hy
    · next h =>
      obtain ⟨x, hx, rfl⟩ := Option.map_eq_some_iff.1 hy
      subst h
      exact own ▸ holds x hx
    · exact M.each j y hy
  grown := M.grown
  added := M.added
  rest j hj := by
    have other : j ≠ k := by
      intro h
      rw [h, own] at hj
      cases hj
    rw [get?_update, if_neg other]
    exact M.rest j hj

/-- An own entry is added on both sides. -/
theorem add (M : Mirrors N g P t₀ t u) (own : N.own t.next = true) (holds : P true x) :
    Mirrors N g P t₀ (t.add x) (u.add (g x)) where
  found j hj := by
    rw [get?_add, get?_add, M.next, M.found j hj]
    by_cases h : j = t.next
    · simp [h]
    · have apart : N.number j ≠ N.number t.next := fun eq => h (N.injective hj own eq)
      rw [if_neg h, if_neg apart]
  next := by rw [next_add, next_add, M.next, N.succ own]
  each j y hy := by
    rw [get?_add] at hy
    split at hy
    · next h =>
      obtain rfl := Option.some.inj hy
      exact h ▸ own ▸ holds
    · exact M.each j y hy
  grown := Nat.le_succ_of_le M.grown
  added j before after := by
    rcases Nat.lt_succ_iff_lt_or_eq.1 after with after | rfl
    · exact M.added j before after
    · exact own
  rest j hj := by
    have other : j ≠ t.next := by
      intro h
      rw [h, own] at hj
      cases hj
    rw [get?_add, if_neg other]
    exact M.rest j hj

/-- An own entry goes on both sides. -/
theorem erase (M : Mirrors N g P t₀ t u) (own : N.own k = true) :
    Mirrors N g P t₀ (t.erase k) (u.erase (N.number k)) where
  found j hj := by
    rw [get?_erase, get?_erase, M.found j hj]
    by_cases h : j = k
    · simp [h]
    · have apart : N.number j ≠ N.number k := fun eq => h (N.injective hj own eq)
      rw [if_neg h, if_neg apart]
  next := M.next
  each j y hy := by
    rw [get?_erase] at hy
    split at hy
    · cases hy
    · exact M.each j y hy
  grown := M.grown
  added := M.added
  rest j hj := by
    have other : j ≠ k := by
      intro h
      rw [h, own] at hj
      cases hj
    rw [get?_erase, if_neg other]
    exact M.rest j hj

/-- What happened before is left behind. -/
theorem afresh (M : Mirrors N g P t₀ t u) : Mirrors N g P t t u where
  found := M.found
  next := M.next
  each := M.each
  grown := Nat.le_refl _
  added _ before after := absurd before (Nat.not_le_of_lt after)
  rest _ _ := rfl

/-- On the other side a table mirrors itself. -/
theorem others {P' : Bool → α → Prop} (M : Mirrors N g P t₀ t u)
    (turned : ∀ own x, P own x → P' (!own) x) : Mirrors N.others id P' t t t where
  found k _ := by simp [Numbering.others]
  next := rfl
  each k x hx := turned _ x (M.each k x hx)
  grown := Nat.le_refl _
  added _ before after := absurd before (Nat.not_le_of_lt after)
  rest _ _ := rfl

/-- A change on the other side cannot be seen. -/
theorem pass {g' : α → α} {P' : Bool → α → Prop} {t' t'' : Table α} (M : Mirrors N g P t₀ t u)
    (M' : Mirrors N.others g' P' t t' t'')
    (skips : ∀ n, N.own n = false → N.number (n + 1) = N.number n)
    (turned : ∀ own x, P' (!own) x → P own x) : Mirrors N g P t' t' u where
  found k own := by
    rw [M'.rest k (by simp [Numbering.others, own])]
    exact M.found k own
  next := by
    have still : ∀ n, t.next + n ≤ t'.next → N.number (t.next + n) = N.number t.next := by
      intro n bound
      induction n with
      | zero => rfl
      | succ n ih =>
        have foreign : N.own (t.next + n) = false := by
          simpa [Numbering.others] using M'.added (t.next + n) (by omega) (by omega)
        rw [← Nat.add_assoc, skips _ foreign]
        exact ih (by omega)
    have grown := M'.grown
    have all := still (t'.next - t.next) (by omega)
    rw [M.next, ← all, Nat.add_sub_cancel' grown]
  each k x hx := turned _ x (M'.each k x hx)
  grown := Nat.le_refl _
  added _ before after := absurd before (Nat.not_le_of_lt after)
  rest _ _ := rfl

end Mirrors

end Table

/-! ## 3. Sides -/

namespace Lists

/-- The lists of buffers with other numbers. -/
def map (f : RecordId → RecordId) (ls : Lists) : Lists where
  entries := ls.entries.map fun e => (e.1, e.2.map f)
  distinct := List.pairwise_map.2 ls.distinct

variable {f : RecordId → RecordId} {ls : Lists} {k : ImageKey}

theorem ext_entries {ls ms : Lists} (h : ls.entries = ms.entries) : ls = ms := by
  cases ls
  cases ms
  simpa using h

@[simp] theorem find?_map : (ls.map f).find? k = (ls.find? k).map (List.map f) := by
  simp only [find?, map, List.find?_map, Option.map_map]
  rfl

@[simp] theorem members_map : (ls.map f).members k = (ls.members k).map f := by
  unfold members
  rw [find?_map]
  cases ls.find? k <;> rfl

@[simp] theorem all_map : (ls.map f).all = ls.all.map f := by
  simp [all, map, List.flatMap_map, List.map_flatMap]

theorem map_put (members : List RecordId) :
    (ls.put k members).map f = (ls.map f).put k (members.map f) := by
  refine ext_entries ?_
  simp only [put, map]
  induction ls.entries with
  | nil => rfl
  | cons e es ih =>
    unfold putEntry
    by_cases h : e.1 = k
    · simp [h]
    · simpa [h] using ih

@[simp] theorem map_id : ls.map id = ls := ext_entries (by simp [map])

end Lists

/-- Some of the caches, allocators and buffers, and new numbers for them. -/
structure Side where
  caches : Numbering
  allocators : Numbering
  records : Numbering
  /-- Whether the buffers made from now on are on this side. -/
  turn : Bool

/-- The other side, with the numbers as they are. -/
def Side.others (S : Side) : Side where
  caches := S.caches.others
  allocators := S.allocators.others
  records := S.records.others
  turn := !S.turn

/-- The numbers of a side leave no gaps. -/
structure Side.Skips (S : Side) : Prop where
  caches : ∀ n, S.caches.own n = false → S.caches.number (n + 1) = S.caches.number n
  allocators : ∀ n, S.allocators.own n = false → S.allocators.number (n + 1) = S.allocators.number n
  records : ∀ n, S.records.own n = false → S.records.number (n + 1) = S.records.number n

variable {S : Side} {own : Bool}

/-- The record with the numbers of a side. -/
def Record.renumber (S : Side) (x : Record) : Record :=
  { x with
    origin := S.caches.number x.origin
    allocator := S.allocators.number x.allocator
    publisher := x.publisher.map S.caches.number }

/-- What a record refers to is on the side, or it is not. -/
structure Record.On (S : Side) (own : Bool) (x : Record) : Prop where
  origin : S.caches.own x.origin = own
  allocator : S.allocators.own x.allocator = own
  publisher : ∀ c, x.publisher = some c → S.caches.own c = own

/-- The cache with the numbers of a side. -/
def Cache.renumber (S : Side) (s : Cache) : Cache :=
  { s with
    allocator := S.allocators.number s.allocator
    lists := s.lists.map S.records.number
    reserve := { s.reserve with slots := s.reserve.slots.map S.records.number } }

/-- What a cache refers to is on the side, or it is not. -/
structure Cache.On (S : Side) (own : Bool) (s : Cache) : Prop where
  allocator : S.allocators.own s.allocator = own
  slots : ∀ r ∈ s.reserve.slots, S.records.own r = own
  listed : ∀ r ∈ s.lists.all, S.records.own r = own

/-- The handle with the numbers of a side. -/
def Handle.renumber (S : Side) (b : Handle) : Handle where
  record := S.records.number b.record
  cache := S.caches.number b.cache
  image := b.image

/-- The handle is one on the side. -/
structure Handle.Own (S : Side) (b : Handle) : Prop where
  record : S.records.own b.record = true
  cache : S.caches.own b.cache = true

namespace Side

theorem renumber_others_record (x : Record) : x.renumber S.others = x := by
  simp [Record.renumber, others, Numbering.others]

theorem renumber_others_cache (s : Cache) : s.renumber S.others = s := by
  have numbers : S.others.records.number = id := rfl
  simp [Cache.renumber, numbers]
  rfl

theorem renumber_others_handle (b : Handle) : b.renumber S.others = b := rfl

end Side

theorem Record.On.others {x : Record} (on : x.On S own) : x.On S.others (!own) where
  origin := congrArg not on.origin
  allocator := congrArg not on.allocator
  publisher c hc := congrArg not (on.publisher c hc)

theorem Record.On.of_others {x : Record} (on : x.On S.others (!own)) : x.On S own where
  origin := Bool.not_inj on.origin
  allocator := Bool.not_inj on.allocator
  publisher c hc := Bool.not_inj (on.publisher c hc)

theorem Record.write_renumber (x : Record) (fill : Nat → UInt8) :
    (x.renumber S).write fill = (x.write fill).map fun p => (p.1, p.2.renumber S) := by
  unfold Record.write
  change (if x.references ≠ 1 ∨ x.published then none else x.storage.bind fun b =>
    if x.contentSize ≤ b.size then _ else none) = _
  split
  · rfl
  · cases x.storage with
    | none => rfl
    | some b =>
      simp only [Option.bind_some]
      split <;> rfl

theorem Record.On.write {x : Record} {fill : Nat → UInt8} {p : Nat × Record} (on : x.On S own)
    (written : x.write fill = some p) : p.2.On S own := by
  obtain ⟨-, -, b, -, same⟩ := Record.write_eq (n := p.1) (y := p.2) written
  rw [same]
  exact ⟨on.origin, on.allocator, on.publisher⟩

theorem Cache.On.others {s : Cache} (on : s.On S own) : s.On S.others (!own) where
  allocator := congrArg not on.allocator
  slots r hr := congrArg not (on.slots r hr)
  listed r hr := congrArg not (on.listed r hr)

theorem Cache.On.of_others {s : Cache} (on : s.On S.others (!own)) : s.On S own where
  allocator := Bool.not_inj on.allocator
  slots r hr := Bool.not_inj (on.slots r hr)
  listed r hr := Bool.not_inj (on.listed r hr)

/-! ## 4. Stores -/

namespace Store

/-- The store `v` has what `w` has on a side, and `w` differs from `w₀` only there. -/
structure Mirrors (S : Side) (w₀ w v : Store) : Prop where
  records : Table.Mirrors S.records (Record.renumber S) (Record.On S) w₀.records w.records v.records
  caches : Table.Mirrors S.caches (Cache.renumber S) (Cache.On S) w₀.caches w.caches v.caches
  allocators : Table.Mirrors S.allocators id (fun _ _ => True) w₀.allocators w.allocators
    v.allocators
  fresh : ∀ r, w.records.next ≤ r → S.records.own r = S.turn
  /-- If there is a shared allocator on the other side, nothing is said of the one in `v`. -/
  shared : (∀ a, w.settings.allocator = some a → S.allocators.own a = true) →
    v.settings.allocator = w.settings.allocator.map S.allocators.number
  settled : w.settings.allocator = w₀.settings.allocator ∨
    ∃ a, w.settings.allocator = some a ∧ S.allocators.own a = true
  keys : v.freshKeys = w.freshKeys
  unkeyed : w.freshKeys = w₀.freshKeys
  host : v.host = w.host
  unhosted : w.host = w₀.host

namespace Mirrors

variable {w₀ w v : Store} {r : RecordId} {c : CacheId} {a : AllocatorId} {x : Record} {s : Cache}

/-! ### Changes on both sides -/

theorem emit (M : Mirrors S w₀ w v) (e e' : Event) : Mirrors S w₀ (w.emit e) (v.emit e') :=
  { M with }

theorem inside (M : Mirrors S w₀ w v) (l l' : List (CacheId × Section)) :
    Mirrors S w₀ { w with inside := l } { v with inside := l' } :=
  { M with }

theorem setRecord (M : Mirrors S w₀ w v) (own : S.records.own r = true) (on : x.On S true) :
    Mirrors S w₀ (w.setRecord r x) (v.setRecord (S.records.number r) (x.renumber S)) :=
  { M with
    records := M.records.update own (fun _ => x) (fun _ => x.renumber S) (fun _ _ => rfl)
      fun _ _ => on }

theorem setCache (M : Mirrors S w₀ w v) (own : S.caches.own c = true) (on : s.On S true) :
    Mirrors S w₀ (w.setCache c s) (v.setCache (S.caches.number c) (s.renumber S)) :=
  { M with
    caches := M.caches.update own (fun _ => s) (fun _ => s.renumber S) (fun _ _ => rfl)
      fun _ _ => on }

theorem setAllocator (M : Mirrors S w₀ w v) (own : S.allocators.own a = true) (x : Allocator) :
    Mirrors S w₀ (w.setAllocator a x) (v.setAllocator (S.allocators.number a) x) :=
  { M with
    allocators := M.allocators.update own (fun _ => x) (fun _ => x) (fun _ _ => rfl)
      fun _ _ => trivial }

theorem count (M : Mirrors S w₀ w v) (own : S.caches.own c = true) (f : Stats → Stats) :
    Mirrors S w₀ (w.count c f) (v.count (S.caches.number c) f) :=
  { M with
    caches := M.caches.update own (fun s => { s with stats := f s.stats })
      (fun s => { s with stats := f s.stats }) (fun _ _ => rfl) fun _ hs =>
        have on := (M.caches.get? own hs).2
        ⟨on.allocator, on.slots, on.listed⟩ }

theorem eraseRecord (M : Mirrors S w₀ w v) (own : S.records.own r = true) :
    Mirrors S w₀ { w with records := w.records.erase r }
      { v with records := v.records.erase (S.records.number r) } :=
  { M with records := M.records.erase own }

/-- A new buffer of the side whose turn it is. -/
theorem addRecord (M : Mirrors S w₀ w v) (turn : S.turn = true) (on : x.On S true) :
    Mirrors S w₀ { w with records := w.records.add x }
      { v with records := v.records.add (x.renumber S) } :=
  { M with
    records := M.records.add ((M.fresh _ (Nat.le_refl _)).trans turn) on
    fresh := fun r hr => M.fresh r (Nat.le_of_succ_le hr) }

/-- A new cache. -/
theorem addCache (M : Mirrors S w₀ w v) (own : S.caches.own w.caches.next = true)
    (on : s.On S true) : Mirrors S w₀ { w with caches := w.caches.add s }
      { v with caches := v.caches.add (s.renumber S) } :=
  { M with caches := M.caches.add own on }

theorem eraseCache (M : Mirrors S w₀ w v) (own : S.caches.own c = true)
    (l l' : List (CacheId × Cache)) :
    Mirrors S w₀ { w with caches := w.caches.erase c, ended := l }
      { v with caches := v.caches.erase (S.caches.number c), ended := l' } :=
  { M with caches := M.caches.erase own }

theorem addOwner (M : Mirrors S w₀ w v) (own : S.caches.own c = true) :
    Mirrors S w₀ (w.addOwner c) (v.addOwner (S.caches.number c)) :=
  { M with
    caches := M.caches.update own (fun s => { s with owners := s.owners + 1 })
      (fun s => { s with owners := s.owners + 1 }) (fun _ _ => rfl) fun _ hs =>
        have on := (M.caches.get? own hs).2
        ⟨on.allocator, on.slots, on.listed⟩ }

theorem createAllocator (M : Mirrors S w₀ w v)
    (own : S.allocators.own w.allocators.next = true) (limit : Option Nat) :
    (v.createAllocator limit).1 = S.allocators.number (w.createAllocator limit).1 ∧
      Mirrors S w₀ (w.createAllocator limit).2 (v.createAllocator limit).2 :=
  ⟨M.allocators.next, { M with allocators := M.allocators.add own trivial }⟩

theorem fixAllocator (M : Mirrors S w₀ w v) (own : S.allocators.own a = true) :
    Mirrors S w₀ (w.fixAllocator a) (v.fixAllocator (S.allocators.number a)) :=
  { M with
    shared := fun _ => rfl
    settled := .inr ⟨a, rfl, own⟩ }

/-! ### The other side -/

/-- What happened before is left behind. -/
theorem afresh (M : Mirrors S w₀ w v) : Mirrors S w w v :=
  { M with
    records := M.records.afresh
    caches := M.caches.afresh
    allocators := M.allocators.afresh
    settled := .inl rfl
    unkeyed := rfl
    unhosted := rfl }

/-- On the other side a store mirrors itself. -/
theorem others (M : Mirrors S w₀ w v) : Mirrors S.others w w w where
  records := by
    have numbers : Record.renumber S.others = id := funext Side.renumber_others_record
    rw [numbers]
    exact M.records.others fun _ _ => Record.On.others
  caches := by
    have numbers : Cache.renumber S.others = id := funext Side.renumber_others_cache
    rw [numbers]
    exact M.caches.others fun _ _ => Cache.On.others
  allocators := M.allocators.others fun _ _ => id
  fresh r hr := congrArg not (M.fresh r hr)
  shared _ := by simp [Side.others, Numbering.others]
  settled := .inl rfl
  keys := rfl
  unkeyed := rfl
  host := rfl
  unhosted := rfl

/-- Nothing that happens on the other side can be seen. -/
theorem pass {w' w'' : Store} (M : Mirrors S w₀ w v) (M' : Mirrors S.others w w' w'')
    (skips : S.Skips) : Mirrors S w' w' v where
  records := M.records.pass M'.records skips.records fun _ _ => Record.On.of_others
  caches := M.caches.pass M'.caches skips.caches fun _ _ => Cache.On.of_others
  allocators := M.allocators.pass M'.allocators skips.allocators fun _ _ => id
  fresh r hr := Bool.not_inj (M'.fresh r hr)
  shared all := by
    rcases M'.settled with same | ⟨a, ha, other⟩
    · rw [same] at all ⊢
      exact M.shared all
    · have own := all a ha
      simp [Side.others, Numbering.others, own] at other
  settled := .inl rfl
  keys := M.keys.trans M'.unkeyed.symm
  unkeyed := rfl
  host := M.host.trans M'.unhosted.symm
  unhosted := rfl

/-- A program that works on the other side alone may run in one of the stores only. -/
theorem passes {p : Except Fault Store} (M : Mirrors S w₀ w v)
    (alone : Fault.Both p p (Mirrors S.others w)) (skips : S.Skips) :
    Fault.Yields p fun w' => Mirrors S w' w' v := by
  intro w' run
  exact M.pass (alone w' w' run run) skips

end Mirrors

end Store

end PixelPool
