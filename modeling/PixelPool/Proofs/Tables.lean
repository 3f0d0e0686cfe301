import Mathlib.Algebra.BigOperators.Group.List.Basic
import Mathlib.Algebra.BigOperators.Group.Multiset.Basic
import Mathlib.Data.Multiset.AddSub
import PixelPool.Cache.Lists
import PixelPool.Session.Names
import PixelPool.Table

/-!
Tables and names seen as collections: equations between changed tables, the total of a quantity over
all entries, and what is named before and after a name is given or taken away.

`Table.total` adds up any quantity with a commutative sum, so that one set of lemmas serves numbers
of bytes, numbers of entries and multisets alike.
-/

namespace PixelPool

namespace Table

variable {α : Type}

/-! ## 1. Equal tables -/

theorem ext_entries {t u : Table α} (hn : t.next = u.next) (he : t.entries = u.entries) :
    t = u := by
  cases t
  cases u
  simp only at hn he
  subst hn he
  rfl

/-- Two changes of the same entry are one change. -/
theorem update_update (t : Table α) (k : Nat) (f g : α → α) :
    (t.update k f).update k g = t.update k fun a => g (f a) := by
  refine ext_entries rfl ?_
  simp only [update, List.map_map]
  apply List.map_congr_left
  intro e _
  by_cases h : e.1 = k <;> simp [h]

@[simp] theorem update_id (t : Table α) (k : Nat) : t.update k id = t := by
  refine ext_entries rfl ?_
  simp [update]

/-- A change of an entry that goes is lost. -/
theorem erase_update (t : Table α) (k : Nat) (f : α → α) :
    (t.update k f).erase k = t.erase k := by
  refine ext_entries rfl ?_
  simp only [update, erase]
  induction t.entries with
  | nil => rfl
  | cons e es ih => by_cases h : e.1 = k <;> simp [h, ih]

/-- Changes of two different entries can be made in either order. -/
theorem update_comm (t : Table α) {j k : Nat} (other : j ≠ k) (f g : α → α) :
    (t.update j f).update k g = (t.update k g).update j f := by
  refine ext_entries rfl ?_
  simp only [update, List.map_map]
  apply List.map_congr_left
  intro e _
  by_cases hj : e.1 = j
  · simp [hj, other]
  · by_cases hk : e.1 = k <;> simp [hj, hk, other.symm]

/-- An entry can go before or after a change. -/
theorem erase_update_comm (t : Table α) (j k : Nat) (f : α → α) :
    (t.update j f).erase k = (t.erase k).update j f := by
  refine ext_entries rfl ?_
  simp only [update, erase, List.filter_map]
  have same : ((fun e : Nat × α => e.1 != k) ∘ fun e => if e.1 = j then (e.1, f e.2) else e)
      = fun e => e.1 != k := by
    funext e
    by_cases hj : e.1 = j <;> simp [hj]
  rw [same]

/-- A change of the entry just added changes what is added. -/
theorem update_add (t : Table α) (a : α) (f : α → α) :
    (t.add a).update t.next f = t.add (f a) := by
  refine ext_entries rfl ?_
  have old : t.entries.map (fun e => if e.1 = t.next then (e.1, f e.2) else e) = t.entries := by
    conv_rhs => rw [← List.map_id t.entries]
    apply List.map_congr_left
    intro e he
    have := t.below e he
    simp [show e.1 ≠ t.next by omega]
  simp [update, add, old]

/-! ## 2. Entries -/

theorem mem_entries_iff {t : Table α} {k : Nat} {a : α} :
    (k, a) ∈ t.entries ↔ t.get? k = some a := by
  have key : ∀ es : List (Nat × α), (es.Pairwise fun a b => b.1 < a.1) →
      ((k, a) ∈ es ↔ (es.find? fun e => e.1 == k).map (·.2) = some a) := by
    intro es
    induction es with
    | nil => simp
    | cons e es ih =>
      intro h
      obtain ⟨he, hes⟩ := List.pairwise_cons.1 h
      rw [List.mem_cons, ih hes, List.find?_cons]
      by_cases hk : e.1 = k
      · have absent : es.find? (fun e => e.1 == k) = none := by
          refine List.find?_eq_none.2 fun d hd => ?_
          have := he d hd
          simp only [beq_iff_eq]
          omega
        simp [hk, absent, Prod.ext_iff, eq_comm]
      · have hne : (k, a) ≠ e := fun h => hk (h ▸ rfl)
        have hb : (e.1 == k) = false := by simpa using hk
        simp [hne, hb]
  exact key t.entries t.descending

/-- Two changes that agree on an entry are the same change of it. -/
theorem update_congr {t : Table α} {k : Nat} {a : α} {f g : α → α} (h : t.get? k = some a)
    (same : f a = g a) : t.update k f = t.update k g := by
  refine ext_entries rfl (List.map_congr_left fun e he => ?_)
  by_cases hk : e.1 = k
  · have he : t.get? k = some e.2 := mem_entries_iff.1 (hk ▸ he)
    have : e.2 = a := by simpa [h, eq_comm] using he
    simp [hk, this, same]
  · simp [hk]

theorem update_of_none {t : Table α} {k : Nat} (h : t.get? k = none) (f : α → α) :
    t.update k f = t := by
  refine ext_entries rfl ((List.map_congr_left fun e he => ?_).trans (List.map_id _))
  refine if_neg fun hk => ?_
  have found : t.get? k = some e.2 := mem_entries_iff.1 (hk ▸ he)
  simp [h] at found

/-- A change leaves the same keys in use. -/
@[simp] theorem isSome_get?_update (t : Table α) (k : Nat) (f : α → α) (j : Nat) :
    ((t.update k f).get? j).isSome = (t.get? j).isSome := by
  rw [get?_update]
  split <;> simp

/-! ## 3. Totals -/

section Total

variable {M : Type} [AddCommMonoid M]

/-- The sum of a quantity over all entries. -/
def total (f : α → M) (t : Table α) : M := (t.entries.map fun e => f e.2).sum

@[simp] theorem total_startingAt (f : α → M) (first : Nat) :
    (startingAt first).total f = 0 := rfl

theorem total_add (f : α → M) (t : Table α) (a : α) : (t.add a).total f = f a + t.total f := by
  simp [total, add]

/-- An entry and the rest of the table make up the total. -/
theorem total_erase (f : α → M) {t : Table α} {k : Nat} {a : α} (h : t.get? k = some a) :
    t.total f = f a + (t.erase k).total f := by
  have key : ∀ es : List (Nat × α), (es.Pairwise fun a b => b.1 < a.1) → (k, a) ∈ es →
      (es.map fun e => f e.2).sum
        = f a + ((es.filter fun e => e.1 != k).map fun e => f e.2).sum := by
    intro es
    induction es with
    | nil => simp
    | cons e es ih =>
      intro hp hm
      obtain ⟨he, hes⟩ := List.pairwise_cons.1 hp
      by_cases hk : e.1 = k
      · have rest : es.filter (fun e => e.1 != k) = es := by
          apply List.filter_eq_self.2
          intro d hd
          have := he d hd
          simp only [bne_iff_ne, ne_eq]
          omega
        have same : e = (k, a) := by
          rcases List.mem_cons.1 hm with rfl | hm
          · rfl
          · exact absurd (he _ hm) (by simp [hk])
        subst same
        simp [rest]
      · have hm : (k, a) ∈ es := by
          rcases List.mem_cons.1 hm with rfl | hm
          · exact absurd rfl hk
          · exact hm
        simp [hk, ih hes hm, add_left_comm]
  exact key t.entries t.descending (mem_entries_iff.2 h)

theorem total_update (f : α → M) {t : Table α} {k : Nat} {a : α} (g : α → α)
    (h : t.get? k = some a) : (t.update k g).total f = f (g a) + (t.erase k).total f := by
  have hu : (t.update k g).get? k = some (g a) := by simp [get?_update, h]
  rw [total_erase f hu, erase_update]

theorem total_update_eq (f : α → M) {t : Table α} {k : Nat} {a : α} (g : α → α)
    (h : t.get? k = some a) (same : f (g a) = f a) : (t.update k g).total f = t.total f := by
  rw [total_update f g h, same, ← total_erase f h]

/-- A change that no entry's quantity shows does not show in the total. -/
theorem total_update_self (f : α → M) (t : Table α) (k : Nat) {g : α → α}
    (same : ∀ a, f (g a) = f a) : (t.update k g).total f = t.total f := by
  simp only [total, update, List.map_map]
  refine congrArg List.sum (List.map_congr_left fun e _ => ?_)
  by_cases hk : e.1 = k <;> simp [hk, same]

/-- Only one entry counts for a quantity that is zero on all others. -/
theorem total_eq_single (f : α → M) {t : Table α} {k : Nat} {a : α} (h : t.get? k = some a)
    (other : ∀ j b, t.get? j = some b → j ≠ k → f b = 0) : t.total f = f a := by
  rw [total_erase f h]
  have rest : (t.erase k).total f = 0 := by
    apply List.sum_eq_zero
    intro m hm
    obtain ⟨⟨j, b⟩, he, rfl⟩ := List.mem_map.1 hm
    obtain ⟨hj, hne⟩ := List.mem_filter.1 he
    exact other j b (mem_entries_iff.1 hj) (by simpa using hne)
  rw [rest, add_zero]

theorem total_eq_zero (f : α → M) {t : Table α} (h : ∀ k a, t.get? k = some a → f a = 0) :
    t.total f = 0 := by
  apply List.sum_eq_zero
  intro m hm
  obtain ⟨⟨k, a⟩, he, rfl⟩ := List.mem_map.1 hm
  exact h k a (mem_entries_iff.1 he)

theorem total_congr {f g : α → M} {t : Table α} (h : ∀ k a, t.get? k = some a → f a = g a) :
    t.total f = t.total g := by
  refine congrArg List.sum (List.map_congr_left fun e he => ?_)
  exact h e.1 e.2 (mem_entries_iff.1 he)

/-- An additive map of a total is the total of what it makes of the entries. -/
theorem map_total {N : Type} [AddCommMonoid N] (φ : M →+ N) (f : α → M) (t : Table α) :
    φ (t.total f) = t.total fun a => φ (f a) := by
  simp only [total, map_list_sum, List.map_map]
  rfl

end Total

/-! ## 4. Keys -/

/-- The keys of the values of which `p` holds. -/
def keysOf (p : α → Bool) (t : Table α) : List Nat := (t.entries.filter fun e => p e.2).map (·.1)

theorem mem_keysOf {p : α → Bool} {t : Table α} {k : Nat} :
    k ∈ t.keysOf p ↔ ∃ a, t.get? k = some a ∧ p a = true := by
  constructor
  · intro hk
    obtain ⟨e, he, rfl⟩ := List.mem_map.1 hk
    obtain ⟨he, holds⟩ := List.mem_filter.1 he
    exact ⟨e.2, mem_entries_iff.1 he, holds⟩
  · rintro ⟨a, ha, holds⟩
    exact List.mem_map.2 ⟨(k, a), List.mem_filter.2 ⟨mem_entries_iff.2 ha, holds⟩, rfl⟩

theorem nodup_keysOf (p : α → Bool) (t : Table α) : (t.keysOf p).Nodup := by
  have descending := t.descending.filter fun e => p e.2
  exact List.pairwise_map.2 (descending.imp fun below => Nat.ne_of_gt below)

theorem map_fst_update (t : Table α) (k : Nat) (f : α → α) :
    (t.update k f).entries.map (·.1) = t.entries.map (·.1) := by
  simp only [update, List.map_map]
  refine List.map_congr_left fun e _ => ?_
  by_cases hk : e.1 = k <;> simp [hk]

/-- An entry and the rest of the table are the entries. -/
theorem perm_erase {t : Table α} {k : Nat} {a : α} (h : t.get? k = some a) :
    t.entries.Perm ((k, a) :: (t.erase k).entries) := by
  have nodup : t.entries.Nodup := t.descending.imp fun {a b} below same => by
    rw [same] at below
    exact Nat.lt_irrefl _ below
  have rest : (k, a) ∉ (t.erase k).entries := by simp [erase]
  refine (List.perm_ext_iff_of_nodup nodup (List.nodup_cons.2 ⟨rest, nodup.filter _⟩)).2 ?_
  rintro ⟨j, b⟩
  rw [List.mem_cons, mem_entries_iff, mem_entries_iff, get?_erase]
  by_cases same : j = k
  · simp [same, h, eq_comm]
  · simp [same]

theorem total_eq_length_keysOf (p : α → Bool) (t : Table α) :
    t.total (fun a => if p a = true then 1 else 0) = (t.keysOf p).length := by
  simp only [total, keysOf, List.length_map]
  induction t.entries with
  | nil => rfl
  | cons e es ih => cases holds : p e.2 <;> simp [holds, ih, add_comm]

end Table

/-! ## 5. Names -/

namespace Names

variable {α : Type}

@[simp] theorem values_empty : (empty : Names α).values = [] := rfl

theorem mem_values_of_get? {ns : Names α} {k : String} {a : α} (h : ns.get? k = some a) :
    a ∈ ns.values := by
  obtain ⟨e, he, rfl⟩ := Option.map_eq_some_iff.1 h
  exact List.mem_map_of_mem (List.mem_of_find?_eq_some he)

/-- An entry is what its name stands for, since no name has two entries. -/
theorem get?_of_mem {ns : Names α} {e : String × α} (h : e ∈ ns.entries) :
    ns.get? e.1 = some e.2 := by
  obtain ⟨entries, ascending⟩ := ns
  unfold get?
  induction entries with
  | nil => cases h
  | cons d rest ih =>
    obtain ⟨hd, ascending⟩ := List.pairwise_cons.1 ascending
    rcases List.mem_cons.1 h with rfl | h
    · simp
    · have other : (d.1 == e.1) = false := by
        simpa using fun same : d.1 = e.1 => String.lt_irrefl _ (same ▸ hd e h)
      simpa [List.find?_cons, other] using ih ascending h

/-- What a name stands for and what the other names stand for make up everything named. -/
theorem values_erase (ns : Names α) (k : String) :
    (ns.values : Multiset α) = ((ns.get? k).toList : Multiset α) + (ns.erase k).values := by
  have key : ∀ es : List (String × α), (es.Pairwise fun a b => a.1 < b.1) →
      (es.map (·.2)).Perm (((es.find? fun e => e.1 == k).map (·.2)).toList ++
        (es.filter fun e => e.1 != k).map (·.2)) := by
    intro es
    induction es with
    | nil => simp
    | cons e es ih =>
      intro h
      obtain ⟨he, hes⟩ := List.pairwise_cons.1 h
      by_cases hk : e.1 = k
      · have rest : es.filter (fun e => e.1 != k) = es := by
          apply List.filter_eq_self.2
          intro d hd
          have := he d hd
          simp only [bne_iff_ne, ne_eq]
          rintro rfl
          exact absurd (hk ▸ this) (String.lt_irrefl _)
        simp [hk, rest]
      · simpa [hk, List.find?_cons] using
          ((ih hes).cons e.2).trans List.perm_middle.symm
  exact Multiset.coe_eq_coe.2 (key ns.entries ns.ascending)

/-- Giving a name to a thing takes the name away from what had it. -/
theorem values_put (ns : Names α) (k : String) (a : α) :
    ((ns.put k a).values : Multiset α) = a ::ₘ ((ns.erase k).values : Multiset α) := by
  have key : ∀ es : List (String × α), (es.Pairwise fun a b => a.1 < b.1) →
      ((insertEntry k a es).map (·.2)).Perm
        (a :: (es.filter fun e => e.1 != k).map (·.2)) := by
    intro es
    induction es with
    | nil => simp [insertEntry]
    | cons e es ih =>
      intro h
      obtain ⟨he, hes⟩ := List.pairwise_cons.1 h
      have above : ∀ {j : String}, ¬ e.1 < j → es.filter (fun d => d.1 != j) = es := by
        intro j hj
        apply List.filter_eq_self.2
        intro d hd
        simp only [bne_iff_ne, ne_eq]
        rintro rfl
        exact hj (he d hd)
      unfold insertEntry
      split
      · next hlt =>
        have hne : e.1 ≠ k := fun h => String.lt_irrefl k (h ▸ hlt)
        have := above (String.lt_asymm hlt)
        simp [hne, this]
      · split
        · next heq =>
          subst heq
          simp [above (String.lt_irrefl _)]
        · next hne =>
          simpa [Ne.symm hne] using ((ih hes).cons e.2).trans (List.Perm.swap _ _ _)
  exact Multiset.coe_eq_coe.2 (key ns.entries ns.ascending)

end Names

/-! ## 6. Lists -/

namespace Lists

variable {ls : Lists} {k : ImageKey} {members : List RecordId} {r : RecordId}

theorem find?_eq_some_iff : ls.find? k = some members ↔ (k, members) ∈ ls.entries := by
  have key : ∀ es : List (ImageKey × List RecordId), (es.Pairwise fun a b => a.1 ≠ b.1) →
      ((es.find? fun e => e.1 == k).map (·.2) = some members ↔ (k, members) ∈ es) := by
    intro es
    induction es with
    | nil => simp
    | cons e es ih =>
      intro h
      obtain ⟨he, hes⟩ := List.pairwise_cons.1 h
      rw [List.mem_cons, ← ih hes, List.find?_cons]
      by_cases hk : e.1 = k
      · have absent : es.find? (fun e => e.1 == k) = none := by
          refine List.find?_eq_none.2 fun d hd => ?_
          have := he d hd
          simp only [beq_iff_eq]
          exact fun h => this (hk.trans h.symm)
        simp [hk, absent, Prod.ext_iff, eq_comm]
      · have hne : (k, members) ≠ e := fun h => hk (h ▸ rfl)
        have hb : (e.1 == k) = false := by simpa using hk
        simp [hne, hb]
  exact key ls.entries ls.distinct

/-- A buffer is a member of some list if it is a member of the list of some image. -/
theorem mem_all_iff : r ∈ ls.all ↔ ∃ k, r ∈ ls.members k := by
  simp only [all, List.mem_flatMap, Prod.exists, Lists.members]
  constructor
  · rintro ⟨k, members, he, hr⟩
    exact ⟨k, by simpa [find?_eq_some_iff.2 he] using hr⟩
  · rintro ⟨k, hr⟩
    cases hf : ls.find? k with
    | none => simp [hf] at hr
    | some members => exact ⟨k, members, find?_eq_some_iff.1 hf, by simpa [hf] using hr⟩

/-- A buffer that only one image can list is counted as often as that image lists it. -/
theorem count_all (only : ∀ j, r ∈ ls.members j → j = k) :
    ls.all.count r = (ls.members k).count r := by
  have key : ∀ es : List (ImageKey × List RecordId), (es.Pairwise fun a b => a.1 ≠ b.1) →
      (∀ e ∈ es, r ∈ e.2 → e.1 = k) →
      (es.flatMap (·.2)).count r
        = (((es.find? fun e => e.1 == k).map (·.2)).getD []).count r := by
    intro es
    induction es with
    | nil => simp
    | cons e es ih =>
      intro h only
      obtain ⟨he, hes⟩ := List.pairwise_cons.1 h
      have rest := ih hes fun d hd => only d (List.mem_cons_of_mem _ hd)
      rw [List.flatMap_cons, List.count_append, rest, List.find?_cons]
      by_cases hk : e.1 = k
      · have absent : es.find? (fun d => d.1 == k) = none := by
          refine List.find?_eq_none.2 fun d hd => ?_
          have := he d hd
          simp only [beq_iff_eq]
          exact fun h => this (hk.trans h.symm)
        simp [hk, absent]
      · have hb : (e.1 == k) = false := by simpa using hk
        have unlisted : r ∉ e.2 := fun hr => hk (only e List.mem_cons_self hr)
        simp [hb, List.count_eq_zero.2 unlisted]
  refine key ls.entries ls.distinct fun e he hr => only e.1 ?_
  simpa [members, find?_eq_some_iff.2 he] using hr

end Lists

end PixelPool
