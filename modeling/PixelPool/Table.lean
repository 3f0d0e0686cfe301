/-!
Finite tables whose keys are handed out by a counter. A key is never handed out twice, not even
after its entry is gone, so whoever still holds an old key finds nothing under it.

Main statements: what `get?` finds after `add`, `update` and `erase`.
-/

namespace PixelPool

/-- A table of values under numbers below `next`, newest entry first. -/
structure Table (α : Type) where
  /-- The key of the next entry. -/
  next : Nat
  entries : List (Nat × α)
  descending : entries.Pairwise fun a b => b.1 < a.1
  below : ∀ e ∈ entries, e.1 < next

namespace Table

variable {α : Type}

/-- A table without entries, whose first key will be `first`. -/
def startingAt (first : Nat) : Table α where
  next := first
  entries := []
  descending := .nil
  below := by simp

/-- The value under a key. -/
def get? (t : Table α) (k : Nat) : Option α := (t.entries.find? fun e => e.1 == k).map (·.2)

/-- The table with a new entry, whose key is `t.next`. -/
def add (t : Table α) (a : α) : Table α where
  next := t.next + 1
  entries := (t.next, a) :: t.entries
  descending := List.pairwise_cons.2 ⟨t.below, t.descending⟩
  below := by
    intro e h
    rcases List.mem_cons.1 h with rfl | h
    · exact Nat.lt_succ_self _
    · exact Nat.lt_succ_of_lt (t.below e h)

/-- The table with the value under a key, if there is one, changed by `f`. -/
def update (t : Table α) (k : Nat) (f : α → α) : Table α where
  next := t.next
  entries := t.entries.map fun e => if e.1 = k then (e.1, f e.2) else e
  descending := by
    refine List.pairwise_map.2 (t.descending.imp ?_)
    intro a b h
    split <;> split <;> exact h
  below := by
    intro e h
    obtain ⟨a, ha, rfl⟩ := List.mem_map.1 h
    split <;> exact t.below a ha

/-- The table without the entry under a key. -/
def erase (t : Table α) (k : Nat) : Table α where
  next := t.next
  entries := t.entries.filter fun e => e.1 != k
  descending := t.descending.filter _
  below := fun e h => t.below e (List.mem_filter.1 h).1

/-- The values, newest first. -/
def values (t : Table α) : List α := t.entries.map (·.2)

@[simp] theorem next_add (t : Table α) (a : α) : (t.add a).next = t.next + 1 := rfl

@[simp] theorem next_update (t : Table α) (k : Nat) (f : α → α) :
    (t.update k f).next = t.next := rfl

@[simp] theorem next_erase (t : Table α) (k : Nat) : (t.erase k).next = t.next := rfl

@[simp] theorem get?_startingAt (first k : Nat) : (startingAt first : Table α).get? k = none := rfl

/-- Only keys below `next` are in use. -/
theorem lt_next_of_get? {t : Table α} {k : Nat} {a : α} (h : t.get? k = some a) : k < t.next := by
  obtain ⟨e, he, _⟩ := Option.map_eq_some_iff.1 h
  have hk : e.1 = k := by simpa using List.find?_some he
  exact hk ▸ t.below e (List.mem_of_find?_eq_some he)

@[simp] theorem get?_next (t : Table α) : t.get? t.next = none := by
  match h : t.get? t.next with
  | none => rfl
  | some a => exact absurd (lt_next_of_get? h) (Nat.lt_irrefl _)

theorem get?_add (t : Table α) (a : α) (k : Nat) :
    (t.add a).get? k = if k = t.next then some a else t.get? k := by
  simp only [get?, add, List.find?_cons]
  by_cases h : k = t.next
  · simp [h]
  · have : (t.next == k) = false := by simpa using Ne.symm h
    simp [this, h]

theorem get?_update (t : Table α) (k : Nat) (f : α → α) (j : Nat) :
    (t.update k f).get? j = if j = k then (t.get? j).map f else t.get? j := by
  simp only [get?, update]
  induction t.entries with
  | nil => simp
  | cons e es ih =>
    simp only [List.map_cons, List.find?_cons]
    by_cases he : e.1 = k
    · by_cases hj : e.1 = j
      · simp [he, hj.symm.trans he]
      · have : (e.1 == j) = false := by simpa using hj
        simpa [he, this, he ▸ this] using ih
    · by_cases hj : e.1 = j
      · have hjk : j ≠ k := fun h => he (hj.trans h)
        simp [hj, hjk]
      · have : (e.1 == j) = false := by simpa using hj
        simpa [he, this] using ih

theorem get?_erase (t : Table α) (k j : Nat) :
    (t.erase k).get? j = if j = k then none else t.get? j := by
  simp only [get?, erase, List.find?_filter]
  by_cases h : j = k
  · simp [h]
  · have same : ∀ e : Nat × α, ((e.1 != k) = true ∧ (e.1 == j) = true) ↔ e.1 = j := by
      intro e
      by_cases he : e.1 = j <;> simp [he, h]
    simp only [same, if_neg h]
    rfl

end Table

end PixelPool
