/-!
Names for things, kept in the order of the names, which is the order in which things are given up at
the end.

Main statements: what `get?` finds after `put` and `erase`.
-/

namespace PixelPool

/-- Things by name, in ascending order of the names. -/
structure Names (α : Type) where
  entries : List (String × α)
  ascending : entries.Pairwise fun a b => a.1 < b.1

namespace Names

variable {α : Type}

/-- No names. -/
def empty : Names α := ⟨[], .nil⟩

/-- The thing of a name. -/
def get? (ns : Names α) (k : String) : Option α := (ns.entries.find? fun e => e.1 == k).map (·.2)

/-- Puts an entry in its place, in place of the one of the same name if there is one. -/
def insertEntry (k : String) (a : α) : List (String × α) → List (String × α)
  | [] => [(k, a)]
  | e :: rest =>
    if k < e.1 then (k, a) :: e :: rest
    else if k = e.1 then (k, a) :: rest
    else e :: insertEntry k a rest

theorem mem_insertEntry {k : String} {a : α} {es : List (String × α)} {e : String × α}
    (h : e ∈ insertEntry k a es) : e = (k, a) ∨ e ∈ es := by
  induction es with
  | nil => exact .inl (by simpa [insertEntry] using h)
  | cons d rest ih =>
    unfold insertEntry at h
    split at h
    · simpa using h
    · split at h
      · rcases List.mem_cons.1 h with h | h
        · exact .inl h
        · exact .inr (List.mem_cons_of_mem _ h)
      · rcases List.mem_cons.1 h with h | h
        · exact .inr (h ▸ List.mem_cons_self)
        · exact (ih h).imp_right (List.mem_cons_of_mem _)

theorem insertEntry_ascending {k : String} {a : α} {es : List (String × α)}
    (h : es.Pairwise fun a b => a.1 < b.1) :
    (insertEntry k a es).Pairwise fun a b => a.1 < b.1 := by
  induction es with
  | nil => simp [insertEntry]
  | cons d rest ih =>
    obtain ⟨hd, hrest⟩ := List.pairwise_cons.1 h
    unfold insertEntry
    split
    · next hlt =>
      refine List.pairwise_cons.2 ⟨fun e he => ?_, h⟩
      rcases List.mem_cons.1 he with rfl | he
      · exact hlt
      · exact String.lt_trans hlt (hd e he)
    · next hnlt =>
      split
      · next heq => exact List.pairwise_cons.2 ⟨fun e he => heq ▸ hd e he, hrest⟩
      · next hne =>
        refine List.pairwise_cons.2 ⟨fun e he => ?_, ih hrest⟩
        rcases mem_insertEntry he with rfl | he
        · exact Std.lt_of_le_of_ne (Std.not_lt.1 hnlt) (Ne.symm hne)
        · exact hd e he

/-- Gives a name to a thing; the thing that had it before loses it. -/
def put (ns : Names α) (k : String) (a : α) : Names α where
  entries := insertEntry k a ns.entries
  ascending := insertEntry_ascending ns.ascending

/-- Takes a name away. -/
def erase (ns : Names α) (k : String) : Names α where
  entries := ns.entries.filter fun e => e.1 != k
  ascending := ns.ascending.filter _

/-- The things in the order of their names. -/
def values (ns : Names α) : List α := ns.entries.map (·.2)

@[simp] theorem get?_empty (k : String) : (empty : Names α).get? k = none := rfl

theorem get?_put (ns : Names α) (k : String) (a : α) (j : String) :
    (ns.put k a).get? j = if j = k then some a else ns.get? j := by
  simp only [get?, put]
  induction ns.entries with
  | nil =>
    by_cases hj : j = k
    · simp [insertEntry, hj]
    · simp [insertEntry, hj, Ne.symm hj]
  | cons e es ih =>
    unfold insertEntry
    split
    · by_cases hj : j = k
      · simp [hj]
      · simp [hj, Ne.symm hj, List.find?_cons]
    · split
      · next hk =>
        by_cases hj : j = k
        · simp [hj]
        · simp [← hk, hj, Ne.symm hj]
      · next hk =>
        by_cases hj : e.1 = j
        · simp [← hj, Ne.symm hk]
        · simpa [hj, List.find?_cons] using ih

theorem get?_erase (ns : Names α) (k j : String) :
    (ns.erase k).get? j = if j = k then none else ns.get? j := by
  simp only [get?, erase, List.find?_filter]
  by_cases h : j = k
  · simp [h]
  · have same : ∀ e : String × α, ((e.1 != k) = true ∧ (e.1 == j) = true) ↔ e.1 = j := by
      intro e
      by_cases he : e.1 = j <;> simp [he, h]
    simp only [same, if_neg h]
    rfl

end Names

end PixelPool
