import PixelPool.Fault
import PixelPool.Image

/-!
The published buffers of a cache, one list for each image, the most recently published first. A list
is made when the first buffer of its image is published and stays from then on, even without
members.

Main statements: which list an image has after one list was replaced.
-/

namespace PixelPool

/-- The lists of a cache by image. No image has two. -/
structure Lists where
  entries : List (ImageKey × List RecordId)
  distinct : entries.Pairwise fun a b => a.1 ≠ b.1

namespace Lists

/-- No lists. -/
def empty : Lists := ⟨[], .nil⟩

/-- The members of an image's list, if the image has one. -/
def find? (ls : Lists) (k : ImageKey) : Option (List RecordId) :=
  (ls.entries.find? fun e => e.1 == k).map (·.2)

/-- The members of an image's list, none if there is no list. -/
def members (ls : Lists) (k : ImageKey) : List RecordId := (ls.find? k).getD []

/-- The members of all lists. -/
def all (ls : Lists) : List RecordId := ls.entries.flatMap (·.2)

/-- The entries with the one of an image replaced, or with a new one at the end. -/
def putEntry (k : ImageKey) (members : List RecordId) :
    List (ImageKey × List RecordId) → List (ImageKey × List RecordId)
  | [] => [(k, members)]
  | e :: rest => if e.1 = k then (k, members) :: rest else e :: putEntry k members rest

theorem mem_putEntry {k : ImageKey} {members : List RecordId}
    {es : List (ImageKey × List RecordId)} {e : ImageKey × List RecordId}
    (h : e ∈ putEntry k members es) : e = (k, members) ∨ e ∈ es := by
  induction es with
  | nil => exact .inl (by simpa [putEntry] using h)
  | cons d rest ih =>
    unfold putEntry at h
    split at h
    · exact (List.mem_cons.1 h).imp_right (List.mem_cons_of_mem _)
    · rcases List.mem_cons.1 h with rfl | h
      · exact .inr List.mem_cons_self
      · exact (ih h).imp_right (List.mem_cons_of_mem _)

theorem putEntry_distinct {k : ImageKey} {members : List RecordId}
    {es : List (ImageKey × List RecordId)} (h : es.Pairwise fun a b => a.1 ≠ b.1) :
    (putEntry k members es).Pairwise fun a b => a.1 ≠ b.1 := by
  induction es with
  | nil => simp [putEntry]
  | cons d rest ih =>
    obtain ⟨hd, hrest⟩ := List.pairwise_cons.1 h
    unfold putEntry
    split
    · next hk => exact List.pairwise_cons.2 ⟨fun e he => hk ▸ hd e he, hrest⟩
    · next hk =>
      refine List.pairwise_cons.2 ⟨fun e he => ?_, ih hrest⟩
      rcases mem_putEntry he with rfl | he
      · exact hk
      · exact hd e he

/-- The lists with the one of an image replaced, or added if there was none. -/
def put (ls : Lists) (k : ImageKey) (members : List RecordId) : Lists where
  entries := putEntry k members ls.entries
  distinct := putEntry_distinct ls.distinct

/-- The lists with a buffer at the head of its image's list. -/
def add (ls : Lists) (k : ImageKey) (r : RecordId) : Except Fault Lists :=
  if r ∈ ls.members k then .error (.listedTwice r) else .ok (ls.put k (r :: ls.members k))

/-- The lists with a buffer taken out of its image's list. -/
def remove (ls : Lists) (k : ImageKey) (r : RecordId) : Except Fault Lists :=
  if r ∈ ls.members k then .ok (ls.put k ((ls.members k).erase r)) else .error (.missingFromList r)

@[simp] theorem find?_empty (k : ImageKey) : empty.find? k = none := rfl

theorem find?_put (ls : Lists) (k : ImageKey) (members : List RecordId) (j : ImageKey) :
    (ls.put k members).find? j = if j = k then some members else ls.find? j := by
  simp only [find?, put]
  induction ls.entries with
  | nil =>
    by_cases hj : j = k
    · simp [putEntry, hj]
    · simp [putEntry, hj, Ne.symm hj]
  | cons e es ih =>
    unfold putEntry
    by_cases hk : e.1 = k
    · by_cases hj : j = k
      · simp [hk, hj]
      · simp [hk, hj, Ne.symm hj]
    · by_cases hj : e.1 = j
      · simp [hk, ← hj]
      · simpa [hk, hj, List.find?_cons] using ih

theorem members_put (ls : Lists) (k : ImageKey) (members : List RecordId) (j : ImageKey) :
    (ls.put k members).members j = if j = k then members else ls.members j := by
  unfold Lists.members
  rw [find?_put]
  split <;> rfl

end Lists

end PixelPool
