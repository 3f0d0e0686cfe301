import Mathlib.Order.Lattice
import PixelPool.Storage.Allocator

/-!
An allocator on its own, as a machine: requests and returned blocks in any order, on a heap that
refuses what it likes.

A `Call` is one use of the allocator. It says for a request whether the heap has room, so that
nothing is assumed of the heap, not even that it answers alike for the same size
(`Allocator.allocate` is the request whose answer is settled by the `Heap` of the host), and for a
return which block comes back, so that nothing is assumed of the block either: it may be truncated,
or another allocator's. What one call makes of the totals is `serve_cases`: it grants, refuses, or
takes back. From it follow, call by call, that the live bytes stay under the peak and the peak under
the ceiling (`Bounded`), and that the peak is the largest number of live bytes a granted request has
left (`peak_serveAll`).

A request reserves its bytes before it asks the heap, and gives them back if the heap refuses
(`allocateInSteps`). Nothing of this is left to see afterwards (`allocateInSteps_eq`): the bytes
that are given back are the ones just added, so that a subtraction that stops at zero is exact here.
-/

namespace PixelPool.Allocator

variable {a : Allocator} {limit : Option Nat} {heapGrants : Bool} {size : Nat}

/-! ## 1. A request, step by step -/

/-- The live bytes with `size` more, if a word can count them and they stay within the ceiling. -/
def reserve? (a : Allocator) (size : Nat) : Option Nat :=
  if a.live + size ≤ Word.max then
    if a.live + size ≤ a.ceiling then some (a.live + size) else none
  else none

/-- A request with its steps in order: the bytes are reserved, the heap is asked, and the bytes are
given back if it refuses. -/
def allocateInSteps (heapGrants : Bool) (a : Allocator) (size : Nat) :
    Except StorageError Block × Allocator :=
  if size > Word.maxBlock then (.error (.outOfMemory size), { a with failed := a.failed + 1 })
  else
    match a.reserve? size with
    | none => (.error (a.quotaError size), { a with failed := a.failed + 1 })
    | some live =>
      let reserved := { a with live }
      if heapGrants then
        (.ok (.zeroed size),
          { reserved with
            peak := Nat.max reserved.peak live
            allocations := reserved.allocations + 1 })
      else
        (.error (.outOfMemory size),
          { reserved with live := reserved.live - size, failed := reserved.failed + 1 })

theorem reserve?_eq_none_iff (word : a.ceiling ≤ Word.max) :
    a.reserve? size = none ↔ a.live + size > a.ceiling := by
  unfold reserve?
  split
  · split <;> simp <;> omega
  · simp
    omega

theorem reserve?_eq_some {live : Nat} (h : a.reserve? size = some live) :
    live = a.live + size ∧ a.live + size ≤ a.ceiling := by
  unfold reserve? at h
  split at h
  · split at h
    · cases h
      exact ⟨rfl, by assumption⟩
    · cases h
  · cases h

/-- Reserving and giving back leave no trace. -/
theorem allocateInSteps_eq (word : a.ceiling ≤ Word.max) (heapGrants : Bool) (size : Nat) :
    a.allocateInSteps heapGrants size = a.allocateIf heapGrants size := by
  unfold allocateInSteps allocateIf
  by_cases tooLarge : size > Word.maxBlock
  · simp only [if_pos tooLarge]
    rfl
  · simp only [if_neg tooLarge]
    cases reserved : a.reserve? size with
    | none =>
      have past := (reserve?_eq_none_iff word).1 reserved
      simp only [if_pos past]
      rfl
    | some live =>
      obtain ⟨rfl, within⟩ := reserve?_eq_some reserved
      have notPast : ¬a.live + size > a.ceiling := by omega
      simp only [if_neg notPast]
      cases heapGrants with
      | true => rfl
      | false => simp [refuse]

/-! ## 2. What a request decides -/

/-- The limit would be passed by a request that one block could serve. -/
def Exceeds (a : Allocator) (size limit : Nat) : Prop :=
  a.limit = some limit ∧ size ≤ Word.maxBlock ∧ limit < a.live + size

/-- A request that is granted. -/
theorem allocateIf_granted (block : size ≤ Word.maxBlock) (within : a.live + size ≤ a.ceiling) :
    a.allocateIf true size = (.ok (.zeroed size), a.grant size) := by
  unfold allocateIf
  rw [if_neg (by omega), if_neg (by omega), if_pos rfl]

/-- A request that is refused, with the three reasons in their order. -/
theorem allocateIf_refused
    (h : ¬(size ≤ Word.maxBlock ∧ a.live + size ≤ a.ceiling ∧ heapGrants = true)) :
    ∃ e, a.allocateIf heapGrants size = (.error e, a.refuse) ∧
      (∀ limit, a.Exceeds size limit → e = .limitExceeded size a.live limit) ∧
      ((∀ limit, ¬a.Exceeds size limit) → e = .outOfMemory size) := by
  unfold allocateIf Exceeds
  by_cases tooLarge : size > Word.maxBlock
  · rw [if_pos tooLarge]
    refine ⟨_, rfl, ?_, fun _ => rfl⟩
    rintro limit ⟨-, block, -⟩
    omega
  · rw [if_neg tooLarge]
    by_cases past : a.live + size > a.ceiling
    · rw [if_pos past]
      refine ⟨_, rfl, ?_, ?_⟩
      · rintro limit ⟨limited, -, -⟩
        simp [quotaError, limited]
      · intro unlimited
        cases limited : a.limit with
        | none => simp [quotaError, limited]
        | some limit =>
          simp only [ceiling, limited, Option.getD_some] at past
          exact absurd ⟨limited, by omega, past⟩ (unlimited limit)
    · rw [if_neg past]
      have refused : heapGrants = false := by
        simpa [show size ≤ Word.maxBlock by omega, show a.live + size ≤ a.ceiling by omega] using h
      refine ⟨.outOfMemory size, by simp [refused], ?_, fun _ => rfl⟩
      rintro limit ⟨limited, -, exceeded⟩
      simp only [ceiling, limited, Option.getD_some] at past
      omega

/-- All that a request for `size` bytes does, served by an allocator held to `limit`. -/
structure Serves (limit : Option Nat) (a : Allocator) (heapGrants : Bool) (size : Nat) : Prop where
  /-- The bytes are reserved first, and given back if the heap refuses. -/
  inSteps : a.allocateInSteps heapGrants size = a.allocateIf heapGrants size
  /-- A request is granted exactly if it passes the three checks. -/
  granted_iff : (∃ block after, a.allocateIf heapGrants size = (.ok block, after)) ↔
    size ≤ Word.maxBlock ∧ a.live + size ≤ limit.getD Word.max ∧ heapGrants = true
  /-- The block then has as many bytes as asked for, all zero, and is counted. -/
  granted : ∀ block after, a.allocateIf heapGrants size = (.ok block, after) →
    block.bytes = Array.replicate size 0 ∧
      after = { a with
        allocations := a.allocations + 1
        live := a.live + size
        peak := max a.peak (a.live + size) }
  /-- A refused request is counted, and nothing else. -/
  refused : ∀ e after, a.allocateIf heapGrants size = (.error e, after) →
    after = { a with failed := a.failed + 1 }
  /-- The limit is blamed exactly if there is one that would be passed, and a block could have the
  bytes. -/
  exceeded_iff : ∀ e after, a.allocateIf heapGrants size = (.error e, after) →
    ∀ requested live l, e = .limitExceeded requested live l ↔
      (requested = size ∧ live = a.live) ∧
        limit = some l ∧ size ≤ Word.maxBlock ∧ l < a.live + size
  /-- Every other refusal is for want of memory. -/
  outOfMemory : ∀ e after, a.allocateIf heapGrants size = (.error e, after) →
    (∀ requested live l, e ≠ .limitExceeded requested live l) → e = .outOfMemory size

theorem exceeded_iff_of_refused {e : StorageError} {requested live l : Nat}
    (blamed : ∀ limit, a.Exceeds size limit → e = .limitExceeded size a.live limit)
    (other : (∀ limit, ¬a.Exceeds size limit) → e = .outOfMemory size) :
    e = .limitExceeded requested live l ↔
      (requested = size ∧ live = a.live) ∧ a.Exceeds size l := by
  constructor
  · rintro rfl
    by_cases exceeds : ∃ limit, a.Exceeds size limit
    · obtain ⟨limit, exceeds⟩ := exceeds
      cases blamed limit exceeds
      exact ⟨⟨rfl, rfl⟩, exceeds⟩
    · have unlimited := other (not_exists.1 exceeds)
      cases unlimited
  · rintro ⟨⟨rfl, rfl⟩, exceeds⟩
    exact blamed l exceeds

theorem serves (limited : a.limit = limit) (word : a.ceiling ≤ Word.max) (heapGrants : Bool)
    (size : Nat) : a.Serves limit heapGrants size := by
  have ceiling : a.ceiling = limit.getD Word.max := by rw [Allocator.ceiling, limited]
  have inSteps := allocateInSteps_eq word heapGrants size
  by_cases passes : size ≤ Word.maxBlock ∧ a.live + size ≤ a.ceiling ∧ heapGrants = true
  · obtain ⟨block, within, rfl⟩ := passes
    have answer := allocateIf_granted block within
    refine ⟨inSteps, ?_, ?_, ?_, ?_, ?_⟩ <;> rw [answer]
    · exact iff_of_true ⟨_, _, rfl⟩ ⟨block, ceiling ▸ within, rfl⟩
    · rintro _ _ ⟨⟩
      exact ⟨rfl, rfl⟩
    all_goals
      rintro _ _ ⟨⟩
  · obtain ⟨e, answer, blamed, other⟩ := allocateIf_refused passes
    refine ⟨inSteps, ?_, ?_, ?_, ?_, ?_⟩ <;> rw [answer]
    · refine iff_of_false (by simp) ?_
      rwa [← ceiling]
    · rintro _ _ ⟨⟩
    · rintro _ _ ⟨⟩
      rfl
    · rintro _ _ ⟨⟩ requested live l
      rw [exceeded_iff_of_refused blamed other, Exceeds, limited]
    · rintro _ _ ⟨⟩ notBlamed
      exact other fun limit exceeds => notBlamed _ _ _ (blamed limit exceeds)

/-! ## 3. Any sequence of calls -/

/-- One use of an allocator. -/
inductive Call where
  /-- A request, on a heap that has room for it or not. -/
  | allocate (heapGrants : Bool) (size : Nat)
  /-- A block that comes back, whichever it is. -/
  | free (block : Block)

/-- The allocator after a call. -/
def serve (a : Allocator) : Call → Allocator
  | .allocate heapGrants size => (a.allocateIf heapGrants size).2
  | .free block => a.free block

/-- The live bytes that a call leaves, if it is a request that is granted. -/
def level? (a : Allocator) : Call → Option Nat
  | .allocate heapGrants size =>
    match a.allocateIf heapGrants size with
    | (.ok _, after) => some after.live
    | (.error _, _) => none
  | .free _ => none

/-- The allocator after some calls. -/
def serveAll (a : Allocator) : List Call → Allocator
  | [] => a
  | call :: calls => (a.serve call).serveAll calls

/-- The live bytes that the granted requests among some calls leave, in order. -/
def levels (a : Allocator) : List Call → List Nat
  | [] => []
  | call :: calls => (a.level? call).toList ++ (a.serve call).levels calls

/-- All that a call can do. -/
theorem serve_cases (a : Allocator) (call : Call) :
    (∃ size, a.live + size ≤ a.ceiling ∧ a.serve call = a.grant size ∧
      a.level? call = some (a.live + size)) ∨
    (a.serve call = a.refuse ∧ a.level? call = none) ∨
    ∃ block, a.serve call = a.free block ∧ a.level? call = none := by
  cases call with
  | allocate heapGrants size =>
    unfold serve level?
    by_cases passes : size ≤ Word.maxBlock ∧ a.live + size ≤ a.ceiling ∧ heapGrants = true
    · obtain ⟨block, within, rfl⟩ := passes
      left
      refine ⟨size, within, ?_⟩
      simp [allocateIf_granted block within, grant]
    · obtain ⟨e, answer, -, -⟩ := allocateIf_refused passes
      right
      left
      simp [answer]
  | free block => exact .inr (.inr ⟨block, rfl, rfl⟩)

/-- The live bytes stay under the peak, and the peak under the ceiling. -/
structure Bounded (limit : Option Nat) (a : Allocator) : Prop where
  limited : a.limit = limit
  live_le : a.live ≤ a.peak
  peak_le : a.peak ≤ limit.getD Word.max

theorem Bounded.serve (h : a.Bounded limit) (call : Call) : (a.serve call).Bounded limit := by
  have live := h.live_le
  have peak := h.peak_le
  obtain ⟨size, within, granted, -⟩ | ⟨refused, -⟩ | ⟨block, returned, -⟩ := serve_cases a call
  · rw [granted]
    rw [ceiling, h.limited] at within
    constructor
    · exact h.limited
    · show a.live + size ≤ max a.peak (a.live + size)
      omega
    · show max a.peak (a.live + size) ≤ _
      omega
  · rw [refused]
    exact ⟨h.limited, live, peak⟩
  · rw [returned]
    constructor
    · exact h.limited
    · show a.live - block.size ≤ a.peak
      omega
    · exact peak

theorem Bounded.serveAll (h : a.Bounded limit) (calls : List Call) :
    (a.serveAll calls).Bounded limit := by
  induction calls generalizing a with
  | nil => exact h
  | cons call calls ih => exact ih (h.serve call)

theorem peak_serve (a : Allocator) (call : Call) :
    (a.serve call).peak = (a.level? call).toList.foldl max a.peak := by
  obtain ⟨size, -, granted, level⟩ | ⟨refused, level⟩ | ⟨block, returned, level⟩ :=
    serve_cases a call
  · rw [granted, level]
    rfl
  · rw [refused, level]
    rfl
  · rw [returned, level]
    rfl

/-- The peak is the largest of the levels that were reached. -/
theorem peak_serveAll (a : Allocator) (calls : List Call) :
    (a.serveAll calls).peak = (a.levels calls).foldl max a.peak := by
  induction calls generalizing a with
  | nil => rfl
  | cons call calls ih =>
    calc ((a.serve call).serveAll calls).peak
        = ((a.serve call).levels calls).foldl max (a.serve call).peak := ih _
      _ = ((a.serve call).levels calls).foldl max ((a.level? call).toList.foldl max a.peak) := by
          rw [peak_serve]
      _ = (a.levels (call :: calls)).foldl max a.peak := by rw [levels, List.foldl_append]

/-- An allocator whose limit is a word, after any sequence of requests and returns on any heap.

Its totals are in bounds at all times: the live bytes are no more than the peak, which is no more
than the limit and is the largest number of live bytes that a granted request has left. A further
request does what `Serves` says, and a block that comes back takes off its own bytes, or all that
are live if it has more. -/
theorem metered (limit : Option Nat) (word : ∀ l, limit = some l → l ≤ Word.max)
    (calls : List Call) :
    ((withLimit limit).serveAll calls).Bounded limit ∧
      limit.getD Word.max ≤ Word.max ∧
      ((withLimit limit).serveAll calls).peak = ((withLimit limit).levels calls).foldl max 0 ∧
      (∀ heapGrants size, ((withLimit limit).serveAll calls).Serves limit heapGrants size) ∧
      ∀ block : Block,
        let a := (withLimit limit).serveAll calls
        a.free block = { a with frees := a.frees + 1, live := a.live - block.size } ∧
          (a.free block).live + min block.size a.live = a.live := by
  have fits : limit.getD Word.max ≤ Word.max := by
    cases limit with
    | none => exact Nat.le_refl _
    | some l => exact word l rfl
  have start : (withLimit limit).Bounded limit := ⟨rfl, Nat.le_refl _, Nat.zero_le _⟩
  have bounded := start.serveAll calls
  have below : ((withLimit limit).serveAll calls).ceiling ≤ Word.max := by
    rwa [ceiling, bounded.limited]
  refine ⟨bounded, fits, peak_serveAll _ calls, serves bounded.limited below, ?_⟩
  intro block a
  refine ⟨rfl, ?_⟩
  show a.live - block.size + min block.size a.live = a.live
  omega

/-- Ten bytes at most. Of two requests for six the second passes the limit; two more the heap does
not have; a foreign block of seven bytes takes off the six that are live; four more are below the
peak. -/
theorem metered_between_refusals :
    let calls : List Call := [.allocate true 6, .allocate true 6, .allocate false 2,
      .free (.zeroed 7), .allocate true 4]
    let a := (withLimit (some 10)).serveAll calls
    a = { limit := some 10, allocations := 2, frees := 1, failed := 2, live := 4, peak := 6 } ∧
      a.peak = ([6, 4] : List Nat).foldl max 0 ∧ a.Serves (some 10) true 7 := by
  intro calls a
  obtain ⟨-, -, peak, serves, -⟩ := metered (some 10) (by simp [Word.max]) calls
  exact ⟨by decide, peak, serves true 7⟩

end PixelPool.Allocator
