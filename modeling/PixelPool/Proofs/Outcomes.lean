import PixelPool.Proofs.Effects
import PixelPool.Session.Perform

/-!
What is known of the result of a program that may fault.

`Fault.Yields p P` says that `P` holds of the result of `p`, if there is one: a program that
faults yields everything. `Fault.Both p q R` says the same of the results of two programs. That no
program of the pool does fault is shown elsewhere, so that a proof about results can follow the text
of a program and leave out why each of its checks holds.
-/

namespace PixelPool

namespace Fault

variable {α β : Type} {p : Except Fault α} {f : α → Except Fault β} {P Q : α → Prop}
  {R : β → Prop}

/-- What holds of the result of a program, if it has one. -/
def Yields (p : Except Fault α) (P : α → Prop) : Prop := ∀ a, p = .ok a → P a

theorem yields_ok {a : α} (holds : P a) : Yields (.ok a) P := by
  intro b same
  exact Except.ok.inj same ▸ holds

theorem yields_error {f : Fault} : Yields (.error f) P := by
  intro a absurd
  cases absurd

theorem Yields.mono (h : Yields p Q) (weaker : ∀ a, Q a → P a) : Yields p P :=
  fun a run => weaker a (h a run)

theorem Yields.and (h : Yields p P) (h' : Yields p Q) : Yields p fun a => P a ∧ Q a :=
  fun a run => ⟨h a run, h' a run⟩

/-- A program and the rest of it. -/
theorem Yields.bind (first : Yields p Q) (rest : ∀ a, Q a → Yields (f a) R) :
    Yields (p >>= f) R := by
  intro b run
  cases h : p with
  | error e =>
    rw [h] at run
    cases run
  | ok a =>
    rw [h] at run
    exact rest a (first a h) b run

/-- A program of whose first result nothing has to be known. -/
theorem Yields.after (rest : ∀ a, Yields (f a) R) : Yields (p >>= f) R :=
  Yields.bind (Q := fun _ => True) (fun _ _ => trivial) fun a _ => rest a

section
variable {α β α' β' : Type} {p : Except Fault α} {q : Except Fault β} {f : α → Except Fault α'}
  {h : β → Except Fault β'} {Q : α → β → Prop} {R : α' → β' → Prop}

/-- What holds of the results of two programs, if both have one. -/
def Both (p : Except Fault α) (q : Except Fault β) (Q : α → β → Prop) : Prop :=
  ∀ a b, p = .ok a → q = .ok b → Q a b

theorem both_ok {a : α} {b : β} (holds : Q a b) : Both (.ok a) (.ok b) Q := by
  intro a' b' left right
  exact Except.ok.inj left ▸ Except.ok.inj right ▸ holds

theorem both_error_left {f : Fault} : Both (.error f) q Q := by
  intro a b absurd
  cases absurd

theorem both_error_right {f : Fault} : Both p (.error f) Q := by
  intro a b _ absurd
  cases absurd

/-- Two programs and the rest of each. -/
theorem Both.bind (first : Both p q Q) (rest : ∀ a b, Q a b → Both (f a) (h b) R) :
    Both (p >>= f) (q >>= h) R := by
  intro a' b' left right
  cases hp : p with
  | error e =>
    rw [hp] at left
    cases left
  | ok a =>
    cases hq : q with
    | error e =>
      rw [hq] at right
      cases right
    | ok b =>
      rw [hp] at left
      rw [hq] at right
      exact rest a b (first a b hp hq) a' b' left right

/-- One program goes on, while the other one waits. -/
theorem Both.left {P : α → Prop} {q : Except Fault β'} (first : Yields p P)
    (rest : ∀ a, P a → Both (f a) q R) : Both (p >>= f) q R := by
  intro a' b' left right
  cases hp : p with
  | error e =>
    rw [hp] at left
    cases left
  | ok a =>
    rw [hp] at left
    exact rest a (first a hp) a' b' left right

/-- What a result is made into is the rest of a program. -/
theorem map_eq_bind (p : Except Fault α) (g : α → α') : p.map g = p >>= fun a => .ok (g a) := by
  cases p <;> rfl

end

end Fault

namespace Store

open Fault

variable {α : Type} {w : Store} {r : RecordId} {c : CacheId} {a : AllocatorId} {P : α → Prop}

theorem record_yields {f : Record → Except Fault α}
    (rest : ∀ x, w.records.get? r = some x → Yields (f x) P) :
    Yields (w.record r >>= f) P := by
  unfold record
  split
  · next x hx => exact rest x hx
  · exact yields_error

theorem cache_yields {f : Cache → Except Fault α}
    (rest : ∀ s, w.caches.get? c = some s → Yields (f s) P) : Yields (w.cache c >>= f) P := by
  unfold cache
  split
  · next s hs => exact rest s hs
  · exact yields_error

theorem allocator_yields {f : Allocator → Except Fault α}
    (rest : ∀ s, w.allocators.get? a = some s → Yields (f s) P) :
    Yields (w.allocator a >>= f) P := by
  unfold allocator
  split
  · next s hs => exact rest s hs
  · exact yields_error

/-- Work on a part of a cache. -/
theorem within_yields {part : Section} {body : Store → Except Fault (α × Store)}
    {P : α × Store → Prop}
    (work : Yields (body { w with inside := (c, part) :: w.inside })
      fun a => P (a.1, { a.2 with inside := w.inside })) :
    Yields (w.within c part body) P := by
  unfold within
  split
  · exact yields_error
  · split
    · next run => exact yields_ok (work _ run)
    · exact yields_error

end Store

namespace Session

open Fault

variable {s : Session} {name : String} {P : Answer × Session → Prop}

theorem withCache_yields {go : CacheId → Except Fault (Answer × Session)}
    (unknown : P (.unknownName .cache name, s)) (rest : ∀ c, Yields (go c) P) :
    Yields (s.withCache name go) P := by
  unfold withCache
  split
  · exact rest _
  · exact yields_ok unknown

theorem withHandle_yields {go : Handle → Except Fault (Answer × Session)}
    (unknown : P (.unknownName .buffer name, s)) (rest : ∀ b, Yields (go b) P) :
    Yields (s.withHandle name go) P := by
  unfold withHandle
  split
  · exact rest _
  · exact yields_ok unknown

theorem withHandle?_yields {name : Option String}
    {go : Option Handle → Except Fault (Answer × Session)}
    (unknown : ∀ name, P (.unknownName .buffer name, s)) (rest : ∀ b, Yields (go b) P) :
    Yields (s.withHandle? name go) P := by
  cases name with
  | none => exact rest none
  | some name => exact withHandle_yields (unknown name) fun b => rest (some b)

theorem withImage_yields {go : Image → Except Fault (Answer × Session)}
    (unknown : P (.unknownName .image name, s)) (rest : ∀ i, Yields (go i) P) :
    Yields (s.withImage name go) P := by
  unfold withImage
  split
  · exact rest _
  · exact yields_ok unknown

theorem withAllocator_yields {go : AllocatorId → Except Fault (Answer × Session)}
    (unknown : P (.unknownName .allocator name, s)) (rest : ∀ a, Yields (go a) P) :
    Yields (s.withAllocator name go) P := by
  unfold withAllocator
  split
  · exact rest _
  · exact yields_ok unknown

theorem withBlock_yields {go : Loan → Except Fault (Answer × Session)}
    (unknown : P (.unknownName .block name, s)) (rest : ∀ b, Yields (go b) P) :
    Yields (s.withBlock name go) P := by
  unfold withBlock
  split
  · exact rest _
  · exact yields_ok unknown

end Session

end PixelPool
