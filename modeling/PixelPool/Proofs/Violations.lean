import PixelPool.Proofs.Exchanges

/-!
Calls that break a rule of the interface.

The checks come before anything is changed: a call that only looks at a handle leaves everything as
it was, and a call that takes a handle over gives it up and does nothing else. So the outcome of the
second kind is compared with that of giving the handle up, whose ways `Store.Parted` lists. Main
statement: `Session.Reachable.violations_are_atomic`.
-/

namespace PixelPool

namespace Store

variable {w v : Store} {c d : CacheId} {b : Handle} {x : Record} {i : Image}

/-! ## 1. Operations on stores -/

theorem unpublish_of_foreign (foreign : b.cache ≠ c) :
    w.unpublish c b = .ok (.error (.violation .foreignCache), w) := if_pos foreign

theorem resize_of_foreign (foreign : b.cache ≠ c) (area : Rect) (viewHeld : Bool) :
    w.resize c b area viewHeld = .ok (.error (.violation .foreignCache), w) := if_pos foreign

/-- A buffer with several references is not resized. -/
theorem resize_of_shared (own : b.cache = c) (hx : w.records.get? b.record = some x)
    (shared : x.references ≠ 1) (area : Rect) (viewHeld : Bool) :
    w.resize c b area viewHeld = .ok (.error (.violation .sharedResize), w) := by
  simp [resize, own, record_of_get? hx, shared]

/-- Releasing a handle through a cache gives it up, whichever cache it is of. -/
theorem release_of_foreign (foreign : b.cache ≠ c) (drop : w.dropHandle b = .ok v) :
    w.release c b = .ok (.error (.violation .foreignCache), v) := by
  simp [release, foreign, drop]

/-- An exchange of a foreign handle gives it up, whichever image it is of. -/
theorem exchange_of_foreign (foreign : b.cache ≠ c) (drop : w.dropHandle b = .ok v) (i : Image)
    (area : Rect) :
    w.exchange c (some b) i area = .ok (.error (.violation .foreignCache), v) := by
  simp [exchange, foreign, drop]

theorem exchange_of_otherImage (own : b.cache = c) (other : b.image ≠ i.key)
    (drop : w.dropHandle b = .ok v) (area : Rect) :
    w.exchange c (some b) i area = .ok (.error (.violation .otherImage), v) := by
  simp [exchange, own, other, drop]

theorem Withdrawn.get?_caches_of_ne {y : Record} {r : RecordId} (h : Withdrawn w c r x y v)
    (other : d ≠ c) : v.caches.get? d = w.caches.get? d := by
  cases h with
  | undone => rfl
  | done => simp [withdrawn, Table.get?_update, other]

/-- Giving up a handle touches no other cache than its own. -/
theorem Parted.get?_caches_of_ne (h : Parted w b x v) (other : d ≠ b.cache) :
    v.caches.get? d = w.caches.get? d := by
  cases h with
  | more => rfl
  | kept last withdrawn =>
    simp [shelved, Table.get?_update, other, withdrawn.get?_caches_of_ne other]
  | freed last withdrawn =>
    simp [crowdedOut, Table.get?_update, other, withdrawn.get?_caches_of_ne other]
  | outlived => simp

end Store

namespace Session

variable {s : Session} {out : Multiset Loan} {cache buffer image name : String} {c : CacheId}
  {b : Handle} {i : Image} {v : Store} {x : Record}

/-! ## 2. Acts -/

/-- The session after the handle of a name was given up, which left the store `v`. -/
def givenUp (s : Session) (buffer : String) (v : Store) : Session :=
  (s.forgetHandle? (some buffer)).withStore v

theorem step_of_perform {act : Act} {a : Answer × Session} (run : s.perform act = .ok a) :
    s.step act = a := by
  rw [step, run]

theorem step_dropHandle (hb : s.frame.handles.get? buffer = some b)
    (drop : s.store.dropHandle b = .ok v) :
    s.step (.dropHandle buffer) = (.done, s.givenUp buffer v) := by
  apply step_of_perform
  simp [perform, withHandle, hb, drop, givenUp]

/-- Acts that look at a foreign handle change nothing. -/
theorem step_of_foreign (hc : s.frame.caches.get? cache = some c)
    (hb : s.frame.handles.get? buffer = some b) (foreign : b.cache ≠ c) :
    s.step (.publish cache buffer) = (.refused (.violation .foreignCache), s) ∧
      s.step (.unpublish cache buffer) = (.refused (.violation .foreignCache), s) ∧
      ∀ area viewHeld, s.step (.resize cache buffer area viewHeld)
        = (.refused (.violation .foreignCache), s) := by
  refine ⟨step_of_perform ?_, step_of_perform ?_, fun area viewHeld => step_of_perform ?_⟩
  · simp [perform, withCache, withHandle, hc, hb, Store.publish_of_foreign foreign, doneOrRefused,
      withStore]
  · simp [perform, withCache, withHandle, hc, hb, Store.unpublish_of_foreign foreign,
      doneOrRefused, withStore]
  · simp [perform, withCache, withHandle, hc, hb, Store.resize_of_foreign foreign, doneOrRefused,
      withStore]

theorem step_resize_of_shared (hc : s.frame.caches.get? cache = some c)
    (hb : s.frame.handles.get? buffer = some b) (own : b.cache = c)
    (hx : s.store.records.get? b.record = some x) (shared : x.references ≠ 1) (area : Rect)
    (viewHeld : Bool) : s.step (.resize cache buffer area viewHeld)
      = (.refused (.violation .sharedResize), s) := by
  apply step_of_perform
  simp [perform, withCache, withHandle, hc, hb, Store.resize_of_shared own hx shared,
    doneOrRefused, withStore]

theorem step_release_of_foreign (hc : s.frame.caches.get? cache = some c)
    (hb : s.frame.handles.get? buffer = some b) (foreign : b.cache ≠ c)
    (drop : s.store.dropHandle b = .ok v) :
    s.step (.release cache buffer)
      = (.refused (.violation .foreignCache), s.givenUp buffer v) := by
  apply step_of_perform
  simp [perform, withCache, withHandle, hc, hb, Store.release_of_foreign foreign drop,
    doneOrRefused, givenUp]

/-- An exchange that breaks a rule, as it leaves the store, so it leaves the session. -/
theorem step_exchange_of_violation {violation : Violation} {area : Rect}
    (hc : s.frame.caches.get? cache = some c) (hi : s.images.get? image = some i)
    (hb : s.frame.handles.get? buffer = some b)
    (run : s.store.exchange c (some b) i area = .ok (.error (.violation violation), v)) :
    s.step (.exchange cache image area (some buffer) name)
      = (.refused (.violation violation), s.givenUp buffer v) := by
  apply step_of_perform
  simp [perform, withCache, withImage, withHandle?, withHandle, hc, hi, hb, run, nameOutcome,
    givenUp]

theorem step_exchangeOwn_of_otherImage {area : Rect} (hi : s.images.get? image = some i)
    (hb : s.frame.handles.get? buffer = some b)
    (alive : (s.store.caches.get? b.cache).isSome = true) (other : b.image ≠ i.key)
    (drop : s.store.dropHandle b = .ok v) :
    s.step (.exchangeOwn image area (some buffer) name)
      = (.refused (.violation .otherImage), s.givenUp buffer v) := by
  apply step_of_perform
  have own : (some b).filter (fun b => s.store.isAlive b.cache) = some b := if_pos alive
  have run : s.frame.thread.exchange s.store (some b) i area
      = .ok ((.error (.violation .otherImage), s.frame.thread), v) := by
    rw [Thread.exchange, own]
    simp [Store.exchange_of_otherImage rfl other drop]
  simp [perform, withImage, withHandle?, withHandle, hi, hb, run, nameOutcome, givenUp, withThread]
  rfl

/-! ## 3. Reachable sessions -/

/-- In every session that acts lead to: publishing, withdrawing or resizing a handle through a cache
that it is not of, shared or not, and resizing a handle of the cache that is not the only one, is
refused and changes nothing. Giving up a handle always works, and touches no other cache than its
own. Releasing or exchanging a handle through a cache that it is not of, whatever its image, and
exchanging one of the cache for another image, is refused and leaves exactly what giving up the
handle leaves. Each refusal has its own message. -/
theorem Reachable.violations_are_atomic (h : s.Reachable)
    (hc : s.frame.caches.get? cache = some c) (hb : s.frame.handles.get? buffer = some b) :
    (b.cache ≠ c →
      s.step (.publish cache buffer) = (.refused (.violation .foreignCache), s) ∧
      s.step (.unpublish cache buffer) = (.refused (.violation .foreignCache), s) ∧
      ∀ area viewHeld, s.step (.resize cache buffer area viewHeld)
        = (.refused (.violation .foreignCache), s)) ∧
    (∀ x, b.cache = c → s.store.records.get? b.record = some x → 1 < x.references →
      ∀ area viewHeld, s.step (.resize cache buffer area viewHeld)
        = (.refused (.violation .sharedResize), s)) ∧
    (∃ x v, s.store.records.get? b.record = some x ∧ s.store.Parted b x v ∧
      s.step (.dropHandle buffer) = (.done, s.givenUp buffer v) ∧
      (b.cache ≠ c → v.caches.get? c = s.store.caches.get? c ∧
        s.step (.release cache buffer)
          = (.refused (.violation .foreignCache), s.givenUp buffer v) ∧
        ∀ image i, s.images.get? image = some i → ∀ area name,
          s.step (.exchange cache image area (some buffer) name)
            = (.refused (.violation .foreignCache), s.givenUp buffer v)) ∧
      (b.cache = c → ∀ image i, s.images.get? image = some i → b.image ≠ i.key → ∀ area name,
        s.step (.exchange cache image area (some buffer) name)
          = (.refused (.violation .otherImage), s.givenUp buffer v) ∧
        s.step (.exchangeOwn image area (some buffer) name)
          = (.refused (.violation .otherImage), s.givenUp buffer v))) ∧
    Violation.foreignCache.message? = some "buffer belongs to a different buffer cache" ∧
    Violation.sharedResize.message? = some "cannot resize a shared buffer" ∧
    Violation.otherImage.message? = some "swap_ref must stay on the same image" := by
  obtain ⟨out, sound⟩ := h.sound
  have held : b ∈ (s.world out).handles := mem_handles hb
  obtain ⟨x, hx, -⟩ := sound.world.exists_record held
  obtain ⟨v, parted, drop⟩ := sound.world.dropHandle_eq held hx
  refine ⟨step_of_foreign hc hb, ?_, ⟨x, v, hx, parted, step_dropHandle hb drop, ?_, ?_⟩, rfl, rfl,
    rfl⟩
  · intro x own hx shared area viewHeld
    exact step_resize_of_shared hc hb own hx (Nat.ne_of_gt shared) area viewHeld
  · intro foreign
    refine ⟨parted.get?_caches_of_ne foreign.symm, step_release_of_foreign hc hb foreign drop, ?_⟩
    intro image i hi area name
    exact step_exchange_of_violation hc hi hb (Store.exchange_of_foreign foreign drop i area)
  · intro own image i hi other area name
    have alive : (s.store.caches.get? b.cache).isSome = true := by
      obtain ⟨z, hz⟩ := sound.exists_cache (mem_shares hc)
      simp [own, hz]
    exact ⟨step_exchange_of_violation hc hi hb (Store.exchange_of_otherImage own other drop area),
      step_exchangeOwn_of_otherImage hi hb alive other drop⟩

/-- The short run, with a second handle on the published buffer and a cache that it is not of. -/
def strangerActs : List Act :=
  sampleActs ++ [.copyHandle "buffer" "copy", .newCache "other" none none]

/-- The session after that run. -/
def stranger : Session := (start (.fresh none)).run strangerActs

/-- In that session the buffer can neither be published through the other cache nor be resized
through its own, and releasing the handle through the other cache just gives it up. -/
theorem violations_are_atomic_stranger :
    stranger.step (.publish "other" "buffer") = (.refused (.violation .foreignCache), stranger) ∧
      stranger.step (.resize "cache" "buffer" ⟨0, 0, 1, 1⟩ false)
        = (.refused (.violation .sharedResize), stranger) ∧
      ∃ v, stranger.step (.dropHandle "buffer") = (.done, stranger.givenUp "buffer" v) ∧
        stranger.step (.release "other" "buffer")
          = (.refused (.violation .foreignCache), stranger.givenUp "buffer" v) := by
  have reachable : stranger.Reachable := ⟨_, strangerActs, .fresh none, rfl⟩
  have held : stranger.frame.handles.get? "buffer" = some ⟨0, 1, .explicit 1⟩ := rfl
  have own : stranger.frame.caches.get? "cache" = some 1 := rfl
  have other : stranger.frame.caches.get? "other" = some 2 := rfl
  obtain ⟨foreign, -, ⟨-, v, -, -, drop, release, -⟩, -⟩ :=
    reachable.violations_are_atomic other held
  obtain ⟨-, shared, -⟩ := reachable.violations_are_atomic own held
  exact ⟨(foreign (by decide)).1, shared _ rfl rfl (by decide) _ _, v, drop,
    (release (by decide)).2.1⟩

end Session

end PixelPool
