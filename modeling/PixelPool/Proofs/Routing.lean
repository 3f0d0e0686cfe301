import PixelPool.Proofs.Listings
import PixelPool.Proofs.Violations

/-!
Which cache an operation works on that is not told any.

What is done with a handle is done in the handle's own cache, whatever cache the thread is bound to;
if the handle's cache is gone, publishing and withdrawing do nothing and the last handle ends the
buffer. A new buffer comes from the thread's cache, and for a thread whose binding is destroyed from
a cache that is gone again when the call returns. Main statement:
`Session.Reachable.handles_follow_own_cache`.
-/

namespace PixelPool

namespace Store

variable {w v : Store} {c : CacheId} {s : Cache} {b : Handle} {x y : Record} {r : RecordId}

/-! ## 1. Stores but for the events -/

theorem withLog_eq_iff : w.withLog [] = v.withLog [] ↔ ∃ log, v = w.withLog log :=
  ⟨fun same => ⟨v.log, congrArg (fun u => u.withLog v.log) same.symm⟩, by rintro ⟨log, rfl⟩; rfl⟩

theorem without_withLog (w : Store) (log : List Event) (r : RecordId) :
    (w.withLog log).without r = (w.without r).withLog log := by
  unfold without withLog
  cases w.records.get? r <;> rfl

theorem withoutAll_withLog (w : Store) (log : List Event) (rs : List RecordId) :
    (w.withLog log).withoutAll rs = (w.withoutAll rs).withLog log := by
  induction rs generalizing w with
  | nil => rfl
  | cons r rs ih => rw [withoutAll_cons, without_withLog, ih, withoutAll_cons]

/-- What tearing a cache down leaves does not depend on the events before. -/
theorem tornDown_withLog (w : Store) (log : List Event) (c : CacheId) (s : Cache) :
    ((w.withLog log).tornDown c s).withLog [] = (w.tornDown c s).withLog [] := by
  have same : (w.withLog log).unmarkAll s.lists.all = (w.unmarkAll s.lists.all).withLog log := rfl
  simp only [tornDown, same, withoutAll_withLog]
  rfl

/-! ## 2. Numbers of caches -/

theorem Withdrawn.next_caches (h : Withdrawn w c r x y v) : v.caches.next = w.caches.next := by
  cases h <;> rfl

theorem Parted.next_caches (h : Parted w b x v) : v.caches.next = w.caches.next := by
  cases h with
  | more => rfl
  | kept last withdrawn => exact withdrawn.next_caches
  | freed last withdrawn => simpa [crowdedOut] using withdrawn.next_caches
  | outlived => simp

theorem caches_sharedConfig (w : Store) : w.sharedConfig.2.caches = w.caches := by
  unfold sharedConfig
  split
  · rfl
  · split <;> rfl

theorem caches_sharedAllocator (w : Store) : w.sharedAllocator.2.caches = w.caches := by
  unfold sharedAllocator
  split <;> rfl

/-- A new cache gets a number that no cache had. -/
theorem createShared_fst (w : Store) (t : ThreadId) : (w.createShared t).1 = w.caches.next := by
  have same : (w.createShared t).1 = w.sharedConfig.2.sharedAllocator.2.caches.next := rfl
  rw [same, caches_sharedAllocator, caches_sharedConfig]

end Store

namespace Thread

variable {t : Thread} {b : Handle}

/-- If the thread is bound to a cache, the cache exists. -/
def BoundIn (t : Thread) (w : Store) : Prop := ∀ c, t.binding = .bound c → w.isAlive c = true

theorem boundIn_of_destroyed {w : Store} (destroyed : t.binding = .destroyed) : t.BoundIn w := by
  intro c hc
  simp [destroyed] at hc

theorem current_of_destroyed (destroyed : t.binding = .destroyed) (w : Store) :
    (t.current w).1 = (w.caches.next, t) := by
  have made := Store.createShared_fst (w.emit .detachedCache) t.id
  simp only [current, destroyed, made]
  rfl

/-- Nothing is exchanged in the thread's cache. -/
theorem exchange_none (t : Thread) (w : Store) (i : Image) (area : Rect) :
    t.exchange w none i area = (do
      let ((c, t), w) := t.current w
      let (outcome, w) ← w.exchange c none i area
      let w ← w.dropOwner c
      return ((outcome, t), w)) := rfl

/-- A handle whose cache is gone is given up before anything else. -/
theorem exchange_of_dead {w : Store} (dead : w.isAlive b.cache = false) (i : Image) (area : Rect) :
    t.exchange w (some b) i area = (w.dropHandle b >>= fun v => t.exchange v none i area) := by
  have none : (some b).filter (fun b => w.isAlive b.cache) = none := by simp [dead]
  rw [exchange, none]
  rfl

/-- A handle whose cache exists is exchanged there. -/
theorem exchange_of_alive {w : Store} (alive : w.isAlive b.cache = true) (i : Image)
    (area : Rect) : t.exchange w (some b) i area
      = (w.exchange b.cache (some b) i area).map fun a => ((a.1, t), a.2) := by
  have own : (some b).filter (fun b => w.isAlive b.cache) = some b := by simp [alive]
  rw [exchange, own]
  dsimp only
  cases w.exchange b.cache (some b) i area <;> rfl

end Thread

namespace World.Sound

variable {W V : World} {c : CacheId} {b : Handle} {i : Image} {area : Rect} {t : Thread}
  {O : Multiset CacheId}

/-! ## 3. Operations in the handle's own cache -/

/-- Publishing a buffer in its own cache is never refused. -/
theorem publish_own (h : W.Sound) (held : b ∈ W.handles)
    (alive : (W.store.caches.get? b.cache).isSome = true) :
    ∃ v, W.store.publish b.cache b = .ok (.ok (), v) ∧
      v.caches.next = W.store.caches.next := by
  obtain ⟨s, hs⟩ := Option.isSome_iff_exists.1 alive
  obtain ⟨x, hx, -⟩ := h.exists_record held
  rcases h.publish_eq hx hs with ⟨-, run⟩ | ⟨-, run⟩
  · exact ⟨_, run, rfl⟩
  · exact ⟨_, run, rfl⟩

/-- Withdrawing a buffer in its own cache is never refused. -/
theorem unpublish_own (h : W.Sound) (held : b ∈ W.handles) :
    ∃ v, W.store.unpublish b.cache b = .ok (.ok (), v) ∧
      v.caches.next = W.store.caches.next := by
  obtain ⟨x, hx, -, origin, -⟩ := h.exists_record held
  obtain ⟨y, v, withdrawn, run⟩ := h.withdraw_eq hx
  refine ⟨v, ?_, withdrawn.next_caches⟩
  rw [← origin] at run
  simp [Store.unpublish, run]

/-! ## 4. Requests from a thread's cache -/

/-- A thread that is bound to a cache has a share in it. -/
theorem exists_shares (h : W.Sound) (bound : t.BoundIn W.store) :
    ∃ O, W.shares = t.binding.owned + O := by
  cases binding : t.binding with
  | bound c =>
    obtain ⟨O, held⟩ := Multiset.exists_cons_of_mem (h.alive_iff.1 (bound c binding))
    exact ⟨O, held⟩
  | unbound | destroyed => exact ⟨W.shares, (zero_add _).symm⟩

/-- An owner leaves alike in stores that differ in their events only. -/
theorem dropOwner_agree (h : W.Sound) (h' : V.Sound) (owned : c ∈ W.shares)
    (same : W.store.withLog [] = V.store.withLog []) :
    ∃ w v, W.store.dropOwner c = .ok w ∧ V.store.dropOwner c = .ok v ∧
      w.withLog [] = v.withLog [] := by
  obtain ⟨s, hs, -⟩ := h.exists_cache owned
  obtain ⟨log, other⟩ := Store.withLog_eq_iff.1 same
  have hs' : V.store.caches.get? c = some s := by rw [other]; exact hs
  rcases dropOwner_eq h hs with ⟨last, run⟩ | ⟨more, run⟩
  · rcases dropOwner_eq h' hs' with ⟨-, run'⟩ | ⟨more, -⟩
    · exact ⟨_, _, run, run', by rw [other, Store.tornDown_withLog]⟩
    · omega
  · rcases dropOwner_eq h' hs' with ⟨last, -⟩ | ⟨-, run'⟩
    · omega
    · exact ⟨_, _, run, run', by rw [other]; rfl⟩

/-- A request is answered with a handle of the cache that was asked. -/
theorem request_own (h : W.Sound) (owned : c ∈ W.shares) {d : Handle} {v : Store}
    (run : W.store.request c i area = .ok (.ok d, v)) : d.cache = c := by
  obtain ⟨s, hs, -⟩ := h.exists_cache owned
  rcases h.lookup_eq hs i area with ⟨miss, -⟩ | ⟨r, x, hit, hx, -⟩
  · obtain ⟨r, -, -, outcome, u, -, -, acquired⟩ := (h.count c .addMiss).acquire_eq (c := c)
      (Store.get?_caches_count hs .addMiss) i area
    rw [h.request_of_miss hs miss] at run
    cases outcome with
    | ok newBlock =>
      cases acquired.symm.trans run
      rfl
    | error e => cases acquired.symm.trans run
  · cases (h.request_of_hit hs hit hx).symm.trans run
    rfl

/-- A thread exchanges nothing as it requests, but for the events. Either way the answer is a handle
of the thread's cache. -/
theorem exchangeHere_eq_requestHere (h : W.Sound) (bound : t.BoundIn W.store) (i : Image)
    (area : Rect) :
    ∃ outcome v v', t.exchange W.store none i area
        = .ok ((Store.asRefusal outcome, (t.current W.store).1.2), v) ∧
      t.request W.store i area = .ok ((outcome, (t.current W.store).1.2), v') ∧
      v.withLog [] = v'.withLog [] ∧
      ∀ d, outcome = .ok d → d.cache = (t.current W.store).1.1 := by
  obtain ⟨O, held⟩ := h.exists_shares bound
  have moves := current_reaches (P := fun _ => True) h any_quiet t held
  have sound := h.reaches moves
  rw [Thread.exchange_none, Thread.request]
  generalize t.current W.store = result at sound ⊢
  obtain ⟨⟨c, t'⟩, w⟩ := result
  have owned : c ∈ c ::ₘ (t'.binding.owned + O) := Multiset.mem_cons_self ..
  obtain ⟨s, hs, -⟩ := sound.exists_cache owned
  obtain ⟨outcome, v, v', exchanged, requested, same⟩ := sound.exchangeNone_eq hs i area
  obtain ⟨V, reached, rfl, -⟩ :=
    (exchangeNone_does sound any_quiet owned (allowsTaking_any _ _)).reaches exchanged
  obtain ⟨V', reached', rfl⟩ :=
    (request_does sound any_quiet owned (allowsTaking_any _ _)).reaches requested
  obtain ⟨u, u', left, left', same⟩ :=
    (sound.reaches reached).dropOwner_agree (sound.reaches reached') owned same
  refine ⟨outcome, u, u', ?_, ?_, same, ?_⟩
  · dsimp only at exchanged left ⊢
    simp [exchanged, left]
  · dsimp only at requested left' ⊢
    simp [requested, left']
  · rintro d rfl
    exact sound.request_own owned requested

/-- Giving up a handle makes no cache. -/
theorem dropHandle_next (h : W.Sound) (held : b ∈ W.handles) :
    ∃ (v : Store) (H : Multiset Handle), W.store.dropHandle b = .ok v ∧
      v.caches.next = W.store.caches.next ∧
      ({ W with store := v, handles := H } : World).Sound := by
  obtain ⟨x, hx, -⟩ := h.exists_record held
  obtain ⟨v, H, parted, run, sound⟩ := h.exists_parted held hx
  exact ⟨v, H, run, parted.next_caches, sound⟩

/-- A thread exchanges a handle whose cache is gone as it gives the handle up and requests, but for
the events. -/
theorem exchangeHere_of_orphan (h : W.Sound) (held : b ∈ W.handles)
    (dead : W.store.isAlive b.cache = false) (bound : t.BoundIn W.store) (i : Image)
    (area : Rect) :
    ∃ outcome t' v v', t.exchange W.store (some b) i area
        = .ok ((Store.asRefusal outcome, t'), v) ∧
      (W.store.dropHandle b >>= fun w => t.request w i area) = .ok ((outcome, t'), v') ∧
      v.withLog [] = v'.withLog [] := by
  obtain ⟨w, H, dropped, -, sound⟩ := h.dropHandle_next held
  -- The shares are what they were, so the thread's cache is still there.
  have bound : t.BoundIn w := fun c hc => sound.alive_iff.2 (h.alive_iff.1 (bound c hc))
  obtain ⟨outcome, v, v', exchanged, requested, same, -⟩ :=
    sound.exchangeHere_eq_requestHere bound i area
  refine ⟨outcome, (t.current w).1.2, v, v', ?_, ?_, same⟩
  · rw [Thread.exchange_of_dead dead, dropped]
    exact exchanged
  · rw [dropped]
    exact requested

/-- The cache that a thread whose binding is destroyed requests from is gone afterwards. -/
theorem requestHere_of_destroyed (h : W.Sound) (destroyed : t.binding = .destroyed) (i : Image)
    (area : Rect) :
    ∃ outcome v, t.request W.store i area = .ok ((outcome, t), v) ∧
      ∀ d, outcome = .ok d → d.cache = W.store.caches.next ∧ v.caches.get? d.cache = none := by
  obtain ⟨outcome, -, v, -, run, -, own⟩ :=
    h.exchangeHere_eq_requestHere (Thread.boundIn_of_destroyed destroyed) i area
  obtain ⟨V, moves, rfl⟩ := (requestHere_does h any_quiet t (O := W.shares) (by simp [destroyed])
    fun c => allowsTaking_any _ _).reaches run
  rw [Thread.current_of_destroyed destroyed] at run own
  refine ⟨outcome, v, run, fun d hd => ⟨own d hd, ?_⟩⟩
  -- Nobody got a share, so a cache that exists afterwards existed before.
  rw [own d hd, ← Option.not_isSome_iff_eq_none]
  intro alive
  have shares := (h.reaches moves).alive_iff.1 alive
  simp only [Thread.current_of_destroyed destroyed, destroyed, Binding.owned_destroyed,
    zero_add] at shares
  simpa using h.alive_iff.2 shares

/-- And so is the cache that it exchanges nothing in, or a handle whose own cache is gone. -/
theorem exchangeHere_of_destroyed (h : W.Sound) (destroyed : t.binding = .destroyed)
    {old : Option Handle}
    (orphan : ∀ b, old = some b → b ∈ W.handles ∧ W.store.isAlive b.cache = false) (i : Image)
    (area : Rect) :
    ∃ outcome v, t.exchange W.store old i area = .ok ((outcome, t), v) ∧
      ∀ d, outcome = .ok d → d.cache = W.store.caches.next ∧ v.caches.get? d.cache = none := by
  have nothing : ∀ {V : World}, V.Sound → V.store.caches.next = W.store.caches.next →
      ∃ outcome v, t.exchange V.store none i area = .ok ((outcome, t), v) ∧
        ∀ d, outcome = .ok d → d.cache = W.store.caches.next ∧ v.caches.get? d.cache = none := by
    intro V hV next
    obtain ⟨outcome, v, v', exchanged, requested, same, -⟩ :=
      hV.exchangeHere_eq_requestHere (Thread.boundIn_of_destroyed destroyed) i area
    obtain ⟨outcome', u, run, gone⟩ := hV.requestHere_of_destroyed destroyed i area
    rw [Thread.current_of_destroyed destroyed] at exchanged requested
    rw [requested, Except.ok.injEq, Prod.mk.injEq, Prod.mk.injEq] at run
    obtain ⟨⟨rfl, -⟩, rfl⟩ := run
    refine ⟨_, v, exchanged, fun d hd => ?_⟩
    obtain ⟨log, rfl⟩ := Store.withLog_eq_iff.1 same
    cases outcome with
    | error e => cases hd
    | ok d' =>
      cases hd
      exact next ▸ gone d rfl
  cases old with
  | none => exact nothing h rfl
  | some b =>
    obtain ⟨held, dead⟩ := orphan b rfl
    obtain ⟨w, H, dropped, next, sound⟩ := h.dropHandle_next held
    rw [Thread.exchange_of_dead dead, dropped]
    exact nothing sound next

end World.Sound

namespace Session

variable {s : Session} {buffer : String} {b : Handle} {v : Store}

/-! ## 5. Reachable sessions -/

theorem step_publishOwn (hb : s.frame.handles.get? buffer = some b)
    (run : s.store.publishOwn b = .ok (.ok (), v)) :
    s.step (.publishOwn buffer) = (.done, s.withStore v) := by
  apply step_of_perform
  simp [perform, withHandle, hb, run, doneOrRefused]

theorem step_unpublishOwn (hb : s.frame.handles.get? buffer = some b)
    (run : s.store.unpublishOwn b = .ok (.ok (), v)) :
    s.step (.unpublishOwn buffer) = (.done, s.withStore v) := by
  apply step_of_perform
  simp [perform, withHandle, hb, run, doneOrRefused]

/-- In every session that acts lead to, publishing and withdrawing a buffer and giving up a handle,
without naming a cache, run through and leave stores that do not depend on the thread: they neither
make a cache nor change what the thread is bound to. If the handle's cache exists they do what it
does, and so does exchanging the handle; if it is gone, publishing and withdrawing only report that
they are ignored, the handle is given up as that of an orphan, and exchanging it is giving it up and
then requesting from the thread's cache, but for the events. A thread whose binding is destroyed
stays so, and whatever handle it gets from its own cache is of a new cache, which is gone again. -/
theorem Reachable.handles_follow_own_cache (h : s.Reachable) :
    (∀ buffer b, s.frame.handles.get? buffer = some b → ∃ p u r,
      (∀ t, (s.withThread t).step (.publishOwn buffer) = (.done, (s.withThread t).withStore p) ∧
        (s.withThread t).step (.unpublishOwn buffer) = (.done, (s.withThread t).withStore u) ∧
        (s.withThread t).step (.dropHandle buffer) = (.done, (s.withThread t).givenUp buffer r)) ∧
      p.caches.next = s.store.caches.next ∧ u.caches.next = s.store.caches.next ∧
      r.caches.next = s.store.caches.next ∧
      (s.store.isAlive b.cache = true →
        s.store.publish b.cache b = .ok (.ok (), p) ∧
        s.store.unpublish b.cache b = .ok (.ok (), u) ∧
        s.store.release b.cache b = .ok (.ok (), r) ∧
        ∀ (t : Thread) i area, t.exchange s.store (some b) i area
          = (s.store.exchange b.cache (some b) i area).map fun a => ((a.1, t), a.2)) ∧
      (s.store.isAlive b.cache = false →
        p = s.store.emit (.publishIgnored b.image) ∧
        u = s.store.emit (.unpublishIgnored b.image) ∧
        s.store.releaseOrphan b = .ok r ∧
        ∀ (t : Thread) i area, t.BoundIn s.store → ∃ outcome t' v v',
          t.exchange s.store (some b) i area = .ok ((Store.asRefusal outcome, t'), v) ∧
          (s.store.dropHandle b >>= fun w => t.request w i area) = .ok ((outcome, t'), v') ∧
          v.withLog [] = v'.withLog [])) ∧
    ∀ t : Thread, t.binding = .destroyed → ∀ i area,
      (∃ outcome v, t.request s.store i area = .ok ((outcome, t), v) ∧
        ∀ d, outcome = .ok d → d.cache = s.store.caches.next ∧ v.caches.get? d.cache = none) ∧
      ∀ old, (∀ b, old = some b → b ∈ s.handles ∧ s.store.isAlive b.cache = false) →
        ∃ outcome v, t.exchange s.store old i area = .ok ((outcome, t), v) ∧
          ∀ d, outcome = .ok d → d.cache = s.store.caches.next ∧ v.caches.get? d.cache = none := by
  obtain ⟨out, sound⟩ := h.sound
  refine ⟨fun buffer b hb => ?_, fun t destroyed i area =>
    ⟨sound.world.requestHere_of_destroyed destroyed i area, fun old orphan =>
      sound.world.exchangeHere_of_destroyed destroyed orphan i area⟩⟩
  have held : b ∈ (s.world out).handles := mem_handles hb
  obtain ⟨r, H, dropped, next, -⟩ := sound.world.dropHandle_next held
  cases alive : s.store.isAlive b.cache with
  | true =>
    obtain ⟨p, published, nextp⟩ := sound.world.publish_own held alive
    obtain ⟨u, unpublished, nextu⟩ := sound.world.unpublish_own held
    refine ⟨p, u, r, fun t => ⟨step_publishOwn hb ?_, step_unpublishOwn hb ?_,
      step_dropHandle hb dropped⟩, nextp, nextu, next, fun _ => ⟨published, unpublished, ?_,
      fun t i area => Thread.exchange_of_alive alive i area⟩, Bool.noConfusion⟩
    · exact (if_pos alive).trans published
    · exact (if_pos alive).trans unpublished
    · simp [Store.release, show s.store.dropHandle b = .ok r from dropped]
  | false =>
    have orphan : s.store.dropHandle b = s.store.releaseOrphan b := by
      simp [Store.dropHandle, alive]
    refine ⟨s.store.emit (.publishIgnored b.image), s.store.emit (.unpublishIgnored b.image), r,
      fun t => ⟨step_publishOwn hb ?_, step_unpublishOwn hb ?_, step_dropHandle hb dropped⟩,
      rfl, rfl, next, Bool.noConfusion, fun _ => ⟨rfl, rfl, orphan ▸ dropped,
      fun t i area bound => sound.world.exchangeHere_of_orphan held alive bound i area⟩⟩
    · simp [withThread, Store.publishOwn, alive]
    · simp [withThread, Store.unpublishOwn, alive]

/-- The short run, after which the cache ends and so does the binding of the thread. -/
def widowedActs : List Act := sampleActs ++ [.dropCache "cache", .destroyBinding]

/-- The session after that run. -/
def widowed : Session := (start (.fresh none)).run widowedActs

/-- In that session withdrawing the buffer is ignored, exchanging it is giving it up and requesting,
and a handle that the thread gets is one of the second cache, which is gone again. -/
theorem handles_follow_own_cache_widowed :
    widowed.frame.thread.binding = .destroyed ∧
      widowed.step (.unpublishOwn "buffer") = (.done, widowed.withStore
        (widowed.store.emit (.unpublishIgnored (.explicit 1)))) ∧
      (∃ outcome t v v', widowed.frame.thread.exchange widowed.store
          (some ⟨0, 1, .explicit 1⟩) ⟨.explicit 1, 1⟩ ⟨0, 0, 2, 2⟩
            = .ok ((Store.asRefusal outcome, t), v) ∧
        (widowed.store.dropHandle ⟨0, 1, .explicit 1⟩ >>= fun w =>
          widowed.frame.thread.request w ⟨.explicit 1, 1⟩ ⟨0, 0, 2, 2⟩) = .ok ((outcome, t), v') ∧
        v.withLog [] = v'.withLog []) ∧
      ∃ d v, widowed.frame.thread.request widowed.store ⟨.explicit 1, 1⟩ ⟨0, 0, 2, 2⟩
          = .ok ((.ok d, widowed.frame.thread), v) ∧ d.cache = 2 ∧
        v.caches.get? d.cache = none := by
  have reachable : widowed.Reachable := ⟨_, widowedActs, .fresh none, rfl⟩
  have named : widowed.frame.handles.get? "buffer" = some ⟨0, 1, .explicit 1⟩ := by decide +kernel
  have dead : widowed.store.isAlive 1 = false := by decide +kernel
  have destroyed : widowed.frame.thread.binding = .destroyed := by decide +kernel
  have next : widowed.store.caches.next = 2 := by decide +kernel
  obtain ⟨own, fresh⟩ := reachable.handles_follow_own_cache
  obtain ⟨p, u, r, steps, -, -, -, -, orphan⟩ := own "buffer" _ named
  obtain ⟨-, rfl, -, exchange⟩ := orphan dead
  obtain ⟨⟨outcome, v, run, gone⟩, -⟩ := fresh _ destroyed ⟨.explicit 1, 1⟩ ⟨0, 0, 2, 2⟩
  refine ⟨destroyed, (steps widowed.frame.thread).2.1, exchange _ _ _ ?_, ?_⟩
  · exact Thread.boundIn_of_destroyed destroyed
  · cases outcome with
    | ok d => exact ⟨d, v, run, next ▸ gone d rfl⟩
    | error e =>
      have granted : (widowed.frame.thread.request widowed.store ⟨.explicit 1, 1⟩
        ⟨0, 0, 2, 2⟩).toOption.map (fun a => a.1.1.toOption.isSome) = some true := by decide +kernel
      simp [run, Except.toOption] at granted

end Session

end PixelPool
