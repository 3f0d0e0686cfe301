import PixelPool.Proofs.Journal
import PixelPool.Proofs.Routing
import PixelPool.Proofs.Teardown

/-!
The life of caches, and the caches that threads are bound to.

A cache exists as long as somebody has a share in it, on any thread, by a name or by a binding; it
ends once, as the last share goes. Which acts change the binding of a thread is followed act by act
(`Session.Advances`): no binding that was destroyed comes back. What the log tells of caches is
followed move by move (`Store.Chronicle`). Main statement: `Session.Reachable.caches_live_as_owned`.
-/

namespace PixelPool

open Fault Store

/-! ## 1. Threads -/

namespace Thread

variable {t u v : Thread} {w : Store} {c : CacheId} {i : Image} {area : Rect}

/-- It is the same thread later: a binding that was destroyed stays so. -/
structure Follows (t u : Thread) : Prop where
  id : u.id = t.id
  destroyed : t.binding = .destroyed → u.binding = .destroyed

theorem Follows.refl (t : Thread) : t.Follows t := ⟨rfl, fun gone => gone⟩

theorem current_follows (t : Thread) (w : Store) : t.Follows (t.current w).1.2 := by
  unfold current
  split
  · exact .refl t
  · next unbound => exact ⟨rfl, fun gone => by rw [unbound] at gone; cases gone⟩
  · exact .refl t

theorem bind_follows (t : Thread) (w : Store) (c : CacheId) :
    Yields (t.bind w c) fun a => t.Follows a.1.2 := by
  unfold bind
  split
  · next unbound => exact yields_ok ⟨rfl, fun gone => by rw [unbound] at gone; cases gone⟩
  · next bound => exact yields_ok ⟨rfl, fun gone => by rw [bound] at gone; cases gone⟩
  · apply Yields.after
    intro v
    exact yields_ok (.refl t)

theorem unbind_follows (t : Thread) (w : Store) :
    Yields (t.unbind w) fun a => t.Follows a.1.2 := by
  unfold unbind
  split
  · next bound =>
    apply Yields.after
    intro v
    exact yields_ok ⟨rfl, fun gone => by rw [bound] at gone; cases gone⟩
  · exact yields_ok (.refl t)

theorem destroyBinding_follows (t : Thread) (w : Store) :
    Yields (t.destroyBinding w) fun a => t.Follows a.1 ∧ a.1.binding = .destroyed := by
  unfold destroyBinding
  split
  · apply Yields.after
    intro v
    exact yields_ok ⟨⟨rfl, fun _ => rfl⟩, rfl⟩
  · exact yields_ok ⟨⟨rfl, fun _ => rfl⟩, rfl⟩

theorem request_follows (t : Thread) (w : Store) (i : Image) (area : Rect) :
    Yields (t.request w i area) fun a => t.Follows a.1.2 := by
  apply Yields.after
  intro a
  apply Yields.after
  intro v
  exact yields_ok (current_follows t w)

theorem exchange_follows (t : Thread) (w : Store) (old : Option Handle) (i : Image) (area : Rect) :
    Yields (t.exchange w old i area) fun a => t.Follows a.1.2 := by
  unfold exchange
  split
  · apply Yields.after
    intro a
    exact yields_ok (.refl t)
  · apply Yields.after
    intro v
    apply Yields.after
    intro a
    apply Yields.after
    intro u
    exact yields_ok (current_follows t v)

end Thread

namespace Session

variable {s v : Session} {act : Act} {name : String} {c : CacheId} {b : Handle}

/-- The running thread, and those that wait for it. -/
def threads (s : Session) : List Thread := s.frame.thread :: s.waiting.map Frame.thread

/-- What an act makes of the threads. -/
inductive Advances (s v : Session) : Prop where
  | stays (thread : s.frame.thread.Follows v.frame.thread) (waiting : v.waiting = s.waiting)
      (next : v.nextThread = s.nextThread)
  | enters (thread : v.frame.thread = ⟨s.nextThread, .unbound⟩)
      (waiting : v.waiting = s.frame :: s.waiting) (next : v.nextThread = s.nextThread + 1)
  | leaves (waiting : s.waiting = v.frame :: v.waiting) (next : v.nextThread = s.nextThread)

/-- What the answer of an act comes with. -/
def Leads (s : Session) (a : Answer × Session) : Prop := s.Advances a.2

/-- The threads are as they were. -/
structure SameThreads (s v : Session) : Prop where
  thread : v.frame.thread = s.frame.thread
  waiting : v.waiting = s.waiting
  next : v.nextThread = s.nextThread

theorem leads_of_same {answer : Answer} (thread : v.frame.thread = s.frame.thread)
    (waiting : v.waiting = s.waiting) (next : v.nextThread = s.nextThread) :
    s.Leads (answer, v) :=
  .stays (thread ▸ .refl _) waiting next

theorem leads_self (s : Session) (answer : Answer) : s.Leads (answer, s) :=
  leads_of_same rfl rfl rfl

theorem nameHandle_threads (s : Session) (name : String) (b : Handle) :
    Yields (s.nameHandle name b) s.SameThreads := by
  apply Yields.after
  intro w
  exact yields_ok ⟨rfl, rfl, rfl⟩

theorem nameCache_threads (s : Session) (name : String) (c : CacheId) :
    Yields (s.nameCache name c) s.SameThreads := by
  unfold nameCache
  split
  · exact yields_ok ⟨rfl, rfl, rfl⟩
  · apply Yields.after
    intro w
    exact yields_ok ⟨rfl, rfl, rfl⟩

theorem nameOrDropCache_threads (s : Session) (name : Option String) (c : CacheId) :
    Yields (s.nameOrDropCache name c) s.SameThreads := by
  cases name with
  | some name => exact nameCache_threads s name c
  | none =>
    apply Yields.after
    intro w
    exact yields_ok ⟨rfl, rfl, rfl⟩

theorem nameOutcome_threads (s : Session) (name : String) (outcome : Except Refusal Handle) :
    Yields (s.nameOutcome name outcome) fun a => s.SameThreads a.2 := by
  cases outcome with
  | error e => exact yields_ok ⟨rfl, rfl, rfl⟩
  | ok b =>
    apply Yields.after
    intro view
    refine (nameHandle_threads s name b).bind ?_
    intro v same
    exact yields_ok same

theorem allocateBlock_threads (s : Session) (a : AllocatorId) (size : Nat) :
    Yields (s.allocateBlock a size) fun r => s.SameThreads r.2 := by
  apply Yields.after
  intro source
  exact yields_ok ⟨rfl, rfl, rfl⟩

/-- An operation that leaves the threads alone, and its answer. -/
theorem answered_advances {α : Type} {program : Except Fault α} {answer : α → Answer}
    {after : α → Session} (same : ∀ a, s.SameThreads (after a)) :
    Yields (program >>= fun a => .ok (answer a, after a)) s.Leads := by
  apply Yields.after
  intro a
  exact yields_ok (leads_of_same (same a).thread (same a).waiting (same a).next)

/-- An operation whose outcome gets a name. -/
theorem named_advances {α : Type} {program : Except Fault α}
    {outcome : α → Except Refusal Handle} {after : α → Session}
    (same : ∀ a, s.SameThreads (after a)) :
    Yields (program >>= fun a => (after a).nameOutcome name (outcome a))
      s.Leads := by
  apply Yields.after
  intro a
  refine (nameOutcome_threads _ name _).mono ?_
  intro r named
  have same := same a
  exact leads_of_same (named.thread.trans same.thread) (named.waiting.trans same.waiting)
    (named.next.trans same.next)

theorem newCache_advances (s : Session) (name : String) (a : Option AllocatorId)
    (cap : Option Nat) : Yields (s.newCache name a cap) s.Leads := by
  refine (nameCache_threads _ name _).bind ?_
  intro v same
  exact yields_ok (leads_of_same same.thread same.waiting same.next)

theorem leaveThread_advances (s : Session) :
    Yields (s.perform .leaveThread) s.Leads := by
  have closed : Yields s.closeFrame fun v => s.frame.thread.Follows v.frame.thread ∧
      v.waiting = s.waiting ∧ v.nextThread = s.nextThread := by
    apply Yields.after
    intro w
    apply Yields.after
    intro u
    refine (Thread.destroyBinding_follows _ u).bind ?_
    intro a follows
    exact yields_ok ⟨follows.1, rfl, rfl⟩
  refine closed.bind ?_
  intro v same
  obtain ⟨follows, waiting, next⟩ := same
  cases rest : v.waiting with
  | nil => exact yields_ok (.stays follows waiting next)
  | cons frame frames => exact yields_ok (.leaves (waiting.symm.trans rest) next)

theorem current_advances (s : Session) (name : Option String) :
    Yields (s.perform (.current name)) s.Leads := by
  apply Yields.after
  intro view
  refine (nameOrDropCache_threads _ name _).bind ?_
  intro v same
  refine yields_ok (.stays ?_ same.waiting same.next)
  rw [same.thread]
  exact Thread.current_follows s.frame.thread s.store

theorem bind_advances (s : Session) (cache : String) (name : Option String) :
    Yields (s.perform (.bind cache name)) s.Leads := by
  apply withCache_yields (leads_self ..)
  intro c
  refine (Thread.bind_follows s.frame.thread (s.store.addOwner c) c).bind ?_
  rintro ⟨⟨outcome, thread⟩, w⟩ follows
  match outcome with
  | .error e => exact yields_ok (.stays follows rfl rfl)
  | .ok none => exact yields_ok (.stays follows rfl rfl)
  | .ok (some previous) =>
    refine (nameOrDropCache_threads _ name previous).bind ?_
    intro v same
    refine yields_ok (.stays ?_ same.waiting same.next)
    rw [same.thread]
    exact follows

/-- Acts bind the running thread or unbind it, start one, or end it; no binding that was destroyed
comes back. -/
theorem perform_advances (s : Session) (act : Act) :
    Yields (s.perform act) s.Leads := by
  cases act with
  | newAllocator name limit => exact yields_ok (.stays (.refl _) rfl rfl)
  | newImage name bytesPerPixel key => cases key <;> exact yields_ok (.stays (.refl _) rfl rfl)
  | newCache name allocator cap =>
    cases allocator with
    | none => exact newCache_advances s name none cap
    | some allocator =>
      exact withAllocator_yields (leads_self ..) fun a => newCache_advances s name (some a) cap
  | shareCache cache name =>
    apply withCache_yields (leads_self ..)
    intro c
    refine (nameCache_threads _ name c).bind ?_
    intro v same
    exact yields_ok (leads_of_same same.thread same.waiting same.next)
  | dropCache | inspect | emptyReserve =>
    exact withCache_yields (leads_self ..) fun c => answered_advances fun _ => ⟨rfl, rfl, rfl⟩
  | publish | unpublish | resize | release =>
    exact withCache_yields (leads_self ..) fun c => withHandle_yields (leads_self ..) fun b =>
      answered_advances fun _ => ⟨rfl, rfl, rfl⟩
  | publishOwn | unpublishOwn | dropHandle =>
    exact withHandle_yields (leads_self ..) fun b => answered_advances fun _ => ⟨rfl, rfl, rfl⟩
  | acquire | request =>
    exact withCache_yields (leads_self ..) fun c => withImage_yields (leads_self ..) fun i =>
      named_advances fun _ => ⟨rfl, rfl, rfl⟩
  | copyHandle =>
    exact withHandle_yields (leads_self ..) fun b => named_advances fun _ => ⟨rfl, rfl, rfl⟩
  | exchange cache image area buffer name =>
    refine withCache_yields (leads_self ..) fun c => withImage_yields (leads_self ..) fun i =>
      withHandle?_yields (fun _ => leads_self ..) fun old => named_advances fun a => ?_
    cases buffer <;> exact ⟨rfl, rfl, rfl⟩
  | lookup cache image area name =>
    apply withCache_yields (leads_self ..)
    intro c
    apply withImage_yields (leads_self ..)
    intro i
    apply Yields.after
    rintro ⟨found, w⟩
    cases found with
    | none => exact yields_ok (.stays (.refl _) rfl rfl)
    | some b =>
      refine (nameOutcome_threads _ name (.ok b)).mono ?_
      intro r same
      exact leads_of_same same.thread same.waiting same.next
  | list cache image =>
    apply withCache_yields (leads_self ..)
    intro c
    apply withImage_yields (leads_self ..)
    intro i
    apply Yields.after
    intro l
    cases l <;> exact yields_ok (leads_self ..)
  | sameRecord =>
    exact withHandle_yields (leads_self ..) fun b => withHandle_yields (leads_self ..) fun d =>
      yields_ok (leads_self ..)
  | readPixels buffer =>
    apply withHandle_yields (leads_self ..)
    intro b
    apply Yields.after
    intro x
    split <;> exact yields_ok (leads_self ..)
  | writePixels buffer fill =>
    apply withHandle_yields (leads_self ..)
    intro b
    apply Yields.after
    intro x
    split <;> exact yields_ok (.stays (.refl _) rfl rfl)
  | describe subject =>
    cases subject with
    | buffer name =>
      exact withHandle_yields (leads_self ..) fun b =>
        answered_advances fun _ => ⟨rfl, rfl, rfl⟩
    | cache name =>
      exact withCache_yields (leads_self ..) fun c =>
        answered_advances fun _ => ⟨rfl, rfl, rfl⟩
    | image name => exact withImage_yields (leads_self ..) fun i => yields_ok (leads_self ..)
  | allocateBlock allocator size name =>
    apply withAllocator_yields (leads_self ..)
    intro a
    refine (allocateBlock_threads s a size).bind ?_
    rintro ⟨outcome, v⟩ same
    cases outcome with
    | error e => exact yields_ok (leads_of_same same.thread same.waiting same.next)
    | ok b => exact yields_ok (leads_of_same same.thread same.waiting same.next)
  | allocateShared size =>
    refine (allocateBlock_threads _ _ size).bind ?_
    rintro ⟨outcome, v⟩ same
    cases outcome with
    | error e => exact yields_ok (leads_of_same same.thread same.waiting same.next)
    | ok b =>
      apply Yields.after
      intro w
      exact yields_ok (leads_of_same same.thread same.waiting same.next)
  | freeBlock =>
    exact withAllocator_yields (leads_self ..) fun a => withBlock_yields (leads_self ..) fun loan =>
      answered_advances fun _ => ⟨rfl, rfl, rfl⟩
  | requestHere image area name =>
    apply withImage_yields (leads_self ..)
    intro i
    refine (Thread.request_follows _ s.store i area).bind ?_
    intro a follows
    refine (nameOutcome_threads _ name _).mono ?_
    intro r same
    exact .stays (same.thread ▸ follows) same.waiting same.next
  | exchangeOwn image area buffer name =>
    apply withImage_yields (leads_self ..)
    intro i
    apply withHandle?_yields (fun _ => leads_self ..)
    intro old
    refine (Thread.exchange_follows _ s.store old i area).bind ?_
    intro a follows
    refine (nameOutcome_threads _ name _).mono ?_
    intro r same
    cases buffer <;> exact .stays (same.thread ▸ follows) same.waiting same.next
  | current name => exact current_advances s name
  | bind cache name => exact bind_advances s cache name
  | unbind =>
    refine (Thread.unbind_follows _ s.store).bind ?_
    intro a follows
    exact yields_ok (.stays follows rfl rfl)
  | destroyBinding =>
    refine (Thread.destroyBinding_follows _ s.store).bind ?_
    intro a follows
    exact yields_ok (.stays follows.1 rfl rfl)
  | install cap => exact yields_ok (leads_of_same rfl rfl rfl)
  | sharedConfig => exact yields_ok (leads_of_same rfl rfl rfl)
  | environmentConfig =>
    simp only [perform]
    split <;> exact yields_ok (leads_self ..)
  | installAllocator =>
    exact withAllocator_yields (leads_self ..) fun a =>
      yields_ok (leads_of_same rfl rfl rfl)
  | enterThread => exact yields_ok (.enters rfl rfl rfl)
  | leaveThread => exact leaveThread_advances s
  | incomplete names field =>
    simp only [perform]
    split <;> exact yields_ok (leads_self ..)

theorem step_advances (s : Session) (act : Act) : s.Advances (s.step act).2 := by
  unfold step
  split
  · next run => exact perform_advances s act _ run
  · exact leads_self s .done

/-- Threads have numbers of their own, later ones higher numbers. -/
def Numbered (s : Session) : Prop := (s.nextThread :: s.threads.map Thread.id).Pairwise (· > ·)

theorem Advances.numbered (h : s.Advances v) (numbered : s.Numbered) : v.Numbered := by
  cases h with
  | stays thread waiting next =>
    simp only [Numbered, threads, List.map_cons, next, thread.id, waiting]
    exact numbered
  | enters thread waiting next =>
    have higher : ∀ n ∈ s.nextThread :: s.threads.map Thread.id, s.nextThread + 1 > n := by
      intro n hn
      rcases List.mem_cons.1 hn with rfl | hn
      · exact Nat.lt_succ_self _
      · exact Nat.lt_succ_of_lt ((List.pairwise_cons.1 numbered).1 n hn)
    simp only [Numbered, threads, List.map_cons, next, thread, waiting]
    exact List.pairwise_cons.2 ⟨higher, numbered⟩
  | leaves waiting next =>
    simp only [Numbered, threads, List.map_cons, waiting] at numbered
    simp only [Numbered, threads, List.map_cons, next]
    exact numbered.sublist ((List.sublist_cons_self ..).cons_cons _)

/-- If a thread of that number runs or waits, its binding is destroyed. -/
def Destroyed (s : Session) (id : ThreadId) : Prop :=
  id < s.nextThread ∧ ∀ t ∈ s.threads, t.id = id → t.binding = .destroyed

theorem Advances.destroyed (h : s.Advances v) {id : ThreadId} (destroyed : s.Destroyed id) :
    v.Destroyed id := by
  obtain ⟨old, gone⟩ := destroyed
  cases h with
  | stays thread waiting next =>
    refine ⟨next ▸ old, ?_⟩
    intro t ht same
    rcases List.mem_cons.1 ht with rfl | ht
    · exact thread.destroyed (gone _ List.mem_cons_self (thread.id.symm.trans same))
    · exact gone t (List.mem_cons_of_mem _ (waiting ▸ ht)) same
  | enters thread waiting next =>
    refine ⟨next ▸ Nat.lt_succ_of_lt old, ?_⟩
    intro t ht same
    rcases List.mem_cons.1 ht with rfl | ht
    · rw [thread] at same
      exact absurd same (Nat.ne_of_gt old)
    · rw [waiting] at ht
      exact gone t ht same
  | leaves waiting next =>
    refine ⟨next ▸ old, ?_⟩
    intro t ht same
    refine gone t (List.mem_cons_of_mem _ ?_) same
    rw [waiting]
    exact ht

theorem run_numbered (numbered : s.Numbered) (acts : List Act) : (s.run acts).Numbered := by
  induction acts generalizing s with
  | nil => exact numbered
  | cons act rest ih => exact ih ((step_advances s act).numbered numbered)

theorem run_destroyed {id : ThreadId} (destroyed : s.Destroyed id) (acts : List Act) :
    (s.run acts).Destroyed id := by
  induction acts generalizing s with
  | nil => exact destroyed
  | cons act rest ih => exact ih ((step_advances s act).destroyed destroyed)

/-- No other thread has the number of a thread. -/
theorem Numbered.destroyed (h : s.Numbered) {t : Thread} (ht : t ∈ s.threads)
    (destroyed : t.binding = .destroyed) : s.Destroyed t.id := by
  obtain ⟨lower, apart⟩ := List.pairwise_cons.1 h
  refine ⟨lower _ (List.mem_map_of_mem ht), ?_⟩
  intro u hu same
  have distinct : (s.threads.map Thread.id).Nodup := apart.imp Nat.ne_of_gt
  rwa [List.inj_on_of_nodup_map distinct hu ht same]

end Session

/-! ## 2. Caches in the log -/

/-- The cache that an event tells to be made. -/
def Event.created? : Event → Option CacheId
  | .cacheCreated c _ => some c
  | _ => none

/-- The cache that an event tells to be torn down. -/
def Event.tornDown? : Event → Option CacheId
  | .cacheTornDown c _ _ => some c
  | _ => none

theorem Event.Aside.created? {e : Event} (aside : e.Aside) : e.created? = none := by
  cases e <;> first | rfl | exact absurd aside id

theorem Event.Aside.tornDown? {e : Event} (aside : e.Aside) : e.tornDown? = none := by
  cases e <;> first | rfl | exact absurd aside id

namespace Store

variable {w v : Store} {c : CacheId} {r : RecordId}

/-- The caches that the log tells to be made, the last one first. -/
def born (w : Store) : List CacheId := w.log.filterMap Event.created?

/-- The caches that the log tells to be torn down, the last one first. -/
def gone (w : Store) : List CacheId := w.log.filterMap Event.tornDown?

/-- The log tells of all caches: they were made one after another, each with the next number, and
those that are no more were torn down. -/
structure Chronicle (w : Store) : Prop where
  born : w.born = (List.range' 1 (w.caches.next - 1)).reverse
  gone : w.gone = w.ended.map (·.1)

theorem born_emit {e : Event} (silent : e.created? = none) : (w.emit e).born = w.born :=
  List.filterMap_cons_none silent

theorem gone_emit {e : Event} (silent : e.tornDown? = none) : (w.emit e).gone = w.gone :=
  List.filterMap_cons_none silent

/-- No cache is made or ends. -/
theorem Chronicle.of_kept (h : w.Chronicle) (next : v.caches.next = w.caches.next)
    (ended : v.ended = w.ended) (born : v.born = w.born) (gone : v.gone = w.gone) :
    v.Chronicle :=
  ⟨by rw [born, next, h.born], by rw [gone, ended, h.gone]⟩

theorem Chronicle.without (h : w.Chronicle) (r : RecordId) : (w.without r).Chronicle := by
  refine h.of_kept (by rw [caches_without]) (ended_without ..) ?_ ?_
  · rw [Store.born, Store.born, log_without]
  · rw [Store.gone, Store.gone, log_without]

theorem Chronicle.withoutAll (h : w.Chronicle) (rs : List RecordId) :
    (w.withoutAll rs).Chronicle := by
  induction rs generalizing w with
  | nil => exact h
  | cons r rs ih => exact ih (h.without r)

end Store

/-- Every move that makes or ends a cache is told. -/
theorem World.Step.chronicle {W V : World} {m : Move} (move : World.Step m W V)
    (aside : ∀ e, m = .report e → e.Aside) (numbered : W.store.Numbered)
    (h : W.store.Chronicle) : V.store.Chronicle := by
  induction move with
  | retire withdraws _ how ih ih' =>
    exact ih' (by rcases how with rfl | rfl <;> simp) (withdraws.numbered numbered)
      (ih (by simp) numbered h)
  | @report W e =>
    have silent := aside e rfl
    exact h.of_kept rfl rfl (born_emit silent.created?) (gone_emit silent.tornDown?)
  | @addCache W t config a =>
    obtain ⟨n, next⟩ := Nat.exists_eq_add_of_le numbered.first
    refine ⟨?_, h.gone⟩
    have born : (W.store.createCache t config a).2.born = W.store.caches.next :: W.store.born :=
      rfl
    have after : (W.store.createCache t config a).2.caches.next - 1 = n + 1 := by
      simp [createCache, emit, next, Nat.add_comm]
    rw [born, h.born, after, List.range'_1_concat, List.reverse_concat, next,
      Nat.add_sub_cancel_left]
  | @tearDown W _ c z =>
    have detached : (W.store.unmarkAll z.lists.all).Chronicle := h.of_kept rfl rfl rfl rfl
    have emptied := detached.withoutAll z.reserve.slots
    refine ⟨?_, ?_⟩
    · show ((W.store.unmarkAll z.lists.all).withoutAll z.reserve.slots).born = _
      rw [emptied.born, caches_withoutAll, caches_tornDown, Table.next_erase]
      rfl
    · show c :: ((W.store.unmarkAll z.lists.all).withoutAll z.reserve.slots).gone = _
      rw [emptied.gone, ended_tornDown, withoutAll_keeps (·.ended) ended_without]
      rfl
  | @emptyReserve W c z =>
    have cleared : (W.store.setCache c { z with reserve := z.reserve.clear }).Chronicle :=
      h.of_kept rfl rfl rfl rfl
    exact (cleared.withoutAll z.reserve.slots).of_kept rfl rfl rfl rfl
  | refit _ _ _ fits => cases fits <;> exact h.of_kept rfl rfl rfl rfl
  | refitFailed _ _ _ fits => cases fits <;> exact h.of_kept rfl rfl rfl rfl
  | free | outlive | discard =>
    apply Chronicle.without
    exact h.of_kept rfl rfl rfl rfl
  | _ => exact h.of_kept rfl rfl rfl rfl

/-- A cache was torn down once if it was made and does not exist, and not at all otherwise. -/
theorem Store.Chronicle.count_gone {w : Store} (h : w.Chronicle) (numbered : w.Numbered)
    (c : CacheId) :
    w.gone.count c = if c ∈ w.born ∧ w.isAlive c = false then 1 else 0 := by
  have made : c ∈ w.born ↔ c ∈ w.created.map (·.1) := by
    rw [h.born, List.mem_reverse, numbered.ids.mem_iff]
  have distinct : (w.created.map (·.1)).Nodup := numbered.ids.nodup_iff.2 List.nodup_range'
  rw [created, List.map_append] at made distinct
  obtain ⟨-, once, apart⟩ := List.nodup_append.1 distinct
  have alive : w.isAlive c = true ↔ c ∈ w.caches.entries.map (·.1) := by
    simp [isAlive, Option.isSome_iff_exists, ← Table.mem_entries_iff]
  rw [h.gone]
  cases exists? : w.isAlive c with
  | true =>
    have here := alive.1 exists?
    rw [if_neg (by simp), List.count_eq_zero]
    intro there
    exact apart c here c there rfl
  | false =>
    have nowhere : c ∉ w.caches.entries.map (·.1) := by
      intro here
      simp [alive.2 here] at exists?
    by_cases there : c ∈ w.ended.map (·.1)
    · rw [if_pos ⟨made.2 (List.mem_append_right _ there), rfl⟩]
      exact List.count_eq_one_of_mem once there
    · have unmade : c ∉ w.born := by
        intro born
        exact (List.mem_append.1 (made.1 born)).elim nowhere there
      rw [if_neg (fun both => unmade both.1), List.count_eq_zero.2 there]

namespace Session

variable {s : Session} {act : Act} {out : Multiset Loan} {c : CacheId}

theorem Sound.run_chronicle (h : s.Sound out) (numbered : s.store.Numbered)
    (chronicle : s.store.Chronicle) (acts : List Act) : (s.run acts).store.Chronicle := by
  induction acts generalizing s out with
  | nil => exact chronicle
  | cons act rest ih =>
    have kept := h.made_keeps act (I := fun V => V.store.Numbered ∧ V.store.Chronicle) ?_
      ⟨numbered, chronicle⟩
    · exact ih (h.step act) kept.1 kept.2
    · intro m V V' _ made move same
      refine ⟨move.numbered same.1, move.chronicle (fun e report => ?_) same.1 same.2⟩
      subst report
      exact made.2

theorem chronicle_run {w : Store} (initial : w.Initial) (acts : List Act) :
    ((start w).run acts).store.Chronicle := by
  refine (sound_start initial).run_chronicle (numbered_run initial []) ?_ acts
  obtain ⟨environment, host, rfl | rfl⟩ := initial <;> exact ⟨rfl, rfl⟩

/-! ## 3. The cache of a thread -/

theorem mem_shares_of_bound {t : Thread} (ht : t ∈ s.threads) (bound : t.binding = .bound c) :
    c ∈ s.shares := by
  have held : ∀ f : Frame, f.thread = t → c ∈ f.sharesHeld := by
    intro f same
    rw [Frame.sharesHeld, same, bound, Binding.owned_bound]
    exact Multiset.mem_add.2 (.inr (Multiset.mem_singleton_self c))
  rcases List.mem_cons.1 ht with same | ht
  · exact Multiset.mem_add.2 (.inl (held _ same.symm))
  · obtain ⟨f, hf, same⟩ := List.mem_map.1 ht
    have sum : f.sharesHeld ≤ (s.waiting.map Frame.sharesHeld).sum :=
      List.single_le_sum (fun _ _ => Multiset.zero_le _) _ (List.mem_map_of_mem hf)
    exact Multiset.mem_add.2 (.inr (Multiset.mem_of_le sum (held f same)))

end Session

theorem Store.dropOwner_next (w : Store) (c : CacheId) :
    Yields (w.dropOwner c) fun v => v.caches.next = w.caches.next := by
  apply cache_yields
  intro z _
  split
  · apply cache_yields
    intro y _
    refine (detachAll_unlogged w y.lists.all).bind ?_
    intro v detached
    refine (destroyAll_unlogged v y.reserve.slots).bind ?_
    intro u gone
    apply yields_ok
    show u.caches.next = w.caches.next
    rw [gone.caches, detached.caches]
  · exact yields_ok rfl

theorem Store.createShared_next (w : Store) (t : ThreadId) :
    (w.createShared t).2.caches.next = w.caches.next + 1 := by
  have same : (w.createShared t).2.caches.next
      = w.sharedConfig.2.sharedAllocator.2.caches.next + 1 := rfl
  rw [same, caches_sharedAllocator, caches_sharedConfig]

/-- A share more, and a share less. -/
theorem Store.dropOwner_addOwner {w : Store} {c : CacheId} {z : Cache}
    (hz : w.caches.get? c = some z) (owned : 0 < z.owners) :
    (w.addOwner c).dropOwner c = .ok w := by
  have found : (w.addOwner c).caches.get? c = some { z with owners := z.owners + 1 } := by
    simp [addOwner, Table.get?_update, hz]
  have more : ¬ z.owners + 1 ≤ 1 := by omega
  have same : (w.addOwner c).setCache c { z with owners := z.owners + 1 - 1 } = w := by
    have caches : (w.caches.update c fun x => { x with owners := x.owners + 1 }).update c
        (fun _ => z) = w.caches := by
      rw [Table.update_update]
      exact (Table.update_congr hz (f := fun _ => z) (g := id) rfl).trans (Table.update_id ..)
    exact congrArg (fun caches => { w with caches }) caches
  rw [dropOwner, cache_of_get? found, ok_bind, if_neg more, same]
  rfl

namespace Thread

variable {t : Thread} {c : CacheId}

theorem current_of_bound (bound : t.binding = .bound c) (w : Store) :
    t.current w = ((c, t), w.addOwner c) := by
  simp only [current, bound]

theorem current_of_unbound (unbound : t.binding = .unbound) (w : Store) :
    (t.current w).1 = (w.caches.next, { t with binding := .bound w.caches.next }) ∧
      (t.current w).2.caches.next = w.caches.next + 1 := by
  have made := createShared_fst w t.id
  have next := createShared_next w t.id
  simp only [current, unbound, made, true_and]
  exact next

theorem next_current_of_destroyed (destroyed : t.binding = .destroyed) (w : Store) :
    (t.current w).2.caches.next = w.caches.next + 1 := by
  simp only [current, destroyed]
  exact createShared_next _ t.id

end Thread

namespace Session

variable {s v : Session} {act : Act} {out : Multiset Loan} {c d : CacheId}

theorem cacheView_id (w : Store) (c : CacheId) : Yields (cacheView w c) fun v => v.id = c := by
  apply Yields.after
  intro z
  exact yields_ok rfl

theorem nameOrDropCache_next (s : Session) (name : Option String) (c : CacheId) :
    Yields (s.nameOrDropCache name c) fun v => v.store.caches.next = s.store.caches.next := by
  cases name with
  | none =>
    refine (dropOwner_next s.store c).bind ?_
    intro w same
    exact yields_ok same
  | some name =>
    show Yields (s.nameCache name c) _
    unfold nameCache
    split
    · exact yields_ok rfl
    · refine (dropOwner_next s.store _).bind ?_
      intro w same
      exact yields_ok same

/-- The answer is the thread's cache. -/
theorem current_yields (s : Session) (name : Option String) :
    Yields (s.perform (.current name)) fun a => ∃ view, a.1 = .cache view ∧
      view.id = (s.frame.thread.current s.store).1.1 ∧
      a.2.threads = (s.frame.thread.current s.store).1.2 :: s.waiting.map Frame.thread ∧
      a.2.store.caches.next = (s.frame.thread.current s.store).2.caches.next := by
  refine (cacheView_id _ _).bind ?_
  intro view own
  refine ((nameOrDropCache_threads _ name _).and (nameOrDropCache_next _ name _)).bind ?_
  rintro v ⟨same, next⟩
  refine yields_ok ⟨view, rfl, own, ?_, next⟩
  rw [threads, same.thread, same.waiting]
  rfl

/-! ### By the binding -/

/-- What acts do while the thread is bound to a cache: asking for the thread's cache gives that, and
makes none; binding another cache gives that one back; unbinding is told to have done something. -/
structure ActsBound (s : Session) (d : CacheId) : Prop where
  current : ∀ name, ∃ view, (s.step (.current name)).1 = .cache view ∧ view.id = d ∧
    (s.step (.current name)).2.frame.thread.binding = .bound d ∧
    (s.step (.current name)).2.store.born = s.store.born
  bind : ∀ cache name c, s.frame.caches.get? cache = some c →
    (s.step (.bind cache name)).1 = .number d ∧
    (s.step (.bind cache name)).2.frame.thread.binding = .bound c
  unbind : (s.step .unbind).1 = .flag true ∧ (s.step .unbind).2.frame.thread.binding = .unbound

/-- While it is bound to none: asking for the thread's cache makes one and binds it. -/
structure ActsUnbound (s : Session) : Prop where
  current : ∀ name, ∃ view, (s.step (.current name)).1 = .cache view ∧
    (s.step (.current name)).2.frame.thread.binding = .bound view.id ∧
    (s.step (.current name)).2.store.born = view.id :: s.store.born
  bind : ∀ cache name c, s.frame.caches.get? cache = some c →
    (s.step (.bind cache name)).1 = .absent ∧
    (s.step (.bind cache name)).2.frame.thread.binding = .bound c
  unbind : (s.step .unbind).1 = .flag false ∧ (s.step .unbind).2.frame.thread.binding = .unbound

/-- Once the binding is destroyed: each time a cache is asked for one is made, and no thread is
bound to it; to bind a cache is refused, and the share in it that was to be bound is given up, so
that all is as before if that was one share more; there is nothing to unbind. -/
structure ActsDestroyed (s : Session) : Prop where
  current : ∀ name, ∃ view, (s.step (.current name)).1 = .cache view ∧
    (∀ t ∈ (s.step (.current name)).2.threads, t.binding ≠ .bound view.id) ∧
    (s.step (.current name)).2.store.born = view.id :: s.store.born
  bind : ∀ cache name c, s.frame.caches.get? cache = some c →
    s.step (.bind cache name) = (.refused (.violation .bindingDestroyed), s)
  giveUp : ∀ c ∈ s.shares, ∃ v, s.store.dropOwner c = .ok v ∧
    s.frame.thread.bind s.store c
      = .ok ((.error (.violation .bindingDestroyed), s.frame.thread), v)
  unbind : s.step .unbind = (.flag false, s)

/-- What acts do with the cache of the running thread. -/
def ActsByBinding (s : Session) : Prop :=
  match s.frame.thread.binding with
  | .bound c => s.ActsBound c
  | .unbound => s.ActsUnbound
  | .destroyed => s.ActsDestroyed

theorem Reachable.step (h : s.Reachable) (act : Act) : (s.step act).2.Reachable := by
  obtain ⟨w, acts, initial, rfl⟩ := h
  exact ⟨w, acts ++ [act], initial, (run_concat ..).symm⟩

theorem Reachable.chronicle (h : s.Reachable) : s.store.Chronicle := by
  obtain ⟨w, acts, initial, rfl⟩ := h
  exact chronicle_run initial acts

theorem Reachable.numbered (h : s.Reachable) : s.store.Numbered := by
  obtain ⟨w, acts, initial, rfl⟩ := h
  exact numbered_run initial acts

theorem Reachable.threads_numbered (h : s.Reachable) : s.Numbered := by
  obtain ⟨w, acts, initial, rfl⟩ := h
  have first : (start w).Numbered := by
    show ([1, 0] : List Nat).Pairwise (· > ·)
    decide
  exact run_numbered first acts

/-- An act that makes no cache. -/
theorem Reachable.born_of_kept (h : s.Reachable) (h' : v.Reachable)
    (next : v.store.caches.next = s.store.caches.next) : v.store.born = s.store.born := by
  rw [h.chronicle.born, h'.chronicle.born, next]

/-- An act that makes a single one. -/
theorem Reachable.born_of_made (h : s.Reachable) (h' : v.Reachable)
    (next : v.store.caches.next = s.store.caches.next + 1) :
    v.store.born = s.store.caches.next :: s.store.born := by
  obtain ⟨n, first⟩ := Nat.exists_eq_add_of_le h.numbered.first
  have after : 1 + n + 1 - 1 = n + 1 := by omega
  rw [h.chronicle.born, h'.chronicle.born, next, first, after, Nat.add_sub_cancel_left,
    List.range'_1_concat, List.reverse_concat]

theorem Reachable.current (h : s.Reachable) (name : Option String) :
    ∃ view, (s.step (.current name)).1 = .cache view ∧
      view.id = (s.frame.thread.current s.store).1.1 ∧
      (s.step (.current name)).2.threads
        = (s.frame.thread.current s.store).1.2 :: s.waiting.map Frame.thread ∧
      (s.step (.current name)).2.store.caches.next
        = (s.frame.thread.current s.store).2.caches.next := by
  obtain ⟨out, sound⟩ := h.sound
  exact current_yields s name _ (sound.perform_eq (.current name))

theorem Reachable.actsBound (h : s.Reachable) (bound : s.frame.thread.binding = .bound d) :
    s.ActsBound d := by
  obtain ⟨out, sound⟩ := h.sound
  refine ⟨fun name => ?_, fun cache name c hc => ?_, ?_⟩
  · obtain ⟨view, answer, own, threads, next⟩ := h.current name
    rw [Thread.current_of_bound bound] at own threads next
    have thread := (List.cons.inj threads).1
    exact ⟨view, answer, own, by rw [thread, bound], h.born_of_kept (h.step _) next⟩
  · refine Yields.mono (Q := fun a => a.1 = .number d ∧ a.2.frame.thread.binding = .bound c) ?_
      (fun a holds => holds) _ (sound.perform_eq (.bind cache name))
    simp only [perform, withCache, hc, Thread.bind, bound, ok_bind]
    refine (nameOrDropCache_threads _ name d).bind ?_
    intro v same
    exact yields_ok ⟨rfl, by rw [same.thread]; rfl⟩
  · refine Yields.mono (Q := fun a => a.1 = .flag true ∧ a.2.frame.thread.binding = .unbound) ?_
      (fun a holds => holds) _ (sound.perform_eq .unbind)
    simp only [perform, Thread.unbind, bound, bind_assoc]
    apply Yields.after
    intro v
    exact yields_ok ⟨rfl, rfl⟩

theorem Reachable.actsUnbound (h : s.Reachable) (unbound : s.frame.thread.binding = .unbound) :
    s.ActsUnbound := by
  refine ⟨fun name => ?_, fun cache name c hc => ?_, ?_⟩
  · obtain ⟨view, answer, own, threads, next⟩ := h.current name
    obtain ⟨made, more⟩ := Thread.current_of_unbound unbound s.store
    rw [made] at own threads
    have thread := (List.cons.inj threads).1
    refine ⟨view, answer, by rw [thread, own], ?_⟩
    rw [own]
    exact h.born_of_made (h.step _) (next.trans more)
  · have run : s.step (.bind cache name)
        = (.absent, (s.withThread { s.frame.thread with binding := .bound c }).withStore
            (s.store.addOwner c)) := by
      apply step_of_perform
      simp only [perform, withCache, hc, Thread.bind, unbound, ok_bind]
      rfl
    rw [run]
    exact ⟨rfl, rfl⟩
  · have run : s.step .unbind = (.flag false, s) := by
      apply step_of_perform
      simp only [perform, Thread.unbind, unbound, ok_bind]
      rfl
    rw [run]
    exact ⟨rfl, unbound⟩

theorem Reachable.actsDestroyed (h : s.Reachable)
    (destroyed : s.frame.thread.binding = .destroyed) : s.ActsDestroyed := by
  obtain ⟨out, sound⟩ := h.sound
  refine ⟨fun name => ?_, fun cache name c hc => ?_, fun c hc => ?_, ?_⟩
  · obtain ⟨view, answer, own, threads, next⟩ := h.current name
    have more := Thread.next_current_of_destroyed destroyed s.store
    rw [Thread.current_of_destroyed destroyed] at own threads
    refine ⟨view, answer, fun t ht bound => ?_, ?_⟩
    · rw [threads] at ht
      obtain ⟨z, hz⟩ := sound.exists_cache (mem_shares_of_bound ht bound)
      rw [own] at hz
      exact absurd (Table.lt_next_of_get? hz) (Nat.lt_irrefl _)
    · rw [own]
      exact h.born_of_made (h.step _) (next.trans more)
  · obtain ⟨z, hz, tidy⟩ := sound.world.exists_cache (mem_shares hc)
    have back : (s.store.addOwner c).dropOwner c = .ok s.store :=
      Store.dropOwner_addOwner hz tidy.owned
    apply step_of_perform
    simp only [perform, withCache, hc, Thread.bind, destroyed, back, ok_bind]
    rfl
  · obtain ⟨z, hz⟩ := sound.exists_cache hc
    have dropped : ∃ v, s.store.dropOwner c = .ok v := by
      obtain ⟨-, run⟩ | ⟨-, run⟩ := World.dropOwner_eq sound.world hz <;> exact ⟨_, run⟩
    obtain ⟨v, run⟩ := dropped
    refine ⟨v, run, ?_⟩
    simp only [Thread.bind, destroyed, run, ok_bind]
    rfl
  · apply step_of_perform
    simp only [perform, Thread.unbind, destroyed, ok_bind]
    rfl

theorem Reachable.actsByBinding (h : s.Reachable) : s.ActsByBinding := by
  unfold ActsByBinding
  split
  · next bound => exact h.actsBound bound
  · next unbound => exact h.actsUnbound unbound
  · next destroyed => exact h.actsDestroyed destroyed

/-! ## 4. Lifetimes -/

/-- On the way from `W` to `V` the only share in the cache goes, and the cache is torn down. -/
def EndsWithShare (W V : World) (c : CacheId) : Prop :=
  ∃ U U' : World, W.Reaches (fun _ => True) U ∧ U.shares.count c = 1 ∧
    World.Step (.tearDown c) U U' ∧ U'.shares.count c = 0 ∧ U'.Reaches (fun _ => True) V

theorem Sound.endsWithShare (h : s.Sound out) (before : c ∈ s.shares)
    (after : c ∉ (s.step act).2.shares) :
    EndsWithShare (s.world out) ((s.step act).2.world (s.ledger act (s.step act).1 out)) c := by
  have moves := (h.reaches act).mono (Q := fun _ => True) fun _ _ => trivial
  obtain ⟨z, hz⟩ := h.exists_cache before
  have alive : (s.store.caches.get? c).isSome = true := by simp [hz]
  have ended : (s.step act).2.store.caches.get? c = none := by
    have dead := mt (h.step act).world.alive_iff.1 after
    exact Option.not_isSome_iff_eq_none.1 dead
  obtain ⟨U, U', first, torn, rest⟩ := moves.exists_tearDown alive ended
  have sound : U.Sound := h.world.reaches first
  cases id torn with
  | @tearDown _ O _ y held hy last =>
    have once : U.shares.count c = 1 := by rw [← (sound.tidy c y hy).owners, last]
    have none : O.count c = 0 := by
      rw [held, Multiset.count_cons_self] at once
      omega
    exact ⟨U, _, first, once, torn, none, rest⟩

/-- In every session that acts lead to, a cache exists while somebody owns it, by a name or by the
binding of a thread, and counts its owners; handles do not matter. Caches are told to be made one
after another, each with a number of its own. Each cache that is owned no more was torn down once,
and no other was; whatever the act, that is done when the only share goes. Asking for the thread's
cache, binding and unbinding do what the binding says; and a binding that is destroyed stays so,
whatever is done, on this thread and on others. -/
theorem Reachable.caches_live_as_owned (h : s.Reachable) :
    (∀ c, s.store.isAlive c = true ↔ c ∈ s.shares) ∧
    (∀ c z, s.store.caches.get? c = some z → z.owners = s.shares.count c) ∧
    s.store.born.Nodup ∧
    (∀ c, s.store.gone.count c = if c ∈ s.store.born ∧ c ∉ s.shares then 1 else 0) ∧
    (∀ act c, c ∈ s.shares → c ∉ (s.step act).2.shares →
      ∃ out out', EndsWithShare (s.world out) ((s.step act).2.world out') c) ∧
    s.ActsByBinding ∧
    ∀ t ∈ s.threads, t.binding = .destroyed → ∀ acts, ∀ u ∈ (s.run acts).threads,
      u.id = t.id → u.binding = .destroyed := by
  obtain ⟨out, sound⟩ := h.sound
  have alive : ∀ c, s.store.isAlive c = true ↔ c ∈ s.shares := fun c => sound.world.alive_iff
  refine ⟨alive, fun c z hz => (sound.world.tidy c z hz).owners, ?_, fun c => ?_, ?_,
    h.actsByBinding, ?_⟩
  · rw [h.chronicle.born, List.nodup_reverse]
    exact List.nodup_range'
  · have dead : s.store.isAlive c = false ↔ c ∉ s.shares := by
      rw [← alive c, Bool.not_eq_true]
    simp only [h.chronicle.count_gone h.numbered, dead]
  · intro act c before after
    exact ⟨_, _, sound.endsWithShare before after⟩
  · intro t ht destroyed acts u hu same
    exact (run_destroyed (h.threads_numbered.destroyed ht destroyed) acts).2 u hu same

/-- A run in which the thread's cache is made and named, another cache takes its place, the name is
dropped, which ends it, and the binding is destroyed, which spares the other. -/
def boundActs : List Act :=
  [.newAllocator "heap" none, .current (some "first"), .newCache "second" (some "heap") none,
    .bind "second" none, .dropCache "first", .destroyBinding]

/-- The session after that run. -/
def afterBinding : Session := (start (.fresh none)).run boundActs

/-- The first cache was torn down once, the second is owned by its name alone, and once that is
dropped it is torn down as well. -/
theorem caches_live_as_owned_after_binding :
    afterBinding.Reachable ∧ afterBinding.store.isAlive 1 = false ∧
      afterBinding.store.gone.count 1 = 1 ∧ afterBinding.store.isAlive 2 = true ∧
      (∃ out out', EndsWithShare (afterBinding.world out)
        ((afterBinding.step (.dropCache "second")).2.world out') 2) ∧
      afterBinding.ActsDestroyed ∧
      (afterBinding.run [.enterThread, .leaveThread]).frame.thread.binding = .destroyed := by
  have reachable : afterBinding.Reachable := ⟨_, boundActs, .fresh none, rfl⟩
  obtain ⟨alive, -, -, once, ends, acts, destroyed⟩ := reachable.caches_live_as_owned
  have unowned : ¬ 1 ∈ afterBinding.shares := by decide +kernel
  have first : afterBinding.store.isAlive 1 = false := by
    rw [← Bool.not_eq_true, alive 1]
    exact unowned
  have gone := once 1
  rw [if_pos ⟨by decide +kernel, unowned⟩] at gone
  refine ⟨reachable, first, gone, (alive 2).2 (by decide +kernel),
    ends (.dropCache "second") 2 (by decide +kernel) (by decide +kernel), acts, ?_⟩
  exact destroyed _ List.mem_cons_self rfl [.enterThread, .leaveThread] _ List.mem_cons_self rfl

end Session

end PixelPool
