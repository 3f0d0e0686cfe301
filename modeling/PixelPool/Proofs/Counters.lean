import Mathlib
import PixelPool.Proofs.Grants
import PixelPool.Proofs.Sheets

/-!
The counters of caches and allocators, and what they count.

Four equations tie the counters of a cache to its buffers and to what acts did. Each is a value of
caches to which every act adds what is counted of it, so that along a run the value is the sum of
these numbers (`Session.value_eq_tallied`): buffers in use, buffers removed from the reserve, direct
acquisitions, and publications that are over. Main statement, with the equation of allocators:
`Session.counters_reconcile`.
-/

namespace PixelPool

/-! ## 1. Requests -/

/-- Buffers that came into use, less the requests that went on to acquire one. -/
def Stats.unrequested (t : Stats) : Int := t.made + t.reused - t.misses

theorem Stats.unrequested_fitted (outcome : Except StorageError Bool) (t : Stats) :
    (Store.fitted outcome t).unrequested = t.unrequested := by
  rcases outcome with e | newBlock
  · rfl
  · cases newBlock <;> rfl

/-- The move neither takes a buffer into use nor counts a request. -/
def Move.SparesRequests : Move → Prop
  | .take _ | .tally .. => False
  | _ => True

theorem Move.Quiet.sparesRequests {m : Move} (quiet : m.Quiet) : m.SparesRequests := by
  cases m <;> first | exact trivial | exact quiet

/-- In each cache, `d` more buffers came into use than requests went on to acquire one. -/
abbrev Store.Unrequested (d : CacheId → Int) : Store → Store → Prop :=
  Adds (shows fun S => S.stats.unrequested) d

namespace World

variable {W V : World} {m : Move} {c : CacheId} {S T : Sheet} {i : Image} {area : Rect}

theorem Turn.unrequested (turn : Turn c m S T) (allowed : m.SparesRequests) :
    T.stats.unrequested = S.stats.unrequested := by
  cases turn with
  | renewed newBlock => cases newBlock <;> rfl
  | reused | made | tallied => exact allowed.elim
  | _ => rfl

theorem Reaches.unrequested (moves : W.Reaches Move.SparesRequests V) (h : W.Sound)
    (rooted : W.store.Rooted) : W.store.Unrequested 0 V.store :=
  moves.adds h rooted rfl fun _ allowed _ _ _ turn => turn.unrequested allowed

/-- An acquisition takes one buffer into use, whether it succeeds or fails. -/
theorem acquire_unrequested (h : W.Sound) (rooted : W.store.Rooted) (owned : c ∈ W.shares)
    {a : Except StorageError Handle × Store} (run : W.store.acquire c i area = .ok a) :
    W.store.Unrequested (Pi.single c 1) a.2 := by
  obtain ⟨s, hs, -⟩ := h.exists_cache owned
  obtain ⟨t, f, outcome, caches, stats, counted⟩ := h.acquire_stats hs run
  obtain ⟨V, moves, rfl⟩ := (acquire_does h any_quiet owned (allowsTaking_any _ _)).reaches run
  refine .of_update caches (moves.rooted rooted) (fun y hy => ?_)
    fun e z other => ⟨rfl, Pi.single_eq_of_ne other _⟩
  obtain rfl := Option.some.inj (hs.symm.trans hy)
  rw [Pi.single_eq_same, Store.shows, Store.shows, Store.sheet, Store.sheet, stats,
    Stats.unrequested_fitted]
  rcases counted with rfl | rfl
  · simp only [Stats.unrequested, Stats.addReused]
    omega
  · simp only [Stats.unrequested, Stats.addMade]
    omega

/-- A count that is not of buffers coming into use. -/
theorem count_unrequested {w : Store} {f : Stats → Stats} {n : Int} (rooted : w.Rooted)
    (c : CacheId) (counts : ∀ t, (f t).unrequested = t.unrequested + n) :
    w.Unrequested (Pi.single c n) (w.count c f) :=
  .of_update (Store.caches_count ..) (rooted.count c f)
    (fun y _ => (counts y.stats).trans (by rw [Pi.single_eq_same]; rfl))
    fun _ _ other => ⟨rfl, Pi.single_eq_of_ne other _⟩

/-- Whatever requests are made of, as many buffers come into use as requests go on to acquire
one. -/
theorem unrequested_tracks (i : Image) :
    Tracks i fun W V => W.store.Rooted → W.store.Unrequested 0 V.store where
  refl _ := .refl _
  trans h h' rooted := (h rooted).trans_zero (h' (h rooted).rooted)
  move sound quiet move := (Reaches.single quiet.sparesRequests move).unrequested sound
  hit W c rooted := by
    rw [← Pi.single_zero c]
    exact count_unrequested rooted c fun _ => (add_zero _).symm
  moved W c rooted := by
    rw [← Pi.single_zero c]
    exact count_unrequested rooted c fun _ => (add_zero _).symm
  missed {W c area a} h owned run rooted := by
    have missed := count_unrequested (f := .addMiss) (n := -1) rooted c fun t => by
      simp only [Stats.unrequested, Stats.addMiss]
      omega
    have taken := acquire_unrequested (h.count c .addMiss) missed.rooted owned run
    obtain ⟨s, hs, -⟩ := h.exists_cache owned
    have below : c < W.store.caches.next := Table.lt_next_of_get? hs
    have together := missed.trans taken fun e new =>
      Pi.single_eq_of_ne (Nat.ne_of_gt (below.trans_le new)) _
    rwa [← Pi.single_add, neg_add_cancel, Pi.single_zero] at together
  resized {W b area a} h held owned run rooted := by
    obtain ⟨V, moves, rfl, -⟩ := (resize_does (P := Move.SparesRequests) h
      (fun _ quiet => quiet.sparesRequests) held (fun _ _ _ => ⟨trivial, trivial⟩)
      false).reaches run
    exact moves.unrequested h rooted

end World

/-! ## 2. Published buffers -/

namespace Store

variable {w v : Store} {c : CacheId} {r : RecordId}

/-- The published buffers of a cache. -/
def doneOf (w : Store) (c : CacheId) : List RecordId :=
  w.records.keysOf fun x => decide (x.origin = c) && x.published

theorem mem_doneOf : r ∈ w.doneOf c ↔
    ∃ x, w.records.get? r = some x ∧ x.origin = c ∧ x.published = true := by
  simp [doneOf, Table.mem_keysOf]

theorem nodup_doneOf (w : Store) (c : CacheId) : (w.doneOf c).Nodup := Table.nodup_keysOf ..

/-- A buffer that is published is one more. -/
theorem length_doneOf_enlisted {b : Handle} {x : Record} (hx : w.records.get? b.record = some x)
    (undone : x.published = false) (origin : b.cache = x.origin) (s : Cache) (c : CacheId) :
    ((w.enlisted b s x).doneOf c).length
      = (w.doneOf c).length + if c = b.cache then 1 else 0 := by
  have records : (w.enlisted b s x).records
      = w.records.update b.record fun _ => x.markPublished b.cache := rfl
  rw [doneOf, doneOf, ← Table.total_eq_length_keysOf, ← Table.total_eq_length_keysOf, records,
    Table.total_update _ _ hx, Table.total_erase _ hx]
  by_cases same : c = b.cache
  · simp [Record.markPublished, undone, ← origin, same, add_comm]
  · simp [Record.markPublished, undone, ← origin, same, Ne.symm same]

theorem isPublished_enlisted {b : Handle} {x : Record} (hx : w.records.get? b.record = some x)
    (s : Cache) (published : w.isPublished r = true) : (w.enlisted b s x).isPublished r = true := by
  by_cases same : r = b.record
  · simp [isPublished, enlisted, Table.get?_update, same, hx, Record.markPublished]
  · simpa [isPublished, enlisted, Table.get?_update, same] using published

theorem isPublished_of_mem (done : r ∈ w.doneOf c) : w.isPublished r = true := by
  obtain ⟨x, hx, -, done⟩ := mem_doneOf.1 done
  exact isPublished_eq_true_iff.2 ⟨x, hx, done⟩

/-- The publications of a cache, less those of buffers that are published. -/
def lapsed (w : Store) (c : CacheId) (z : Cache) : Int := z.stats.publishes - (w.doneOf c).length

theorem Rooted.doneOf_of_new (h : w.Rooted) (new : w.caches.next ≤ c) : w.doneOf c = [] := by
  refine List.eq_nil_iff_forall_not_mem.2 fun r hr => ?_
  obtain ⟨x, hx, rfl, -⟩ := mem_doneOf.1 hr
  exact absurd (h r x hx).1 (Nat.not_lt.2 new)

end Store

namespace Sheet

/-- Buffers that came into use, less those that are in use or went out of it. -/
def unsettled (S : Sheet) : Int :=
  S.stats.made + S.stats.reused - S.stats.kept - S.stats.freed - S.stats.failures - S.used

/-- Buffers that were put into the reserve, less those that are there or were taken out. -/
def removed (S : Sheet) : Int := S.stats.kept - S.stats.reused - S.idle

end Sheet

namespace Session

variable {s : Session} {act : Act} {out : Multiset Loan} {c : CacheId} {S T : Sheet} {m : Move}

/-! ## 3. What single acts add -/

/-- Whatever an act does, buffers that came into use are in use or went out of it. -/
theorem Sound.step_unsettled (h : s.Sound out) (rooted : s.store.Rooted) (act : Act) :
    s.store.Adds (Store.shows Sheet.unsettled) 0 (s.step act).2.store := by
  refine (h.reaches act).adds h.world rooted rfl fun m made c S T turn => ?_
  cases turn with
  | spared | published | emptied => rfl
  | renewed newBlock => cases newBlock <;> rfl
  | tallied => obtain ⟨-, rfl | rfl | rfl⟩ := made.2 <;> rfl
  | reused | made | kept | freed | failed =>
    simp only [Sheet.unsettled, Stats.addReused, Stats.addMade, Stats.addKept, Stats.addFreed,
      Stats.addFailure]
    omega

/-- The buffers that an act removes from the reserve of a cache: all that are there, if the act
empties the reserve. -/
def removedBy (c : CacheId) (s : Session) : Act → Nat
  | .emptyReserve cache =>
    if s.frame.caches.get? cache = some c then (s.store.shelf c).length else 0
  | _ => 0

/-- An act that empties no reserve keeps what was put into it and neither taken out nor removed. -/
theorem Sound.step_removed_of_kept (h : s.Sound out) (rooted : s.store.Rooted)
    (kept : ∀ cache c, act = .emptyReserve cache → s.frame.caches.get? cache ≠ some c) :
    s.store.Adds (Store.shows Sheet.removed) 0 (s.step act).2.store := by
  refine (h.reaches act).adds h.world rooted rfl fun m made c S T turn => ?_
  cases turn with
  | spared | published | made | freed | failed => rfl
  | renewed newBlock => cases newBlock <;> rfl
  | tallied => obtain ⟨-, rfl | rfl | rfl⟩ := made.2 <;> rfl
  | emptied =>
    obtain ⟨cache, rfl, hc⟩ := made.2
    exact absurd hc (kept cache c rfl)
  | reused | kept =>
    simp only [Sheet.removed, Stats.addReused, Stats.addKept]
    omega

/-- What an act removes from a reserve was put into it and not taken out before. -/
theorem Sound.step_removed (h : s.Sound out) (rooted : s.store.Rooted) (act : Act) :
    s.store.Adds (Store.shows Sheet.removed) (fun c => s.removedBy c act) (s.step act).2.store := by
  by_cases empties : ∃ cache d, act = .emptyReserve cache ∧ s.frame.caches.get? cache = some d
  · obtain ⟨cache, d, rfl, hd⟩ := empties
    obtain ⟨y, hy, tidy⟩ := h.world.exists_cache (W := s.world out) (mem_shares hd)
    have hy : s.store.caches.get? d = some y := hy
    have run := h.perform_eq (.emptyReserve cache)
    simp only [perform, withCache, hd, Store.emptyReserve_eq h.calm hy tidy.distinct
      (h.world.known_slots hy), Fault.ok_bind] at run
    rw [← Except.ok.inj run]
    have move : World.Step (.emptyReserve d) (s.world out)
        { s.world out with store := s.store.emptied d y } := .emptyReserve hy
    refine .of_update (Store.caches_emptied s.store d y) (move.rooted rooted) (fun x hx => ?_)
      fun c z other => ⟨rfl, by simp [removedBy, hd, Ne.symm other]⟩
    obtain rfl := Option.some.inj (hy.symm.trans hx)
    simp [Store.shows, Sheet.removed, Store.sheet, removedBy, hd, Store.shelf_of_get? hy,
      Reserve.clear]
  · have kept : s.store.Adds (Store.shows Sheet.removed) 0 (s.step act).2.store :=
      h.step_removed_of_kept rooted fun cache d he hd => empties ⟨cache, d, he, hd⟩
    refine kept.of_zero fun c => ?_
    cases act with
    | emptyReserve cache => simp [removedBy, show s.frame.caches.get? cache ≠ some c from
        fun hc => empties ⟨cache, c, rfl, hc⟩]
    | _ => rfl

/-- Whether an act acquires a buffer directly from a cache, as a number. -/
def acquiredBy (c : CacheId) (s : Session) : Act → Nat
  | .acquire cache image _ _ =>
    if s.frame.caches.get? cache = some c ∧ (s.images.get? image).isSome = true then 1 else 0
  | _ => 0

/-- Buffers come into use as requests go on to acquire one, and as they are acquired directly. -/
theorem Sound.step_unrequested (h : s.Sound out) (rooted : s.store.Rooted) (act : Act) :
    s.store.Unrequested (fun c => s.acquiredBy c act) (s.step act).2.store := by
  by_cases direct : ∃ cache image area name, act = .acquire cache image area name
  · obtain ⟨cache, image, area, name, rfl⟩ := direct
    rcases h.acquire_step cache image area name with
      ⟨unnamed, idle⟩ | ⟨d, i, a, hd, hi, run, sound, moves⟩
    · have none : ∀ c, s.acquiredBy c (.acquire cache image area name) = 0 := by
        refine fun c => if_neg fun ⟨hc, hi⟩ => ?_
        obtain ⟨i, hi⟩ := Option.isSome_iff_exists.1 hi
        exact unnamed c i hc hi
      rw [idle]
      exact (Store.Adds.refl _ rooted).of_zero fun c => congrArg _ (none c)
    · have one : (fun c => (s.acquiredBy c (.acquire cache image area name) : Int))
          = Pi.single d 1 := by
        funext c
        by_cases same : c = d <;> simp [acquiredBy, hd, hi, same, Ne.symm]
      have taken := World.acquire_unrequested h.world rooted (mem_shares hd) run
      have named := (moves.mono fun _ => Move.Quiet.sparesRequests).unrequested sound taken.rooted
      rw [one]
      exact taken.trans_zero named
  · have none : ∀ c, s.acquiredBy c act = 0 := by
      intro c
      cases act with
      | acquire => exact absurd ⟨_, _, _, _, rfl⟩ direct
      | _ => rfl
    refine Store.Adds.of_zero ?_ fun c => congrArg _ (none c)
    cases acquires : act.acquires with
    | true =>
      rcases h.asked_tracks World.unrequested_tracks acquires
        (fun _ _ _ _ same => direct ⟨_, _, _, _, same⟩) with idle | ⟨i, -, adds⟩
      · rw [idle]
        exact .refl _ rooted
      · exact adds rooted
    | false =>
      refine ((h.reaches act).mono fun m made => ?_).unrequested h.world rooted
      cases m with
      | take b => simp [made.1.acquires] at acquires
      | tally d f => simp [made.2.1] at acquires
      | _ => trivial

/-- How many buffers of a cache an act unpublishes. -/
def unpublishedBy (c : CacheId) (s : Session) (act : Act) : Nat :=
  ((s.store.doneOf c).filter fun r => !(s.step act).2.store.isPublished r).length

theorem unpublishedBy_eq_zero (kept : ∀ r ∈ s.store.doneOf c,
    (s.step act).2.store.isPublished r = true) : s.unpublishedBy c act = 0 := by
  rw [unpublishedBy, List.length_eq_zero_iff, List.filter_eq_nil_iff]
  intro r hr
  simp [kept r hr]

/-- After an act that publishes nothing, the published buffers of a cache are those of before that
are still published. -/
theorem Sound.doneOf_of_silent (h : s.Sound out) (silent : act.publishes = false) (c : CacheId) :
    ((s.step act).2.store.doneOf c).Perm
      ((s.store.doneOf c).filter (s.step act).2.store.isPublished) := by
  refine (List.perm_ext_iff_of_nodup (Store.nodup_doneOf ..)
    ((Store.nodup_doneOf ..).filter _)).2 fun r => ?_
  rw [List.mem_filter, Store.mem_doneOf, Store.mem_doneOf, Store.isPublished_eq_true_iff]
  have old : ∀ r y, (s.step act).2.store.records.get? r = some y → y.published = true →
      ∃ x, s.store.records.get? r = some x ∧ x.published = true ∧ x.origin = y.origin := by
    refine h.step_keeps act (I := fun V => ∀ r y, V.store.records.get? r = some y →
      y.published = true → ∃ x, s.store.records.get? r = some x ∧ x.published = true ∧
        x.origin = y.origin) (fun m V V' sound allowed move old r z hz done => ?_)
      fun r y hy done => ⟨y, hy, done, rfl⟩
    have unpublishing : ∀ b, m ≠ .publish b := by
      rintro b rfl
      simp [Publishes.publishes allowed] at silent
    obtain ⟨y, hy, before⟩ := Store.isPublished_eq_true_iff.1 (move.isPublished_of_silent sound
      unpublishing (Store.isPublished_eq_true_iff.2 ⟨z, hz, done⟩))
    have fate := move.fate sound r
    rw [hy, hz] at fate
    rcases fate.of_published before with ⟨n, same⟩ | ⟨undone, -⟩
    · obtain rfl := Option.some.inj same
      exact old r y hy before
    · simp [undone z rfl] at done
  constructor
  · rintro ⟨y, hy, rfl, done⟩
    obtain ⟨x, hx, before, origin⟩ := old r y hy done
    exact ⟨⟨x, hx, origin, before⟩, y, hy, done⟩
  · rintro ⟨⟨x, hx, rfl, -⟩, y, hy, done⟩
    obtain ⟨x', hx', -, origin⟩ := old r y hy done
    obtain rfl := Option.some.inj (hx.symm.trans hx')
    exact ⟨y, hy, origin.symm, done⟩

/-- An act that publishes nothing ends publications, and they are over. -/
theorem Sound.step_lapsed_of_silent (h : s.Sound out) (rooted : s.store.Rooted)
    (silent : act.publishes = false) :
    s.store.Adds Store.lapsed (fun c => s.unpublishedBy c act) (s.step act).2.store := by
  have counts : s.store.Adds (Store.shows fun S => S.stats.publishes) 0 (s.step act).2.store := by
    refine (h.reaches act).adds h.world rooted rfl fun m made c S T turn => ?_
    cases turn with
    | published => simp [Publishes.publishes made.1] at silent
    | renewed newBlock => cases newBlock <;> rfl
    | tallied => obtain ⟨-, rfl | rfl | rfl⟩ := made.2 <;> rfl
    | _ => rfl
  refine ⟨counts.rooted, counts.later, fun c z hz => ?_⟩
  have after := (h.doneOf_of_silent silent c).length_eq
  rcases counts.values c z hz with ⟨y, hy, same⟩ | ⟨new, none⟩
  · have split := List.length_eq_length_filter_add
      (l := s.store.doneOf c) (s.step act).2.store.isPublished
    refine .inl ⟨y, hy, ?_⟩
    simp only [Store.shows, Store.sheet, Pi.zero_apply, add_zero] at same
    simp only [Store.lapsed, unpublishedBy, same, after]
    omega
  · rw [rooted.doneOf_of_new new, List.filter_nil, List.length_nil] at after
    simp only [Store.shows, Store.sheet] at none
    exact .inr ⟨new, by simp only [Store.lapsed, none, after]; rfl⟩

/-- An act that publishes a buffer ends no publication, and counts the one that it makes. -/
theorem Sound.step_lapsed_of_publishing (h : s.Sound out) (rooted : s.store.Rooted)
    (publishes : act.publishes = true) :
    s.store.Adds Store.lapsed (fun c => s.unpublishedBy c act) (s.step act).2.store := by
  by_cases enlists : ∃ d k r, s.Enlists act d k r
  · obtain ⟨d, k, r, enlists⟩ := enlists
    obtain ⟨y, x, hy, hx, undone, run⟩ := h.step_enlists enlists
    have same : (s.step act).2.store = s.store.enlisted ⟨r, d, k⟩ y x := congrArg (·.2.store) run
    obtain ⟨origin, -⟩ := (h.world.at_record hx).holders _ enlists.through.held rfl
    have kept : ∀ c, s.unpublishedBy c act = 0 := fun c => unpublishedBy_eq_zero fun j hj =>
      same ▸ Store.isPublished_enlisted hx y (Store.isPublished_of_mem hj)
    have after : ∀ c, ((s.step act).2.store.doneOf c).length
        = (s.store.doneOf c).length + if c = d then 1 else 0 :=
      fun c => same ▸ Store.length_doneOf_enlisted (b := ⟨r, d, k⟩) hx undone origin y c
    have caches := congrArg Store.caches same
    refine .of_update (caches.trans (Store.caches_count_setCache ..))
      ((h.reaches act).rooted rooted) (fun z hz => ?_) fun c z other => ?_
    · obtain rfl := Option.some.inj (hy.symm.trans hz)
      simp only [Store.lapsed, after, kept, if_true, Stats.addPublish]
      omega
    · simp only [Store.lapsed, after, kept, if_neg other]
      exact ⟨rfl, rfl⟩
  · obtain ⟨log, same⟩ := h.step_idle publishes fun d k r some => enlists ⟨d, k, r, some⟩
    have unmoved : s.store.Adds Store.lapsed 0 (s.step act).2.store := same ▸
      ⟨rooted.of_kept rfl rfl rfl, le_refl _, fun c z hz => .inl ⟨z, hz, (add_zero _).symm⟩⟩
    exact unmoved.of_zero fun c => congrArg _ (unpublishedBy_eq_zero fun r hr =>
      same ▸ Store.isPublished_of_mem hr)

/-- An act adds to the publications of a cache that are over those that it ends. -/
theorem Sound.step_lapsed (h : s.Sound out) (rooted : s.store.Rooted) (act : Act) :
    s.store.Adds Store.lapsed (fun c => s.unpublishedBy c act) (s.step act).2.store := by
  cases publishes : act.publishes with
  | false => exact h.step_lapsed_of_silent rooted publishes
  | true => exact h.step_lapsed_of_publishing rooted publishes

/-! ## 4. Runs -/

theorem Sound.run_next_caches_le (h : s.Sound out) (acts : List Act) :
    s.store.caches.next ≤ (s.run acts).store.caches.next :=
  h.run_keeps acts (I := fun V => s.store.caches.next ≤ V.store.caches.next)
    (fun _ _ _ _ move le => le.trans move.next_caches_le) (le_refl _)

/-- Something counted for caches that no act counts for caches it cannot know yet. -/
def CountsOld (count : CacheId → Session → Act → Nat) : Prop :=
  ∀ s out act c, s.Sound out → s.store.Rooted → s.store.caches.next ≤ c → count c s act = 0

variable {count : CacheId → Session → Act → Nat} {value : Store → CacheId → Cache → Int}

theorem CountsOld.tallied (old : CountsOld count) (h : s.Sound out) (rooted : s.store.Rooted)
    (acts : List Act) (new : (s.run acts).store.caches.next ≤ c) :
    s.tallied (count c) acts = 0 := by
  induction acts generalizing s out with
  | nil => rfl
  | cons act rest ih =>
    have unknown := (h.run_next_caches_le (act :: rest)).trans new
    rw [Session.tallied, old s out act c h rooted unknown,
      ih (h.step act) (h.run_rooted [act] rooted) new]

/-- A value to which every act adds what it counts is the sum of what the acts of a run counted. -/
theorem value_eq_tallied (old : CountsOld count)
    (step : ∀ (s : Session) out act, s.Sound out → s.store.Rooted →
      s.store.Adds value (fun c => count c s act) (s.step act).2.store)
    {w : Store} (initial : w.Initial) (acts : List Act) {z : Cache}
    (hz : ((start w).run acts).store.caches.get? c = some z) :
    value ((start w).run acts).store c z = (start w).tallied (count c) acts := by
  induction acts using List.reverseRecOn generalizing z with
  | nil => cases (initial.get?_caches c).symm.trans hz
  | append_singleton acts act ih =>
    have sound := (sound_start initial).run acts
    have rooted := (sound_start initial).run_rooted acts (rooted_start initial)
    rw [run_concat] at hz ⊢
    rw [tallied_concat, Int.natCast_add]
    rcases (step _ _ act sound rooted).values c z hz with ⟨y, hy, here⟩ | ⟨new, none⟩
    · exact here.trans (congrArg (· + _) (ih hy))
    · rw [old _ _ act c sound rooted new,
        old.tallied (sound_start initial) (rooted_start initial) acts new]
      exact none

/-- Along every run, the buffers of a cache that came into use are in use or went out of it. -/
theorem unsettled_eq_zero {w : Store} (initial : w.Initial) (acts : List Act) {z : Cache}
    (hz : ((start w).run acts).store.caches.get? c = some z) :
    (((start w).run acts).store.sheet c z).unsettled = 0 := by
  have old : CountsOld fun _ _ _ => 0 := fun _ _ _ _ _ _ _ => rfl
  have sum := value_eq_tallied old (fun s out act h rooted => h.step_unsettled rooted act) initial
    acts hz
  rwa [tallied_zero] at sum

/-- Along every run, what was put into a reserve is there, was taken out, or was removed. -/
theorem removed_eq_tallied {w : Store} (initial : w.Initial) (acts : List Act) {z : Cache}
    (hz : ((start w).run acts).store.caches.get? c = some z) :
    (((start w).run acts).store.sheet c z).removed = (start w).tallied (removedBy c) acts := by
  refine value_eq_tallied (fun s out act c h rooted new => ?_)
    (fun s out act h rooted => h.step_removed rooted act) initial acts hz
  cases act with
  | emptyReserve cache =>
    refine if_neg fun hc => ?_
    obtain ⟨y, hy⟩ := h.exists_cache (mem_shares hc)
    exact absurd (Table.lt_next_of_get? hy) (Nat.not_lt.2 new)
  | _ => rfl

/-- Along every run, buffers came into use as requests went on to acquire one, and as they were
acquired directly. -/
theorem unrequested_eq_tallied {w : Store} (initial : w.Initial) (acts : List Act) {z : Cache}
    (hz : ((start w).run acts).store.caches.get? c = some z) :
    z.stats.unrequested = (start w).tallied (acquiredBy c) acts := by
  refine value_eq_tallied (fun s out act c h rooted new => ?_)
    (fun s out act h rooted => h.step_unrequested rooted act) initial acts hz
  cases act with
  | acquire cache image area name =>
    refine if_neg fun ⟨hc, _⟩ => ?_
    obtain ⟨y, hy⟩ := h.exists_cache (mem_shares hc)
    exact absurd (Table.lt_next_of_get? hy) (Nat.not_lt.2 new)
  | _ => rfl

/-- Along every run, publications are over as buffers were unpublished. -/
theorem lapsed_eq_tallied {w : Store} (initial : w.Initial) (acts : List Act) {z : Cache}
    (hz : ((start w).run acts).store.caches.get? c = some z) :
    ((start w).run acts).store.lapsed c z = (start w).tallied (unpublishedBy c) acts := by
  refine value_eq_tallied (fun s out act c h rooted new => ?_)
    (fun s out act h rooted => h.step_lapsed rooted act) initial acts hz
  rw [unpublishedBy, rooted.doneOf_of_new new]
  rfl

/-! ## 5. The equations -/

/-- The buffers of a cache that have a handle. -/
def heldOf (s : Session) (c : CacheId) : List RecordId :=
  (s.store.records.keysOf fun x => decide (x.origin = c)).filter
    fun r => decide (r ∈ s.handles.map (·.record))

/-- The buffers in use are those that have a handle. -/
theorem Sound.length_heldOf (h : s.Sound out) (c : CacheId) :
    (s.heldOf c).length = s.store.inUse c := by
  have used : s.store.inUse c = (s.store.records.keysOf fun x =>
      decide (x.origin = c) && x.image.isSome).length := by
    rw [Store.inUse, ← Table.total_eq_length_keysOf]
    exact Table.total_congr fun _ x _ => by simp [Record.uses]
  rw [used]
  refine List.Perm.length_eq ((List.perm_ext_iff_of_nodup ((Table.nodup_keysOf ..).filter _)
    (Table.nodup_keysOf ..)).2 fun r => ?_)
  simp only [List.mem_filter, Table.mem_keysOf, decide_eq_true_eq, Multiset.mem_map,
    Bool.and_eq_true]
  constructor
  · rintro ⟨⟨x, hx, origin⟩, b, hb, rfl⟩
    obtain ⟨-, image⟩ := (h.world.at_record hx).holders b hb rfl
    exact ⟨x, hx, origin, by simp [image]⟩
  · rintro ⟨x, hx, origin, image⟩
    have hc : (s.world out).Consistent r x := h.world.at_record hx
    have used : 0 < s.handles.countP (·.record = r) := by
      have referenced : x.references ≠ 0 := fun zero => by simp [hc.bound.2 zero] at image
      exact hc.references ▸ Nat.pos_of_ne_zero referenced
    obtain ⟨b, hb, hr⟩ := Multiset.countP_pos.1 used
    exact ⟨⟨x, hx, origin⟩, b, hb, hr⟩

/-- After any acts, whatever they were answered, the counters of every cache that exists agree with
its buffers and with the acts. The buffers that came into use have a handle, or went into the
reserve, were freed, or failed to be acquired. The reserve has what went into it, but for what was
taken out again or removed as an act emptied it. Requests that missed took what was not acquired
directly. What was published is published still, or was unpublished. And what an allocator granted
went to the buffers of the caches on it, of all that were ever made, or was handed out directly. -/
theorem counters_reconcile {w : Store} (initial : w.Initial) (acts : List Act) {s : Session}
    (after : s = (start w).run acts) :
    (∀ c z, s.store.caches.get? c = some z →
      z.stats.made + z.stats.reused
          = z.stats.kept + z.stats.freed + z.stats.failures + (s.heldOf c).length ∧
      z.reserve.slots.length + z.stats.reused + (start w).tallied (removedBy c) acts
          = z.stats.kept ∧
      z.stats.misses + (start w).tallied (acquiredBy c) acts = z.stats.made + z.stats.reused ∧
      z.stats.publishes
          = (s.store.doneOf c).length + (start w).tallied (unpublishedBy c) acts) ∧
    (∀ A a, s.store.allocators.get? A = some a →
      s.store.allocatedOn A + (start w).tallied (lentBy A) acts = a.allocations) ∧
    (s.store.created.map (·.1)).Perm (List.range' 1 (s.store.caches.next - 1)) := by
  subst after
  have sound := (sound_start initial).run acts
  refine ⟨fun c z hz => ⟨?_, ?_, ?_, ?_⟩, fun A a ha => ?_, (numbered_run initial acts).ids⟩
  · have settled := unsettled_eq_zero initial acts hz
    simp only [Store.sheet, Sheet.unsettled, ← sound.length_heldOf] at settled
    omega
  · have removed := removed_eq_tallied initial acts hz
    simp only [Store.sheet, Sheet.removed] at removed
    omega
  · have requested := unrequested_eq_tallied initial acts hz
    simp only [Stats.unrequested] at requested
    omega
  · have published := lapsed_eq_tallied initial acts hz
    simp only [Store.lapsed] at published
    omega
  · have granted := granted_eq_tallied initial acts A
    simp only [Store.granted, ha, Option.map_some, Option.getD_some] at granted
    exact granted.symm

/-- A run with a direct acquisition, a request that misses, two publications of which one is taken
back, a reserve that is emptied, an acquisition that fails, and a block that is handed out. -/
def countedActs : List Act :=
  [.newAllocator "heap" none, .newCache "cache" (some "heap") (some 1),
    .newImage "image" 1 (some 1), .acquire "cache" "image" ⟨0, 0, 2, 2⟩ "first",
    .request "cache" "image" ⟨0, 0, 2, 2⟩ "second",
    .publish "cache" "first", .publish "cache" "second", .unpublish "cache" "first",
    .dropHandle "first", .emptyReserve "cache", .acquire "cache" "image" ⟨0, 0, -1, 1⟩ "third",
    .allocateBlock "heap" 5 "block"]

theorem counters_reconcile_sample : ∃ s : Session, s = (start (.fresh none)).run countedActs ∧
    ∃ z, s.store.caches.get? 1 = some z ∧
    ∃ a, s.store.allocators.get? 0 = some a ∧
      z.stats.made + z.stats.reused = z.stats.kept + z.stats.freed + z.stats.failures + 1 ∧
      z.reserve.slots.length + z.stats.reused + 1 = z.stats.kept ∧
      z.stats.misses + 2 = z.stats.made + z.stats.reused ∧
      z.stats.publishes = 1 + 1 ∧ 2 + 1 = a.allocations := by
  obtain ⟨caches, allocators, -⟩ :=
    counters_reconcile (w := .fresh none) (.fresh none) countedActs rfl
  have alive : (((start (.fresh none)).run countedActs).store.caches.get? 1).isSome = true := by
    decide +kernel
  have known : (((start (.fresh none)).run countedActs).store.allocators.get? 0).isSome = true := by
    decide +kernel
  obtain ⟨z, hz⟩ := Option.isSome_iff_exists.1 alive
  obtain ⟨a, ha⟩ := Option.isSome_iff_exists.1 known
  have removed : (start (.fresh none)).tallied (removedBy 1) countedActs = 1 := by decide +kernel
  have acquired : (start (.fresh none)).tallied (acquiredBy 1) countedActs = 2 := by
    decide +kernel
  have unpublished : (start (.fresh none)).tallied (unpublishedBy 1) countedActs = 1 := by
    decide +kernel
  have lent : (start (.fresh none)).tallied (lentBy 0) countedActs = 1 := by decide +kernel
  have held : (((start (.fresh none)).run countedActs).heldOf 1).length = 1 := by decide +kernel
  have done : (((start (.fresh none)).run countedActs).store.doneOf 1).length = 1 := by
    decide +kernel
  have granted : ((start (.fresh none)).run countedActs).store.allocatedOn 0 = 2 := by
    decide +kernel
  obtain ⟨used, idle, asked, published⟩ := caches 1 z hz
  have direct := allocators 0 a ha
  rw [held] at used
  rw [removed] at idle
  rw [acquired] at asked
  rw [done, unpublished] at published
  rw [granted, lent] at direct
  exact ⟨_, rfl, z, hz, a, ha, used, idle, asked, published, direct⟩

end Session

end PixelPool
