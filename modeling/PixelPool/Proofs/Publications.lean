import PixelPool.Proofs.Listings

/-!
The lists of a cache against the history of a run.

`Session.PublishedAt` counts only acts that publish an unpublished buffer in its own cache, as
`Session.Enlists` reads it off the act and what is there before it. Along any run
every cache has a list for exactly the images that this happened for in it, and in each list those
who were published later stand before the others (`Session.Recorded`); one more act keeps that.
Main statement: `Session.lists_follow_publications`, which puts the order of the lists together with
what looking up makes of it and with what each act makes of it.
-/

namespace PixelPool

namespace Session

variable {s : Session} {acts : List Act} {act : Act} {out : Multiset Loan} {c d : CacheId}
  {k j : ImageKey} {r : RecordId} {n : Nat}

/-! ## 1. The history of publications -/

/-- The act with number `n` published an unpublished buffer: in a cache, for an image. -/
def PublishedAt (s : Session) (acts : List Act) (n : Nat) (c : CacheId) (k : ImageKey)
    (r : RecordId) : Prop :=
  ∃ act, acts[n]? = some act ∧ (s.run (acts.take n)).Enlists act c k r

/-- The act with number `n` was the last one that published the buffer while it was not. -/
structure LastPublishedAt (s : Session) (acts : List Act) (n : Nat) (c : CacheId) (k : ImageKey)
    (r : RecordId) : Prop where
  published : s.PublishedAt acts n c k r
  later : ∀ m d j, n < m → ¬ s.PublishedAt acts m d j r

/-- Both buffers were published last in the same cache for the same image, the first one later. -/
def PublishedLater (s : Session) (acts : List Act) (c : CacheId) (k : ImageKey)
    (r r' : RecordId) : Prop :=
  ∃ n n', n' < n ∧ s.LastPublishedAt acts n c k r ∧ s.LastPublishedAt acts n' c k r'

theorem PublishedAt.lt_length (h : s.PublishedAt acts n c k r) : n < acts.length := by
  obtain ⟨act, found, -⟩ := h
  exact (List.getElem?_eq_some_iff.1 found).1

/-- One more act adds to the history what it publishes. -/
theorem publishedAt_concat : s.PublishedAt (acts ++ [act]) n c k r ↔
    s.PublishedAt acts n c k r ∨ n = acts.length ∧ (s.run acts).Enlists act c k r := by
  rcases Nat.lt_trichotomy n acts.length with below | rfl | above
  · have other : n ≠ acts.length := Nat.ne_of_lt below
    simp [PublishedAt, List.getElem?_append_left below, List.take_append_of_le_length below.le,
      other]
  · simp [PublishedAt]
  · have beyond : ¬ s.PublishedAt (acts ++ [act]) n c k r := by
      intro published
      have := published.lt_length
      simp only [List.length_append, List.length_singleton] at this
      omega
    have before : ¬ s.PublishedAt acts n c k r := by
      intro published
      exact absurd published.lt_length (Nat.not_lt.2 above.le)
    simp [beyond, before, above.ne']

/-- An act that publishes other buffers, or none, leaves the last publication what it is. -/
theorem LastPublishedAt.concat (h : s.LastPublishedAt acts n c k r)
    (other : ∀ d j, ¬ (s.run acts).Enlists act d j r) :
    s.LastPublishedAt (acts ++ [act]) n c k r where
  published := publishedAt_concat.2 (.inl h.published)
  later m d j hm published := by
    rcases publishedAt_concat.1 published with published | ⟨-, enlists⟩
    · exact h.later m d j hm published
    · exact other d j enlists

/-- An act that publishes neither of two buffers leaves their order what it is. -/
theorem PublishedLater.concat {r' : RecordId} (h : s.PublishedLater acts c k r r')
    (other : ∀ d j, ¬ (s.run acts).Enlists act d j r)
    (other' : ∀ d j, ¬ (s.run acts).Enlists act d j r') :
    s.PublishedLater (acts ++ [act]) c k r r' := by
  obtain ⟨n, n', lt, first, second⟩ := h
  exact ⟨n, n', lt, first.concat other, second.concat other'⟩

/-- What the act publishes that comes last is published last by it. -/
theorem Enlists.last (h : (s.run acts).Enlists act c k r) :
    s.LastPublishedAt (acts ++ [act]) acts.length c k r where
  published := publishedAt_concat.2 (.inr ⟨rfl, h⟩)
  later m d j hm published := by
    have := published.lt_length
    simp only [List.length_append, List.length_singleton] at this
    omega

/-! ## 2. Along a run -/

/-- The lists that acts lead to follow from the history of publications. -/
structure Recorded (s : Session) (acts : List Act) : Prop where
  known : ∀ c k, (s.run acts).store.hasList c k = true → ∃ n r, s.PublishedAt acts n c k r
  stays : ∀ n c k r, s.PublishedAt acts n c k r →
    (s.run acts).store.hasList c k = true ∨ (s.run acts).store.caches.Past c
  last : ∀ c k, ∀ r ∈ (s.run acts).store.listOf c k, ∃ n, s.LastPublishedAt acts n c k r
  order : ∀ c k, ((s.run acts).store.listOf c k).Pairwise (s.PublishedLater acts c k)

theorem recorded_nil (empty : ∀ c, s.store.caches.get? c = none) : s.Recorded [] where
  known c k has := by simp [Store.hasList, Store.lists?, empty] at has
  stays n c k r published := absurd published.lt_length (Nat.not_lt_zero n)
  last c k r hr := by simp [Store.listOf, empty] at hr
  order c k := by simp [Store.listOf, empty]

/-- What is in a list is published already, so no act enlists it. -/
theorem Sound.not_enlists (h : s.Sound out) (hr : r ∈ s.store.listOf c k) (d : CacheId)
    (j : ImageKey) : ¬ s.Enlists act d j r := by
  intro enlists
  obtain ⟨y, hy, -, -, -, done⟩ := h.world.exists_listed (W := s.world out) hr
  simp [enlists.undone hy] at done

/-- What was in a list before the act that comes last was published last before that act. -/
theorem Recorded.last_concat (h : s.Recorded acts) (hr : r ∈ (s.run acts).store.listOf c k)
    (other : ∀ d j, ¬ (s.run acts).Enlists act d j r) :
    ∃ n < acts.length, s.LastPublishedAt (acts ++ [act]) n c k r := by
  obtain ⟨n, last⟩ := h.last c k r hr
  exact ⟨n, last.published.lt_length, last.concat other⟩

/-- An act after which a buffer is first in its list. -/
theorem Recorded.concat_of_headed {b : Handle} (h : s.Recorded acts)
    (sound : (s.run acts).Sound out) (enlists : (s.run acts).Enlists act b.cache b.image b.record)
    (headed : (s.run acts).store.Headed (s.run (acts ++ [act])).store b) :
    s.Recorded (acts ++ [act]) where
  known c k has := by
    rw [headed.known, Bool.or_eq_true, decide_eq_true_iff] at has
    rcases has with ⟨rfl, rfl⟩ | has
    · exact ⟨_, _, enlists.last.published⟩
    · obtain ⟨n, r, published⟩ := h.known c k has
      exact ⟨n, r, publishedAt_concat.2 (.inl published)⟩
  stays n c k r published := by
    rw [headed.known, Bool.or_eq_true, decide_eq_true_iff, run_concat]
    rcases publishedAt_concat.1 published with published | ⟨-, others⟩
    · rcases h.stays n c k r published with has | past
      · exact .inl (.inr has)
      · exact .inr (sound.step_past act past)
    · obtain ⟨hc, hk, -⟩ := others.unique enlists
      exact .inl (.inl ⟨hc, hk⟩)
  last c k r hr := by
    have old : r ∈ (s.run acts).store.listOf c k →
        ∃ n, s.LastPublishedAt (acts ++ [act]) n c k r := by
      intro hr
      obtain ⟨n, -, last⟩ := h.last_concat hr (sound.not_enlists hr)
      exact ⟨n, last⟩
    rw [headed.lists] at hr
    split at hr
    · next here =>
      obtain ⟨rfl, rfl⟩ := here
      rcases List.mem_cons.1 hr with rfl | hr
      · exact ⟨_, enlists.last⟩
      · exact old hr
    · exact old hr
  order c k := by
    have order : ((s.run acts).store.listOf c k).Pairwise
        (s.PublishedLater (acts ++ [act]) c k) :=
      (h.order c k).imp_of_mem fun hr hr' later =>
        later.concat (sound.not_enlists hr) (sound.not_enlists hr')
    rw [headed.lists]
    split
    · next here =>
      obtain ⟨rfl, rfl⟩ := here
      refine List.pairwise_cons.2 ⟨fun r hr => ?_, order⟩
      obtain ⟨n, below, last⟩ := h.last_concat hr (sound.not_enlists hr)
      exact ⟨_, n, below, enlists.last, last⟩
    · exact order

/-- An act that publishes nothing. -/
theorem Recorded.concat_of_thinned (h : s.Recorded acts) (sound : (s.run acts).Sound out)
    (silent : ∀ c k r, ¬ (s.run acts).Enlists act c k r)
    (thinned : (s.run acts).store.Thinned (s.run (acts ++ [act])).store) :
    s.Recorded (acts ++ [act]) where
  known c k has := by
    obtain ⟨n, r, published⟩ := h.known c k (thinned.known c k has)
    exact ⟨n, r, publishedAt_concat.2 (.inl published)⟩
  stays n c k r published := by
    rcases publishedAt_concat.1 published with published | ⟨-, enlists⟩
    · rcases h.stays n c k r published with has | past
      · exact thinned.stays c k has
      · rw [run_concat]
        exact .inr (sound.step_past act past)
    · exact absurd enlists (silent c k r)
  last c k r hr := by
    rw [thinned.lists] at hr
    obtain ⟨n, -, last⟩ := h.last_concat (List.mem_of_mem_filter hr) (silent · · r)
    exact ⟨n, last⟩
  order c k := by
    rw [thinned.lists]
    exact ((h.order c k).filter _).imp fun later => later.concat (silent · · _) (silent · · _)

theorem Sound.recorded (h : s.Sound out) (empty : ∀ c, s.store.caches.get? c = none)
    (acts : List Act) : s.Recorded acts := by
  induction acts using List.reverseRecOn with
  | nil => exact recorded_nil empty
  | append_singleton acts act ih =>
    have sound := h.run acts
    rcases sound.step_lists act with ⟨b, enlists, headed⟩ | ⟨silent, thinned⟩
    · exact ih.concat_of_headed sound enlists (by rwa [run_concat])
    · exact ih.concat_of_thinned sound silent (by rwa [run_concat])

end Session

/-! ## 3. Looking up -/

namespace World.Sound

variable {W : World} {c : CacheId} {k : ImageKey} {r : RecordId} {s : Cache}

/-- The members of a list are the buffers that its cache has published for the image. -/
theorem mem_listOf_iff (h : W.Sound) : r ∈ W.store.listOf c k ↔
    ∃ x, W.store.records.get? r = some x ∧ x.published = true ∧ x.publisher = some c ∧
      x.image = some k := by
  constructor
  · intro hr
    obtain ⟨x, hx, hc, origin, image, done⟩ := h.exists_listed hr
    exact ⟨x, hx, done, by simp [hc.publisher, done, origin], image⟩
  · intro ⟨x, hx, done, publisher, image⟩
    have hc := h.at_record hx
    have origin : c = x.origin := by simpa [done, publisher] using hc.publisher
    exact (hc.listed c k).2 ⟨origin, image, done⟩

/-- Looking up finds the first member that encloses the area and adds a reference to it, or there is
no such member and nothing happens. -/
theorem lookup_first (h : W.Sound) (hs : W.store.caches.get? c = some s) (i : Image)
    (area : Rect) :
    ((∀ r ∈ W.store.listOf c i.key, (W.store.areaOf r).encloses area = false) ∧
      W.store.lookup c i area = .ok (none, W.store)) ∨
    ∃ before r after x, W.store.listOf c i.key = before ++ r :: after ∧
      (∀ j ∈ before, (W.store.areaOf j).encloses area = false) ∧
      W.store.records.get? r = some x ∧ x.area.encloses area = true ∧
      W.store.lookup c i area = .ok (some ⟨r, c, i.key⟩,
        W.store.setRecord r { x with references := x.references + 1 }) := by
  rcases h.lookup_eq hs i area with ⟨miss, run⟩ | ⟨r, x, hit, hx, -, -, -, encloses, run⟩
  · left
    refine ⟨fun r hr => ?_, run⟩
    simpa using List.find?_eq_none.1 miss r hr
  · right
    obtain ⟨-, before, after, split, misses⟩ := List.find?_eq_some_iff_append.1 hit
    refine ⟨before, r, after, x, split, fun j hj => ?_, hx, encloses, run⟩
    simpa using misses j hj

end World.Sound

namespace Session

/-- After any acts a cache answers with a list for an image exactly if an act published a buffer in
it for that image which was not published at the time. The members of the list are the buffers that
the cache has published for the image, those first whose last publication is the latest; the answer
shows their areas. Looking up an area finds the first member that encloses it and adds a reference
to it, and does nothing else; it does nothing at all if no member does. To publish an unpublished
buffer through a handle on it, in its own cache, always makes it published, and nothing else does.
An act that does so for a buffer of the image in the cache puts it first; any other act keeps those
members that are still published, in their order. An act that is about no handle on a buffer of the
image and the cache changes neither members nor areas, and one that publishes a published buffer
again changes nothing at all. -/
theorem lists_follow_publications {w : Store} (initial : w.Initial) (acts : List Act) {s : Session}
    (now : s = (start w).run acts) {c : CacheId} {z : Cache}
    (alive : s.store.caches.get? c = some z) (k : ImageKey) :
    (∃ answer, listing s.store c k = .ok answer ∧
      (answer.isSome = true ↔ ∃ n r, (start w).PublishedAt acts n c k r) ∧
      ∀ l ∈ answer, l = ⟨k, c, (s.store.listOf c k).map s.store.areaOf⟩) ∧
    ((s.store.listOf c k).Nodup ∧
      (∀ r, r ∈ s.store.listOf c k ↔ ∃ x, s.store.records.get? r = some x ∧
        x.published = true ∧ x.publisher = some c ∧ x.image = some k) ∧
      (∀ r ∈ s.store.listOf c k, ∃ n, (start w).LastPublishedAt acts n c k r) ∧
      (s.store.listOf c k).Pairwise ((start w).PublishedLater acts c k)) ∧
    (∀ i area, i.key = k →
      ((∀ r ∈ s.store.listOf c k, (s.store.areaOf r).encloses area = false) ∧
        s.store.lookup c i area = .ok (none, s.store)) ∨
      ∃ before r after x, s.store.listOf c k = before ++ r :: after ∧
        (∀ j ∈ before, (s.store.areaOf j).encloses area = false) ∧
        s.store.records.get? r = some x ∧ x.area.encloses area = true ∧
        s.store.lookup c i area = .ok (some ⟨r, c, k⟩,
          s.store.setRecord r { x with references := x.references + 1 })) ∧
    ∀ act s', s' = (s.step act).2 → (s'.store.caches.get? c).isSome = true →
      (∀ r, s.Enlists act c k r ↔
        ∃ x, s.MakesPublished act r x ∧ x.publisher = some c ∧ x.image = some k) ∧
      ((∃ r, s.Enlists act c k r ∧ s'.store.listOf c k = r :: s.store.listOf c k) ∨
        (∀ r, ¬ s.Enlists act c k r) ∧
          s'.store.listOf c k = (s.store.listOf c k).filter s'.store.isPublished) ∧
      ((∀ b ∈ s.handles, b.cache = c → b.image = k → ¬ s.Concerns act b) →
        s'.store.listOf c k = s.store.listOf c k ∧
          listing s'.store c k = listing s.store c k) ∧
      ∀ b x, s.Publishes act b → s.store.records.get? b.record = some x → x.published = true →
        ∃ log, s'.store = s.store.withLog log := by
  subst now
  have sound := (sound_start initial).run acts
  have known : (((start w).run acts).store.caches.get? c).isSome = true := by simp [alive]
  have recorded := (sound_start initial).recorded initial.get?_caches acts
  refine ⟨⟨_, Store.listing_eq sound.calm known k, ?_, ?_⟩,
    ⟨sound.world.listOf_nodup c k, fun r => sound.world.mem_listOf_iff, recorded.last c k,
      recorded.order c k⟩, ?_, ?_⟩
  · have found : ((start w).run acts).store.hasList c k = true ↔
        ∃ n r, (start w).PublishedAt acts n c k r := by
      constructor
      · exact recorded.known c k
      · intro ⟨n, r, published⟩
        refine (recorded.stays n c k r published).resolve_right fun past => ?_
        simp [past.2] at known
    rw [← found]
    split <;> simp_all
  · intro l hl
    split at hl <;> simp_all
  · intro i area key
    subst key
    exact sound.world.lookup_first (W := ((start w).run acts).world _) alive i area
  · intro act s' next after
    subst next
    exact ⟨fun r => sound.enlists_iff, sound.step_listOf act c k,
      fun spared => sound.listing_spared known after spared,
      fun b x through hx done => sound.step_published_again through hx done⟩

/-- After the short run the cache has a list, since a buffer was published in it, and its only
member is found for a smaller area. -/
theorem lists_follow_publications_sample :
    (∃ n r, (start (.fresh none)).PublishedAt sampleActs n 1 (.explicit 1) r) ∧
      sample.store.listOf 1 (.explicit 1) = [0] ∧
      ∃ x, sample.store.records.get? 0 = some x ∧ x.published = true ∧
        x.publisher = some 1 ∧ x.image = some (.explicit 1) ∧
        sample.store.lookup 1 ⟨.explicit 1, 1⟩ ⟨0, 0, 1, 1⟩ = .ok (some ⟨0, 1, .explicit 1⟩,
          sample.store.setRecord 0 { x with references := x.references + 1 }) := by
  have members : sample.store.listOf 1 (.explicit 1) = [0] := rfl
  obtain ⟨⟨answer, listed, known, -⟩, ⟨-, published, -⟩, finds, -⟩ := lists_follow_publications
    (w := .fresh none) (.fresh none) sampleActs (s := sample) rfl (c := 1) rfl (.explicit 1)
  obtain rfl : some ⟨.explicit 1, 1, [⟨0, 0, 2, 2⟩]⟩ = answer := Except.ok.inj listed
  obtain ⟨x, hx, done, publisher, image⟩ := (published 0).1 (by rw [members]; decide)
  refine ⟨known.1 rfl, members, x, hx, done, publisher, image, ?_⟩
  rcases finds ⟨.explicit 1, 1⟩ ⟨0, 0, 1, 1⟩ rfl with
    ⟨none, -⟩ | ⟨before, r, after, y, split, -, hy, -, run⟩
  · exact absurd (none 0 (by rw [members]; decide)) (by decide)
  · obtain rfl : r = 0 := by
      have hr : r ∈ sample.store.listOf 1 (.explicit 1) := by simp [split]
      simpa [members] using hr
    obtain rfl := Option.some.inj (hx.symm.trans hy)
    exact run

end Session

end PixelPool
