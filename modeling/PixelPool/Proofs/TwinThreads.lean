import PixelPool.Proofs.TwinOwners

/-!
Threads on two stores that are twins.

A thread has the same binding on both sides. A cache that it makes has the cap that is shared at the
time, which may be another one on either side.
-/

namespace PixelPool

variable {heap : Heap} {f : RecordId → RecordId} {c : CacheId} {i : Image} {area : Rect}
  {b : Handle} {w v u : Store} {H : Multiset Handle} {O : Multiset CacheId}

/-! ## 1. Threads -/

theorem Store.records_createShared (w : Store) (thread : ThreadId) :
    (w.createShared thread).2.records = w.records := by
  have config : w.sharedConfig.2.records = w.records := by
    unfold sharedConfig
    split
    · rfl
    · split <;> rfl
  have allocator : ∀ v : Store, v.sharedAllocator.2.records = v.records := by
    intro v
    unfold sharedAllocator
    split <;> rfl
  exact (allocator _).trans config

theorem Thread.records_current (t : Thread) (w : Store) : (t.current w).2.records = w.records := by
  unfold Thread.current
  cases t.binding with
  | bound => rfl
  | unbound => exact w.records_createShared t.id
  | destroyed => exact (w.emit .detachedCache).records_createShared t.id

namespace Store.Twins

theorem current {t : Thread} (T : Twins heap f H (t.binding.owned + O) w v) :
    (t.current v).1 = (t.current w).1 ∧
      Twins heap f H ((t.current w).1.1 ::ₘ ((t.current w).1.2.binding.owned + O)) (t.current w).2
        (t.current v).2 := by
  unfold Thread.current
  cases binding : t.binding with
  | bound c =>
    rw [binding] at T
    have T' := T.addOwner (c := c) (by simp)
    simpa [binding] using T'
  | unbound =>
    rw [binding, Binding.owned_unbound, zero_add] at T
    obtain ⟨same, T'⟩ := T.createShared t.id
    have T'' := T'.addOwner (Multiset.mem_cons_self ..)
    simpa [same] using T''
  | destroyed =>
    rw [binding, Binding.owned_destroyed, zero_add] at T
    obtain ⟨same, T'⟩ := (T.emit .detachedCache .detachedCache).createShared t.id
    simpa [same, binding] using T'

theorem bind {t : Thread} (T : Twins heap f H (c ::ₘ (t.binding.owned + O)) w v) :
    ∃ r w' v', t.bind w c = .ok (r, w') ∧ t.bind v c = .ok (r, v') ∧
      Twins heap f H (World.returned r.1 + (r.2.binding.owned + O)) w' v' := by
  unfold Thread.bind
  cases binding : t.binding with
  | unbound => exact ⟨_, _, _, rfl, rfl, by simpa [World.returned, binding] using T⟩
  | bound previous => exact ⟨_, _, _, rfl, rfl, by simpa [World.returned, binding] using T⟩
  | destroyed =>
    obtain ⟨w', v', run, run', T'⟩ := T.dropOwner
    refine ⟨_, w', v', by rw [run]; rfl, by rw [run']; rfl, by simpa [World.returned] using T'⟩

theorem unbind {t : Thread} (T : Twins heap f H (t.binding.owned + O) w v) :
    ∃ r w' v', t.unbind w = .ok (r, w') ∧ t.unbind v = .ok (r, v') ∧
      Twins heap f H (r.2.binding.owned + O) w' v' := by
  unfold Thread.unbind
  cases binding : t.binding with
  | bound c =>
    rw [binding, Binding.owned_bound, Multiset.singleton_add] at T
    obtain ⟨w', v', run, run', T'⟩ := T.dropOwner
    refine ⟨(true, { t with binding := .unbound }), w', v', ?_, ?_, by simpa using T'⟩
    · simp only [run, Fault.ok_bind, Fault.pure_eq]
    · simp only [run', Fault.ok_bind, Fault.pure_eq]
  | unbound => exact ⟨_, _, _, rfl, rfl, T⟩
  | destroyed => exact ⟨_, _, _, rfl, rfl, T⟩

theorem destroyBinding {t : Thread} (T : Twins heap f H (t.binding.owned + O) w v) :
    ∃ t' w' v', t.destroyBinding w = .ok (t', w') ∧ t.destroyBinding v = .ok (t', v') ∧
      t'.binding = .destroyed ∧ Twins heap f H O w' v' := by
  unfold Thread.destroyBinding
  cases binding : t.binding with
  | bound c =>
    rw [binding, Binding.owned_bound, Multiset.singleton_add] at T
    obtain ⟨w', v', run, run', T'⟩ := T.dropOwner
    refine ⟨{ t with binding := .destroyed }, w', v', ?_, ?_, rfl, T'⟩
    · simp only [run, Fault.ok_bind, Fault.pure_eq]
    · simp only [run', Fault.ok_bind, Fault.pure_eq]
  | unbound => exact ⟨_, _, _, rfl, rfl, rfl, by simpa [binding] using T⟩
  | destroyed => exact ⟨_, _, _, rfl, rfl, rfl, by simpa [binding] using T⟩

/-- An operation that gives a handle through a share in a cache, which leaves afterwards. -/
theorem Gives.dropOwner {a a' : Except Refusal Handle × Store} {w' v' : Store}
    (gives : Gives heap u f H (c ::ₘ O) a a') (run : a.2.dropOwner c = .ok w')
    (run' : a'.2.dropOwner c = .ok v') : Gives heap u f H O (a.1, w') (a'.1, v') := by
  intro due due'
  obtain ⟨f', kept, agree, same, T⟩ := gives due due'
  obtain ⟨w₁, v₁, left, right, T'⟩ := T.dropOwner
  obtain rfl := Except.ok.inj (left.symm.trans run)
  obtain rfl := Except.ok.inj (right.symm.trans run')
  exact ⟨f', kept, agree, same, T'⟩

theorem dropOwner_runs {W : World} (h : W.Sound) (held : W.shares = c ::ₘ O) :
    ∃ w', W.store.dropOwner c = .ok w' := by
  obtain ⟨w', -, run, -⟩ := World.dropOwner_does (P := fun _ => True) h World.any_quiet held
  exact ⟨w', run⟩

/-- A buffer from the cache of a thread. -/
theorem requestHere {t : Thread} (T : Twins heap f H (t.binding.owned + O) w v) (i : Image)
    (area : Rect) :
    ∃ o o' t' w' v', t.request w i area = .ok ((o, t'), w') ∧
      t.request v i area = .ok ((o', t'), v') ∧
      Gives heap w f H (t'.binding.owned + O) (asRefusal o, w') (asRefusal o', v') := by
  obtain ⟨same, T₀⟩ := T.current
  have owned := Multiset.mem_cons_self (t.current w).1.1 ((t.current w).1.2.binding.owned + O)
  obtain ⟨a, a', run, run', gives⟩ := T₀.request owned i area
  obtain ⟨_, left, rfl⟩ := T₀.left.leads run (World.request_does T₀.left.sound World.any_quiet
    owned (World.allowsTaking_any _ _))
  obtain ⟨_, right, rfl⟩ := T₀.right.leads run' (World.request_does T₀.right.sound World.any_quiet
    owned (World.allowsTaking_any _ _))
  obtain ⟨w', dropped⟩ := dropOwner_runs left.sound rfl
  obtain ⟨v', dropped'⟩ := dropOwner_runs right.sound rfl
  refine ⟨a.1, a'.1, (t.current w).1.2, w', v', ?_, ?_,
    (gives.dropOwner dropped dropped').of_engaged
      fun _ engaged => engaged.of_same (t.records_current w)⟩
  · simp only [Thread.request, run, Fault.ok_bind]
    rw [dropped]
    rfl
  · simp only [Thread.request, same, run', Fault.ok_bind]
    rw [dropped']
    rfl

/-- An exchange in the handle's own cache, or in that of the thread. -/
theorem exchangeHere {t : Thread} {old : Option Handle}
    (T : Twins heap f (old.toList + H) (t.binding.owned + O) w v) (i : Image) (area : Rect) :
    ∃ o o' t' w' v', t.exchange w old i area = .ok ((o, t'), w') ∧
      t.exchange v (old.map (Handle.rename f)) i area = .ok ((o', t'), v') ∧
      Gives heap w f H (t'.binding.owned + O) (o, w') (o', v') := by
  have filtered : (old.map (Handle.rename f)).filter (fun b => v.isAlive b.cache)
      = (old.filter fun b => w.isAlive b.cache).map (Handle.rename f) := by
    cases old with
    | none => rfl
    | some b =>
      cases alive : w.isAlive b.cache <;> simp [Option.filter, T.isAlive_eq, alive]
  unfold Thread.exchange
  rw [filtered]
  cases own : old.filter fun b => w.isAlive b.cache with
  | some b =>
    obtain ⟨rfl, alive⟩ := Option.filter_eq_some_iff.1 own
    obtain ⟨a, a', run, run', gives⟩ := T.exchange (T.left.sound.alive_iff.1 alive) i area
    refine ⟨a.1, a'.1, t, a.2, a'.2, ?_, ?_, gives⟩
    · simp only [run, Fault.ok_bind, Fault.pure_eq]
    · simp only [Option.map_some] at run' ⊢
      simp only [Handle.rename_cache, run', Fault.ok_bind, Fault.pure_eq]
  | none =>
    obtain ⟨w₁, v₁, gone, gone', T₁⟩ := T.dropHandle?
    obtain ⟨same, T₀⟩ := T₁.current
    have owned := Multiset.mem_cons_self (t.current w₁).1.1
      ((t.current w₁).1.2.binding.owned + O)
    obtain ⟨a, a', run, run', gives⟩ := T₀.exchangeNone owned i area
    obtain ⟨_, left, rfl, -⟩ := T₀.left.leads run (World.exchangeNone_does T₀.left.sound
      World.any_quiet owned (World.allowsTaking_any _ _))
    obtain ⟨_, right, rfl, -⟩ := T₀.right.leads run' (World.exchangeNone_does T₀.right.sound
      World.any_quiet owned (World.allowsTaking_any _ _))
    obtain ⟨w', dropped⟩ := dropOwner_runs left.sound rfl
    obtain ⟨v', dropped'⟩ := dropOwner_runs right.sound rfl
    -- The buffer that is given up is not kept anywhere, since its cache is gone.
    have engaged : ∀ r, w.Engaged r → w₁.Engaged r := by
      cases old with
      | none =>
        obtain rfl := Except.ok.inj gone
        exact fun _ => id
      | some b =>
        obtain ⟨x, hx, -⟩ := T.left.sound.exists_record (b := b) (by simp)
        obtain ⟨w₂, parted, run⟩ := T.left.sound.dropHandle_eq (b := b) (by simp) hx
        obtain rfl := Except.ok.inj (run.symm.trans gone)
        have dead : w.isAlive b.cache = false := by simpa [Option.filter] using own
        exact fun r => parted.engaged hx (.inr (by simpa [Store.isAlive] using dead))
    refine ⟨a.1, a'.1, (t.current w₁).1.2, w', v', ?_, ?_,
      (gives.dropOwner dropped dropped').of_engaged fun r hr =>
        (engaged r hr).of_same (t.records_current w₁)⟩
    · simp only [gone, run, Fault.ok_bind]
      rw [dropped]
      rfl
    · simp only [Option.map_none, gone', same, run', Fault.ok_bind]
      rw [dropped']
      rfl

/-! ## 2. Publishing without naming a cache -/

theorem publishOwn (T : Twins heap f H O w v) (held : b ∈ H) :
    ∃ a a', w.publishOwn b = .ok a ∧ v.publishOwn (b.rename f) = .ok a' ∧
      Settles heap f H O a a' := by
  unfold Store.publishOwn
  rw [Handle.rename_cache, T.isAlive_eq]
  cases alive : w.isAlive b.cache with
  | true => exact T.publish held (T.left.sound.alive_iff.1 alive)
  | false => exact ⟨_, _, rfl, rfl, .of_twins (T.emit _ _) _⟩

theorem unpublishOwn (T : Twins heap f H O w v) (held : b ∈ H) :
    ∃ a a', w.unpublishOwn b = .ok a ∧ v.unpublishOwn (b.rename f) = .ok a' ∧
      Settles heap f H O a a' := by
  unfold Store.unpublishOwn
  rw [Handle.rename_cache, T.isAlive_eq]
  cases w.isAlive b.cache with
  | true => exact T.unpublish held b.cache
  | false => exact ⟨_, _, rfl, rfl, .of_twins (T.emit _ _) _⟩

end Store.Twins

end PixelPool
