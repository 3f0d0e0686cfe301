import PixelPool.Proofs.Sessions

/-!
Every act of a session ends without a fault, makes only moves that it may make, and leaves the
session sound.

There is one lemma for each act or family of acts; `Session.perform_does` puts them together, and
`Session.Sound.step` and `Session.Sound.run` draw the consequences for single acts and for runs.
-/

namespace PixelPool.Session

variable {s : Session} {out : Multiset Loan}

/-! ## 1. Answers of operations -/

theorem doneOrRefused_ne_handle (outcome : Except Refusal Unit) (v : HandleView) :
    doneOrRefused outcome ≠ .handle v := by
  cases outcome <;> simp [doneOrRefused]

theorem eq_error_of_doneOrRefused {outcome : Except Refusal Unit} {e : Refusal}
    (h : doneOrRefused outcome = .refused e) : outcome = .error e := by
  cases outcome with
  | ok => cases h
  | error => cases h; rfl

theorem installed_ne_violation (outcome : Except ConfigError Unit) (v : Violation) :
    installed outcome ≠ .refused (.violation v) := by
  cases outcome <;> simp [installed]

theorem installed_ne_handle (outcome : Except ConfigError Unit) (v : HandleView) :
    installed outcome ≠ .handle v := by
  cases outcome <;> simp [installed]

/-- The store of a sound session, for the handles and shares that have names. -/
theorem Sound.calm (h : s.Sound out) : s.store.inside = [] := h.world.calm

theorem Sound.exists_record {b : Handle} (h : s.Sound out) (held : b ∈ s.handles) :
    ∃ x, s.store.records.get? b.record = some x := by
  obtain ⟨x, hx, -⟩ := h.world.exists_record (W := s.world out) held
  exact ⟨x, hx⟩

theorem Sound.exists_cache {c : CacheId} (h : s.Sound out) (owned : c ∈ s.shares) :
    ∃ x, s.store.caches.get? c = some x := by
  obtain ⟨x, hx, -⟩ := h.world.exists_cache (W := s.world out) owned
  exact ⟨x, hx⟩

theorem publishes_of_acquires {act : Act} (acquires : act.acquires = true) :
    act.publishes = false := by
  cases act <;> simp [Act.acquires, Act.publishes] at acquires ⊢

/-- What can be taken into use was idle before, if it was there at all. -/
theorem allowsTaking {act : Act} (h : s.Sound out) (acquires : act.acquires = true) (c : CacheId) :
    s.store.AllowsTaking c (s.Makes act) := by
  refine ⟨fun r available => ?_, fun f counts => ?_⟩
  · have takes : s.Takes act r := by
      refine ⟨acquires, fun x hx => ?_⟩
      rcases available with hr | rfl
      · obtain ⟨y, hy, -, -, image, -⟩ := h.world.idle_of_shelved (W := s.world out) hr
        obtain rfl := Option.some.inj (hx.symm.trans hy)
        exact image
      · simp at hx
    refine ⟨?_, .inr takes, trivial⟩
    rintro b rfl
    exact ⟨takes, trivial⟩
  · exact ⟨publishes_of_acquires acquires, acquires, counts⟩

/-! ## 2. Looking -/

theorem exists_bind {α β : Type} {program : Except Fault α} {f : α → Except Fault β}
    (first : ∃ a, program = .ok a) (rest : ∀ a, ∃ b, f a = .ok b) :
    ∃ b, (program >>= f) = .ok b := by
  obtain ⟨a, rfl⟩ := first
  exact rest a

theorem mapM_ok {α β : Type} {f : α → Except Fault β} {as : List α}
    (each : ∀ a ∈ as, ∃ b, f a = .ok b) : ∃ bs, as.mapM f = .ok bs := by
  induction as with
  | nil => exact ⟨[], rfl⟩
  | cons a as ih =>
    obtain ⟨b, hb⟩ := each a List.mem_cons_self
    obtain ⟨bs, hbs⟩ := ih fun a ha => each a (List.mem_cons_of_mem _ ha)
    exact ⟨b :: bs, by simp [List.mapM_cons, hb, hbs]⟩

theorem describe_does (h : s.Sound out) (subject : Subject) :
    (s.world out).Does (s.Makes (.describe subject)) (s.describe subject)
      (s.After (.describe subject) out) := by
  cases subject with
  | buffer name =>
    apply withHandle_does h
    intro b hb held
    obtain ⟨x, hx⟩ := h.exists_record held
    simp only [describeHandle, Store.record_of_get? hx, Fault.ok_bind]
    exact .still rfl (.of_idle h rfl (by simp) (by simp))
  | cache name =>
    apply withCache_does h
    intro c hc owned
    obtain ⟨x, hx⟩ := h.exists_cache owned
    obtain ⟨slots, hslots⟩ : ∃ slots, x.reserve.slots.reverse.mapM (fun r =>
        (s.store.record r).map Record.describe) = .ok slots := by
      apply mapM_ok
      intro r hr
      obtain ⟨y, hy, -⟩ := h.world.known_slots (W := s.world out) hx r (List.mem_reverse.1 hr)
      have hy : s.store.records.get? r = some y := hy
      exact ⟨y.describe, by rw [Store.record_of_get? hy]; rfl⟩
    simp only [describeCache, Store.cacheAt_of_get? h.calm hx, Fault.ok_bind, hslots]
    exact .still rfl (.of_idle h rfl (by simp) (by simp))
  | image name =>
    exact withImage_does h fun i _ => .still rfl (.of_idle h rfl (by simp) (by simp))

theorem inspect_does (h : s.Sound out) (cache : String) :
    (s.world out).Does (s.Makes (.inspect cache)) (s.perform (.inspect cache))
      (s.After (.inspect cache) out) := by
  apply withCache_does h
  intro c hc owned
  obtain ⟨x, hx⟩ := h.exists_cache owned
  rw [Store.cacheAt_of_get? h.calm hx]
  exact .still rfl (.of_idle h rfl (by simp) (by simp))

theorem list_does (h : s.Sound out) (cache image : String) :
    (s.world out).Does (s.Makes (.list cache image)) (s.perform (.list cache image))
      (s.After (.list cache image) out) := by
  apply withCache_does h
  intro c hc owned
  apply withImage_does h
  intro i _
  obtain ⟨x, hx⟩ := h.exists_cache owned
  simp only [listing, Store.cacheAt_of_get? h.calm hx, Fault.ok_bind, Fault.pure_eq]
  cases x.lists.find? i.key with
  | none => exact .still rfl (.of_idle h rfl (by simp) (by simp))
  | some members => exact .still rfl (.of_idle h rfl (by simp) (by simp))

theorem readPixels_does (h : s.Sound out) (buffer : String) :
    (s.world out).Does (s.Makes (.readPixels buffer)) (s.perform (.readPixels buffer))
      (s.After (.readPixels buffer) out) := by
  apply withHandle_does h
  intro b hb held
  obtain ⟨x, hx⟩ := h.exists_record held
  rw [Store.record_of_get? hx, Fault.ok_bind]
  cases x.pixels with
  | none => exact .still rfl (.of_idle h rfl (by simp) (by simp))
  | some content => exact .still rfl (.of_idle h rfl (by simp) (by simp))

theorem sameRecord_does (h : s.Sound out) (buffer other : String) :
    (s.world out).Does (s.Makes (.sameRecord buffer other))
      (s.perform (.sameRecord buffer other)) (s.After (.sameRecord buffer other) out) :=
  withHandle_does h fun _ _ _ => withHandle_does h fun _ _ _ =>
    .still rfl (.of_idle h rfl (by simp) (by simp))

theorem environmentConfig_does (h : s.Sound out) :
    (s.world out).Does (s.Makes .environmentConfig) (s.perform .environmentConfig)
      (s.After .environmentConfig out) := by
  simp only [perform]
  cases s.store.environmentConfig with
  | ok config => exact .still rfl (.of_idle h rfl (by simp) (by simp))
  | error e => exact .still rfl (.of_idle h rfl (by simp) (by simp))

theorem incomplete_does (h : s.Sound out) (names : List (Kind × String)) (field : String) :
    (s.world out).Does (s.Makes (.incomplete names field)) (s.perform (.incomplete names field))
      (s.After (.incomplete names field) out) := by
  simp only [perform]
  split
  · exact .still rfl (.of_idle h rfl (by simp) (by simp))
  · exact .still rfl (.of_idle h rfl (by simp) (by simp))

/-! ## 3. Allocators and blocks -/

theorem newAllocator_does (h : s.Sound out) (name : String) (limit : Option Nat) :
    (s.world out).Does (s.Makes (.newAllocator name limit)) (s.perform (.newAllocator name limit))
      (s.After (.newAllocator name limit) out) := by
  have made : (s.world out).Reaches (s.Makes (.newAllocator name limit))
      { s.world out with store := (s.store.createAllocator limit).2 } :=
    .single (s.makes_quiet _ rfl (.addAllocator s.store.allocators.next) trivial)
      (.addAllocator (W := s.world out))
  refine .done rfl made ?_
  exact
    { world := rfl
      known := fun j a ha => by
        have ha := (Names.get?_put ..).symm.trans ha
        split at ha
        · obtain rfl := Option.some.inj ha
          exact .inr (by simp [Table.get?_add])
        · exact .inl ha
      blocks := h.blocks
      broken := by simp
      shown := by simp }

/-- The block that an allocator gave, if it gave one. -/
def lent (a : AllocatorId) : Except StorageError Block → Multiset Loan
  | .ok b => {⟨a, b⟩}
  | .error _ => 0

/-- A request to an allocator is granted or refused. -/
theorem allocate_cases {P : Move → Prop} {W : World} {a : AllocatorId}
    (known : (W.store.allocators.get? a).isSome = true) (size : Nat)
    (lends : ∀ b, P (.lend ⟨a, b⟩)) (refuses : P (.refuse a)) :
    ∃ source outcome after, W.store.allocator a = .ok source ∧
      source.allocate W.store.host.heap size = (outcome, after) ∧
      W.Reaches P { W with
        store := W.store.setAllocator a after
        loans := lent a outcome + W.loans } := by
  obtain ⟨source, hs⟩ := Option.isSome_iff_exists.1 known
  cases granted : source.allocate W.store.host.heap size with
  | mk outcome after =>
    refine ⟨source, outcome, after, Store.allocator_of_get? hs, granted, ?_⟩
    cases outcome with
    | ok b => exact .single (lends b) (.lend hs granted)
    | error e =>
      rw [lent, zero_add]
      exact .single refuses (.refuse hs granted)

theorem blocks_put (s : Session) (name : String) (loan : Loan) :
    (s.withBlocks (s.frame.blocks.put name loan)).blocks ≤ loan ::ₘ s.blocks := by
  simp only [blocks, withBlocks, Frame.blocksHeld, Names.values_put, Multiset.cons_add]
  rw [Names.values_erase s.frame.blocks name, add_assoc]
  exact Multiset.cons_le_cons _ (Multiset.le_add_left ..)

theorem blocks_erase {name : String} {loan : Loan} (found : s.frame.blocks.get? name = some loan) :
    s.blocks = loan ::ₘ (s.withBlocks (s.frame.blocks.erase name)).blocks := by
  simp only [blocks, withBlocks, Frame.blocksHeld, Names.values_erase s.frame.blocks name, found,
    add_assoc]
  rfl

theorem allocateBlock_does (h : s.Sound out) (allocator : String) (size : Nat) (name : String) :
    (s.world out).Does (s.Makes (.allocateBlock allocator size name))
      (s.perform (.allocateBlock allocator size name))
      (s.After (.allocateBlock allocator size name) out) := by
  apply withAllocator_does h
  intro a ha
  obtain ⟨source, outcome, after, hs, granted, moves⟩ := allocate_cases
    (P := s.Makes (.allocateBlock allocator size name)) (W := s.world out) (h.known _ a ha) size
    (fun _ => ⟨rfl, rfl⟩) (s.makes_quiet _ rfl _ trivial)
  have hs : s.store.allocator a = .ok source := hs
  have granted : source.allocate s.store.host.heap size = (outcome, after) := granted
  simp only [Session.allocateBlock, hs, Fault.ok_bind, granted, Fault.pure_eq]
  cases outcome with
  | error e =>
    exact .done rfl moves (.of_kept h rfl (by simp [lent, world, withStore, handles, shares]) rfl
      rfl (by simp) (by simp))
  | ok b =>
    have paid : s.ledger (.allocateBlock allocator size name) (.block b) out = ⟨a, b⟩ ::ₘ out := by
      simp [ledger, ha]
    refine .done rfl moves ⟨?_, fun j i hi => .inl hi, ?_, by simp, by simp⟩
    · rw [paid]
      rfl
    · rw [paid]
      exact (blocks_put (s.withStore _) name ⟨a, b⟩).trans (Multiset.cons_le_cons _ h.blocks)

theorem truncate_of_le {b : Block} {n : Nat} (h : b.size ≤ n) : b.truncate n = b := by
  cases b
  simp only [Block.size] at h
  simp [Block.truncate, h]

theorem freeBlock_does (h : s.Sound out) (allocator block : String) (truncate : Option Nat) :
    (s.world out).Does (s.Makes (.freeBlock allocator block truncate))
      (s.perform (.freeBlock allocator block truncate))
      (s.After (.freeBlock allocator block truncate) out) := by
  apply withAllocator_does h
  intro a ha
  apply withBlock_does h
  intro loan hl
  obtain ⟨source, hs⟩ := Option.isSome_iff_exists.1 (h.known _ a ha)
  have held := blocks_erase hl
  have paid : s.ledger (.freeBlock allocator block truncate) .done out = out.erase loan := by
    simp [ledger, hl]
  have still : ∀ w, s.After (.freeBlock allocator block truncate) out
      (.done, (s.withBlocks (s.frame.blocks.erase block)).withStore w)
      { s.world out with store := w, loans := out.erase loan } := by
    refine fun w => ⟨?_, fun j i hi => .inl hi, ?_, by simp, by simp⟩
    · rw [paid]
      rfl
    · rw [paid]
      have := Multiset.erase_le_erase loan h.blocks
      rwa [held, Multiset.erase_cons_head] at this
  simp only [Store.giveBack, Store.allocator_of_get? hs, Fault.ok_bind, Fault.pure_eq]
  by_cases wrong : loan.source ≠ a ∨ ∃ n, truncate = some n ∧ n < loan.block.size
  · exact .done rfl (.single (m := .misfree a) ⟨.freeBlock ha hl wrong, trivial⟩
      (.misfree (L := out.erase loan) hs)) (still _)
  · obtain ⟨own, whole⟩ := not_or.1 wrong
    obtain rfl := not_not.1 own
    have out_eq : out = loan ::ₘ out.erase loan := by
      refine (Multiset.cons_erase (Multiset.mem_of_le h.blocks ?_)).symm
      simp [held]
    have repaid : (s.world out).Reaches (s.Makes (.freeBlock allocator block truncate)) _ :=
      .single (s.makes_quiet _ rfl (.repay loan) trivial) (.repay out_eq hs)
    cases truncate with
    | none => exact .done rfl repaid (still _)
    | some n =>
      have same := truncate_of_le (Nat.le_of_not_lt fun hn => whole ⟨n, rfl, hn⟩)
      dsimp only
      rw [same]
      exact .done rfl repaid (still _)

theorem allocateShared_does (h : s.Sound out) (size : Nat) :
    (s.world out).Does (s.Makes (.allocateShared size)) (s.perform (.allocateShared size))
      (s.After (.allocateShared size) out) := by
  have quiet := s.makes_quiet (.allocateShared size) rfl
  obtain ⟨fixed, known⟩ := World.sharedAllocator_reaches h.world quiet
  simp only [perform]
  change (s.world out).Reaches _ { s.world out with store := s.store.sharedAllocator.2 } at fixed
  change (s.store.sharedAllocator.2.allocators.get? s.store.sharedAllocator.1).isSome = true
    at known
  generalize s.store.sharedAllocator = shared at fixed known ⊢
  obtain ⟨a, w⟩ := shared
  obtain ⟨source, outcome, after, hs, granted, moves⟩ := allocate_cases
    (P := s.Makes (.allocateShared size)) (W := { s.world out with store := w }) known size
    (fun _ => ⟨rfl, rfl⟩) (s.makes_quiet _ rfl _ trivial)
  have hs : w.allocator a = .ok source := hs
  simp only [Session.allocateBlock, withStore, hs, Fault.ok_bind, granted, Fault.pure_eq]
  refine .after fixed ?_
  cases outcome with
  | error e =>
    exact .done rfl moves (.of_kept h rfl (by simp [lent, world, handles, shares]) rfl rfl (by simp)
      (by simp))
  | ok b =>
    have known : ((w.setAllocator a after).allocators.get? a).isSome = true := by simpa using known
    obtain ⟨source, hs⟩ := Option.isSome_iff_exists.1 known
    simp only [Store.giveBack, Store.allocator_of_get? hs, Fault.ok_bind, Fault.pure_eq]
    refine .done rfl (moves.tail (quiet (.repay ⟨a, b⟩) trivial) (.repay (L := out) rfl hs))
      (.of_kept h rfl rfl rfl rfl (by simp) (by simp))

/-! ## 4. Settings, images and threads -/

theorem newImage_does (h : s.Sound out) (name : String) (bytesPerPixel : Nat) (key : Option Nat) :
    (s.world out).Does (s.Makes (.newImage name bytesPerPixel key))
      (s.perform (.newImage name bytesPerPixel key))
      (s.After (.newImage name bytesPerPixel key) out) := by
  cases key with
  | some raw =>
    exact .still rfl (.of_kept h rfl rfl rfl rfl (by simp [newImage]) (by simp [newImage]))
  | none =>
    exact .done rfl (.single (s.makes_quiet _ rfl .addKey trivial) .addKey)
      (.of_kept h rfl rfl rfl rfl (by simp [newImage]) (by simp [newImage]))

theorem install_does (h : s.Sound out) (cap : Nat) :
    (s.world out).Does (s.Makes (.install cap)) (s.perform (.install cap))
      (s.After (.install cap) out) := by
  have moves : (s.world out).Reaches (s.Makes (.install cap))
      { s.world out with store := (s.store.install ⟨cap⟩).2 } := by
    unfold Store.install
    cases s.store.settings.config with
    | some config => exact .refl
    | none => exact World.fixConfig_reaches h.world (s.makes_quiet (.install cap) rfl) _
  exact .done rfl moves (.of_kept h rfl rfl rfl rfl
    (fun v hv => absurd hv (installed_ne_violation _ v)) fun v hv =>
      absurd hv (installed_ne_handle _ v))

theorem installAllocator_does (h : s.Sound out) (allocator : String) :
    (s.world out).Does (s.Makes (.installAllocator allocator))
      (s.perform (.installAllocator allocator)) (s.After (.installAllocator allocator) out) := by
  apply withAllocator_does h
  intro a ha
  have moves : (s.world out).Reaches (s.Makes (.installAllocator allocator))
      { s.world out with store := (s.store.installAllocator a).2 } := by
    unfold Store.installAllocator
    cases s.store.settings.allocator with
    | some old => exact .refl
    | none =>
      refine .single (s.makes_quiet _ rfl .settle trivial) (.settle fun d hd => ?_)
      obtain rfl := Option.some.inj hd
      exact h.known _ a ha
  exact .done rfl moves (.of_kept h rfl rfl rfl rfl
    (fun v hv => absurd hv (installed_ne_violation _ v)) fun v hv =>
      absurd hv (installed_ne_handle _ v))

theorem sharedConfig_does (h : s.Sound out) :
    (s.world out).Does (s.Makes .sharedConfig) (s.perform .sharedConfig)
      (s.After .sharedConfig out) :=
  .done rfl (World.sharedConfig_reaches h.world (s.makes_quiet .sharedConfig rfl))
    (.of_kept h rfl rfl rfl rfl (by simp) (by simp))

theorem enterThread_does (h : s.Sound out) :
    (s.world out).Does (s.Makes .enterThread) (s.perform .enterThread)
      (s.After .enterThread out) := by
  refine .still rfl (.of_kept h rfl ?_ rfl ?_ (by simp) (by simp))
  · simp [world, handles, shares]
  · simp [blocks]

theorem leaveThread_does (h : s.Sound out) :
    (s.world out).Does (s.Makes .leaveThread) (s.perform .leaveThread)
      (s.After .leaveThread out) := by
  refine .bind h.world (closeFrame_does h.world (s.makes_quiet .leaveThread rfl)) ?_
  rintro s' V hV ⟨rfl, allocators, waiting, unheld, unowned, forgotten⟩
  have fewer : s'.blocks ≤ out := by
    have := h.blocks
    rw [blocks] at this ⊢
    rw [forgotten, waiting, zero_add]
    exact (Multiset.le_add_left ..).trans this
  have known : ∀ name i, s'.allocators.get? name = some i → s.allocators.get? name = some i ∨
      (s'.store.allocators.get? i).isSome = true := fun name i hi => .inl (allocators ▸ hi)
  cases rest : s'.waiting with
  | nil =>
    simp only
    exact .still rfl ⟨rfl, known, fewer, by simp, by simp⟩
  | cons frame frames =>
    simp only
    refine .still rfl ⟨?_, known, ?_, by simp, by simp⟩
    · simp [world, handles, shares, unheld, unowned, rest, ledger]
    · simpa [blocks, rest, forgotten, ledger] using fewer

theorem destroyBinding_does (h : s.Sound out) :
    (s.world out).Does (s.Makes .destroyBinding) (s.perform .destroyBinding)
      (s.After .destroyBinding out) := by
  refine .bind h.world (World.destroyBinding_does h.world
    (s.makes_quiet .destroyBinding rfl) _ s.shares_eq) ?_
  rintro ⟨thread, w⟩ V hV ⟨rfl, -⟩
  refine .still rfl (.of_kept h rfl ?_ rfl rfl (by simp) (by simp))
  rw [world]
  simp only
  rw [← shares_withThread]
  rfl

theorem unbind_does (h : s.Sound out) :
    (s.world out).Does (s.Makes .unbind) (s.perform .unbind) (s.After .unbind out) := by
  refine .bind h.world (World.unbind_does h.world (s.makes_quiet .unbind rfl) _ s.shares_eq) ?_
  rintro ⟨⟨was, thread⟩, w⟩ V hV rfl
  refine .still rfl (.of_kept h rfl ?_ rfl rfl (by simp) (by simp))
  rw [world]
  simp only
  rw [← shares_withThread]
  rfl

/-! ## 5. Caches -/

theorem newCache_does (h : s.Sound out) (name : String) (a : Option AllocatorId)
    (known : ∀ i, a = some i → (s.store.allocators.get? i).isSome = true) (cap : Option Nat)
    {act : Act} (silent : act.publishes = false)
    (same : ∀ answer, s.ledger act answer out = out) :
    (s.world out).Does (s.Makes act) (s.newCache name a cap) (s.After act out) := by
  have quiet := s.makes_quiet act silent
  have named : ∀ c w, (s.world out).Reaches (s.Makes act)
      { s.world out with store := w, shares := c ::ₘ s.shares } →
      (s.world out).Does (s.Makes act)
        ((s.withStore w).nameCache name c >>= fun s' => .ok (.number c, s')) (s.After act out) := by
    intro c w moves
    have sound := h.world.reaches moves
    refine .after moves (.bind sound (nameCache_does (s := s.withStore w) sound quiet name) ?_)
    rintro s' V hV ⟨rfl, allocators, blocks⟩
    exact .still rfl (.of_kept h (same _) rfl allocators blocks (by simp) (by simp))
  cases a with
  | some a => exact named _ _ (World.createCache_reaches quiet _ _ (known a rfl))
  | none => exact named _ _ (World.createWithConfig_reaches h.world quiet _ _)

theorem shareCache_does (h : s.Sound out) (cache name : String) :
    (s.world out).Does (s.Makes (.shareCache cache name)) (s.perform (.shareCache cache name))
      (s.After (.shareCache cache name) out) := by
  apply withCache_does h
  intro c hc owned
  have quiet := s.makes_quiet (.shareCache cache name) rfl
  have moves := World.addOwner_reaches (W := s.world out) h.world quiet owned
  have sound := h.world.reaches moves
  refine .after moves (.bind sound
    (nameCache_does (s := s.withStore (s.store.addOwner c)) sound quiet name) ?_)
  rintro s' V hV ⟨rfl, allocators, blocks⟩
  exact .still rfl (.of_kept h rfl rfl allocators blocks (by simp) (by simp))

theorem dropCache_does (h : s.Sound out) (cache : String) :
    (s.world out).Does (s.Makes (.dropCache cache)) (s.perform (.dropCache cache))
      (s.After (.dropCache cache) out) := by
  apply withCache_does h
  intro c hc _
  have held := s.shares_erase cache
  rw [hc] at held
  have quiet := s.makes_quiet (.dropCache cache) rfl
  refine .bind h.world (World.dropOwner_does h.world quiet held) ?_
  rintro w V hV rfl
  exact .still rfl (.of_kept h rfl rfl rfl rfl (by simp) (by simp))

theorem emptyReserve_does (h : s.Sound out) (cache : String) :
    (s.world out).Does (s.Makes (.emptyReserve cache)) (s.perform (.emptyReserve cache))
      (s.After (.emptyReserve cache) out) := by
  apply withCache_does h
  intro c hc owned
  refine .bind h.world (World.emptyReserve_does h.world ⟨rfl, cache, rfl, hc⟩
    owned) ?_
  rintro ⟨bytes, w⟩ V hV rfl
  exact .still rfl (.of_kept h rfl rfl rfl rfl (by simp) (by simp))

theorem current_does (h : s.Sound out) (name : Option String) :
    (s.world out).Does (s.Makes (.current name)) (s.perform (.current name))
      (s.After (.current name) out) := by
  have quiet := s.makes_quiet (.current name) rfl
  have moves := World.current_reaches (W := s.world out) h.world quiet s.frame.thread s.shares_eq
  have sound := h.world.reaches moves
  simp only [perform]
  change (s.world out).Reaches _ { s.world out with
    store := (s.frame.thread.current s.store).2
    shares := (s.frame.thread.current s.store).1.1 ::ₘ
      ((s.frame.thread.current s.store).1.2.binding.owned + s.looseShares) } at moves
  generalize s.frame.thread.current s.store = result at moves ⊢
  obtain ⟨⟨c, thread⟩, w⟩ := result
  have sound := h.world.reaches moves
  obtain ⟨x, hx, -⟩ := sound.exists_cache (c := c) (by simp)
  have view : cacheView w c = .ok ⟨c, x.reserve.slots.length, x.stats⟩ := by
    rw [cacheView, Store.cacheAt_of_get? sound.calm hx]
    rfl
  simp only [view, Fault.ok_bind]
  simp only [← s.shares_withThread thread] at moves sound
  refine .after moves (.bind sound
    (nameOrDropCache_does (s := (s.withThread thread).withStore w) sound quiet name) ?_)
  rintro s' V hV ⟨rfl, allocators, blocks⟩
  exact .still rfl (.of_kept h rfl rfl allocators blocks (by simp) (by simp))

theorem bind_does (h : s.Sound out) (cache : String) (name : Option String) :
    (s.world out).Does (s.Makes (.bind cache name)) (s.perform (.bind cache name))
      (s.After (.bind cache name) out) := by
  apply withCache_does h
  intro c hc owned
  have quiet := s.makes_quiet (.bind cache name) rfl
  have moves := World.addOwner_reaches (W := s.world out) h.world quiet owned
  have sound := h.world.reaches moves
  have held : c ::ₘ s.shares = c ::ₘ (s.frame.thread.binding.owned + s.looseShares) := by
    rw [← s.shares_eq]
  refine .after moves (.bind sound (World.bind_does sound quiet s.frame.thread held) ?_)
  rintro ⟨⟨outcome, thread⟩, w⟩ V hV ⟨rfl, rules⟩
  dsimp only at hV rules ⊢
  rw [← s.shares_withThread thread] at hV ⊢
  cases outcome with
  | error e =>
    refine .still rfl (.of_kept h rfl ?_ rfl rfl (fun v hv => ?_) (by simp))
    · rw [World.returned, zero_add]
      rfl
    · cases hv
      obtain ⟨rfl, destroyed⟩ := rules v rfl
      exact .bind destroyed
  | ok previous =>
    cases previous with
    | none =>
      refine .still rfl (.of_kept h rfl ?_ rfl rfl (by simp) (by simp))
      rw [World.returned, zero_add]
      rfl
    | some previous =>
      rw [World.returned, Multiset.singleton_add] at hV ⊢
      refine .bind hV
        (nameOrDropCache_does (s := (s.withThread thread).withStore w) hV quiet name) ?_
      rintro s' V hV ⟨rfl, allocators, blocks⟩
      exact .still rfl (.of_kept h rfl rfl allocators blocks (by simp) (by simp))

/-! ## 6. Buffers -/

theorem acquire_does (h : s.Sound out) (cache image : String) (area : Rect) (name : String) :
    (s.world out).Does (s.Makes (.acquire cache image area name))
      (s.perform (.acquire cache image area name))
      (s.After (.acquire cache image area name) out) := by
  apply withCache_does h
  intro c hc owned
  apply withImage_does h
  intro i hi
  have quiet := s.makes_quiet (.acquire cache image area name) rfl
  refine .bind h.world (World.acquire_does h.world quiet owned (allowsTaking h rfl c)) ?_
  rintro ⟨outcome, w⟩ V hV rfl
  exact nameAllocated_does (s := s.withStore w) hV quiet rfl rfl rfl h

theorem request_does (h : s.Sound out) (cache image : String) (area : Rect) (name : String) :
    (s.world out).Does (s.Makes (.request cache image area name))
      (s.perform (.request cache image area name))
      (s.After (.request cache image area name) out) := by
  apply withCache_does h
  intro c hc owned
  apply withImage_does h
  intro i hi
  have quiet := s.makes_quiet (.request cache image area name) rfl
  refine .bind h.world (World.request_does h.world quiet owned (allowsTaking h rfl c)) ?_
  rintro ⟨outcome, w⟩ V hV rfl
  exact nameAllocated_does (s := s.withStore w) hV quiet rfl rfl rfl h

theorem requestHere_does (h : s.Sound out) (image : String) (area : Rect) (name : String) :
    (s.world out).Does (s.Makes (.requestHere image area name))
      (s.perform (.requestHere image area name)) (s.After (.requestHere image area name) out) := by
  apply withImage_does h
  intro i hi
  have quiet := s.makes_quiet (.requestHere image area name) rfl
  refine .bind h.world (World.requestHere_does h.world quiet _ s.shares_eq (allowsTaking h rfl)) ?_
  rintro ⟨⟨outcome, thread⟩, w⟩ V hV rfl
  dsimp only at hV ⊢
  rw [← s.shares_withThread thread] at hV ⊢
  exact nameAllocated_does (s := (s.withThread thread).withStore w) hV quiet rfl rfl rfl h

theorem lookup_does (h : s.Sound out) (cache image : String) (area : Rect) (name : String) :
    (s.world out).Does (s.Makes (.lookup cache image area name))
      (s.perform (.lookup cache image area name))
      (s.After (.lookup cache image area name) out) := by
  apply withCache_does h
  intro c hc owned
  apply withImage_does h
  intro i hi
  have quiet := s.makes_quiet (.lookup cache image area name) rfl
  refine .bind h.world (World.lookup_does h.world quiet owned) ?_
  rintro ⟨found, w⟩ V hV (⟨hw, rfl⟩ | ⟨b, rfl, rfl⟩)
  · obtain ⟨rfl, rfl⟩ := Prod.mk.inj hw
    exact .still rfl (.of_kept h rfl rfl rfl rfl (by simp) (by simp))
  · exact nameOutcome_does (s := s.withStore w) hV quiet rfl rfl rfl h (by simp)

theorem copyHandle_does (h : s.Sound out) (buffer name : String) :
    (s.world out).Does (s.Makes (.copyHandle buffer name)) (s.perform (.copyHandle buffer name))
      (s.After (.copyHandle buffer name) out) := by
  apply withHandle_does h
  intro b hb held
  have quiet := s.makes_quiet (.copyHandle buffer name) rfl
  refine .bind h.world (World.copyHandle_does h.world quiet held) ?_
  rintro ⟨copy, w⟩ V hV ⟨rfl, rfl⟩
  exact nameOutcome_does (s := s.withStore w) hV quiet rfl rfl rfl h (by simp)

/-- The world of a session that forgot a name, whatever became of the handle. -/
theorem world_forget (s : Session) (name : Option String) (w : Store) (H : Multiset Handle) :
    ({ s.world out with store := w, handles := H } : World)
      = { ((s.forgetHandle? name).withStore w).world out with handles := H } := by
  cases name <;> rfl

theorem eq_some_of_handle? {name : Option String} {b : Handle} (h : s.handle? name = some b) :
    ∃ k, name = some k ∧ s.frame.handles.get? k = some b :=
  Option.bind_eq_some_iff.1 h

theorem exchange_does (h : s.Sound out) (cache image : String) (area : Rect)
    (buffer : Option String) (name : String) :
    (s.world out).Does (s.Makes (.exchange cache image area buffer name))
      (s.perform (.exchange cache image area buffer name))
      (s.After (.exchange cache image area buffer name) out) := by
  refine withCache_does h fun c hc owned => withImage_does h fun i hi => withHandle?_does h ?_
  have quiet := s.makes_quiet (.exchange cache image area buffer name) rfl
  refine .bind h.world (World.exchange_does h.world quiet owned (s.handles_forget buffer)
    (allowsTaking h rfl c) fun b hb x hx sole => ?_) ?_
  · obtain ⟨k, rfl, found⟩ := eq_some_of_handle? hb
    have moves : s.Moves (.exchange cache image area (some k) name) b.record :=
      .exchange found hx sole
    exact ⟨⟨.inr moves, trivial⟩, .inl moves, trivial⟩
  rintro ⟨outcome, w⟩ V hV ⟨rfl, rules⟩
  rw [world_forget s buffer] at hV ⊢
  refine nameOutcome_does hV quiet rfl ?_ ?_ h fun v hv => ?_
  · cases buffer <;> rfl
  · cases buffer <;> rfl
  · obtain ⟨b, hb, forbidden⟩ := rules v hv
    obtain ⟨k, rfl, found⟩ := eq_some_of_handle? hb
    exact .exchange hc hi found forbidden

theorem exchangeOwn_does (h : s.Sound out) (image : String) (area : Rect)
    (buffer : Option String) (name : String) :
    (s.world out).Does (s.Makes (.exchangeOwn image area buffer name))
      (s.perform (.exchangeOwn image area buffer name))
      (s.After (.exchangeOwn image area buffer name) out) := by
  refine withImage_does h fun i hi => withHandle?_does h ?_
  have quiet := s.makes_quiet (.exchangeOwn image area buffer name) rfl
  refine .bind h.world (World.exchangeHere_does h.world quiet s.frame.thread
    (s.handles_forget buffer) s.shares_eq (allowsTaking h rfl) fun b hb _ x hx sole => ?_) ?_
  · obtain ⟨k, rfl, found⟩ := eq_some_of_handle? hb
    have moves : s.Moves (.exchangeOwn image area (some k) name) b.record :=
      .exchangeOwn found hx sole
    exact ⟨⟨.inr moves, trivial⟩, .inl moves, trivial⟩
  rintro ⟨⟨outcome, thread⟩, w⟩ V hV ⟨rfl, rules⟩
  dsimp only at hV rules ⊢
  rw [← s.shares_withThread thread] at hV ⊢
  have same : ({ s.world out with
      store := w
      handles := World.given outcome + (s.forgetHandle? buffer).handles
      shares := (s.withThread thread).shares } : World)
      = { (((s.forgetHandle? buffer).withThread thread).withStore w).world out with
        handles := World.given outcome +
          (((s.forgetHandle? buffer).withThread thread).withStore w).handles } := by
    cases buffer <;> rfl
  rw [same] at hV ⊢
  refine nameOutcome_does hV quiet rfl ?_ ?_ h fun v hv => ?_
  · cases buffer <;> rfl
  · cases buffer <;> rfl
  · obtain ⟨b, hb, forbidden⟩ := rules v hv
    obtain ⟨k, rfl, found⟩ := eq_some_of_handle? hb
    exact .exchangeOwn hi found forbidden

/-- An operation on a buffer that is done or refused, and leaves all names alone. -/
theorem outcome_does {act : Act} {program : Except Fault (Except Refusal Unit × Store)}
    (h : s.Sound out) (same : ∀ answer, s.ledger act answer out = out)
    (does : (s.world out).Does (s.Makes act) program fun a V =>
      V = { s.world out with store := a.2 } ∧
        ∀ v, a.1 = .error (.violation v) → s.Breaks act v) :
    (s.world out).Does (s.Makes act)
      (program >>= fun a => .ok (doneOrRefused a.1, s.withStore a.2)) (s.After act out) := by
  refine .bind h.world does ?_
  rintro ⟨outcome, w⟩ V hV ⟨rfl, rules⟩
  exact .still rfl (.of_kept h (same _) rfl rfl rfl
    (fun v hv => rules v (eq_error_of_doneOrRefused hv))
    fun v hv => absurd hv (doneOrRefused_ne_handle _ v))

theorem publish_does (h : s.Sound out) (cache buffer : String) :
    (s.world out).Does (s.Makes (.publish cache buffer)) (s.perform (.publish cache buffer))
      (s.After (.publish cache buffer) out) := by
  apply withCache_does h
  intro c hc owned
  apply withHandle_does h
  intro b hb held
  refine outcome_does h (fun _ => rfl) (.weaken
    (World.publish_does h.world ⟨.publish hb, trivial⟩ held owned)
    (fun a V _ hV => ⟨hV.1, fun v hv => ?_⟩) h.world)
  obtain ⟨rfl, foreign⟩ := hV.2 v hv
  exact .publish hc hb foreign

theorem publishOwn_does (h : s.Sound out) (buffer : String) :
    (s.world out).Does (s.Makes (.publishOwn buffer)) (s.perform (.publishOwn buffer))
      (s.After (.publishOwn buffer) out) := by
  apply withHandle_does h
  intro b hb held
  exact outcome_does h (fun _ => rfl) (.weaken
    (World.publishOwn_does h.world ⟨.publishOwn hb, trivial⟩
      (fun _ aside => ⟨trivial, aside⟩) held)
    (fun a V _ hV => ⟨hV.1, fun v hv => absurd hv (hV.2 v)⟩) h.world)

theorem unpublish_does (h : s.Sound out) (cache buffer : String) :
    (s.world out).Does (s.Makes (.unpublish cache buffer)) (s.perform (.unpublish cache buffer))
      (s.After (.unpublish cache buffer) out) := by
  apply withCache_does h
  intro c hc owned
  apply withHandle_does h
  intro b hb held
  refine outcome_does h (fun _ => rfl) (.weaken
    (World.unpublish_does h.world ⟨.inl (.unpublish hb), trivial⟩ held)
    (fun a V _ hV => ⟨hV.1, fun v hv => ?_⟩) h.world)
  obtain ⟨rfl, foreign⟩ := hV.2 v hv
  exact .unpublish hc hb foreign

theorem unpublishOwn_does (h : s.Sound out) (buffer : String) :
    (s.world out).Does (s.Makes (.unpublishOwn buffer)) (s.perform (.unpublishOwn buffer))
      (s.After (.unpublishOwn buffer) out) := by
  apply withHandle_does h
  intro b hb held
  exact outcome_does h (fun _ => rfl) (.weaken
    (World.unpublishOwn_does h.world ⟨.inl (.unpublishOwn hb), trivial⟩
      (fun _ aside => ⟨trivial, aside⟩) held)
    (fun a V _ hV => ⟨hV.1, fun v hv => absurd hv (hV.2 v)⟩) h.world)

theorem resize_does (h : s.Sound out) (cache buffer : String) (area : Rect) (viewHeld : Bool) :
    (s.world out).Does (s.Makes (.resize cache buffer area viewHeld))
      (s.perform (.resize cache buffer area viewHeld))
      (s.After (.resize cache buffer area viewHeld) out) := by
  apply withCache_does h
  intro c hc owned
  apply withHandle_does h
  intro b hb held
  have quiet := s.makes_quiet (.resize cache buffer area viewHeld) rfl
  have allows : s.store.AllowsMoving b (s.Makes (.resize cache buffer area viewHeld)) := by
    intro x hx sole
    have moves : s.Moves (.resize cache buffer area viewHeld) b.record := .resize hb hx sole
    exact ⟨⟨.inr moves, trivial⟩, .inl moves, trivial⟩
  exact outcome_does h (fun _ => rfl) (.weaken
    (World.resize_does h.world quiet held allows viewHeld)
    (fun a V _ hV => ⟨hV.1, fun v hv => .resize hc hb (hV.2 v hv)⟩) h.world)

theorem release_does (h : s.Sound out) (cache buffer : String) :
    (s.world out).Does (s.Makes (.release cache buffer)) (s.perform (.release cache buffer))
      (s.After (.release cache buffer) out) := by
  apply withCache_does h
  intro c hc owned
  apply withHandle_does h
  intro b hb held
  have split := s.handles_erase buffer
  rw [hb, Option.toList_some, Multiset.coe_singleton, Multiset.singleton_add] at split
  refine .bind h.world
    (World.release_does h.world (s.makes_quiet (.release cache buffer) rfl) split) ?_
  rintro ⟨outcome, w⟩ V hV ⟨rfl, rules⟩
  refine .still rfl (.of_kept h rfl rfl rfl rfl (fun v hv => ?_)
    fun v hv => absurd hv (doneOrRefused_ne_handle _ v))
  obtain ⟨rfl, foreign⟩ := rules v (eq_error_of_doneOrRefused hv)
  exact .release hc hb foreign

theorem dropHandle_does (h : s.Sound out) (buffer : String) :
    (s.world out).Does (s.Makes (.dropHandle buffer)) (s.perform (.dropHandle buffer))
      (s.After (.dropHandle buffer) out) := by
  apply withHandle_does h
  intro b hb held
  have split := s.handles_erase buffer
  rw [hb, Option.toList_some, Multiset.coe_singleton, Multiset.singleton_add] at split
  refine .bind h.world
    (World.dropHandle_does h.world (s.makes_quiet (.dropHandle buffer) rfl) split) ?_
  rintro w V hV ⟨rfl, -⟩
  exact .still rfl (.of_kept h rfl rfl rfl rfl (by simp) (by simp))

theorem writePixels_does (h : s.Sound out) (buffer : String) (fill : Nat → UInt8) :
    (s.world out).Does (s.Makes (.writePixels buffer fill)) (s.perform (.writePixels buffer fill))
      (s.After (.writePixels buffer fill) out) := by
  apply withHandle_does h
  intro b hb held
  obtain ⟨x, hx⟩ := h.exists_record held
  rw [writePixels, Store.record_of_get? hx, Fault.ok_bind]
  cases written : x.write fill with
  | none => exact .still rfl (.of_idle h rfl (by simp) (by simp))
  | some result =>
    obtain ⟨n, y⟩ := result
    obtain ⟨sole, undone, -⟩ := Record.write_eq written
    exact .done rfl (.single (m := .write b.record) ⟨.writePixels hb hx sole undone, trivial⟩
      (.write held hx written)) (.of_kept h rfl rfl rfl rfl (by simp) (by simp))

/-! ## 7. All acts -/

/-- Every act ends without a fault, by moves that it may make. -/
theorem perform_does (h : s.Sound out) (act : Act) :
    (s.world out).Does (s.Makes act) (s.perform act) (s.After act out) := by
  cases act with
  | newAllocator name limit => exact newAllocator_does h name limit
  | newImage name bytesPerPixel key => exact newImage_does h name bytesPerPixel key
  | newCache name allocator cap =>
    cases allocator with
    | none => exact newCache_does h name none (by simp) cap rfl fun _ => rfl
    | some allocator =>
      apply withAllocator_does h
      intro a ha
      refine newCache_does h name (some a) (fun i hi => ?_) cap rfl fun _ => rfl
      obtain rfl := Option.some.inj hi
      exact h.known _ a ha
  | shareCache cache name => exact shareCache_does h cache name
  | dropCache cache => exact dropCache_does h cache
  | inspect cache => exact inspect_does h cache
  | acquire cache image area name => exact acquire_does h cache image area name
  | request cache image area name => exact request_does h cache image area name
  | lookup cache image area name => exact lookup_does h cache image area name
  | publish cache buffer => exact publish_does h cache buffer
  | unpublish cache buffer => exact unpublish_does h cache buffer
  | resize cache buffer area viewHeld => exact resize_does h cache buffer area viewHeld
  | release cache buffer => exact release_does h cache buffer
  | dropHandle buffer => exact dropHandle_does h buffer
  | copyHandle buffer name => exact copyHandle_does h buffer name
  | exchange cache image area buffer name => exact exchange_does h cache image area buffer name
  | emptyReserve cache => exact emptyReserve_does h cache
  | list cache image => exact list_does h cache image
  | sameRecord buffer other => exact sameRecord_does h buffer other
  | readPixels buffer => exact readPixels_does h buffer
  | writePixels buffer fill => exact writePixels_does h buffer fill
  | describe subject => exact describe_does h subject
  | allocateBlock allocator size name => exact allocateBlock_does h allocator size name
  | freeBlock allocator block truncate => exact freeBlock_does h allocator block truncate
  | requestHere image area name => exact requestHere_does h image area name
  | publishOwn buffer => exact publishOwn_does h buffer
  | unpublishOwn buffer => exact unpublishOwn_does h buffer
  | exchangeOwn image area buffer name => exact exchangeOwn_does h image area buffer name
  | current name => exact current_does h name
  | bind cache name => exact bind_does h cache name
  | unbind => exact unbind_does h
  | install cap => exact install_does h cap
  | sharedConfig => exact sharedConfig_does h
  | environmentConfig => exact environmentConfig_does h
  | installAllocator allocator => exact installAllocator_does h allocator
  | allocateShared size => exact allocateShared_does h size
  | destroyBinding => exact destroyBinding_does h
  | enterThread => exact enterThread_does h
  | leaveThread => exact leaveThread_does h
  | incomplete names field => exact incomplete_does h names field

end PixelPool.Session
