import PixelPool.Proofs.Contents
import PixelPool.Proofs.Tracking

/-!
Which image a buffer is bound to, with how many bytes a pixel.

A buffer keeps its binding until it goes out of use, and the bytes of a pixel even then, until it is
taken into use for another image (`Record.Bound`). Moves do not say how many bytes a pixel of the
image takes for which they take a buffer, so that `World.Binds` is a relation to be tracked through
whole requests (`World.binds_tracks`). Main statements: an act leaves every buffer bound as it was,
unless it takes the buffer for the image that it names (`Session.Sound.step_bound`), and so the
bytes a pixel of any buffer are those of the image for which it was acquired last
(`Session.Sound.exists_acquiredLast`).
-/

namespace PixelPool

/-- The record `y` is bound as the one before it, or no longer in use. -/
def Record.Stays (before : Option Record) (y : Record) : Prop :=
  ∃ x, before = some x ∧ y.bytesPerPixel = x.bytesPerPixel ∧ (y.image = x.image ∨ y.image = none)

/-- The record `y` is bound to the image, or no longer in use. -/
def Record.BoundTo (i : Image) (y : Record) : Prop :=
  y.bytesPerPixel = i.bytesPerPixel ∧ (y.image = some i.key ∨ y.image = none)

namespace Record

variable {before : Option Record} {x y z : Record} {i : Image}

theorem Stays.of_eq (h : before = some y) : Stays before y := ⟨y, h, rfl, .inl rfl⟩

theorem Stays.trans (h : Stays before y) (h' : Stays (some y) z) : Stays before z := by
  obtain ⟨x, hx, bytesPerPixel, image⟩ := h
  obtain ⟨_, ⟨⟩, bytesPerPixel', image'⟩ := h'
  refine ⟨x, hx, bytesPerPixel'.trans bytesPerPixel, ?_⟩
  rcases image' with image' | image'
  · exact image' ▸ image
  · exact .inr image'

theorem BoundTo.trans (h : BoundTo i y) (h' : Stays (some y) z) : BoundTo i z := by
  obtain ⟨bytesPerPixel, image⟩ := h
  obtain ⟨_, ⟨⟩, bytesPerPixel', image'⟩ := h'
  refine ⟨bytesPerPixel'.trans bytesPerPixel, ?_⟩
  rcases image' with image' | image'
  · exact image' ▸ image
  · exact .inr image'

end Record

/-- A move leaves a record bound as it was, unless it takes the record into use. -/
theorem Fate.stays {m : Move} {r : RecordId} {before : Option Record} {y : Record}
    (h : Fate m r before (some y)) (untaken : ∀ b, b.record = r → m ≠ .take b) :
    Record.Stays before y := by
  cases h with
  | taken | made => exact absurd rfl (untaken _ rfl)
  | retired kept =>
    rw [kept y rfl]
    exact ⟨_, rfl, rfl, .inr rfl⟩
  | parked => exact ⟨_, rfl, rfl, .inr rfl⟩
  | _ => exact ⟨_, rfl, rfl, .inl rfl⟩

/-! ## 1. Worlds -/

/-- A move that takes no buffer into use. -/
def Move.Untaking (m : Move) : Prop := ∀ b, m ≠ .take b

theorem Move.Quiet.untaking {m : Move} (h : m.Quiet) : m.Untaking := by
  rintro b rfl
  exact h

namespace World

variable {W V U : World} {i : Image} {c : CacheId}

/-- All records are bound as they were, or to the image. -/
def Binds (i : Image) (W V : World) : Prop :=
  ∀ r y, V.store.records.get? r = some y →
    Record.Stays (W.store.records.get? r) y ∨ Record.BoundTo i y

theorem Binds.refl (i : Image) (W : World) : W.Binds i W := fun _ _ hy => .inl (.of_eq hy)

theorem Binds.trans (h : W.Binds i V) (h' : V.Binds i U) : W.Binds i U := by
  intro r z hz
  rcases h' r z hz with stays | bound
  · obtain ⟨y, hy, -⟩ := id stays
    rw [hy] at stays
    exact (h r y hy).imp (·.trans stays) (·.trans stays)
  · exact .inr bound

/-- Changes of a world that spare its records. -/
theorem Binds.of_records (same : V.store.records = W.store.records) : W.Binds i V :=
  fun _ _ hy => .inl (.of_eq (same ▸ hy))

/-- A move that takes no buffer leaves all of them bound as they were. -/
theorem Step.binds {m : Move} (move : Step m W V) (sound : W.Sound) (untaking : m.Untaking)
    (i : Image) : W.Binds i V := by
  intro r y hy
  have fate := move.fate sound r
  rw [hy] at fate
  exact .inl (fate.stays fun b _ => untaking b)

/-- Moves that take no buffer leave all of them bound as they were. -/
theorem Reaches.binds (moves : W.Reaches Move.Untaking V) (sound : W.Sound) (i : Image) :
    W.Binds i V := by
  have kept := moves.keeps (I := fun V => V.Sound ∧ W.Binds i V)
    (fun m V V' untaking move ⟨sound, binds⟩ =>
      ⟨sound.step move, binds.trans (move.binds sound untaking i)⟩) ⟨sound, .refl i W⟩
  exact kept.2

/-! ## 2. Operations -/

/-- Acquiring a buffer binds it to the image. -/
theorem acquire_binds (h : W.Sound) (owned : c ∈ W.shares) (i : Image) (area : Rect) :
    W.Does (fun _ => True) (W.store.acquire c i area) fun a V =>
      V = { W with store := a.2, handles := given a.1 + W.handles } ∧ W.Binds i V := by
  obtain ⟨s, hs, -⟩ := h.exists_cache owned
  obtain ⟨r, x, v, outcome, u, taken, fits, run⟩ := h.acquire_eq hs i area
  obtain ⟨V, moves, rfl⟩ := (acquire_does h any_quiet owned (allowsTaking_any _ _)).reaches run
  refine ⟨_, _, run, moves, rfl, fun j y hy => ?_⟩
  have hu : ∃ z, u.records.get? j = some z ∧ y = z := by
    cases outcome with
    | ok => exact ⟨y, hy, rfl⟩
    | error e => exact ⟨y, (Option.ite_none_left_eq_some.1
        ((Store.get?_records_without ..).symm.trans hy)).2, rfl⟩
  obtain ⟨_, hu, rfl⟩ := hu
  by_cases hj : j = r
  · subst hj
    obtain ⟨area, storage, hz⟩ := fits_record fits taken.get?
    obtain rfl := Option.some.inj (hz.symm.trans hu)
    exact .inr ⟨taken.bound.2.1, .inl taken.bound.1⟩
  · exact .inl (.of_eq ((taken.get?_of_ne hj).symm.trans ((fits.get?_of_ne hj).symm.trans hu)))

/-- Requests for an image bind no buffer but to that image. -/
theorem binds_tracks (i : Image) : Tracks i (Binds i) where
  refl := .refl i
  trans := .trans
  move sound quiet move := move.binds sound quiet.untaking i
  hit _ _ := .of_records rfl
  moved _ _ := .of_records rfl
  missed {W c area a} h owned run := by
    obtain ⟨_, -, rfl, binds⟩ := (acquire_binds (h.count c .addMiss) owned i area).reaches run
    exact binds
  resized {W b area a} h held _ run := by
    obtain ⟨_, moves, rfl, -⟩ := (resize_does (P := Move.Untaking) h
      (fun _ => Move.Quiet.untaking) held (fun _ _ _ => by simp [Move.Untaking]) false).reaches run
    exact moves.binds h i

end World

namespace Session

variable {s : Session} {out : Multiset Loan} {act : Act} {i : Image} {r : RecordId} {x y : Record}

/-! ## 3. Acts -/

/-- The acts that ask for a buffer of an image bind none but to that image. -/
theorem Sound.asked_bound (h : s.Sound out) (acquires : act.acquires = true)
    (hy : (s.step act).2.store.records.get? r = some y) :
    s.store.records.get? r = some y ∨ ∃ i, s.asked act = some i ∧
      (Record.Stays (s.store.records.get? r) y ∨ Record.BoundTo i y) := by
  by_cases direct : ∃ cache image area name, act = .acquire cache image area name
  · obtain ⟨cache, image, area, name, rfl⟩ := direct
    rcases h.acquire_step cache image area name with ⟨-, idle⟩ | ⟨c, i, a, hc, hi, ha, sound, moves⟩
    · exact .inl (by rwa [idle] at hy)
    · obtain ⟨a', _, ha', -, rfl, binds⟩ := World.acquire_binds h.world (mem_shares hc) i area
      obtain rfl := Except.ok.inj (ha.symm.trans ha')
      have still := (World.binds_tracks i).quiet sound moves
      exact .inr ⟨i, hi, (World.Binds.trans binds still) r y hy⟩
  · rcases h.asked_tracks World.binds_tracks acquires
      (fun _ _ _ _ same => direct ⟨_, _, _, _, same⟩) with idle | ⟨i, asked, binds⟩
    · exact .inl (by rwa [idle] at hy)
    · exact .inr ⟨i, asked, binds r y hy⟩

/-- An act leaves a record bound as it was, or no longer in use, unless it takes the record into use
for the image that it asks a buffer for. -/
theorem Sound.step_bound (h : s.Sound out) (act : Act)
    (hy : (s.step act).2.store.records.get? r = some y) :
    Record.Stays (s.store.records.get? r) y ∨
      s.Takes act r ∧ ∃ i, s.asked act = some i ∧ Record.BoundTo i y := by
  by_cases takes : s.Takes act r
  · rcases h.asked_bound takes.acquires hy with hx | ⟨i, asked, stays | bound⟩
    · exact .inl (.of_eq hx)
    · exact .inl stays
    · exact .inr ⟨takes, i, asked, bound⟩
  · have kept := h.step_keeps act (I := fun V => ∀ y, V.store.records.get? r = some y →
      Record.Stays (s.store.records.get? r) y) ?_ fun _ => .of_eq
    · exact .inl (kept y hy)
    · intro m V V' sound allowed move old z hz
      have fate := move.fate sound r
      rw [hz] at fate
      have stays := fate.stays fun b hb take => takes (by subst hb take; exact allowed)
      obtain ⟨y, hy, -⟩ := id stays
      rw [hy] at stays
      exact (old y hy).trans stays

/-! ## 4. Runs -/

/-- The act takes the record into use for an image, which binds it with `n` bytes a pixel. -/
structure Acquires (s : Session) (act : Act) (r : RecordId) (n : Nat) : Prop where
  takes : s.Takes act r
  asked : ∃ i, s.asked act = some i ∧ i.bytesPerPixel = n
  bound : ∃ y, (s.step act).2.store.records.get? r = some y ∧ y.bytesPerPixel = n

/-- The acts acquired the record, the last time with `n` bytes a pixel: ever since it has been
there, and it stayed bound as it was or went out of use. -/
def AcquiredLast (s : Session) (acts : List Act) (r : RecordId) (n : Nat) : Prop :=
  ∃ before act after, acts = before ++ act :: after ∧ (s.run before).Acquires act r n ∧
    ∀ mid next, mid ++ [next] <+: after →
      ∃ y, (s.run (before ++ act :: (mid ++ [next]))).store.records.get? r = some y ∧
        Record.Stays ((s.run (before ++ act :: mid)).store.records.get? r) y

/-- The bytes a pixel of a record are those with which it was acquired last. -/
theorem Sound.exists_acquiredLast (h : s.Sound out) (absent : s.store.records.get? r = none)
    (acts : List Act) (hx : (s.run acts).store.records.get? r = some x) :
    s.AcquiredLast acts r x.bytesPerPixel := by
  induction acts using List.reverseRecOn generalizing x with
  | nil => simp [absent] at hx
  | append_singleton acts act ih =>
    rw [run_concat] at hx
    rcases (h.run acts).step_bound act hx with stays | ⟨takes, i, asked, bytesPerPixel, -⟩
    · obtain ⟨y, hy, same, -⟩ := id stays
      obtain ⟨before, first, after, rfl, acquires, since⟩ := ih hy
      refine ⟨before, first, after ++ [act], by simp, same ▸ acquires, fun mid next hmid => ?_⟩
      rcases List.prefix_concat_iff.1 hmid with hlast | hmid
      · obtain ⟨rfl, rfl⟩ := List.concat_inj.1 (by simpa using hlast)
        refine ⟨x, ?_, stays⟩
        rw [← List.cons_append, ← List.append_assoc, run_concat]
        exact hx
      · exact since mid next hmid
    · exact ⟨acts, act, [], rfl, ⟨takes, ⟨i, asked, bytesPerPixel.symm⟩, x, hx, rfl⟩,
        by simp⟩

end Session

end PixelPool
