import PixelPool.Proofs.Views

/-!
Views that differ in the names of their buffers only.

`A.Twin heap f B` says that what is seen in `A` of a buffer in use is seen in `B` of the one that
`f` names. A change of both views that speaks of buffers that `f` relates keeps them twins; if a
buffer is taken into use on both sides, `f` relates these two from then on (`View.Twin.put_new`).
-/

namespace PixelPool

variable {heap : Heap} {f : RecordId → RecordId} {r j : RecordId} {k : ImageKey}
  {c : CacheId} {i : Image} {area : Rect}

/-! ## 1. Renaming -/

/-- The handle on the buffer of another name. -/
@[simps]
def Handle.rename (f : RecordId → RecordId) (b : Handle) : Handle := { b with record := f b.record }

namespace Face

/-- The face with other names in its lists. -/
def rename (f : RecordId → RecordId) (φ : Face) : Face :=
  { φ with lists := fun k => (φ.lists k).map (List.map f) }

variable {φ : Face}

@[simp] theorem members_rename (φ : Face) (k : ImageKey) :
    (φ.rename f).members k = (φ.members k).map f := by
  cases h : φ.lists k <;> simp [members, rename, h]

theorem rename_relisted (φ : Face) (k : ImageKey) (members : List RecordId) :
    (φ.relisted k members).rename f = (φ.rename f).relisted k (members.map f) := by
  have lists : (fun j => (Function.update φ.lists k (some members) j).map (List.map f))
      = Function.update (fun j => (φ.lists j).map (List.map f)) k (some (members.map f)) := by
    funext j
    by_cases hj : j = k
    · subst hj
      simp
    · simp [hj]
  simp [rename, relisted, lists]

theorem rename_enlisted (φ : Face) (k : ImageKey) (r : RecordId) :
    (φ.enlisted k r).rename f = (φ.rename f).enlisted k (f r) := by
  rw [enlisted, rename_relisted, enlisted, members_rename, List.map_cons]

theorem map_erase_of_only {l : List RecordId} (only : ∀ j ∈ l, f j = f r → j = r) :
    (l.erase r).map f = (l.map f).erase (f r) := by
  induction l with
  | nil => rfl
  | cons j l ih =>
    by_cases hj : j = r
    · subst hj
      simp
    · have apart : f j ≠ f r := fun same => hj (only j List.mem_cons_self same)
      rw [List.erase_cons_tail (by simpa using hj), List.map_cons, List.map_cons,
        List.erase_cons_tail (by simpa using apart),
        ih fun a ha => only a (List.mem_cons_of_mem _ ha)]

theorem rename_delisted (only : ∀ j ∈ φ.members k, f j = f r → j = r) :
    (φ.delisted k r).rename f = (φ.rename f).delisted k (f r) := by
  rw [delisted, rename_relisted, delisted, members_rename, map_erase_of_only only]

/-- A name that no list has may stand for anything. -/
theorem rename_update {r' : RecordId} (absent : ∀ k, r ∉ φ.members k) :
    φ.rename (Function.update f r r') = φ.rename f := by
  have lists : ∀ k, (φ.lists k).map (List.map (Function.update f r r'))
      = (φ.lists k).map (List.map f) := by
    intro k
    cases h : φ.lists k with
    | none => rfl
    | some members =>
      have absent : r ∉ members := by simpa [Face.members, h] using absent k
      have same : ∀ j ∈ members, Function.update f r r' j = f j := by
        intro j hj
        rw [Function.update_of_ne]
        rintro rfl
        exact absent hj
      rw [Option.map_some, Option.map_some, List.map_congr_left same]
  simp [rename, lists]

end Face

/-! ## 2. Twins -/

namespace View

/-- The members of the lists of caches are buffers in use. -/
def Proper (A : View) : Prop :=
  ∀ c φ, A.face c = some φ → ∀ k, ∀ r ∈ φ.members k, A.sight r ≠ none

/-- Up to the names of buffers, what is seen in `A` is seen in `B`; and requests are refused for
their size alone. -/
structure Twin (heap : Heap) (f : RecordId → RecordId) (A B : View) : Prop where
  injective : ∀ r j, A.sight r ≠ none → A.sight j ≠ none → f r = f j → r = j
  sight : ∀ r, A.sight r ≠ none → B.sight (f r) = A.sight r
  face : ∀ c, B.face c = (A.face c).map (Face.rename f)
  ground : B.ground = A.ground
  unlimited : A.ground.Unlimited heap

namespace Twin

variable {A B : View} {φ : Face}

theorem unlimited_right (T : Twin heap f A B) : B.ground.Unlimited heap :=
  T.ground ▸ T.unlimited

/-- A buffer in use changes on both sides, or is no longer in use on both sides. -/
theorem put_known (T : Twin heap f A B) (used : A.sight r ≠ none) (o : Option Sight) :
    Twin heap f (A.put r o) (B.put (f r) o) where
  injective j j' hj hj' same := by
    have known : ∀ j, (A.put r o).sight j ≠ none → A.sight j ≠ none := by
      intro j hj
      by_cases here : j = r
      · exact here ▸ used
      · simpa [put, here] using hj
    exact T.injective j j' (known j hj) (known j' hj') same
  sight j hj := by
    by_cases here : j = r
    · subst here
      simp [put]
    · have known : A.sight j ≠ none := by simpa [put, here] using hj
      have apart : f j ≠ f r := fun same => here (T.injective j r known used same)
      simp [put, here, apart, T.sight j known]
  face := T.face
  ground := T.ground
  unlimited := T.unlimited

/-- On each side a buffer is taken into use: `f` relates the two from then on. -/
theorem put_new {r' : RecordId} (T : Twin heap f A B) (proper : A.Proper)
    (unused : A.sight r = none)
    (unused' : B.sight r' = none) (σ : Sight) :
    Twin heap (Function.update f r r') (A.put r (some σ)) (B.put r' (some σ)) where
  injective j j' hj hj' same := by
    -- What `f` names on the other side is in use there, and so it is not the new buffer.
    have apart : ∀ j, j ≠ r → (A.put r (some σ)).sight j ≠ none → f j ≠ r' := by
      rintro j here hj rfl
      have known : A.sight j ≠ none := by simpa [put, here] using hj
      exact known (T.sight j known ▸ unused')
    by_cases here : j = r <;> by_cases here' : j' = r
    · rw [here, here']
    · subst here
      rw [Function.update_self, Function.update_of_ne here'] at same
      exact absurd same.symm (apart j' here' hj')
    · subst here'
      rw [Function.update_self, Function.update_of_ne here] at same
      exact absurd same (apart j here hj)
    · rw [Function.update_of_ne here, Function.update_of_ne here'] at same
      exact T.injective j j' (by simpa [put, here] using hj) (by simpa [put, here'] using hj') same
  sight j hj := by
    by_cases here : j = r
    · subst here
      simp [put]
    · have known : A.sight j ≠ none := by simpa [put, here] using hj
      have apart : f j ≠ r' := by
        rintro rfl
        exact known (T.sight j known ▸ unused')
      simp [put, here, apart, T.sight j known]
  face d := by
    cases hφ : A.face d with
    | none => simp [put, T.face, hφ]
    | some φ =>
      have absent : ∀ k, r ∉ φ.members k := fun k hk => proper d φ hφ k r hk unused
      simp [put, T.face, hφ, Face.rename_update absent]
  ground := T.ground
  unlimited := T.unlimited

/-- The face of a cache changes alike on both sides. -/
theorem touch (T : Twin heap f A B) {g g' : Face → Face}
    (alike : ∀ φ, A.face c = some φ → g' (φ.rename f) = (g φ).rename f) :
    Twin heap f (A.touch c g) (B.touch c g') where
  injective := T.injective
  sight := T.sight
  face d := by
    by_cases hd : d = c
    · subst hd
      cases hφ : A.face d with
      | none => simp [View.touch, T.face, hφ]
      | some φ => simp [View.touch, T.face, hφ, alike φ hφ]
    · simp [View.touch, T.face, hd]
  ground := T.ground
  unlimited := T.unlimited

/-- The same is counted on both sides. -/
theorem counted (T : Twin heap f A B) (c : CacheId) (g : Stats → Stats) :
    Twin heap f (A.touch c (Face.counted g)) (B.touch c (Face.counted g)) :=
  T.touch fun _ _ => rfl

theorem enlisted (T : Twin heap f A B) (c : CacheId) (k : ImageKey) (r : RecordId)
    (g : Stats → Stats) :
    Twin heap f (A.touch c fun φ => (φ.enlisted k r).counted g)
      (B.touch c fun φ => (φ.enlisted k (f r)).counted g) :=
  T.touch fun φ _ => congrArg (Face.counted g) (φ.rename_enlisted k r).symm

theorem delisted (T : Twin heap f A B) (proper : A.Proper) (used : A.sight r ≠ none) (c : CacheId)
    (k : ImageKey) :
    Twin heap f (A.touch c (Face.delisted k r)) (B.touch c (Face.delisted k (f r))) :=
  T.touch fun φ hφ => (Face.rename_delisted fun j hj same =>
    T.injective j r (proper c φ hφ k j hj) used same).symm

/-- Both sides get a new cache. -/
theorem addCache (T : Twin heap f A B) (empty : φ.rename f = φ) :
    Twin heap f (A.addCache φ) (B.addCache φ) where
  injective := T.injective
  sight := T.sight
  face d := by
    by_cases hd : d = A.ground.nextCache <;> simp [View.addCache, T.ground, T.face, hd, empty]
  ground := by simp [View.addCache, T.ground]
  unlimited := T.unlimited.of_same rfl rfl

/-- A cache ends on both sides. -/
theorem tornDown (T : Twin heap f A B) {rs rs' : List RecordId}
    (members : ∀ r, A.sight r ≠ none → (f r ∈ rs' ↔ r ∈ rs)) :
    Twin heap f (A.tornDown c rs) (B.tornDown c rs') where
  injective j j' hj hj' same := by
    have known : ∀ j, (A.tornDown c rs).sight j ≠ none → A.sight j ≠ none := by
      intro j hj none
      simp [View.tornDown, none] at hj
    exact T.injective j j' (known j hj) (known j' hj') same
  sight j hj := by
    have known : A.sight j ≠ none := fun none => by simp [View.tornDown, none] at hj
    simp [View.tornDown, members j known, T.sight j known]
  face d := by by_cases hd : d = c <;> simp [View.tornDown, T.face, hd]
  ground := T.ground
  unlimited := T.unlimited

/-- Both sides get the same settings. -/
theorem grounded (T : Twin heap f A B) (G : Ground) (unlimited : G.Unlimited heap) :
    Twin heap f { A with ground := G } { B with ground := G } where
  injective := T.injective
  sight := T.sight
  face := T.face
  ground := rfl
  unlimited := unlimited

end Twin

end View

end PixelPool
