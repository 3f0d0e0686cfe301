import PixelPool.Proofs.Journal
import PixelPool.Proofs.Counters
import PixelPool.Proofs.Teardown

/-!
The log against the counts of caches, the marks of records and the answers of acts.

That caches count what is logged was shown operation by operation (`Store.Tells`); here it is put
together for acts (`Session.perform_tells`) and runs. What became of published buffers is followed
move by move instead, since it takes a sound world to know that a cache which is torn down unmarks
just the buffers of its lists (`Store.untraced`). Main statement: `Session.log_reconciles`.
-/

namespace PixelPool

/-! ## 1. The log grows -/

/-- Nothing that was reported is taken back. -/
theorem World.Step.log_suffix {W V : World} {m : Move} (move : Step m W V) :
    W.store.log <:+ V.store.log := by
  induction move with
  | retire _ _ _ withdraws parts => exact withdraws.trans parts
  | refit _ _ _ fits => cases fits <;> exact List.suffix_rfl
  | refitFailed _ _ _ fits => cases fits <;> exact List.suffix_rfl
  | free | outlive | discard =>
    show _ <:+ (Store.without _ _).log
    rw [Store.log_without]
    exact List.suffix_cons ..
  | @tearDown W _ c s =>
    show _ <:+ _ :: ((W.store.unmarkAll s.lists.all).withoutAll s.reserve.slots).log
    rw [Store.log_withoutAll]
    exact List.suffix_cons ..
  | @emptyReserve W c s =>
    show _ <:+ _ :: ((W.store.setCache c { s with reserve := s.reserve.clear }).withoutAll
      s.reserve.slots).log
    rw [Store.log_withoutAll]
    exact List.suffix_cons ..
  | _ => first | exact List.suffix_rfl | exact List.suffix_cons ..

/-! ## 2. What became of published buffers -/

namespace Event

/-- A buffer was withdrawn by itself. -/
def unpublishes : Event → Bool
  | .unpublished _ _ => true
  | _ => false

/-- How many buffers a cache still had published when it was torn down, if the event tells that. -/
def detached : Event → Nat
  | .cacheTornDown _ listed _ => listed
  | _ => 0

/-- By how many the published buffers become more with an event. -/
def turn : Event → Int
  | .published _ _ _ => 1
  | .unpublished _ _ => -1
  | .cacheTornDown _ listed _ => -listed
  | _ => 0

theorem Aside.turn {e : Event} (aside : e.Aside) : e.turn = 0 := by
  cases e <;> first | rfl | exact absurd aside id

theorem sum_turn (log : List Event) : (log.map turn).sum
    = log.countP Account.publications.covers - log.countP unpublishes
      - (log.map detached).sum := by
  induction log with
  | nil => rfl
  | cons e log ih =>
    simp only [List.map_cons, List.sum_cons, ih, List.countP_cons]
    cases e <;> simp [turn, Account.covers, unpublishes, detached] <;> omega

end Event

/-- Whether a record is published, as a number. -/
def Record.mark (x : Record) : Nat := if x.published then 1 else 0

namespace Store

variable {w v : Store} {r : RecordId} {rs : List RecordId} {x y : Record}

/-- The number of published buffers. -/
def marked (w : Store) : Nat := w.records.total Record.mark

/-- By how many published buffers the log tells of more than there are. -/
def untraced (w : Store) : Int := (w.log.map Event.turn).sum - w.marked

theorem marked_eq_length (w : Store) : w.marked = (w.records.keysOf Record.published).length :=
  Table.total_eq_length_keysOf ..

theorem untraced_of_kept (marked : v.marked = w.marked) (log : v.log = w.log) :
    v.untraced = w.untraced := by
  rw [untraced, untraced, marked, log]

/-- An event and what it tells. -/
theorem untraced_of_report {e : Event} (log : v.log = e :: w.log)
    (marked : (v.marked : Int) = w.marked + e.turn) : v.untraced = w.untraced := by
  rw [untraced, untraced, marked, log, List.map_cons, List.sum_cons]
  omega

theorem marked_update (hx : w.records.get? r = some x)
    (records : v.records = w.records.update r fun _ => y) :
    v.marked + x.mark = w.marked + y.mark := by
  rw [marked, marked, records, Table.total_update _ _ hx, Table.total_erase _ hx]
  omega

theorem marked_of_update (hx : w.records.get? r = some x)
    (records : v.records = w.records.update r fun _ => y) (same : y.published = x.published) :
    v.marked = w.marked := by
  rw [marked, marked, records]
  exact Table.total_update_eq _ _ hx (by simp only [Record.mark, same])

theorem marked_without (undone : ∀ x, w.records.get? r = some x → x.published = false) :
    (w.without r).marked = w.marked := by
  unfold without
  split
  · rfl
  · next x hx =>
    show (w.records.erase r).total Record.mark = w.records.total Record.mark
    rw [Table.total_erase Record.mark hx, Record.mark, undone x hx]
    simp

/-- An unpublished buffer ends after an event that tells nothing of published ones. -/
theorem untraced_without {e : Event} (hx : w.records.get? r = some x)
    (undone : x.published = false) (records : v.records = w.records) (log : v.log = e :: w.log)
    (still : e.turn = 0) : (v.without r).untraced = w.untraced := by
  refine untraced_of_report ((log_without v r).trans log) ?_
  have gone : (v.without r).marked = v.marked := by
    apply marked_without
    intro y hy
    obtain rfl := Option.some.inj (hx.symm.trans (records ▸ hy))
    exact undone
  rw [gone, marked, marked, records, still, add_zero]

theorem marked_withoutAll
    (undone : ∀ r ∈ rs, ∀ x, w.records.get? r = some x → x.published = false) :
    (w.withoutAll rs).marked = w.marked := by
  induction rs generalizing w with
  | nil => rfl
  | cons r rs ih =>
    rw [withoutAll_cons, ih, marked_without (undone r List.mem_cons_self)]
    intro j hj x hx
    rw [get?_records_without] at hx
    split at hx
    · cases hx
    · exact undone j (List.mem_cons_of_mem _ hj) x hx

/-- As many published buffers are gone as were unmarked. -/
theorem marked_unmarkAll (distinct : rs.Nodup)
    (done : ∀ r ∈ rs, ∃ x, w.records.get? r = some x ∧ x.published = true) :
    (w.unmarkAll rs).marked + rs.length = w.marked := by
  induction rs generalizing w with
  | nil => rfl
  | cons r rs ih =>
    obtain ⟨new, distinct⟩ := List.nodup_cons.1 distinct
    obtain ⟨x, hx, published⟩ := done r List.mem_cons_self
    have first : (w.unmarkAll [r]).marked + 1 = w.marked := by
      have records : (w.unmarkAll [r]).records = w.records.update r fun _ => x.unmark :=
        Table.update_congr hx rfl
      have unmarked := marked_update hx records
      simpa [Record.mark, published, Record.unmark] using unmarked
    have rest := ih (w := w.unmarkAll [r]) distinct <| by
      intro j hj
      obtain ⟨y, hy, published⟩ := done j (List.mem_cons_of_mem _ hj)
      have other : j ≠ r := fun same => new (same ▸ hj)
      exact ⟨y, by simp [get?_records_unmarkAll, other, hy], published⟩
    rw [List.length_cons]
    have split : w.unmarkAll (r :: rs) = (w.unmarkAll [r]).unmarkAll rs := rfl
    rw [split]
    omega

end Store

namespace World

variable {W V : World} {m : Move}

/-- A buffer of a reserve is not published. -/
theorem Sound.undone_of_slot (h : W.Sound) {c : CacheId} {s : Cache}
    (hs : W.store.caches.get? c = some s) {r : RecordId} (hr : r ∈ s.reserve.slots) {x : Record}
    (hx : W.store.records.get? r = some x) : x.published = false := by
  obtain ⟨y, hy, -, -, image, -⟩ := h.idle_of_slot hs hr
  obtain rfl := Option.some.inj (hx.symm.trans hy)
  exact ((h.at_record hx).idle image).2

/-- With a cache end the publications of its lists; the buffers of its reserve have none. -/
theorem Sound.marked_tornDown (h : W.Sound) {c : CacheId} {s : Cache}
    (hs : W.store.caches.get? c = some s) :
    (W.store.tornDown c s).marked + s.lists.all.length = W.store.marked := by
  have done : ∀ r ∈ s.lists.all, ∃ x, W.store.records.get? r = some x ∧ x.published = true := by
    intro r hr
    obtain ⟨x, hx, done, -⟩ := (h.mem_lists_iff hs).1 hr
    exact ⟨x, hx, done⟩
  have undone : ∀ r ∈ s.reserve.slots, ∀ x,
      (W.store.unmarkAll s.lists.all).records.get? r = some x → x.published = false := by
    intro r hr x hx
    rw [Store.get?_records_unmarkAll] at hx
    split at hx
    · obtain ⟨y, -, rfl⟩ := Option.map_eq_some_iff.1 hx
      rfl
    · exact h.undone_of_slot hs hr hx
  have unmarked := Store.marked_unmarkAll (h.nodup_lists hs) done
  have gone := Store.marked_withoutAll undone
  show ((W.store.unmarkAll s.lists.all).withoutAll s.reserve.slots).marked + _ = _
  omega

/-- The log tells of each move what it makes of the published buffers. -/
theorem Step.untraced (move : Step m W V) (h : W.Sound)
    (aside : ∀ e, m = .report e → e.Aside) : V.store.untraced = W.store.untraced := by
  induction move with
  | retire withdraws parts how ih ih' =>
    rw [ih' (h.step withdraws) (by rcases how with rfl | rfl <;> simp), ih h (by simp)]
  | @publish W b x s _ hx undone =>
    have marked := Store.marked_update hx (v := W.store.enlisted b s x) rfl
    have before : x.mark = 0 := by rw [Record.mark, undone]; rfl
    have after : (x.markPublished b.cache).mark = 1 := rfl
    refine Store.untraced_of_report rfl ?_
    simp only [Event.turn]
    omega
  | @withdraw W r x s k hx done =>
    have marked := Store.marked_update hx (v := W.store.withdrawn x.origin s r x k) rfl
    have before : x.mark = 1 := by rw [Record.mark, done]; rfl
    have after : x.unmark.withoutArea.mark = 0 := rfl
    refine Store.untraced_of_report rfl ?_
    simp only [Event.turn]
    omega
  | refit hx _ _ fits =>
    cases fits <;> exact Store.untraced_of_kept (Store.marked_of_update hx rfl rfl) rfl
  | refitFailed hx _ _ fits =>
    cases fits with
    | invalid => rfl
    | lost => exact Store.untraced_of_kept (Store.marked_of_update hx rfl rfl) rfl
  | write _ hx written =>
    obtain ⟨-, -, b, -, rfl⟩ := Record.write_eq written
    exact Store.untraced_of_kept (Store.marked_of_update hx rfl rfl) rfl
  | reuse hs top hx =>
    have undone := h.undone_of_slot hs (by rw [top]; exact List.mem_cons_self) hx
    exact Store.untraced_of_kept (Store.marked_of_update hx rfl undone.symm) rfl
  | make =>
    refine Store.untraced_of_kept ?_ rfl
    exact (Table.total_add ..).trans (zero_add _)
  | retain hx => exact Store.untraced_of_kept (Store.marked_of_update hx rfl rfl) rfl
  | letGo _ hx => exact Store.untraced_of_kept (Store.marked_of_update hx rfl rfl) rfl
  | keep _ hx => exact Store.untraced_of_kept (Store.marked_of_update hx rfl rfl) rfl
  | free _ hx undone => exact Store.untraced_without hx undone rfl rfl rfl
  | outlive _ hx undone => exact Store.untraced_without hx undone rfl rfl rfl
  | discard _ hx undone => exact Store.untraced_without hx undone rfl rfl rfl
  | report =>
    refine Store.untraced_of_report rfl ?_
    rw [(aside _ rfl).turn]
    exact (add_zero _).symm
  | addCache => exact Store.untraced_of_report rfl (add_zero _).symm
  | @tearDown W O c s held hs =>
    have marked := h.marked_tornDown hs
    refine Store.untraced_of_report (congrArg _ (Store.log_withoutAll ..)) ?_
    simp only [Event.turn]
    omega
  | @emptyReserve W c s hs =>
    refine Store.untraced_of_report (congrArg _ (Store.log_withoutAll ..)) ?_
    have gone : (W.store.emptied c s).marked = W.store.marked :=
      Store.marked_withoutAll fun r hr x hx => h.undone_of_slot hs hr hx
    simp only [Event.turn, gone, add_zero]
  | _ => exact Store.untraced_of_kept rfl rfl

end World

/-! ## 3. What acts tell -/

open Fault Store

/-- The acts that ask for storage for a buffer: they acquire one or move one. -/
def Act.allots : Act → Bool
  | .acquire .. | .request .. | .exchange .. | .resize .. | .requestHere ..
  | .exchangeOwn .. => true
  | _ => false

/-- The error of storage that an answer tells, if it tells one. -/
def Answer.storageErrors : Answer → List StorageError
  | .refused e => e.storageErrors
  | _ => []

/-- What an act warns about, given its answer: the error for which a buffer got no storage. -/
def Act.warnings (act : Act) (answer : Answer) : List StorageError :=
  if act.allots then answer.storageErrors else []

theorem Act.warnings_eq_nil {act : Act} {answer : Answer}
    (spared : ∀ e, act.allots = true → answer ≠ .refused (.allocation e)) :
    act.warnings answer = [] := by
  unfold warnings
  split
  · next allots =>
    cases answer with
    | refused e =>
      cases e with
      | allocation e => exact absurd rfl (spared e allots)
      | _ => rfl
    | _ => rfl
  · rfl

namespace Session

variable {s v : Session} {act : Act} {name : String} {c : CacheId} {b : Handle} {answer : Answer}

/-- The act tells what its answer does. -/
def Told (s : Session) (act : Act) (a : Answer × Session) : Prop :=
  Tells (act.warnings a.1) s.store a.2.store

theorem told_of_silent (silent : act.allots = false) (told : Tells [] s.store v.store) :
    s.Told act (answer, v) := by
  rw [Told, Act.warnings, silent]
  exact told

theorem told_of_allots {errors : List StorageError} (allots : act.allots = true)
    (same : answer.storageErrors = errors) (told : Tells errors s.store v.store) :
    s.Told act (answer, v) := by
  rw [Told, Act.warnings, allots, if_pos rfl, same]
  exact told

theorem told_unknownName (kind : Kind) (name : String) :
    s.Told act (.unknownName kind name, s) := by
  rw [Told, Act.warnings]
  split <;> exact .refl _

/-! ### Names -/

theorem nameHandle_tells (s : Session) (name : String) (b : Handle) :
    Yields (s.nameHandle name b) fun v => Tells [] s.store v.store := by
  refine (dropHandle?_tells s.store _).bind ?_
  intro w told
  exact yields_ok told

theorem nameCache_tells (s : Session) (name : String) (c : CacheId) :
    Yields (s.nameCache name c) fun v => Tells [] s.store v.store := by
  unfold nameCache
  split
  · exact yields_ok (.refl _)
  · refine (dropOwner_tells s.store _).bind ?_
    intro w told
    exact yields_ok told

theorem nameOrDropCache_tells (s : Session) (name : Option String) (c : CacheId) :
    Yields (s.nameOrDropCache name c) fun v => Tells [] s.store v.store := by
  cases name with
  | some name => exact nameCache_tells s name c
  | none =>
    refine (dropOwner_tells s.store c).bind ?_
    intro w told
    exact yields_ok told

theorem nameOutcome_tells (s : Session) (name : String) (outcome : Except Refusal Handle) :
    Yields (s.nameOutcome name outcome)
      fun a => a.1.storageErrors = raisedBy outcome ∧ Tells [] s.store a.2.store := by
  cases outcome with
  | error e => exact yields_ok ⟨rfl, .refl _⟩
  | ok b =>
    apply Yields.after
    intro view
    refine (nameHandle_tells s name b).bind ?_
    intro v told
    exact yields_ok ⟨rfl, told⟩

/-- Naming what was obtained, or telling why nothing was. -/
theorem obtained_told {outcome : Except Refusal Handle} (allots : act.allots = true)
    (told : Tells (raisedBy outcome) s.store v.store) :
    Yields (v.nameOutcome name outcome) (s.Told act) := by
  refine (nameOutcome_tells v name outcome).mono ?_
  intro a ⟨same, named⟩
  exact told_of_allots allots same (told.before named)

/-- Naming what was found. -/
theorem found_told (silent : act.allots = false) (told : Tells [] s.store v.store) :
    Yields (v.nameOutcome name (.ok b)) (s.Told act) :=
  (nameOutcome_tells v name (.ok b)).mono fun _ named => told_of_silent silent (told.after named.2)

/-! ### Threads -/

theorem dropHandles_tells (w : Store) (bs : List Handle) :
    Yields (dropHandles w bs) (Tells [] w) := by
  induction bs generalizing w with
  | nil => exact yields_ok (.refl w)
  | cons b bs ih =>
    refine (dropHandle_tells w b).bind ?_
    intro v told
    exact (ih v).mono fun u rest => told.after rest

theorem dropOwners_tells (w : Store) (cs : List CacheId) :
    Yields (dropOwners w cs) (Tells [] w) := by
  induction cs generalizing w with
  | nil => exact yields_ok (.refl w)
  | cons c cs ih =>
    refine (dropOwner_tells w c).bind ?_
    intro v told
    exact (ih v).mono fun u rest => told.after rest

theorem closeFrame_tells (s : Session) :
    Yields s.closeFrame fun v => Tells [] s.store v.store := by
  refine (dropHandles_tells s.store _).bind ?_
  intro w handles
  refine (dropOwners_tells w _).bind ?_
  intro v caches
  refine (Thread.destroyBinding_tells _ v).bind ?_
  intro a binding
  exact yields_ok ((handles.after caches).after binding)

/-! ### Acts -/

/-- An answer to a look at the session. -/
theorem looked_told {α : Type} {program : Except Fault α} {answer : α → Answer}
    (silent : act.allots = false) :
    Yields (program >>= fun a => .ok (answer a, s)) (s.Told act) := by
  apply Yields.after
  intro a
  exact yields_ok (told_of_silent silent (.refl _))

theorem allocateBlock_tells (s : Session) (a : AllocatorId) (size : Nat) :
    Yields (s.allocateBlock a size) fun r => Tells [] s.store r.2.store := by
  apply allocator_yields
  intro source _
  exact yields_ok (.of_same rfl rfl rfl rfl)

theorem newCache_told (silent : act.allots = false) (a : Option AllocatorId) (cap : Option Nat) :
    Yields (s.newCache name a cap) (s.Told act) := by
  have made : ∀ c w, Tells [] s.store w → Yields ((s.withStore w).nameCache name c >>=
      fun v => .ok (.number c, v)) (s.Told act) := by
    intro c w told
    refine (nameCache_tells (s.withStore w) name c).bind ?_
    intro v named
    exact yields_ok (told_of_silent silent (told.after named))
  cases a with
  | some a => exact made _ _ (createCache_tells ..)
  | none => exact made _ _ (createWithConfig_tells ..)

/-- An act that is done or refused, and asks for no storage. -/
theorem outcome_told {program : Except Fault (Except Refusal Unit × Store)}
    {after : Store → Session} (silent : act.allots = false) (same : ∀ w, (after w).store = w)
    (tells : Yields program fun a => Tells [] s.store a.2) :
    Yields (program >>= fun a => .ok (doneOrRefused a.1, after a.2)) (s.Told act) := by
  refine tells.bind ?_
  intro a told
  refine yields_ok (told_of_silent silent ?_)
  rwa [same]

theorem shareCache_told (s : Session) (cache : String) (name : String) :
    Yields (s.perform (.shareCache cache name)) (s.Told (.shareCache cache name)) := by
  apply withCache_yields (told_unknownName ..)
  intro c
  refine (nameCache_tells _ name c).bind ?_
  intro v named
  exact yields_ok (told_of_silent rfl ((addOwner_tells s.store c).after named))

theorem dropCache_told (s : Session) (cache : String) :
    Yields (s.perform (.dropCache cache)) (s.Told (.dropCache cache)) := by
  apply withCache_yields (told_unknownName ..)
  intro c
  refine (dropOwner_tells s.store c).bind ?_
  intro w told
  exact yields_ok (told_of_silent rfl told)

theorem acquire_told (s : Session) (cache image : String) (area : Rect) (name : String) :
    Yields (s.perform (.acquire cache image area name))
      (s.Told (.acquire cache image area name)) := by
  apply withCache_yields (told_unknownName ..)
  intro c
  apply withImage_yields (told_unknownName ..)
  intro i
  refine (acquire_tells s.store c i area).bind ?_
  intro a told
  exact obtained_told rfl (by rwa [raisedBy_asRefusal])

theorem request_told (s : Session) (cache image : String) (area : Rect) (name : String) :
    Yields (s.perform (.request cache image area name))
      (s.Told (.request cache image area name)) := by
  apply withCache_yields (told_unknownName ..)
  intro c
  apply withImage_yields (told_unknownName ..)
  intro i
  refine (request_tells s.store c i area).bind ?_
  intro a told
  exact obtained_told rfl (by rwa [raisedBy_asRefusal])

theorem lookup_told (s : Session) (cache image : String) (area : Rect) (name : String) :
    Yields (s.perform (.lookup cache image area name))
      (s.Told (.lookup cache image area name)) := by
  apply withCache_yields (told_unknownName ..)
  intro c
  apply withImage_yields (told_unknownName ..)
  intro i
  refine (lookup_tells s.store c i area).bind ?_
  rintro ⟨found, w⟩ told
  cases found with
  | none => exact yields_ok (told_of_silent rfl told)
  | some b => exact found_told rfl told

theorem resize_told (s : Session) (cache buffer : String) (area : Rect) (viewHeld : Bool) :
    Yields (s.perform (.resize cache buffer area viewHeld))
      (s.Told (.resize cache buffer area viewHeld)) := by
  apply withCache_yields (told_unknownName ..)
  intro c
  apply withHandle_yields (told_unknownName ..)
  intro b
  refine (resize_tells s.store c b area viewHeld).bind ?_
  rintro ⟨outcome, w⟩ told
  refine yields_ok (told_of_allots rfl ?_ told)
  cases outcome <;> rfl

theorem dropHandle_told (s : Session) (buffer : String) :
    Yields (s.perform (.dropHandle buffer)) (s.Told (.dropHandle buffer)) := by
  apply withHandle_yields (told_unknownName ..)
  intro b
  refine (dropHandle_tells s.store b).bind ?_
  intro w told
  exact yields_ok (told_of_silent rfl told)

theorem copyHandle_told (s : Session) (buffer : String) (name : String) :
    Yields (s.perform (.copyHandle buffer name)) (s.Told (.copyHandle buffer name)) := by
  apply withHandle_yields (told_unknownName ..)
  intro b
  refine (copyHandle_tells s.store b).bind ?_
  intro a told
  exact found_told rfl told

theorem exchange_told (s : Session) (cache image : String) (area : Rect) (buffer : Option String)
    (name : String) :
    Yields (s.perform (.exchange cache image area buffer name))
      (s.Told (.exchange cache image area buffer name)) := by
  apply withCache_yields (told_unknownName ..)
  intro c
  apply withImage_yields (told_unknownName ..)
  intro i
  apply withHandle?_yields (told_unknownName _)
  intro old
  refine (exchange_tells s.store c old i area).bind ?_
  intro a told
  exact obtained_told rfl told

theorem emptyReserve_told (s : Session) (cache : String) :
    Yields (s.perform (.emptyReserve cache)) (s.Told (.emptyReserve cache)) := by
  apply withCache_yields (told_unknownName ..)
  intro c
  refine (emptyReserve_tells s.store c).bind ?_
  intro a told
  exact yields_ok (told_of_silent rfl told)

theorem list_told (s : Session) (cache : String) (image : String) :
    Yields (s.perform (.list cache image)) (s.Told (.list cache image)) := by
  apply withCache_yields (told_unknownName ..)
  intro c
  apply withImage_yields (told_unknownName ..)
  intro i
  apply Yields.after
  intro l
  cases l <;> exact yields_ok (told_of_silent rfl (.refl _))

theorem readPixels_told (s : Session) (buffer : String) :
    Yields (s.perform (.readPixels buffer)) (s.Told (.readPixels buffer)) := by
  apply withHandle_yields (told_unknownName ..)
  intro b
  apply record_yields
  intro x _
  split <;> exact yields_ok (told_of_silent rfl (.refl _))

theorem writePixels_told (s : Session) (buffer : String) (fill : Nat → UInt8) :
    Yields (s.perform (.writePixels buffer fill)) (s.Told (.writePixels buffer fill)) := by
  apply withHandle_yields (told_unknownName ..)
  intro b
  apply record_yields
  intro x _
  split <;> exact yields_ok (told_of_silent rfl (.of_same rfl rfl rfl rfl))

theorem describe_told (s : Session) (subject : Subject) :
    Yields (s.perform (.describe subject)) (s.Told (.describe subject)) := by
  cases subject with
  | buffer name => exact withHandle_yields (told_unknownName ..) fun b => looked_told rfl
  | cache name => exact withCache_yields (told_unknownName ..) fun c => looked_told rfl
  | image name =>
    exact withImage_yields (told_unknownName ..) fun i => yields_ok (told_of_silent rfl (.refl _))

theorem allocateBlock_told (s : Session) (allocator : String) (size : Nat) (name : String) :
    Yields (s.perform (.allocateBlock allocator size name))
      (s.Told (.allocateBlock allocator size name)) := by
  apply withAllocator_yields (told_unknownName ..)
  intro a
  refine (allocateBlock_tells s a size).bind ?_
  rintro ⟨outcome, v⟩ told
  cases outcome <;> exact yields_ok (told_of_silent rfl told)

theorem freeBlock_told (s : Session) (allocator block : String) (truncate : Option Nat) :
    Yields (s.perform (.freeBlock allocator block truncate))
      (s.Told (.freeBlock allocator block truncate)) := by
  apply withAllocator_yields (told_unknownName ..)
  intro a
  apply withBlock_yields (told_unknownName ..)
  intro loan
  refine (giveBack_unlogged s.store a _).bind ?_
  intro w given
  exact yields_ok (told_of_silent rfl given.tells)

theorem requestHere_told (s : Session) (image : String) (area : Rect) (name : String) :
    Yields (s.perform (.requestHere image area name)) (s.Told (.requestHere image area name)) := by
  apply withImage_yields (told_unknownName ..)
  intro i
  refine (Thread.request_tells _ s.store i area).bind ?_
  intro a told
  exact obtained_told rfl (by rwa [raisedBy_asRefusal])

theorem exchangeOwn_told (s : Session) (image : String) (area : Rect) (buffer : Option String)
    (name : String) :
    Yields (s.perform (.exchangeOwn image area buffer name))
      (s.Told (.exchangeOwn image area buffer name)) := by
  apply withImage_yields (told_unknownName ..)
  intro i
  apply withHandle?_yields (told_unknownName _)
  intro old
  refine (Thread.exchange_tells _ s.store i area old).bind ?_
  intro a told
  exact obtained_told rfl told

theorem current_told (s : Session) (name : Option String) :
    Yields (s.perform (.current name)) (s.Told (.current name)) := by
  have told := Thread.current_tells s.frame.thread s.store
  apply Yields.after
  intro view
  refine (nameOrDropCache_tells _ name _).bind ?_
  intro v named
  exact yields_ok (told_of_silent rfl (told.after named))

theorem bind_told (s : Session) (cache : String) (name : Option String) :
    Yields (s.perform (.bind cache name)) (s.Told (.bind cache name)) := by
  apply withCache_yields (told_unknownName ..)
  intro c
  refine (Thread.bind_tells s.frame.thread (s.store.addOwner c) c).bind ?_
  rintro ⟨⟨outcome, thread⟩, w⟩ told
  have told := (addOwner_tells s.store c).after told
  match outcome with
  | .error e => exact yields_ok (told_of_silent rfl told)
  | .ok none => exact yields_ok (told_of_silent rfl told)
  | .ok (some previous) =>
    refine (nameOrDropCache_tells _ name previous).bind ?_
    intro v named
    exact yields_ok (told_of_silent rfl (told.after named))

theorem install_told (s : Session) (cap : Nat) :
    Yields (s.perform (.install cap)) (s.Told (.install cap)) := by
  apply yields_ok
  apply told_of_silent rfl
  show Tells [] s.store (s.store.install ⟨cap⟩).2
  unfold Store.install
  split
  · exact .refl _
  · exact fixConfig_tells ..

theorem environmentConfig_told (s : Session) :
    Yields (s.perform .environmentConfig) (s.Told .environmentConfig) := by
  simp only [perform]
  split <;> exact yields_ok (told_of_silent rfl (.refl _))

theorem installAllocator_told (s : Session) (allocator : String) :
    Yields (s.perform (.installAllocator allocator)) (s.Told (.installAllocator allocator)) := by
  apply withAllocator_yields (told_unknownName ..)
  intro a
  apply yields_ok
  apply told_of_silent rfl
  show Tells [] s.store (s.store.installAllocator a).2
  unfold Store.installAllocator
  split
  · exact .refl _
  · exact .of_same rfl rfl rfl rfl

theorem allocateShared_told (s : Session) (size : Nat) :
    Yields (s.perform (.allocateShared size)) (s.Told (.allocateShared size)) := by
  have shared := sharedAllocator_tells s.store
  refine (allocateBlock_tells (s.withStore s.store.sharedAllocator.2) _ size).bind ?_
  rintro ⟨outcome, v⟩ told
  have told := shared.after told
  cases outcome with
  | error e => exact yields_ok (told_of_silent rfl told)
  | ok block =>
    refine (giveBack_unlogged v.store _ block).bind ?_
    intro w given
    exact yields_ok (told_of_silent rfl (told.after given.tells))

theorem incomplete_told (s : Session) (names : List (Kind × String)) (field : String) :
    Yields (s.perform (.incomplete names field)) (s.Told (.incomplete names field)) := by
  simp only [perform]
  split <;> exact yields_ok (told_of_silent rfl (.refl _))

/-- The caches count what an act reports, and it warns of just the error that it answers. -/
theorem perform_told (s : Session) (act : Act) : Yields (s.perform act) (s.Told act) := by
  cases act with
  | newAllocator name limit =>
    exact yields_ok (told_of_silent rfl (.of_same rfl rfl rfl rfl))
  | newImage name bytesPerPixel key =>
    apply yields_ok
    cases key <;> exact told_of_silent rfl (.of_same rfl rfl rfl rfl)
  | newCache name allocator cap =>
    cases allocator with
    | none => exact newCache_told rfl none cap
    | some allocator =>
      exact withAllocator_yields (told_unknownName ..) fun a => newCache_told rfl (some a) cap
  | shareCache cache name => exact shareCache_told s cache name
  | dropCache cache => exact dropCache_told s cache
  | inspect cache => exact withCache_yields (told_unknownName ..) fun c => looked_told rfl
  | acquire cache image area name => exact acquire_told s cache image area name
  | request cache image area name => exact request_told s cache image area name
  | lookup cache image area name => exact lookup_told s cache image area name
  | publish cache buffer =>
    apply withCache_yields (told_unknownName ..)
    intro c
    apply withHandle_yields (told_unknownName ..)
    intro b
    exact outcome_told rfl (fun _ => rfl) (publish_tells s.store c b)
  | unpublish cache buffer =>
    apply withCache_yields (told_unknownName ..)
    intro c
    apply withHandle_yields (told_unknownName ..)
    intro b
    exact outcome_told rfl (fun _ => rfl) (unpublish_tells s.store c b)
  | release cache buffer =>
    apply withCache_yields (told_unknownName ..)
    intro c
    apply withHandle_yields (told_unknownName ..)
    intro b
    exact outcome_told rfl (fun _ => rfl) (release_tells s.store c b)
  | publishOwn buffer =>
    exact withHandle_yields (told_unknownName ..) fun b =>
      outcome_told rfl (fun _ => rfl) (publishOwn_tells s.store b)
  | unpublishOwn buffer =>
    exact withHandle_yields (told_unknownName ..) fun b =>
      outcome_told rfl (fun _ => rfl) (unpublishOwn_tells s.store b)
  | resize cache buffer area viewHeld => exact resize_told s cache buffer area viewHeld
  | dropHandle buffer => exact dropHandle_told s buffer
  | copyHandle buffer name => exact copyHandle_told s buffer name
  | exchange cache image area buffer name => exact exchange_told s cache image area buffer name
  | emptyReserve cache => exact emptyReserve_told s cache
  | list cache image => exact list_told s cache image
  | sameRecord buffer other =>
    apply withHandle_yields (told_unknownName ..)
    intro b
    apply withHandle_yields (told_unknownName ..)
    intro d
    exact yields_ok (told_of_silent rfl (.refl _))
  | readPixels buffer => exact readPixels_told s buffer
  | writePixels buffer fill => exact writePixels_told s buffer fill
  | describe subject => exact describe_told s subject
  | allocateBlock allocator size name => exact allocateBlock_told s allocator size name
  | freeBlock allocator block truncate => exact freeBlock_told s allocator block truncate
  | requestHere image area name => exact requestHere_told s image area name
  | exchangeOwn image area buffer name => exact exchangeOwn_told s image area buffer name
  | current name => exact current_told s name
  | bind cache name => exact bind_told s cache name
  | unbind =>
    refine (Thread.unbind_tells _ s.store).bind ?_
    intro a told
    exact yields_ok (told_of_silent rfl told)
  | destroyBinding =>
    refine (Thread.destroyBinding_tells _ s.store).bind ?_
    intro a told
    exact yields_ok (told_of_silent rfl told)
  | install cap => exact install_told s cap
  | sharedConfig => exact yields_ok (told_of_silent rfl (sharedConfig_tells s.store))
  | environmentConfig => exact environmentConfig_told s
  | installAllocator allocator => exact installAllocator_told s allocator
  | allocateShared size => exact allocateShared_told s size
  | enterThread => exact yields_ok (told_of_silent rfl (.refl _))
  | leaveThread =>
    refine (closeFrame_tells s).bind ?_
    intro v told
    cases waiting : v.waiting <;> exact yields_ok (told_of_silent rfl told)
  | incomplete names field => exact incomplete_told s names field

/-! ## 4. Runs -/

theorem step_told (s : Session) (act : Act) : s.Told act (s.step act) := by
  unfold step
  split
  · next run => exact perform_told s act _ run
  · rw [Told, Act.warnings]
    split <;> exact .refl _

theorem run_gap (s : Session) (acts : List Act) (k : Account) :
    (s.run acts).store.gap k = s.store.gap k := by
  induction acts generalizing s with
  | nil => rfl
  | cons act rest ih => exact (ih (s.step act).2).trans ((step_told s act).gap k)

/-- The events that an act reports, latest first. -/
def reports (s : Session) (act : Act) : List Event :=
  (s.step act).2.store.log.take ((s.step act).2.store.log.length - s.store.log.length)

/-- The warnings among them. -/
def warned (s : Session) (act : Act) : List Event :=
  (s.reports act).filter fun e => e.level = .warn

variable {out : Multiset Loan}

theorem Sound.step_log (h : s.Sound out) (act : Act) :
    (s.step act).2.store.log = s.reports act ++ s.store.log := by
  have grows := h.step_keeps act (I := fun V => s.store.log <:+ V.store.log)
    (fun _ _ _ _ _ move before => before.trans move.log_suffix) List.suffix_rfl
  obtain ⟨news, same⟩ : s.store.log <:+ (s.step act).2.store.log := grows
  rw [reports, ← same, List.length_append, Nat.add_sub_cancel, List.take_left]

/-- Once the configuration is fixed, an act warns of just the error that it answers. -/
theorem Sound.map_warned (h : s.Sound out) (frozen : s.store.settings.config.isSome = true)
    (act : Act) :
    (s.warned act).map Event.error? = (act.warnings (s.step act).1).map some := by
  have told := (step_told s act).alerts frozen
  rw [alerts, h.step_log act, List.filter_append, List.map_append] at told
  exact List.append_cancel_right told

theorem Sound.run_untraced (h : s.Sound out) (acts : List Act) :
    (s.run acts).store.untraced = s.store.untraced := by
  induction acts generalizing s out with
  | nil => rfl
  | cons act rest ih =>
    refine (ih (h.step act)).trans ?_
    refine h.made_keeps act (I := fun V => V.store.untraced = s.store.untraced) ?_ rfl
    intro m V V' sound made move same
    rw [move.untraced sound fun e report => ?_, same]
    subst report
    exact made.2

/-- After any acts, the log agrees with the caches that were ever made and with the buffers: as many
buffers were published as the caches count; those were withdrawn, detached as their cache was torn
down, or are published still; as many were acquired as came into use without a failure; and as many
were reported to find a reserve full as were freed on release. Once the configuration is fixed, an
act that is refused storage for a buffer gives exactly one warning, of that error, and no other act
gives one. -/
theorem log_reconciles {w : Store} (initial : w.Initial) (acts : List Act) {s : Session}
    (after : s = (start w).run acts) :
    (s.store.log.countP Account.publications.covers : Int)
      = s.store.summed (fun z => (z.stats.publishes : Int)) ∧
    s.store.log.countP Account.publications.covers
      = s.store.log.countP Event.unpublishes + (s.store.log.map Event.detached).sum
        + (s.store.records.keysOf Record.published).length ∧
    (s.store.log.countP Account.acquisitions.covers : Int)
      = s.store.summed (fun z => (z.stats.made + z.stats.reused - z.stats.failures : Int)) ∧
    (s.store.log.countP Account.rejections.covers : Int)
      = s.store.summed (fun z => (z.stats.freed : Int)) ∧
    (s.store.settings.config.isSome = true → ∀ act,
      (∀ e, act.allots = true → (s.step act).1 = .refused (.allocation e) →
        ∃ event, s.warned act = [event] ∧ event.error? = some e) ∧
      ((∀ e, act.allots = true → (s.step act).1 ≠ .refused (.allocation e)) →
        s.warned act = [])) := by
  subst after
  have sound := (sound_start initial).run acts
  have even : ∀ k, ((start w).run acts).store.gap k = 0 := by
    intro k
    rw [run_gap]
    obtain ⟨environment, host, rfl | rfl⟩ := initial <;> rfl
  have traced : ((start w).run acts).store.untraced = 0 := by
    rw [(sound_start initial).run_untraced]
    obtain ⟨environment, host, rfl | rfl⟩ := initial <;> rfl
  refine ⟨sub_eq_zero.1 (even .publications), ?_, sub_eq_zero.1 (even .acquisitions),
    sub_eq_zero.1 (even .rejections), fun frozen act => ?_⟩
  · rw [untraced, Event.sum_turn, marked_eq_length] at traced
    omega
  have warned := sound.map_warned frozen act
  constructor
  · intro e allots refused
    rw [Act.warnings, allots, refused] at warned
    exact List.map_eq_singleton_iff.1 warned
  · intro spared
    rw [Act.warnings_eq_nil spared] at warned
    exact List.map_eq_nil_iff.1 warned

/-- A run with two publications, of which one is withdrawn and one detached as the cache is torn
down, a buffer that finds the reserve full, and one that gets no storage. -/
def reportedActs : List Act :=
  [.newAllocator "heap" none, .newCache "cache" (some "heap") (some 0),
    .newImage "image" 1 (some 1), .request "cache" "image" ⟨0, 0, 2, 2⟩ "first",
    .acquire "cache" "image" ⟨0, 0, 2, 2⟩ "second", .publish "cache" "first",
    .publish "cache" "second", .dropHandle "first",
    .acquire "cache" "image" ⟨0, 0, -1, 1⟩ "third", .dropCache "cache",
    .newCache "other" (some "heap") none]

/-- After that run, in another cache, a request for an area without a size gets one warning. -/
theorem log_reconciles_sample : ∃ s : Session, s = (start (.settled none)).run reportedActs ∧
    s.store.log.countP Account.publications.covers = 2 ∧
    s.store.log.countP Event.unpublishes + (s.store.log.map Event.detached).sum
      + (s.store.records.keysOf Record.published).length = 2 ∧
    ∃ event, s.warned (.request "other" "image" ⟨5, 5, -1, 1⟩ "fourth") = [event] ∧
      event.error? = some (.invalidArea ⟨5, 5, -1, 1⟩ 1) := by
  obtain ⟨-, published, -, -, warned⟩ :=
    log_reconciles (w := .settled none) ⟨none, .usual, .inr rfl⟩ reportedActs rfl
  have told : ((start (.settled none)).run reportedActs).store.log.countP
      Account.publications.covers = 2 := by decide +kernel
  have frozen : ((start (.settled none)).run reportedActs).store.settings.config.isSome = true := by
    decide +kernel
  have refused : (((start (.settled none)).run reportedActs).step
      (.request "other" "image" ⟨5, 5, -1, 1⟩ "fourth")).1
        = .refused (.allocation (.invalidArea ⟨5, 5, -1, 1⟩ 1)) := rfl
  rw [told] at published
  obtain ⟨event, single, about⟩ := (warned frozen _).1 _ rfl refused
  exact ⟨_, rfl, told, published.symm, event, single, about⟩

end Session

end PixelPool
