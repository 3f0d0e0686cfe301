import Mathlib.Algebra.Order.BigOperators.Group.List
import Mathlib.Data.Multiset.OrderedMonoid
import PixelPool.Proofs.TwinThreads

/-!
Two sessions in which the same names stand for twins.

`Session.Twin heap f s t` says that the stores are twins and that `t` has the names of `s`, with the
handles renamed by `f`. `Session.Meet` compares two programs that answer: what the answers have to
have in common is `Answer.Alike`. Between the two sessions `f` may change, since a buffer that both
take into use may be another one on either side; what the names stood for before is kept.
-/

namespace PixelPool

/-! ## 1. Names -/

namespace Names

variable {α β : Type}

/-- The same names for other things. -/
def map (g : α → β) (ns : Names α) : Names β where
  entries := ns.entries.map fun e => (e.1, g e.2)
  ascending := List.pairwise_map.2 ns.ascending

theorem ext_entries {ns ms : Names α} (h : ns.entries = ms.entries) : ns = ms := by
  cases ns
  cases ms
  simpa using h

@[simp] theorem get?_map (g : α → β) (ns : Names α) (k : String) :
    (ns.map g).get? k = (ns.get? k).map g := by
  simp only [get?, map, List.find?_map, Option.map_map]
  rfl

@[simp] theorem values_map (g : α → β) (ns : Names α) : (ns.map g).values = ns.values.map g := by
  simp [values, map, Function.comp_def]

theorem map_insertEntry (g : α → β) (k : String) (a : α) (es : List (String × α)) :
    (insertEntry k a es).map (fun e => (e.1, g e.2))
      = insertEntry k (g a) (es.map fun e => (e.1, g e.2)) := by
  induction es with
  | nil => rfl
  | cons e es ih =>
    simp only [insertEntry, List.map_cons]
    split
    · rfl
    · split
      · rfl
      · rw [List.map_cons, ih]

theorem map_put (g : α → β) (ns : Names α) (k : String) (a : α) :
    (ns.put k a).map g = (ns.map g).put k (g a) :=
  ext_entries (map_insertEntry g k a ns.entries)

theorem map_erase (g : α → β) (ns : Names α) (k : String) :
    (ns.erase k).map g = (ns.map g).erase k :=
  ext_entries (by simp [map, erase, List.filter_map, Function.comp_def])

theorem map_congr {g h : α → β} {ns : Names α} (same : ∀ a ∈ ns.values, g a = h a) :
    ns.map g = ns.map h :=
  ext_entries (List.map_congr_left fun e he => by rw [same e.2 (List.mem_map_of_mem he)])

end Names

namespace Frame

variable {f f' : RecordId → RecordId} {F : Frame}

/-- The thread with other names for its buffers. -/
def rename (f : RecordId → RecordId) (F : Frame) : Frame :=
  { F with handles := F.handles.map (Handle.rename f) }

theorem rename_congr (kept : ∀ b ∈ F.handlesHeld, b.rename f' = b.rename f) :
    F.rename f' = F.rename f := by
  rw [rename, Names.map_congr kept]
  rfl

end Frame

/-! ## 2. Answers -/

/-- The text that shows a handle. -/
def handleText (k : ImageKey) (x : Record) : String :=
  "BufferRef \x7b image: " ++ k.describe ++ ", slot: " ++ x.describe ++ " \x7d"

/-- The text that shows a cache. -/
def cacheText (c : CacheId) (images : Nat) (slots : List Record) (cap : Nat) : String :=
  s!"BufferCache \x7b id: CacheId({c}), thread: ThreadId(_), " ++
    s!"images: {images}, reserve: Reserve \x7b slots: [" ++
    ", ".intercalate (slots.map Record.describe) ++ s!"], cap: {cap} \x7d \x7d"

/-- Two views of handles that differ in the capacity at most. -/
structure HandleView.Alike (v v' : HandleView) : Prop where
  area : v'.area = v.area
  references : v'.references = v.references
  published : v'.published = v.published
  image : v'.image = v.image

/-- Two views of caches that differ in what tells of memory at most. -/
structure CacheView.Alike (v v' : CacheView) : Prop where
  id : v'.id = v.id
  stats : v'.stats.visible = v.stats.visible

/-- Two answers to an act that differ in what tells of memory at most: in capacities, in bytes, in
what a reserve holds and its cap. -/
inductive Answer.Alike : Act → Answer → Answer → Prop where
  | same {act : Act} (answer : Answer) : Alike act answer answer
  | handle {act : Act} {v v' : HandleView} (like : v.Alike v') : Alike act (.handle v) (.handle v')
  | cache {act : Act} {v v' : CacheView} (like : v.Alike v') : Alike act (.cache v) (.cache v')
  | pixels {act : Act} {p p' : Block} (size : p'.size = p.size) :
      Alike act (.pixels p) (.pixels p')
  | emptyReserve {cache : String} {n n' : Nat} :
      Alike (.emptyReserve cache) (.number n) (.number n')
  | sharedConfig {cap cap' : Nat} : Alike .sharedConfig (.number cap) (.number cap')
  | inspect {cache : String} {c : CacheId} {cap cap' length length' : Nat} {here : Bool} :
      Alike (.inspect cache) (.cacheInfo c cap length here) (.cacheInfo c cap' length' here)
  | describeBuffer {name : String} {k : ImageKey} {x y : Record} (like : x.Like y)
      (publisher : y.publisher = x.publisher) :
      Alike (.describe (.buffer name)) (.text (handleText k x)) (.text (handleText k y))
  | describeCache {name : String} {c : CacheId} {images : Nat} {slots slots' : List Record}
      {cap cap' : Nat} :
      Alike (.describe (.cache name)) (.text (cacheText c images slots cap))
        (.text (cacheText c images slots' cap'))

/-- Where an answer refuses for want of memory, the heap does not grant that many bytes. -/
def Answer.Due (heap : Heap) : Answer → Prop
  | .refused (.allocation e) => e.IsDue heap
  | _ => True

/-! ## 3. What is seen of twins -/

namespace Store.Twins

variable {heap : Heap} {f : RecordId → RecordId} {r : RecordId} {c : CacheId} {b : Handle}
  {w v : Store} {H : Multiset Handle} {O : Multiset CacheId}

theorem exists_handleView (T : Twins heap f H O w v) (held : b ∈ H) :
    ∃ V V', Session.handleView w b = .ok V ∧ Session.handleView v (b.rename f) = .ok V' ∧
      V.Alike V' := by
  obtain ⟨x, y, hx, hy, -, like⟩ := T.exists_like (T.used_of_held held)
  refine ⟨⟨x.area, x.references, x.published, x.capacity, b.image⟩,
    ⟨y.area, y.references, y.published, y.capacity, b.image⟩, ?_, ?_,
    like.area, like.references, like.published, rfl⟩
  · rw [Session.handleView, record_of_get? hx]
    rfl
  · rw [Session.handleView, record_of_get? (r := (b.rename f).record) hy]
    rfl

theorem exists_cacheView (T : Twins heap f H O w v) (owned : c ∈ O) :
    ∃ V V', Session.cacheView w c = .ok V ∧ Session.cacheView v c = .ok V' ∧ V.Alike V' := by
  obtain ⟨s, s', hs, hs', face⟩ := T.exists_cache owned
  refine ⟨⟨c, s.reserve.slots.length, s.stats⟩, ⟨c, s'.reserve.slots.length, s'.stats⟩, ?_, ?_,
    rfl, congrArg Face.stats face⟩
  · rw [Session.cacheView, cacheAt_of_get? T.left.sound.calm hs]
    rfl
  · rw [Session.cacheView, cacheAt_of_get? T.right.sound.calm hs']
    rfl

/-- The pixels of a buffer have the same size on both sides, or there are none on either. -/
theorem sizes_eq (T : Twins heap f H O w v) {x y : Record} (hx : w.records.get? r = some x)
    (hy : v.records.get? (f r) = some y) (like : x.Like y) :
    y.pixels.map Block.size = x.pixels.map Block.size := by
  have sized : ∀ {heap : Heap} {z : Record}, z.Covered heap → z.pixels.map Block.size
      = if z.pixels.isSome then some (byteSize z.area z.bytesPerPixel) else none := by
    intro _ z covered
    cases shown : z.pixels with
    | none => rfl
    | some p => simp [covered.size_pixels shown]
  rw [sized (T.left.covered _ _ hx), sized (T.right.covered _ _ hy), T.pixels_eq hx hy like,
    like.area, like.bytesPerPixel]

/-- The list of an image in a cache looks the same on both sides. -/
theorem listing_eq (T : Twins heap f H O w v) (c : CacheId) (k : ImageKey) :
    Session.listing v c k = Session.listing w c k := by
  have face := T.views.face c
  have calm : w.inside = [] := T.left.sound.calm
  have calm' : v.inside = [] := T.right.sound.calm
  cases hs : w.caches.get? c with
  | none =>
    have hs' : v.caches.get? c = none := by simpa [view, hs] using face
    simp [Session.listing, cacheAt, Store.cache, calm, calm', hs, hs']
  | some s =>
    rw [face_of_get? hs] at face
    obtain ⟨s', hs', same⟩ := Option.map_eq_some_iff.1 face
    have lists : s'.lists.find? k = (s.lists.find? k).map (List.map f) :=
      congrFun (congrArg Face.lists same) k
    simp only [Session.listing, cacheAt_of_get? calm hs, cacheAt_of_get? calm' hs', Fault.ok_bind,
      Fault.pure_eq, lists]
    cases found : s.lists.find? k with
    | none => rfl
    | some members =>
      have areas : ∀ r ∈ members, v.areaOf (f r) = w.areaOf r := fun r hr =>
        T.areaOf_eq (T.used_of_listed (c := c) (k := k) (by
          rw [listOf_of_get? hs, Lists.members, found]
          exact hr))
      simp [Function.comp_def, List.map_congr_left areas]

end Store.Twins

namespace Session

variable {heap : Heap} {f f' : RecordId → RecordId} {s t s' t' : Session} {act : Act}
  {name : String} {c : CacheId} {b : Handle} {w v u : Store}

/-! ## 4. Twins -/

/-- Two sessions have the same names, and `f` relates the handles that these stand for. -/
structure Mates (f : RecordId → RecordId) (s t : Session) : Prop where
  frame : t.frame = s.frame.rename f
  waiting : t.waiting = s.waiting.map (Frame.rename f)
  allocators : t.allocators = s.allocators
  images : t.images = s.images
  nextThread : t.nextThread = s.nextThread

/-- Two sessions differ in the names of their buffers and in what tells of memory only. -/
structure Twin (heap : Heap) (f : RecordId → RecordId) (s t : Session) : Prop
    extends Mates f s t where
  stores : Store.Twins heap f s.handles s.shares s.store t.store

theorem handlesHeld_le (s : Session) {F : Frame} (waits : F ∈ s.waiting) :
    F.handlesHeld ≤ s.handles := by
  have part : F.handlesHeld ≤ (s.waiting.map Frame.handlesHeld).sum :=
    List.le_sum_of_mem (List.mem_map_of_mem waits)
  exact part.trans (Multiset.le_add_left ..)

namespace Mates

theorem caches_eq (M : Mates f s t) : t.frame.caches = s.frame.caches :=
  (congrArg Frame.caches M.frame).trans rfl

theorem thread_eq (M : Mates f s t) : t.frame.thread = s.frame.thread :=
  (congrArg Frame.thread M.frame).trans rfl

theorem blocks_eq (M : Mates f s t) : t.frame.blocks = s.frame.blocks :=
  (congrArg Frame.blocks M.frame).trans rfl

theorem get?_handles (M : Mates f s t) (name : String) :
    t.frame.handles.get? name = (s.frame.handles.get? name).map (Handle.rename f) := by
  rw [M.frame, Frame.rename, Names.get?_map]

/-- The handles that had names may be related by another renaming that agrees on them. -/
theorem of_kept (M : Mates f s t) (kept : ∀ b ∈ s.handles, b.rename f' = b.rename f) :
    Mates f' s t where
  frame := by
    rw [Frame.rename_congr fun b hb => kept b (Multiset.mem_of_le (Multiset.le_add_right ..) hb)]
    exact M.frame
  waiting := by
    have same : ∀ F ∈ s.waiting, F.rename f' = F.rename f := fun F hF =>
      Frame.rename_congr fun b hb => kept b (Multiset.mem_of_le (s.handlesHeld_le hF) hb)
    rw [List.map_congr_left same]
    exact M.waiting
  allocators := M.allocators
  images := M.images
  nextThread := M.nextThread

theorem withStore (M : Mates f s t) (w v : Store) : Mates f (s.withStore w) (t.withStore v) where
  frame := M.frame
  waiting := M.waiting
  allocators := M.allocators
  images := M.images
  nextThread := M.nextThread

/-- The names of the running thread change alike. -/
theorem of_frame (M : Mates f s t) {F G : Frame} (same : G = F.rename f) :
    Mates f { s with frame := F } { t with frame := G } where
  frame := same
  waiting := M.waiting
  allocators := M.allocators
  images := M.images
  nextThread := M.nextThread

theorem put (M : Mates f s t) (name : String) (b : Handle) :
    Mates f (s.withHandles (s.frame.handles.put name b))
      (t.withHandles (t.frame.handles.put name (b.rename f))) :=
  M.of_frame (by rw [M.frame, Frame.rename, Frame.rename, Names.map_put])

theorem forgetHandle? (M : Mates f s t) (name : Option String) :
    Mates f (s.forgetHandle? name) (t.forgetHandle? name) := by
  cases name with
  | none => exact M
  | some name => exact M.of_frame (by rw [M.frame, Frame.rename, Frame.rename, Names.map_erase])

theorem withCaches (M : Mates f s t) (caches : Names CacheId) :
    Mates f (s.withCaches caches) (t.withCaches caches) :=
  M.of_frame (by rw [M.frame]; rfl)

theorem withBlocks (M : Mates f s t) (blocks : Names Loan) :
    Mates f (s.withBlocks blocks) (t.withBlocks blocks) :=
  M.of_frame (by rw [M.frame]; rfl)

theorem withThread (M : Mates f s t) (thread : Thread) :
    Mates f (s.withThread thread) (t.withThread thread) :=
  M.of_frame (by rw [M.frame]; rfl)

end Mates

/-- Two programs that answer, and that refuse for want of memory only where that is due, answer
alike and leave twins; the buffers that could not be taken in the store `u` keep their names. -/
def Meet (heap : Heap) (u : Store) (f : RecordId → RecordId) (act : Act)
    (p q : Except Fault (Answer × Session)) : Prop :=
  ∀ a a', p = .ok a → q = .ok a' → a.1.Due heap → a'.1.Due heap → Answer.Alike act a.1 a'.1 ∧
    ∃ f', (∀ r, u.Engaged r → f' r = f r) ∧ Twin heap f' a.2 a'.2

theorem Meet.of_twin {answer answer' : Answer} (T : Twin heap f s t)
    (like : Answer.Alike act answer answer') :
    Meet heap u f act (.ok (answer, s)) (.ok (answer', t)) := by
  rintro _ _ ⟨⟩ ⟨⟩ - -
  exact ⟨like, f, fun _ _ => rfl, T⟩

/-- Programs that meet by another renaming, which agrees on the buffers that could not be taken. -/
theorem Meet.of_agree {p q : Except Fault (Answer × Session)}
    (agree : ∀ r, u.Engaged r → f' r = f r) (meet : Meet heap u f' act p q) :
    Meet heap u f act p q := by
  intro a a' run run' due due'
  obtain ⟨like, g, agree', T⟩ := meet a a' run run' due due'
  exact ⟨like, g, fun r hr => (agree' r hr).trans (agree r hr), T⟩

theorem Meet.same (T : Twin heap f s t) (answer : Answer) :
    Meet heap u f act (.ok (answer, s)) (.ok (answer, t)) :=
  .of_twin T (.same answer)

namespace Twin

/-! ## 5. Looking up names -/

theorem withCache {go go' : CacheId → Except Fault (Answer × Session)} (T : Twin heap f s t)
    (rest : ∀ c, s.frame.caches.get? name = some c → c ∈ s.shares →
      Meet heap u f act (go c) (go' c)) :
    Meet heap u f act (s.withCache name go) (t.withCache name go') := by
  unfold Session.withCache
  rw [T.caches_eq]
  split
  · next c hc => exact rest c hc (mem_shares hc)
  · exact .same T _

theorem withHandle {go go' : Handle → Except Fault (Answer × Session)} (T : Twin heap f s t)
    (rest : ∀ b, s.frame.handles.get? name = some b → b ∈ s.handles →
      Meet heap u f act (go b) (go' (b.rename f))) :
    Meet heap u f act (s.withHandle name go) (t.withHandle name go') := by
  unfold Session.withHandle
  rw [T.get?_handles]
  cases hb : s.frame.handles.get? name with
  | some b => exact rest b hb (mem_handles hb)
  | none => exact .same T _

theorem withHandle? {name : Option String}
    {go go' : Option Handle → Except Fault (Answer × Session)} (T : Twin heap f s t)
    (rest : Meet heap u f act (go (s.handle? name))
      (go' ((s.handle? name).map (Handle.rename f)))) :
    Meet heap u f act (s.withHandle? name go) (t.withHandle? name go') := by
  cases name with
  | none => exact rest
  | some name =>
    refine T.withHandle fun b hb _ => ?_
    simpa [handle?, hb] using rest

theorem withImage {go go' : Image → Except Fault (Answer × Session)} (T : Twin heap f s t)
    (rest : ∀ i, Meet heap u f act (go i) (go' i)) :
    Meet heap u f act (s.withImage name go) (t.withImage name go') := by
  unfold Session.withImage
  rw [T.images]
  split
  · exact rest _
  · exact .same T _

theorem withAllocator {go go' : AllocatorId → Except Fault (Answer × Session)} (T : Twin heap f s t)
    (rest : ∀ a, s.allocators.get? name = some a → Meet heap u f act (go a) (go' a)) :
    Meet heap u f act (s.withAllocator name go) (t.withAllocator name go') := by
  unfold Session.withAllocator
  rw [T.allocators]
  split
  · next a ha => exact rest a ha
  · exact .same T _

theorem withBlock {go go' : Loan → Except Fault (Answer × Session)} (T : Twin heap f s t)
    (rest : ∀ loan, Meet heap u f act (go loan) (go' loan)) :
    Meet heap u f act (s.withBlock name go) (t.withBlock name go') := by
  unfold Session.withBlock
  rw [T.blocks_eq]
  split
  · exact rest _
  · exact .same T _

theorem knows_eq (T : Twin heap f s t) (kind : Kind) (name : String) :
    t.knows kind name = s.knows kind name := by
  cases kind <;>
    simp [knows, T.caches_eq, T.blocks_eq, T.get?_handles, T.images, T.allocators]

/-! ## 6. Names that come and go -/

/-- Only the stores change, and stay twins. -/
theorem withStore (T : Twin heap f s t) (stores : Store.Twins heap f s.handles s.shares w v) :
    Twin heap f (s.withStore w) (t.withStore v) where
  toMates := T.toMates.withStore w v
  stores := stores

end Twin

namespace Mates

theorem nameHandle (M : Mates f s t) (stores : Store.Twins heap f (b ::ₘ s.handles) s.shares w v)
    (name : String) :
    ∃ s' t', (s.withStore w).nameHandle name b = .ok s' ∧
      (t.withStore v).nameHandle name (b.rename f) = .ok t' ∧ Twin heap f s' t' := by
  have held : b ::ₘ s.handles = (s.frame.handles.get? name).toList +
      (s.withHandles (s.frame.handles.put name b)).handles := by
    rw [handles_put, s.handles_erase name, Multiset.add_cons]
  rw [held] at stores
  obtain ⟨w', v', run, run', stores'⟩ := stores.dropHandle?
  rw [← M.get?_handles] at run'
  refine ⟨_, _, ?_, ?_, ⟨(M.put name b).withStore w' v', stores'⟩⟩
  · exact congrArg (· >>= fun u => .ok ((s.withHandles (s.frame.handles.put name b)).withStore u))
      run
  · exact congrArg (· >>= fun u =>
      .ok ((t.withHandles (t.frame.handles.put name (b.rename f))).withStore u)) run'

/-- Naming what an operation gave, and showing it. -/
theorem nameOutcome {o o' : Except Refusal Handle} (M : Mates f s t)
    (gives : Store.Twins.Gives heap u f s.handles s.shares (o, w) (o', v)) (name : String) :
    Meet heap u f act ((s.withStore w).nameOutcome name o)
      ((t.withStore v).nameOutcome name o') := by
  intro a a' run run' due due'
  have due_of : ∀ {u : Session} {o : Except Refusal Handle} {a : Answer × Session},
      u.nameOutcome name o = .ok a → a.1.Due heap → Store.Twins.Due heap o := by
    rintro u _ _ run due e rfl
    obtain rfl := Except.ok.inj run
    exact due
  obtain ⟨f', kept, agree, same, stores⟩ := gives (due_of run due) (due_of run' due')
  have M' := M.of_kept kept
  cases o with
  | error e =>
    obtain rfl : o' = .error e := same
    rw [World.given_error, zero_add] at stores
    exact (Meet.same ⟨M'.withStore w v, stores⟩ _).of_agree agree a a' run run' due due'
  | ok b =>
    obtain rfl : o' = .ok (b.rename f') := same
    rw [World.given_ok, Multiset.singleton_add] at stores
    obtain ⟨V, V', view, view', like⟩ := stores.exists_handleView (Multiset.mem_cons_self b _)
    obtain ⟨s', t', named, named', T⟩ := M'.nameHandle stores name
    have left : (s.withStore w).nameOutcome name (.ok b) = .ok (.handle V, s') := by
      simp only [Session.nameOutcome, Session.withStore, view, Fault.ok_bind] at named ⊢
      rw [named]
      rfl
    have right : (t.withStore v).nameOutcome name (.ok (b.rename f')) = .ok (.handle V', t') := by
      simp only [Session.nameOutcome, Session.withStore, view', Fault.ok_bind] at named' ⊢
      rw [named']
      rfl
    rw [left] at run
    rw [right] at run'
    exact (Meet.of_twin T (.handle like)).of_agree agree a a' run run' due due'

theorem nameCache (M : Mates f s t) (stores : Store.Twins heap f s.handles (c ::ₘ s.shares) w v)
    (name : String) :
    ∃ s' t', (s.withStore w).nameCache name c = .ok s' ∧
      (t.withStore v).nameCache name c = .ok t' ∧ Twin heap f s' t' := by
  have held : c ::ₘ s.shares = (s.frame.caches.get? name).toList +
      (s.withCaches (s.frame.caches.put name c)).shares := by
    rw [shares_put, s.shares_erase name, Multiset.add_cons]
  have named := M.withCaches (s.frame.caches.put name c)
  have left : (s.withStore w).frame.caches = s.frame.caches := rfl
  have right : (t.withStore v).frame.caches = s.frame.caches := M.caches_eq
  unfold Session.nameCache
  rw [left, right]
  rw [held] at stores
  cases old : s.frame.caches.get? name with
  | none =>
    rw [old, Option.toList_none, Multiset.coe_nil, zero_add] at stores
    exact ⟨_, _, rfl, rfl, named.withStore w v, stores⟩
  | some d =>
    rw [old, Option.toList_some, Multiset.coe_singleton, Multiset.singleton_add] at stores
    obtain ⟨w', v', run, run', stores'⟩ := stores.dropOwner
    refine ⟨_, _, ?_, ?_, named.withStore w' v', stores'⟩
    · exact congrArg (· >>= fun u =>
        .ok ((s.withCaches (s.frame.caches.put name c)).withStore u)) run
    · exact congrArg (· >>= fun u =>
        .ok ((t.withCaches (s.frame.caches.put name c)).withStore u)) run'

theorem nameOrDropCache (M : Mates f s t)
    (stores : Store.Twins heap f s.handles (c ::ₘ s.shares) w v)
    (name : Option String) :
    ∃ s' t', (s.withStore w).nameOrDropCache name c = .ok s' ∧
      (t.withStore v).nameOrDropCache name c = .ok t' ∧ Twin heap f s' t' := by
  cases name with
  | some name => exact M.nameCache stores name
  | none =>
    obtain ⟨w', v', run, run', stores'⟩ := stores.dropOwner
    refine ⟨_, _, ?_, ?_, M.withStore w' v', stores'⟩
    · exact congrArg (· >>= fun u => .ok (s.withStore u)) run
    · exact congrArg (· >>= fun u => .ok (t.withStore u)) run'

end Mates

/-! ## 7. Ending a thread -/

theorem dropHandles_twins {H : Multiset Handle} {O : Multiset CacheId} (bs : List Handle)
    (T : Store.Twins heap f (bs + H) O w v) :
    ∃ w' v', dropHandles w bs = .ok w' ∧ dropHandles v (bs.map (Handle.rename f)) = .ok v' ∧
      Store.Twins heap f H O w' v' := by
  induction bs generalizing w v with
  | nil => exact ⟨w, v, rfl, rfl, by simpa using T⟩
  | cons b bs ih =>
    rw [← Multiset.cons_coe, Multiset.cons_add] at T
    obtain ⟨w₁, v₁, first, first', T₁⟩ := T.dropHandle
    obtain ⟨w', v', rest, rest', T'⟩ := ih T₁
    refine ⟨w', v', ?_, ?_, T'⟩
    · rw [dropHandles, first, Fault.ok_bind, rest]
    · rw [List.map_cons, dropHandles, first', Fault.ok_bind, rest']

theorem dropOwners_twins {H : Multiset Handle} {O : Multiset CacheId} (cs : List CacheId)
    (T : Store.Twins heap f H (cs + O) w v) :
    ∃ w' v', dropOwners w cs = .ok w' ∧ dropOwners v cs = .ok v' ∧
      Store.Twins heap f H O w' v' := by
  induction cs generalizing w v with
  | nil => exact ⟨w, v, rfl, rfl, by simpa using T⟩
  | cons c cs ih =>
    rw [← Multiset.cons_coe, Multiset.cons_add] at T
    obtain ⟨w₁, v₁, first, first', T₁⟩ := T.dropOwner
    obtain ⟨w', v', rest, rest', T'⟩ := ih T₁
    refine ⟨w', v', ?_, ?_, T'⟩
    · rw [dropOwners, first, Fault.ok_bind, rest]
    · rw [dropOwners, first', Fault.ok_bind, rest']

/-- Closing the running thread on both sides leaves nothing that it holds. -/
theorem Twin.closeFrame (T : Twin heap f s t) :
    ∃ s' t', s.closeFrame = .ok s' ∧ t.closeFrame = .ok t' ∧ Twin heap f s' t' ∧
      s'.frame.handlesHeld = 0 ∧ s'.frame.sharesHeld = 0 := by
  obtain ⟨w₁, v₁, handles, handles', T₁⟩ := dropHandles_twins s.frame.handles.values T.stores
  have split : s.shares = (s.frame.caches.values : Multiset CacheId) +
      (s.frame.thread.binding.owned + (s.waiting.map Frame.sharesHeld).sum) := add_assoc ..
  rw [split] at T₁
  obtain ⟨w₂, v₂, caches, caches', T₂⟩ := dropOwners_twins _ T₁
  obtain ⟨thread, w₃, v₃, bound, bound', destroyed, T₃⟩ := T₂.destroyBinding
  have unowned : (⟨thread, .empty, .empty, .empty⟩ : Frame).sharesHeld = 0 := by
    simp [Frame.sharesHeld, destroyed]
  have unheld : (⟨thread, .empty, .empty, .empty⟩ : Frame).handlesHeld = 0 := rfl
  have closed : Mates f { s with frame := ⟨thread, .empty, .empty, .empty⟩ }
      { t with frame := ⟨thread, .empty, .empty, .empty⟩ } := T.of_frame rfl
  rw [← T.thread_eq] at bound'
  rw [← T.caches_eq] at caches'
  have values : t.frame.handles.values = s.frame.handles.values.map (Handle.rename f) := by
    rw [T.frame, Frame.rename, Names.values_map]
  rw [← values] at handles'
  refine ⟨{ s with store := w₃, frame := ⟨thread, .empty, .empty, .empty⟩ },
    { t with store := v₃, frame := ⟨thread, .empty, .empty, .empty⟩ }, ?_, ?_,
    ⟨closed.withStore w₃ v₃, ?_⟩, unheld, unowned⟩
  · rw [Session.closeFrame, handles, Fault.ok_bind, caches, Fault.ok_bind, bound]
    rfl
  · rw [Session.closeFrame, handles', Fault.ok_bind, caches', Fault.ok_bind, bound']
    rfl
  · simpa [Session.handles, Session.shares, unowned, unheld] using T₃

end Session

end PixelPool
