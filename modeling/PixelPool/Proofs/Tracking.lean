import PixelPool.Proofs.Results
import PixelPool.Proofs.Runs

/-!
Relations that requests keep.

What some properties say of a request is true of the request as a whole and of none of its moves: a
miss that is counted is made up for by the buffer that is acquired after it. Such a property is a
relation between the world before and the world after. `World.Tracks` asks four things of it,
besides that it composes: that quiet moves keep it, and the count of an answer, an acquisition after
its miss, and a resize. Then every way to request or to exchange a buffer keeps it. Main statement:
so does every act that requests one (`Session.Sound.asked_tracks`).
-/

namespace PixelPool

namespace World

variable {α : Type} {W V : World} {i : Image} {c : CacheId} {b : Handle} {area : Rect}
  {O : Multiset CacheId} {H : Multiset Handle}

/-! ## 1. Relations that operations keep -/

theorem any_quiet (m : Move) (_ : m.Quiet) : True := trivial

theorem allowsTaking_any (w : Store) (c : CacheId) : w.AllowsTaking c fun _ => True :=
  ⟨fun _ _ => ⟨fun _ _ => trivial, trivial⟩, fun _ _ => trivial⟩

/-- A relation between worlds that is kept by whatever requests for an image are made of. -/
structure Tracks (i : Image) (R : World → World → Prop) : Prop where
  refl : ∀ W, R W W
  trans : ∀ {W V U}, R W V → R V U → R W U
  move : ∀ {m W V}, W.Sound → m.Quiet → Step m W V → R W V
  hit : ∀ W c, R W { W with store := W.store.count c .addHit }
  moved : ∀ W c, R W { W with store := W.store.count c .addMoved }
  missed : ∀ {W c area a}, W.Sound → c ∈ W.shares →
    (W.store.count c .addMiss).acquire c i area = .ok a →
      R W { W with store := a.2, handles := given a.1 + W.handles }
  resized : ∀ {W b area a}, W.Sound → b ∈ W.handles → b.cache ∈ W.shares →
    W.store.resize b.cache b area false = .ok a → R W { W with store := a.2 }

namespace Tracks

variable {R : World → World → Prop}

theorem quiet (t : Tracks i R) (h : W.Sound) (moves : W.Reaches Move.Quiet V) : R W V :=
  (moves.keeps (I := fun V => V.Sound ∧ R W V)
    (fun _ _ _ quiet move ⟨sound, related⟩ =>
      ⟨sound.step move, t.trans related (t.move sound quiet move)⟩) ⟨h, t.refl W⟩).2

/-- A program of quiet moves keeps the relation. -/
theorem does {program : Except Fault α} {post : α → World → Prop} (t : Tracks i R) (h : W.Sound)
    (quiet : W.Does Move.Quiet program post) :
    W.Does (fun _ => True) program fun a V => post a V ∧ R W V := by
  obtain ⟨a, V, run, moves, holds⟩ := quiet
  exact ⟨a, V, run, moves.mono fun _ _ => trivial, holds, t.quiet h moves⟩

/-! ## 2. Requests and exchanges -/

/-- An acquisition after its miss. -/
theorem acquire (t : Tracks i R) (h : W.Sound) (owned : c ∈ W.shares) (area : Rect) :
    W.Does (fun _ => True) ((W.store.count c .addMiss).acquire c i area) fun a V =>
      V = { W with store := a.2, handles := given a.1 + W.handles } ∧ R W V := by
  have missed : W.Reaches (fun _ => True) { W with store := W.store.count c .addMiss } :=
    Reaches.refl.tally trivial
  have does : World.Does (fun _ => True) { W with store := W.store.count c .addMiss }
      ((W.store.count c .addMiss).acquire c i area) _ :=
    acquire_does (h.reaches missed) any_quiet owned (allowsTaking_any _ _)
  obtain ⟨a, V, run, moves, rfl⟩ := does
  exact .done run (missed.trans moves) ⟨rfl, t.missed h owned run⟩

theorem request (t : Tracks i R) (h : W.Sound) (owned : c ∈ W.shares) (area : Rect) :
    W.Does (fun _ => True) (W.store.request c i area) fun a V =>
      V = { W with store := a.2, handles := given a.1 + W.handles } ∧ R W V := by
  refine .bind h (t.does h (lookup_does h (fun _ => id) owned)) ?_
  rintro ⟨found, w⟩ V hV ⟨⟨hw, rfl⟩ | ⟨b, rfl, rfl⟩, related⟩
  · obtain ⟨rfl, rfl⟩ := Prod.mk.inj hw
    exact t.acquire h owned area
  · have counted := t.trans related (t.hit _ c)
    have reported := (Reaches.refl (P := Move.Quiet) (W := { W with
      store := w.count c .addHit, handles := b ::ₘ W.handles })).report (fun _ => id)
      (e := .hit c i.key area (w.referencesOf b.record)) trivial
    refine .done rfl ((Reaches.refl.tally trivial).trans (reported.mono any_quiet)) ⟨by simp, ?_⟩
    exact t.trans counted (t.quiet (hV.count c .addHit) reported)

theorem acquireMissed (t : Tracks i R) (h : W.Sound) (owned : c ∈ W.shares) (area : Rect) :
    W.Does (fun _ => True) (W.store.acquireMissed c i area) fun a V =>
      V = { W with store := a.2, handles := given a.1 + W.handles } ∧ R W V := by
  refine .bind h (t.acquire h owned area) ?_
  rintro a V - ⟨rfl, related⟩
  exact .still rfl ⟨by simp, by simpa using related⟩

theorem exchangeNone (t : Tracks i R) (h : W.Sound) (owned : c ∈ W.shares) (area : Rect) :
    W.Does (fun _ => True) (W.store.exchange c none i area) fun a V =>
      V = { W with store := a.2, handles := given a.1 + W.handles } ∧ R W V := by
  refine .bind h (t.does h (lookup_does h (fun _ => id) owned)) ?_
  rintro ⟨found, w⟩ V hV ⟨⟨hw, rfl⟩ | ⟨b, rfl, rfl⟩, related⟩
  · obtain ⟨rfl, rfl⟩ := Prod.mk.inj hw
    exact t.acquireMissed h owned area
  · exact .done rfl (Reaches.refl.tally trivial) ⟨by simp, t.trans related (t.hit _ c)⟩

theorem exchangeSome (t : Tracks i R) (h : W.Sound) (owned : c ∈ W.shares)
    (held : W.handles = b ::ₘ H) (area : Rect) :
    W.Does (fun _ => True) (W.store.exchange c (some b) i area) fun a V =>
      V = { W with store := a.2, handles := given a.1 + H } ∧ R W V := by
  have dropped := t.does h (dropHandle_does h (fun _ => id) held)
  have refused : ∀ v, W.Does (fun _ => True)
      (W.store.dropHandle b >>= fun w => .ok (.error (.violation v), w))
      fun (a : Except Refusal Handle × Store) V =>
        V = { W with store := a.2, handles := given a.1 + H } ∧ R W V := by
    intro v
    refine .bind h dropped ?_
    rintro w V - ⟨⟨rfl, -⟩, related⟩
    exact .still rfl ⟨by simp, related⟩
  by_cases foreign : b.cache ≠ c
  · simpa [Store.exchange, foreign] using refused .foreignCache
  obtain rfl := not_not.1 foreign
  by_cases other : b.image ≠ i.key
  · simpa [Store.exchange, other] using refused .otherImage
  simp only [Store.exchange, ne_eq, not_true_eq_false, if_false, other, Fault.pure_eq]
  by_cases encloses : (W.store.areaOf b.record).encloses area = true
  · rw [if_pos encloses]
    exact .still rfl ⟨by simp [← held], t.refl W⟩
  rw [if_neg encloses]
  refine .bind h (t.does h (lookup_does h (fun _ => id) owned)) ?_
  rintro ⟨found, w⟩ V hV ⟨⟨hw, rfl⟩ | ⟨hit, rfl, rfl⟩, related⟩
  · obtain ⟨rfl, rfl⟩ := Prod.mk.inj hw
    dsimp only
    by_cases sole : V.store.referencesOf b.record = 1
    · rw [if_pos sole]
      have does : V.Does (fun _ => True) (V.store.resize b.cache b area false) _ :=
        resize_does h any_quiet (by simp [held]) (fun _ _ _ => ⟨trivial, trivial⟩) false
      obtain ⟨⟨outcome, w⟩, V', run, moves, rfl, -⟩ := does
      have sound := h.reaches moves
      have resized := t.resized h (by simp [held]) owned run
      rw [run, Fault.ok_bind]
      refine .after moves ?_
      cases outcome with
      | ok _ =>
        exact .done rfl (Reaches.refl.tally trivial)
          ⟨by simp [held], t.trans resized (t.moved _ b.cache)⟩
      | error e =>
        refine .bind sound (t.does sound (dropHandle_does sound (fun _ => id) held)) ?_
        rintro w V'' - ⟨⟨rfl, -⟩, parted⟩
        exact .still rfl ⟨by simp, t.trans resized parted⟩
    · rw [if_neg sole]
      refine .bind h dropped ?_
      rintro w V' hV' ⟨⟨rfl, -⟩, parted⟩
      refine .weaken (t.acquireMissed hV' owned area) ?_ hV'
      rintro a V'' - ⟨rfl, taken⟩
      exact ⟨rfl, t.trans parted taken⟩
  · have counted := t.trans related (t.hit _ b.cache)
    have sound := hV.count b.cache .addHit
    have parting := dropHandle_does (b := b) (H := hit ::ₘ H) sound (fun _ => id)
      (by simp [held, Multiset.cons_swap])
    refine .after (Reaches.refl.tally trivial) (.bind sound (t.does sound parting) ?_)
    rintro w' V' - ⟨⟨rfl, -⟩, parted⟩
    exact .still rfl ⟨by simp, t.trans counted parted⟩

theorem exchange (t : Tracks i R) (h : W.Sound) (owned : c ∈ W.shares) {old : Option Handle}
    (held : W.handles = old.toList + H) (area : Rect) :
    W.Does (fun _ => True) (W.store.exchange c old i area) fun a V =>
      V = { W with store := a.2, handles := given a.1 + H } ∧ R W V := by
  cases old with
  | none =>
    obtain rfl : W.handles = H := by simpa using held
    exact t.exchangeNone h owned area
  | some b => exact t.exchangeSome h owned (by simpa using held) area

/-! ## 3. Requests to the cache of a thread -/

theorem requestHere (t : Tracks i R) (h : W.Sound) (thread : Thread)
    (held : W.shares = thread.binding.owned + O) (area : Rect) :
    W.Does (fun _ => True) (thread.request W.store i area) fun a V =>
      V = { W with
        store := a.2
        handles := given a.1.1 + W.handles
        shares := a.1.2.binding.owned + O } ∧ R W V := by
  have moves := current_reaches (P := Move.Quiet) h (fun _ => id) thread held
  have sound := h.reaches moves
  have current := t.quiet h moves
  unfold Thread.request
  generalize thread.current W.store = result at moves current sound
  obtain ⟨⟨c, thread'⟩, w⟩ := result
  refine .after (moves.mono any_quiet) (.bind sound (t.request sound (by simp) area) ?_)
  rintro ⟨outcome, w⟩ V hV ⟨rfl, taken⟩
  refine .bind hV (t.does hV (dropOwner_does hV (fun _ => id) rfl)) ?_
  rintro w' V' - ⟨rfl, dropped⟩
  exact .still rfl ⟨rfl, t.trans (t.trans current taken) dropped⟩

theorem exchangeHere (t : Tracks i R) (h : W.Sound) (thread : Thread) {old : Option Handle}
    (handles : W.handles = old.toList + H) (held : W.shares = thread.binding.owned + O)
    (area : Rect) :
    W.Does (fun _ => True) (thread.exchange W.store old i area) fun a V =>
      V = { W with
        store := a.2
        handles := given a.1.1 + H
        shares := a.1.2.binding.owned + O } ∧ R W V := by
  unfold Thread.exchange
  cases own : old.filter fun b => W.store.isAlive b.cache with
  | some b =>
    obtain ⟨rfl, alive⟩ := Option.filter_eq_some_iff.1 own
    refine .bind h (t.exchange h (h.alive_iff.1 alive) handles area) ?_
    rintro a V - ⟨rfl, related⟩
    exact .still rfl ⟨by simp [held], related⟩
  | none =>
    refine .bind h (t.does h (dropHandle?_does h (fun _ => id) handles)) ?_
    rintro w V hV ⟨⟨rfl, -⟩, parted⟩
    have moves := current_reaches (P := Move.Quiet) hV (fun _ => id) thread held
    have sound := hV.reaches moves
    have current := t.quiet hV moves
    dsimp only at moves current sound ⊢
    generalize thread.current w = result at moves current sound
    obtain ⟨⟨c, thread'⟩, u⟩ := result
    refine .after (moves.mono any_quiet) (.bind sound (t.exchangeNone sound (by simp) area) ?_)
    rintro ⟨outcome, w'⟩ V' hV' ⟨rfl, taken⟩
    refine .bind hV' (t.does hV' (dropOwner_does hV' (fun _ => id) rfl)) ?_
    rintro w'' V'' - ⟨rfl, dropped⟩
    exact .still rfl ⟨rfl, t.trans (t.trans (t.trans parted current) taken) dropped⟩

end Tracks

end World

/-- The image that an act asks a buffer for, by its name. -/
def Act.image? : Act → Option String
  | .acquire _ image _ _ | .request _ image _ _ | .exchange _ image _ _ _ | .requestHere image _ _
  | .exchangeOwn image _ _ _ => some image
  | _ => none

namespace Session

/-- The image that an act asks a buffer for. -/
def asked (s : Session) (act : Act) : Option Image := act.image?.bind s.images.get?

variable {s : Session} {out : Multiset Loan} {act : Act} {i : Image}

/-! ## 4. Acts -/

/-- An act that names what an operation gave ends with quiet moves, by which the name passes on. -/
theorem named_reaches {α : Type} {program : Except Fault α} {t : α → Session}
    {o : α → Except Refusal Handle} {name : String} {Q : α → World → Prop} (h : s.Sound out)
    (does : (s.world out).Does (fun _ => True) program fun a V =>
      V = { (t a).world out with handles := World.given (o a) + (t a).handles } ∧ Q a V)
    (run : (program >>= fun a => (t a).nameOutcome name (o a)) = .ok (s.step act)) :
    ∃ a V, program = .ok a ∧ V.Sound ∧ Q a V ∧
      V.Reaches Move.Quiet ((s.step act).2.world out) := by
  obtain ⟨a, _, ha, moves, rfl, holds⟩ := does
  have sound := h.world.reaches moves
  rw [ha, Fault.ok_bind] at run
  refine ⟨a, _, ha, sound, holds, ?_⟩
  cases outcome : o a with
  | error e =>
    rw [outcome] at run
    rw [← Except.ok.inj run, World.given_error, zero_add]
    exact .refl
  | ok b =>
    rw [outcome, World.given_ok, Multiset.singleton_add] at sound
    obtain ⟨s', _, hs', named, rfl, -⟩ := nameHandle_does sound (fun _ => id) name
    obtain ⟨x, hx, -⟩ := sound.exists_record (b := b) (by simp)
    have view : handleView (t a).store b
        = .ok ⟨x.area, x.references, x.published, x.capacity, b.image⟩ := by
      simp [handleView, Store.record_of_get? (show (t a).store.records.get? _ = _ from hx)]
    rw [outcome, nameOutcome, view, Fault.ok_bind, hs', Fault.ok_bind] at run
    rw [← Except.ok.inj run, World.given_ok, Multiset.singleton_add]
    exact named

theorem withHandle?_cases {name : Option String}
    {go : Option Handle → Except Fault (Answer × Session)} {a : Answer × Session}
    (run : s.withHandle? name go = .ok a) :
    (∃ answer, Except.ok (answer, s) = Except.ok (ε := Fault) a) ∨ go (s.handle? name) = .ok a := by
  unfold withHandle? at run
  cases name with
  | none => exact .inr run
  | some name =>
    simp only [withHandle] at run
    split at run
    · next b hb => exact .inr (by simpa [handle?, hb] using run)
    · exact .inl ⟨_, run⟩

/-- An act that acquires a buffer directly does nothing, since it uses a name that stands for
nothing, or it acquires the buffer and names it by quiet moves. -/
theorem Sound.acquire_step (h : s.Sound out) (cache image : String) (area : Rect) (name : String) :
    ((∀ c i, s.frame.caches.get? cache = some c → s.images.get? image = some i → False) ∧
      (s.step (.acquire cache image area name)).2 = s) ∨
    ∃ c i a, s.frame.caches.get? cache = some c ∧ s.images.get? image = some i ∧
      s.store.acquire c i area = .ok a ∧
      World.Sound { s.world out with store := a.2, handles := World.given a.1 + s.handles } ∧
      World.Reaches Move.Quiet
        { s.world out with store := a.2, handles := World.given a.1 + s.handles }
        ((s.step (.acquire cache image area name)).2.world out) := by
  have run := h.perform_eq (.acquire cache image area name)
  simp only [perform, withCache, withImage] at run
  split at run
  · next c hc =>
    split at run
    · next i hi =>
      have does : (s.world out).Does (fun _ => True) (s.store.acquire c i area) _ :=
        World.acquire_does h.world World.any_quiet (mem_shares hc) (World.allowsTaking_any _ _)
      obtain ⟨a, V, ha, sound, rfl, named⟩ := named_reaches
        (t := fun a : Except StorageError Handle × Store => s.withStore a.2)
        (o := fun a => Store.asRefusal a.1) h (Q := fun a V => V =
          { s.world out with store := a.2, handles := World.given a.1 + s.handles })
        (does.weaken (fun a V _ hV => ⟨by rw [World.given_asRefusal]; exact hV, hV⟩) h.world) run
      exact .inr ⟨c, i, a, hc, hi, ha, sound, named⟩
    · next hi => exact .inl ⟨by simp [hi], by rw [← Except.ok.inj run]⟩
  · next hc => exact .inl ⟨by simp [hc], by rw [← Except.ok.inj run]⟩

/-- The acts that request or exchange a buffer keep what all requests for its image keep. -/
theorem Sound.asked_tracks {R : Image → World → World → Prop} (tracks : ∀ i, World.Tracks i (R i))
    (h : s.Sound out) (acquires : act.acquires = true)
    (indirect : ∀ cache image area name, act ≠ .acquire cache image area name) :
    (s.step act).2 = s ∨
      ∃ i, s.asked act = some i ∧ R i (s.world out) ((s.step act).2.world out) := by
  have run := h.perform_eq act
  have unknown : ∀ {answer}, Except.ok (answer, s) = Except.ok (ε := Fault) (s.step act) →
      (s.step act).2 = s := by
    intro answer idle
    rw [← Except.ok.inj idle]
  have named : ∀ {i W}, W.Sound → R i (s.world out) W →
      W.Reaches Move.Quiet ((s.step act).2.world out) →
        R i (s.world out) ((s.step act).2.world out) :=
    fun {i W} sound related moves => (tracks i).trans related ((tracks i).quiet sound moves)
  cases act with
  | acquire cache image area name => exact absurd rfl (indirect cache image area name)
  | request cache image area name =>
    simp only [perform, withCache, withImage] at run
    split at run
    · next c hc =>
      split at run
      · next i hi =>
        have does := (tracks i).request h.world (mem_shares hc) area
        obtain ⟨a, V, -, sound, related, moves⟩ := named_reaches
          (t := fun a : Except StorageError Handle × Store => s.withStore a.2)
          (o := fun a => Store.asRefusal a.1) (Q := fun _ => R i (s.world out)) h
          (does.weaken (fun a V _ hV => by rw [World.given_asRefusal]; exact hV) h.world) run
        exact .inr ⟨i, hi, named sound related moves⟩
      · exact .inl (unknown run)
    · exact .inl (unknown run)
  | exchange cache image area buffer name =>
    simp only [perform, withCache, withImage] at run
    split at run
    · next c hc =>
      split at run
      · next i hi =>
        rcases withHandle?_cases run with ⟨_, run⟩ | run
        · exact .inl (unknown run)
        · have does := (tracks i).exchange h.world (mem_shares hc) (s.handles_forget buffer) area
          obtain ⟨a, V, -, sound, related, moves⟩ := named_reaches
            (t := fun a : Except Refusal Handle × Store => (s.forgetHandle? buffer).withStore a.2)
            (o := fun a => a.1) (Q := fun _ => R i (s.world out)) h
            (does.weaken (fun a V _ hV => by rwa [world_forget s buffer] at hV) h.world) run
          exact .inr ⟨i, hi, named sound related moves⟩
      · exact .inl (unknown run)
    · exact .inl (unknown run)
  | requestHere image area name =>
    simp only [perform, withImage] at run
    split at run
    · next i hi =>
      have does := (tracks i).requestHere h.world s.frame.thread s.shares_eq area
      obtain ⟨a, V, -, sound, related, moves⟩ := named_reaches
        (t := fun a : (Except StorageError Handle × Thread) × Store =>
          (s.withThread a.1.2).withStore a.2)
        (o := fun a => Store.asRefusal a.1.1) (Q := fun _ => R i (s.world out)) h
        (does.weaken (fun a V _ hV => by
          rw [World.given_asRefusal]
          rwa [← s.shares_withThread] at hV) h.world) run
      exact .inr ⟨i, hi, named sound related moves⟩
    · exact .inl (unknown run)
  | exchangeOwn image area buffer name =>
    simp only [perform, withImage] at run
    split at run
    · next i hi =>
      rcases withHandle?_cases run with ⟨_, run⟩ | run
      · exact .inl (unknown run)
      · have does := (tracks i).exchangeHere h.world s.frame.thread (s.handles_forget buffer)
          s.shares_eq area
        obtain ⟨a, V, -, sound, related, moves⟩ := named_reaches
          (t := fun a : (Except Refusal Handle × Thread) × Store =>
            ((s.forgetHandle? buffer).withThread a.1.2).withStore a.2)
          (o := fun a => a.1.1) (Q := fun _ => R i (s.world out)) h
          (does.weaken (fun a V _ hV => by
            rw [← s.shares_withThread] at hV
            refine ⟨hV.1.trans ?_, hV.2⟩
            cases buffer <;> rfl) h.world) run
        exact .inr ⟨i, hi, named sound related moves⟩
    · exact .inl (unknown run)
  | _ => cases acquires

end Session

end PixelPool
