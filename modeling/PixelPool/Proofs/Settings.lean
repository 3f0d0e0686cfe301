import PixelPool.Proofs.Routing

/-!
The settings that all threads share are fixed once.

A run of calls starts from a store in which nothing has happened yet. Some calls install a setting
or read it, and some make a cache, which may fix a setting unseen. Both settings obey the same law,
of which each clause is about one call (`Setting.Lawful`); what it comes to over a run of calls
follows for both at once (`Setting.Lawful.exists_fixedOnce`). Main statement:
`Store.settings_fixed_once`.
-/

namespace PixelPool

/-! ## 1. Calls -/

/-- Whether a thread is bound to a cache. -/
def Thread.isBound (t : Thread) : Bool :=
  match t.binding with
  | .bound _ => true
  | _ => false

/-- A call that has to do with the settings, or makes something that is built on them. -/
inductive Call where
  /-- The environment variable is set to a value, or taken away. -/
  | setEnvironment (value : Option String)
  | createAllocator (limit : Option Nat)
  | install (config : Config)
  | sharedConfig
  | installAllocator (a : AllocatorId)
  | sharedAllocator
  /-- Asks for the cache of a thread, which is made now unless the thread is bound to one. -/
  | current (t : Thread)
  | createWithConfig (thread : ThreadId) (config : Config)
  | createCache (thread : ThreadId) (config : Config) (a : AllocatorId)

/-- What a call gives. -/
inductive Reply where
  | done
  | installed (outcome : Except ConfigError Unit)
  | config (config : Config)
  | allocator (a : AllocatorId)
  | cache (c : CacheId)

/-- Performs a call. -/
def Call.perform (w : Store) : Call → Reply × Store
  | .setEnvironment value =>
    (.done, { w with settings := { w.settings with environment := value } })
  | .createAllocator limit =>
    let (a, w) := w.createAllocator limit
    (.allocator a, w)
  | .install config =>
    let (outcome, w) := w.install config
    (.installed outcome, w)
  | .sharedConfig =>
    let (config, w) := w.sharedConfig
    (.config config, w)
  | .installAllocator a =>
    let (outcome, w) := w.installAllocator a
    (.installed outcome, w)
  | .sharedAllocator =>
    let (a, w) := w.sharedAllocator
    (.allocator a, w)
  | .current t =>
    let ((c, _), w) := t.current w
    (.cache c, w)
  | .createWithConfig thread config =>
    let (c, w) := w.createWithConfig thread config
    (.cache c, w)
  | .createCache thread config a =>
    let (c, w) := w.createCache thread config a
    (.cache c, w)

/-- The value of the environment variable after a call. -/
def Call.environment (environment : Option String) : Call → Option String
  | .setEnvironment value => value
  | _ => environment

namespace Settings

variable {s : Settings}

theorem config_of_fixed {F : Config} (fixed : s.config = some F) :
    { s with config := some F } = s := by
  cases s
  cases fixed
  rfl

theorem allocator_of_fixed {A : AllocatorId} (fixed : s.allocator = some A) :
    { s with allocator := some A } = s := by
  cases s
  cases fixed
  rfl

end Settings

namespace Store

/-- The store after several calls. -/
def after (w : Store) (calls : List Call) : Store :=
  calls.foldl (fun w call => (call.perform w).2) w

theorem after_append (w : Store) (calls more : List Call) :
    w.after (calls ++ more) = (w.after calls).after more := List.foldl_append

/-- What the environment makes of the default configuration; the default itself if the variable
holds no number. -/
def overridden (w : Store) : Config :=
  match w.environmentConfig with
  | .ok config => config
  | .error _ => .default

/-! ## 2. What single calls do -/

theorem install_eq (w : Store) (config : Config) :
    (w.install config).1 =
        (if w.settings.config.isSome then .error (.alreadyInstalled .configuration) else .ok ()) ∧
      (w.install config).2.settings
        = { w.settings with config := some (w.settings.config.getD config) } := by
  unfold install
  cases fixed : w.settings.config with
  | none => exact ⟨rfl, rfl⟩
  | some F => exact ⟨rfl, (Settings.config_of_fixed fixed).symm⟩

theorem sharedConfig_eq (w : Store) : w.sharedConfig.1 = w.settings.config.getD w.overridden ∧
    w.sharedConfig.2.settings
      = { w.settings with config := some (w.settings.config.getD w.overridden) } := by
  unfold sharedConfig overridden
  cases fixed : w.settings.config with
  | none => cases w.environmentConfig <;> exact ⟨rfl, rfl⟩
  | some F => exact ⟨rfl, (Settings.config_of_fixed fixed).symm⟩

theorem installAllocator_eq (w : Store) (a : AllocatorId) :
    (w.installAllocator a).1 =
        (if w.settings.allocator.isSome then .error (.alreadyInstalled .allocator) else .ok ()) ∧
      (w.installAllocator a).2.settings
        = { w.settings with allocator := some (w.settings.allocator.getD a) } := by
  unfold installAllocator
  cases fixed : w.settings.allocator with
  | none => exact ⟨rfl, rfl⟩
  | some A => exact ⟨rfl, (Settings.allocator_of_fixed fixed).symm⟩

theorem sharedAllocator_eq (w : Store) :
    w.sharedAllocator.1 = w.settings.allocator.getD w.allocators.next ∧
    w.sharedAllocator.2.settings
      = { w.settings with allocator := some (w.settings.allocator.getD w.allocators.next) } := by
  unfold sharedAllocator
  cases fixed : w.settings.allocator with
  | none => exact ⟨rfl, rfl⟩
  | some A => exact ⟨rfl, (Settings.allocator_of_fixed fixed).symm⟩

theorem allocators_sharedConfig (w : Store) : w.sharedConfig.2.allocators = w.allocators := by
  unfold sharedConfig
  split
  · rfl
  · split <;> rfl

theorem createWithConfig_eq (w : Store) (t : ThreadId) (config : Config) :
    (w.createWithConfig t config).2.settings
        = { w.settings with allocator := some (w.settings.allocator.getD w.allocators.next) } ∧
      (w.createWithConfig t config).2.caches = w.caches.add {
        thread := t
        allocator := w.settings.allocator.getD w.allocators.next
        owners := 1
        reserve := { cap := config.reserveCap } } := by
  obtain ⟨source, settled⟩ := w.sharedAllocator_eq
  refine ⟨settled, ?_⟩
  rw [← source, ← caches_sharedAllocator w]
  rfl

theorem createShared_eq (w : Store) (t : ThreadId) :
    (w.createShared t).2.settings = { w.settings with
        config := some (w.settings.config.getD w.overridden)
        allocator := some (w.settings.allocator.getD w.allocators.next) } ∧
      (w.createShared t).2.caches = w.caches.add {
        thread := t
        allocator := w.settings.allocator.getD w.allocators.next
        owners := 1
        reserve := { cap := (w.settings.config.getD w.overridden).reserveCap } } := by
  obtain ⟨config, settled⟩ := w.sharedConfig_eq
  obtain ⟨settings, caches⟩ := w.sharedConfig.2.createWithConfig_eq t w.sharedConfig.1
  rw [settled, allocators_sharedConfig] at settings caches
  rw [caches_sharedConfig] at caches
  refine ⟨settings, ?_⟩
  rw [← config]
  exact caches

end Store

namespace Thread

variable {t : Thread}

/-- Unless the thread is bound, both settings are fixed. -/
theorem settings_current (t : Thread) (w : Store) : (t.current w).2.settings =
    if t.isBound then w.settings else { w.settings with
      config := some (w.settings.config.getD w.overridden)
      allocator := some (w.settings.allocator.getD w.allocators.next) } := by
  unfold current isBound
  cases t.binding with
  | bound c => rfl
  | unbound => exact (w.createShared_eq t.id).1
  | destroyed => exact ((w.emit .detachedCache).createShared_eq t.id).1

/-- A thread that is not bound gets a new cache, by both settings. -/
theorem current_of_not_bound (unbound : t.isBound = false) (w : Store) :
    (t.current w).1.1 = w.caches.next ∧
      ∃ z, (t.current w).2.caches.get? w.caches.next = some z ∧
        z.reserve.cap = (w.settings.config.getD w.overridden).reserveCap ∧
        z.allocator = w.settings.allocator.getD w.allocators.next := by
  unfold isBound at unbound
  cases binding : t.binding with
  | bound c => simp [binding] at unbound
  | unbound =>
    obtain ⟨-, caches⟩ := w.createShared_eq t.id
    simp only [current, binding, Store.createShared_fst, Store.caches_addOwner, caches,
      Table.get?_update, Table.get?_add, if_true, Option.map_some]
    exact ⟨trivial, _, rfl, rfl, rfl⟩
  | destroyed =>
    obtain ⟨-, caches⟩ := (w.emit .detachedCache).createShared_eq t.id
    simp only [current, binding, Store.createShared_fst, caches, Table.get?_add]
    exact ⟨rfl, _, if_pos rfl, rfl, rfl⟩

end Thread

/-! ## 3. Caches that were made -/

namespace Store

variable {w v u : Store}

/-- Caches stay on their allocators and keep their reserves. -/
def KeepsCaches (w v : Store) : Prop :=
  ∀ c z, w.caches.get? c = some z → ∃ owners, v.caches.get? c = some { z with owners }

theorem KeepsCaches.of_eq (same : v.caches = w.caches) : w.KeepsCaches v :=
  fun _ z hz => ⟨z.owners, by rw [same, hz]⟩

theorem KeepsCaches.trans (h : w.KeepsCaches v) (h' : v.KeepsCaches u) : w.KeepsCaches u := by
  intro c z hz
  obtain ⟨owners, hv⟩ := h c z hz
  obtain ⟨owners', hu⟩ := h' c { z with owners } hv
  exact ⟨owners', hu⟩

theorem keepsCaches_add {made : Cache} (added : v.caches = w.caches.add made) :
    w.KeepsCaches v := by
  intro c z hz
  have old : c ≠ w.caches.next := Nat.ne_of_lt (Table.lt_next_of_get? hz)
  exact ⟨z.owners, by simp [added, Table.get?_add, old, hz]⟩

theorem keepsCaches_addOwner (w : Store) (c : CacheId) : w.KeepsCaches (w.addOwner c) := by
  intro d z hz
  by_cases same : d = c
  · exact ⟨z.owners + 1, by simp [Table.get?_update, same ▸ hz, same]⟩
  · exact ⟨z.owners, by simp [Table.get?_update, same, hz]⟩

end Store

theorem Thread.current_keepsCaches (t : Thread) (w : Store) : w.KeepsCaches (t.current w).2 := by
  unfold current
  cases t.binding with
  | bound c => exact Store.keepsCaches_addOwner w c
  | unbound =>
    have made := Store.keepsCaches_add (w.createShared_eq t.id).2
    exact made.trans (Store.keepsCaches_addOwner _ _)
  | destroyed => exact Store.keepsCaches_add ((w.emit .detachedCache).createShared_eq t.id).2

namespace Store

theorem caches_install (w : Store) (config : Config) :
    (w.install config).2.caches = w.caches := by
  unfold install
  split <;> rfl

theorem caches_installAllocator (w : Store) (a : AllocatorId) :
    (w.installAllocator a).2.caches = w.caches := by
  unfold installAllocator
  split <;> rfl

theorem perform_keepsCaches (w : Store) (call : Call) : w.KeepsCaches (call.perform w).2 := by
  cases call with
  | setEnvironment | createAllocator => exact .of_eq rfl
  | install config => exact .of_eq (w.caches_install config)
  | installAllocator a => exact .of_eq (w.caches_installAllocator a)
  | sharedConfig => exact .of_eq w.caches_sharedConfig
  | sharedAllocator => exact .of_eq w.caches_sharedAllocator
  | current t => exact t.current_keepsCaches w
  | createWithConfig thread config => exact keepsCaches_add (w.createWithConfig_eq thread config).2
  | createCache => exact keepsCaches_add rfl

theorem after_keepsCaches (w : Store) (calls : List Call) : w.KeepsCaches (w.after calls) := by
  induction calls generalizing w with
  | nil => exact .of_eq rfl
  | cons call calls ih => exact (w.perform_keepsCaches call).trans (ih _)

end Store

/-! ## 4. The law of a setting -/

/-- One of the settings that all threads share. -/
structure Setting (α : Type) where
  /-- What it is fixed to, if it is fixed. -/
  value : Store → Option α
  /-- What a call fixes it to in a store where it is not fixed yet, if it does that at all. -/
  given : Call → Option (Store → α)
  /-- The call that installs it. -/
  install : α → Call
  /-- How it is called when that is refused. -/
  what : Installed
  /-- The call that reads it. -/
  read : Call
  /-- The reply to that call. -/
  shown : α → Reply

namespace Setting

/-- The configuration. The first to need it takes what the environment makes of the default. -/
def config : Setting Config where
  value w := w.settings.config
  given
    | .install config => some fun _ => config
    | .sharedConfig => some Store.overridden
    | .current t => if t.isBound then none else some Store.overridden
    | _ => none
  install := .install
  what := .configuration
  read := .sharedConfig
  shown := .config

/-- The allocator. The first to need it takes a new one. -/
def allocator : Setting AllocatorId where
  value w := w.settings.allocator
  given
    | .installAllocator a => some fun _ => a
    | .sharedAllocator | .createWithConfig _ _ => some fun w => w.allocators.next
    | .current t => if t.isBound then none else some fun w => w.allocators.next
    | _ => none
  install := .installAllocator
  what := .allocator
  read := .sharedAllocator
  shown := .allocator

variable {α : Type}

/-- Whether a call fixes the setting, unless it is fixed already. -/
def fixes (S : Setting α) (call : Call) : Bool := (S.given call).isSome

/-- The law of a setting: what each call does to it, and what is replied to the calls that install
and read it. -/
structure Lawful (S : Setting α) : Prop where
  value_perform : ∀ w call,
    S.value (call.perform w).2 = (S.value w).or ((S.given call).map fun f => f w)
  given_install : ∀ a, S.given (S.install a) = some fun _ => a
  reply_install : ∀ w a, ((S.install a).perform w).1 =
    .installed (if (S.value w).isSome then .error (.alreadyInstalled S.what) else .ok ())
  fixes_read : S.fixes S.read = true
  reply_read : ∀ w a, S.value (S.read.perform w).2 = some a → (S.read.perform w).1 = S.shown a

/-- What a call makes of the settings. -/
theorem settings_perform (w : Store) (call : Call) : (call.perform w).2.settings =
    { environment := call.environment w.settings.environment
      config := w.settings.config.or ((config.given call).map fun f => f w)
      allocator := w.settings.allocator.or ((allocator.given call).map fun f => f w) } := by
  cases call with
  | setEnvironment | createAllocator | createCache =>
    simp [Call.perform, Call.environment, config, allocator, Store.createAllocator,
      Store.createCache]
  | install F =>
    exact (w.install_eq F).2.trans (by simp [Call.environment, config, allocator])
  | sharedConfig =>
    exact w.sharedConfig_eq.2.trans (by simp [Call.environment, config, allocator])
  | installAllocator a =>
    exact (w.installAllocator_eq a).2.trans (by simp [Call.environment, config, allocator])
  | sharedAllocator =>
    exact w.sharedAllocator_eq.2.trans (by simp [Call.environment, config, allocator])
  | createWithConfig thread F =>
    exact (w.createWithConfig_eq thread F).1.trans
      (by simp [Call.environment, config, allocator])
  | current t =>
    refine (t.settings_current w).trans ?_
    cases bound : t.isBound <;> simp [Call.environment, config, allocator, bound]

theorem lawful_config : config.Lawful where
  value_perform w call := congrArg Settings.config (settings_perform w call)
  given_install _ := rfl
  reply_install w F := congrArg Reply.installed (w.install_eq F).1
  fixes_read := rfl
  reply_read w F fixed := by
    have value := (congrArg Settings.config w.sharedConfig_eq.2).symm.trans fixed
    have shown := w.sharedConfig_eq.1.trans (Option.some.inj value)
    exact congrArg Reply.config shown

theorem lawful_allocator : allocator.Lawful where
  value_perform w call := congrArg Settings.allocator (settings_perform w call)
  given_install _ := rfl
  reply_install w a := congrArg Reply.installed (w.installAllocator_eq a).1
  fixes_read := rfl
  reply_read w a fixed := by
    have value := (congrArg Settings.allocator w.sharedAllocator_eq.2).symm.trans fixed
    have shown := w.sharedAllocator_eq.1.trans (Option.some.inj value)
    exact congrArg Reply.allocator shown

/-! ## 5. Runs of calls -/

/-- A setting is fixed once in a run of calls from the store `w`, to `a`. -/
structure FixedOnce (S : Setting α) (w : Store) (calls : List Call) (a : α) : Prop where
  /-- It can be installed as long as no call before fixes it. -/
  installed_iff : ∀ before b later, calls = before ++ S.install b :: later →
    (((S.install b).perform (w.after before)).1 = .installed (.ok ()) ↔
      ∀ call ∈ before, S.fixes call = false)
  /-- If a call before fixes it, that is refused. -/
  refused : ∀ before b later, calls = before ++ S.install b :: later →
    (∃ call ∈ before, S.fixes call = true) →
    ((S.install b).perform (w.after before)).1 = .installed (.error (.alreadyInstalled S.what))
  /-- It is installed once at most. -/
  once : ∀ before b later before' b' later', calls = before ++ S.install b :: later →
    calls = before' ++ S.install b' :: later' →
    ((S.install b).perform (w.after before)).1 = .installed (.ok ()) →
    ((S.install b').perform (w.after before')).1 = .installed (.ok ()) → before = before'
  /-- If it is installed, it is fixed to that. -/
  installed : ∀ before b later, calls = before ++ S.install b :: later →
    ((S.install b).perform (w.after before)).1 = .installed (.ok ()) → a = b
  /-- Whichever call fixes it first, it is fixed to what that call gives, at that time. -/
  first : ∀ before call later f, calls = before ++ call :: later →
    (∀ d ∈ before, S.fixes d = false) → S.given call = some f → a = f (w.after before)
  /-- Whenever it is read, that is the reply. -/
  read : ∀ before later, calls = before ++ S.read :: later →
    (S.read.perform (w.after before)).1 = S.shown a
  /-- Whenever it is fixed, it is fixed to that. -/
  value : ∀ before later b, calls = before ++ later → S.value (w.after before) = some b → a = b
  /-- Other calls leave it as it is. -/
  unfixed : ∀ before call later, calls = before ++ call :: later → S.fixes call = false →
    S.value (call.perform (w.after before)).2 = S.value (w.after before)

variable {S : Setting α} {w : Store} {calls before later : List Call} {call : Call} {a b : α}

namespace Lawful

theorem after_of_fixed (h : S.Lawful) (fixed : S.value w = some a) (calls : List Call) :
    S.value (w.after calls) = some a := by
  induction calls generalizing w with
  | nil => exact fixed
  | cons call calls ih => exact ih (by rw [h.value_perform, fixed, Option.some_or])

/-- A setting is fixed exactly if there was a call that fixes it. -/
theorem after_eq_none_iff (h : S.Lawful) (free : S.value w = none) (calls : List Call) :
    S.value (w.after calls) = none ↔ ∀ call ∈ calls, S.fixes call = false := by
  induction calls generalizing w with
  | nil => simpa [Store.after] using free
  | cons call calls ih =>
    have next := h.value_perform w call
    rw [free, Option.none_or] at next
    rw [List.forall_mem_cons]
    cases given : S.given call with
    | none =>
      rw [given, Option.map_none] at next
      simp only [fixes, given, Option.isSome_none, true_and]
      exact ih next
    | some f =>
      rw [given, Option.map_some] at next
      have fixed : S.value (w.after (call :: calls)) = some (f w) := h.after_of_fixed next calls
      simp [fixed, fixes, given]

theorem value_perform_of_given {f : Store → α} (h : S.Lawful) (free : S.value w = none)
    (given : S.given call = some f) : S.value (call.perform w).2 = some (f w) := by
  rw [h.value_perform, free, given, Option.none_or, Option.map_some]

theorem value_perform_of_not_fixes (h : S.Lawful) (other : S.fixes call = false) :
    S.value (call.perform w).2 = S.value w := by
  have none : S.given call = none := by simpa [fixes] using other
  rw [h.value_perform, none, Option.map_none, Option.or_none]

/-- It can be installed exactly if it is not fixed. -/
theorem reply_install_ok_iff (h : S.Lawful) :
    ((S.install b).perform w).1 = .installed (.ok ()) ↔ S.value w = none := by
  rw [h.reply_install]
  cases S.value w <;> simp

/-- It is fixed from when it is read, to what is replied. -/
theorem exists_reply_read (h : S.Lawful) (w : Store) :
    ∃ b, S.value (S.read.perform w).2 = some b ∧ (S.read.perform w).1 = S.shown b := by
  obtain ⟨f, given⟩ := Option.isSome_iff_exists.1 h.fixes_read
  have fixed : S.value (S.read.perform w).2 = some ((S.value w).getD (f w)) := by
    rw [h.value_perform, given, Option.map_some, Option.or_some]
  exact ⟨_, fixed, h.reply_read w _ fixed⟩

end Lawful

/-- The calls before the first that fixes a setting. -/
theorem eq_takeWhile (split : calls = before ++ call :: later)
    (untouched : ∀ d ∈ before, S.fixes d = false) (fixing : S.fixes call = true) :
    before = calls.takeWhile fun d => !S.fixes d := by
  rw [split, List.takeWhile_append_of_pos (by simpa using untouched),
    List.takeWhile_cons_of_neg (by simp [fixing]), List.append_nil]

/-- A setting that is not fixed in a store is fixed at most once in a run of calls from there. -/
theorem Lawful.exists_fixedOnce (h : S.Lawful) (free : S.value w = none) (calls : List Call)
    (fallback : α) : ∃ a, S.FixedOnce w calls a := by
  -- What it is fixed to at any time is what it is after the last call.
  obtain ⟨a, last⟩ : ∃ a, ∀ b, S.value (w.after calls) = some b → a = b :=
    ⟨(S.value (w.after calls)).getD fallback, fun b fixed => by rw [fixed, Option.getD_some]⟩
  have installs : ∀ b, S.fixes (S.install b) = true := fun b => by simp [fixes, h.given_install]
  have installed_iff : ∀ before b,
      ((S.install b).perform (w.after before)).1 = .installed (.ok ()) ↔
        ∀ call ∈ before, S.fixes call = false := fun before b =>
    h.reply_install_ok_iff.trans (h.after_eq_none_iff free before)
  have value : ∀ before later b, calls = before ++ later → S.value (w.after before) = some b →
      a = b := by
    rintro before later b rfl fixed
    exact last b (by rw [Store.after_append, h.after_of_fixed fixed])
  have first : ∀ before call later f, calls = before ++ call :: later →
      (∀ d ∈ before, S.fixes d = false) → S.given call = some f → a = f (w.after before) := by
    intro before call later f split untouched given
    refine value (before ++ [call]) later _ (by simp [split]) ?_
    rw [Store.after_append]
    exact h.value_perform_of_given ((h.after_eq_none_iff free before).2 untouched) given
  refine ⟨a, ?_⟩
  exact
    { installed_iff := fun before b _ _ => installed_iff before b
      refused := by
        rintro before b later - ⟨call, mem, fixing⟩
        have fixed : S.value (w.after before) ≠ none := fun unset => by
          simp [(h.after_eq_none_iff free before).1 unset call mem] at fixing
        rw [h.reply_install, if_pos (Option.isSome_iff_ne_none.2 fixed)]
      once := by
        intro before b later before' b' later' split split' done done'
        rw [eq_takeWhile split ((installed_iff before b).1 done) (installs b),
          eq_takeWhile split' ((installed_iff before' b').1 done') (installs b')]
      installed := fun before b later split done =>
        first before _ later _ split ((installed_iff before b).1 done) (h.given_install b)
      first := first
      read := by
        intro before later split
        obtain ⟨b, fixed, reply⟩ := h.exists_reply_read (w.after before)
        rw [reply, value (before ++ [S.read]) later b (by simp [split])]
        rw [Store.after_append]
        exact fixed
      value := value
      unfixed := fun before call later _ other => h.value_perform_of_not_fixes other }

end Setting

namespace Store

theorem environment_after (w : Store) (calls : List Call) :
    (w.after calls).settings.environment = calls.foldl Call.environment w.settings.environment := by
  induction calls generalizing w with
  | nil => rfl
  | cons call calls ih =>
    have next : (call.perform w).2.settings.environment = call.environment w.settings.environment :=
      congrArg Settings.environment (Setting.settings_perform w call)
    rw [List.foldl_cons, ← next]
    exact ih _

/-- In every run of calls the configuration and the allocator are fixed once. A call for the cache
of a thread that is not bound fixes both, and the cache it makes has them for good; making a cache
on the shared allocator fixes that alone, and making one on a given allocator fixes neither. What
the configuration is fixed to depends on the environment at that time, not later. -/
theorem settings_fixed_once (environment : Option String) (calls : List Call) : ∃ F A,
    Setting.config.FixedOnce (.fresh environment) calls F ∧
    Setting.allocator.FixedOnce (.fresh environment) calls A ∧
    (∀ before t later, calls = before ++ .current t :: later → t.isBound = false →
      ∃ c z, ((Call.current t).perform ((fresh environment).after before)).1 = .cache c ∧
        ((fresh environment).after before).caches.get? c = none ∧
        ((fresh environment).after calls).caches.get? c = some z ∧
        z.reserve.cap = F.reserveCap ∧ z.allocator = A) ∧
    ∀ before later, calls = before ++ later →
      ((fresh environment).after before).settings.environment
        = before.foldl Call.environment environment := by
  obtain ⟨F, configFixed⟩ := Setting.lawful_config.exists_fixedOnce
    (w := .fresh environment) rfl calls .default
  obtain ⟨A, allocatorFixed⟩ := Setting.lawful_allocator.exists_fixedOnce
    (w := .fresh environment) rfl calls 0
  refine ⟨F, A, configFixed, allocatorFixed, ?_, ?_⟩
  · intro before t later split unbound
    obtain ⟨w, hw⟩ : ∃ w, (fresh environment).after before = w := ⟨_, rfl⟩
    obtain ⟨number, z, made, cap, source⟩ := t.current_of_not_bound unbound w
    have settings := t.settings_current w
    rw [unbound] at settings
    have final : (fresh environment).after calls = (t.current w).2.after later := by
      rw [split, after_append, hw]
      rfl
    -- The cache has the settings as that call leaves them, and the later calls keep it so.
    obtain ⟨owners, kept⟩ := (t.current w).2.after_keepsCaches later _ _ made
    have F_eq : F = w.settings.config.getD w.overridden :=
      configFixed.value (before ++ [.current t]) later _ (by simp [split]) (by
        rw [after_append, hw]
        exact congrArg Settings.config settings)
    have A_eq : A = w.settings.allocator.getD w.allocators.next :=
      allocatorFixed.value (before ++ [.current t]) later _ (by simp [split]) (by
        rw [after_append, hw]
        exact congrArg Settings.allocator settings)
    rw [hw, final]
    exact ⟨_, _, congrArg Reply.cache number, w.caches.get?_next, kept, by rw [F_eq, ← cap],
      by rw [A_eq, ← source]⟩
  · rintro before later -
    exact environment_after _ before

/-- Calls of which the third fixes the allocator and the fifth the configuration. -/
def sampleCalls : List Call :=
  [.createAllocator (some 64), .setEnvironment (some " 8 "), .createWithConfig 0 ⟨5⟩,
    .installAllocator 0, .current ⟨0, .unbound⟩, .setEnvironment (some "9"), .sharedConfig,
    .install ⟨1⟩]

/-- The allocator is a new one, and the configuration is from the environment as it was before its
last change. Neither can be installed. -/
theorem settings_fixed_once_sample :
    ((Call.installAllocator 0).perform ((fresh none).after (sampleCalls.take 3))).1
        = .installed (.error (.alreadyInstalled .allocator)) ∧
      (Call.sharedConfig.perform ((fresh none).after (sampleCalls.take 6))).1 = .config ⟨8⟩ ∧
      ((Call.install ⟨1⟩).perform ((fresh none).after (sampleCalls.take 7))).1
        = .installed (.error (.alreadyInstalled .configuration)) ∧
      ∃ c z, ((fresh none).after sampleCalls).caches.get? c = some z ∧ z.reserve.cap = 8 ∧
        z.allocator = 1 := by
  obtain ⟨F, A, config, allocator, current, -⟩ := settings_fixed_once none sampleCalls
  obtain rfl : F = ⟨8⟩ :=
    config.first (sampleCalls.take 4) (.current ⟨0, .unbound⟩) (sampleCalls.drop 5) _ rfl
      (by decide) rfl
  obtain rfl : A = 1 :=
    allocator.first (sampleCalls.take 2) (.createWithConfig 0 ⟨5⟩) (sampleCalls.drop 3) _ rfl
      (by decide) rfl
  obtain ⟨c, z, -, -, hz, cap, source⟩ :=
    current (sampleCalls.take 4) ⟨0, .unbound⟩ (sampleCalls.drop 5) rfl rfl
  refine ⟨?_, ?_, ?_, c, z, hz, cap, source⟩
  · exact allocator.refused (sampleCalls.take 3) 0 (sampleCalls.drop 4) rfl
      ⟨.createWithConfig 0 ⟨5⟩, by simp [sampleCalls], rfl⟩
  · exact config.read (sampleCalls.take 6) (sampleCalls.drop 7) rfl
  · exact config.refused (sampleCalls.take 7) ⟨1⟩ [] rfl
      ⟨.current ⟨0, .unbound⟩, by simp [sampleCalls], rfl⟩

end Store

end PixelPool
