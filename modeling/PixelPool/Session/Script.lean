import PixelPool.Session.Perform

/-!
Scripts: acts and threads that run other scripts, and the rows in which they are answered. Each row
tells the answer, the events since the row before, and, where asked for, the state after it.
-/

namespace PixelPool

/-- A step of a script: an act, or a thread with its steps and those that run once its binding is
destroyed, if there is such a phase. -/
inductive Script where
  | act (a : Act)
  | thread (steps : List Script) (late : Option (List Script))

/-- What a step is answered by. -/
inductive Row where
  | act (answer : Answer) (state : Option Snapshot) (events : List Event)
  | thread (steps : List Row) (late : Option (List Row)) (state : Option Snapshot)
      (events : List Event)

/-- A session being played: its state, and how many events have been told. -/
structure Playback where
  session : Session
  told : Nat

namespace Playback

/-- The playback after an act, with its answer. -/
def act (p : Playback) (a : Act) : Answer × Playback :=
  let (answer, session) := p.session.step a
  (answer, { p with session })

/-- The events that have not been told, in order; now they are. -/
def news (p : Playback) : List Event × Playback :=
  let log := p.session.store.log
  ((log.take (log.length - p.told)).reverse, { p with told := log.length })

/-- The state of the session, if it is to be shown. -/
def shown (p : Playback) (wanted : Bool) : Option Snapshot :=
  if wanted then p.session.snapshot.toOption else none

/-- Whether the row of a step shows the state: always, or if it is the last of its list. -/
def shows (quiet : Bool) (rest : List Script) : Bool := !quiet || rest.isEmpty

mutual

/-- Plays one step. -/
def play (quiet visible : Bool) (p : Playback) : Script → Row × Playback
  | .act a =>
    let (answer, p) := p.act a
    let (events, p) := p.news
    (.act answer (p.shown visible) events, p)
  | .thread steps late =>
    let p := (p.act .enterThread).2
    let (rows, p) := playAll quiet p steps
    let (lateRows, p) := playLate quiet p late
    let p := (p.act .leaveThread).2
    let (events, p) := p.news
    (.thread rows lateRows (p.shown visible) events, p)

/-- Plays a list of steps. -/
def playAll (quiet : Bool) (p : Playback) : List Script → List Row × Playback
  | [] => ([], p)
  | step :: rest =>
    let (row, p) := play quiet (shows quiet rest) p step
    let (rows, p) := playAll quiet p rest
    (row :: rows, p)

/-- Plays the steps that run once the binding of the thread is destroyed. -/
def playLate (quiet : Bool) (p : Playback) : Option (List Script) → Option (List Row) × Playback
  | none => (none, p)
  | some steps =>
    let p := (p.act .destroyBinding).2
    let (rows, p) := playAll quiet p steps
    (some rows, p)

end

end Playback

/-- What a session is answered by: its rows, the allocators at its end, and the last events. -/
structure Transcript where
  steps : List Row
  late : Option (List Row)
  allocators : List (String × Allocator)
  events : List Event

/-- Plays a whole session on a store, whose thread ends with it. -/
def Store.play (w : Store) (quiet : Bool) (steps : List Script) (late : Option (List Script)) :
    Transcript :=
  let p : Playback := ⟨.start w, w.log.length⟩
  let (rows, p) := p.playAll quiet steps
  let (lateRows, p) := p.playLate quiet late
  let p := (p.act .leaveThread).2
  let (events, p) := p.news
  let allocators := (p.shown true).map Snapshot.allocators
  ⟨rows, lateRows, allocators.getD [], events⟩

end PixelPool
