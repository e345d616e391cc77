import TaskWatch.Machine.Step

/-!
# The executor

Sessions are suspended between their turns. The executor gives a turn to every session that is
ready: one that has not had a turn yet, one that has been stopped, and one whose time has come.
When none is ready it moves its clock to the next time at which one will be.

## Main definitions

* `World.isReady`, `World.nextWake` — who gets a turn now, and when the next one is due.
* `Machine.isQuiet` — whether nobody gets a turn now.
* `Machine.call` — consumer code that runs outside all sessions.
* `Machine.advance` — let time pass.
* `Machine.await`, `Machine.awaitAll` — let time pass until a session ends, or several do.
* `Machine.abandonAll` — the executor goes away.
-/

namespace TaskWatch

/-- The time until which a session is suspended, if there is one. -/
def Pause.wakeTime : Pause → Option Nat
  | fresh => none
  | fetching _ until_ => until_
  | sleeping until_ => some until_

/-- The executor deals the sessions that it runs out to so many lanes. -/
def laneCount : Nat := 4

/-- The lane of a session. -/
def SessionTask.lane {κ : Type} (s : SessionTask κ) : Nat := (s.serial - 1) % laneCount

/-- The order in which sessions are given up when their executor goes away: lane by lane, and in each
lane in the order in which they were started. -/
def Suspended.isAbandonedBefore {κ : Type} (a b : Suspended κ) : Bool :=
  decide (a.task.lane < b.task.lane) ||
    a.task.lane == b.task.lane && decide (a.task.serial ≤ b.task.serial)

namespace World

variable {κ : Type}

/-- Whether a suspended session gets its turn now. -/
def isReady (w : World κ) (entry : Suspended κ) : Bool :=
  !w.isLive entry.task || entry.pause == .fresh || entry.pause.wakeTime.any (· ≤ w.clock)

/-- Split a list at the first member that passes a test. -/
def takeFirst {α : Type} (test : α → Bool) : List α → Option (α × List α)
  | [] => none
  | a :: rest =>
    if test a then some (a, rest)
    else match takeFirst test rest with
      | none => none
      | some (found, others) => some (found, a :: others)

/-- The session that has been ready for the longest time, and the world without it among the
suspended ones. -/
def takeReady (w : World κ) : Option (Suspended κ × World κ) :=
  match takeFirst w.isReady w.suspended with
  | none => none
  | some (entry, suspended) => some (entry, { w with suspended })

/-- The earliest time at which a suspended session will be ready. -/
def nextWake (w : World κ) : Option Nat :=
  (w.suspended.filterMap fun entry => entry.pause.wakeTime).min?

end World

namespace Machine

variable {σ κ : Type} (c : Consumer σ κ)

/-- How many steps of one turn, and how many turns at one time, the executor waits for unless it is
told otherwise. -/
def patience : Nat := 1099511627776

/-- Run consumer code outside all sessions, to its end. A machine that is still busy stays as it
is. -/
def call (m : Machine σ κ) (p : Code σ κ) : Machine σ κ :=
  if m.isIdle then settle c patience (m.code p) else m

/-- Give turns to sessions until none is ready, at most so many, and with at most so many steps in
each. -/
def runReady (steps : Nat) : (turns : Nat) → Machine σ κ → Machine σ κ
  | 0, m => m
  | turns + 1, m =>
    if m.isIdle then
      match m.world.takeReady with
      | none => m
      | some (entry, world) =>
        runReady steps turns (settle c steps (wake (m.withWorld world) entry))
    else m

/-- Whether there is nothing to do at the present time: nothing runs, and no session is ready. -/
def isQuiet (m : Machine σ κ) : Bool :=
  m.isIdle && m.world.suspended.all fun entry => !m.world.isReady entry

/-- Set the executor's clock. -/
def atTime (m : Machine σ κ) (time : Nat) : Machine σ κ :=
  m.withWorld { m.world with clock := time }

/-- Let time pass until `deadline`, or until `isOver` holds after all turns at one time. Each round
moves the clock by a millisecond at least, so `rounds` need not exceed the milliseconds left by
more than one. A turn has at most `limit` steps, and there are at most `limit` turns at one time. -/
def runUntil (limit deadline : Nat) (isOver : World κ → Bool) :
    (rounds : Nat) → Machine σ κ → Machine σ κ
  | 0, m => m
  | rounds + 1, m =>
    let m := runReady c limit limit m
    if isOver m.world || !m.isQuiet then m
    else match m.world.nextWake with
      | none => m.atTime deadline
      | some time =>
        if time ≤ deadline then runUntil limit deadline isOver rounds (m.atTime time)
        else m.atTime deadline

/-- Let a number of milliseconds pass; everything due by then, or just then, has its turn. -/
def advance (m : Machine σ κ) (millis : Nat) : Machine σ κ :=
  runUntil c patience (m.world.clock + millis) (fun _ => false) (millis + 1) m

/-- Let time pass until the session of a task ends, but no longer than so many milliseconds.
Everything due at the time of the end has its turn. Without a session there is nothing to wait
for. -/
def await (m : Machine σ κ) (number : Nat) (id : TaskId) (millis : Nat) :
    WaitResult × Machine σ κ :=
  match m.world.beginWait number id with
  | none => (.notPolled, runReady c patience patience m)
  | some (wait, world) =>
    let m := runUntil c patience (world.clock + millis) (fun w => (w.waitOutcome wait).isSome)
      (millis + 1) (m.withWorld world)
    let outcome := match m.world.waitOutcome wait with
      | some reason => .stopped reason
      | none => .timedOut
    (outcome, m.withWorld (m.world.endWait wait))

/-- Let time pass until all sessions of some tasks have ended, but no longer than so many
milliseconds: whether they have. -/
def awaitAll (m : Machine σ κ) (number : Nat) (ids : List TaskId) (millis : Nat)
    (limit : Nat := patience) : Bool × Machine σ κ :=
  let (waits, world) := m.world.beginWaits number ids
  let isOver (w : World κ) : Bool := waits.all fun wait => (w.waitOutcome wait).isSome
  let m := runUntil c limit (world.clock + millis) isOver (millis + 1) (m.withWorld world)
  (isOver m.world, m.withWorld (waits.foldl World.endWait m.world))

/-- End suspended sessions one after the other, at most so many. -/
def abandonEach : (turns : Nat) → Machine σ κ → Machine σ κ
  | 0, m => m
  | turns + 1, m =>
    match m.isIdle, m.world.suspended with
    | true, entry :: suspended =>
      abandonEach turns (settle c patience (abandon (m.withWorld { m.world with suspended }) entry))
    | _, _ => m

/-- The executor goes away, and with it every session that it ran. It is assumed that no session can
be started any more once it has begun to go away: code that runs while a session is given up finds
no executor. -/
def abandonAll (m : Machine σ κ) : Machine σ κ :=
  let suspended := m.world.suspended.mergeSort Suspended.isAbandonedBefore
  abandonEach c suspended.length (m.withWorld { m.world with suspended, hasExecutor := false })

end Machine

end TaskWatch
