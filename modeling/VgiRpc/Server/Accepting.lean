import VgiRpc.Library.Transition

/-!
# The accept loop

The socket servers accept connections in one thread and serve each of them in a thread
of its own.  The threads share the count of the open connections and the idle deadline
behind a lock.  A step is what a thread does under the lock, so a run is any interleaving
of the threads.
-/

namespace VgiRpc.Server

open Library (TransitionSystem)

/-- Times are in nanoseconds. -/
structure IdleState where
  connCount : Nat
  deadline : Option Nat

namespace IdleState

def opened (state : IdleState) : IdleState := ⟨state.connCount + 1, none⟩

variable (idleTimeout : Option Nat) (now : Nat) (state : IdleState)

/-- The last connection to close arms the timer again. -/
def closed : IdleState :=
  let connCount := state.connCount - 1
  ⟨connCount, if connCount = 0 then (idleTimeout.map (now + ·)).or state.deadline
    else state.deadline⟩

def elapsed : Bool :=
  idleTimeout.isSome && state.connCount == 0 && state.deadline.any (· ≤ now)

end IdleState

/-- Where the thread of the loop is: at its checks, at `accept`, between counting a
connection and starting its thread, or behind the loop, with whether it was idle. -/
inductive Stage where
  | checks
  | accept
  | counted
  | stopped (idle : Bool)

def Stage.pending : Stage → Nat
  | counted => 1
  | _ => 0

/-- `serving` and `panicked` count the threads that serve a connection and those that
unwound from it, and `lastClosed` is when one last closed its connection. -/
structure AcceptLoop where
  idle : IdleState
  stage : Stage
  serving : Nat
  panicked : Nat
  now : Nat
  lastClosed : Option Nat

variable (idleTimeout : Option Nat)

inductive AcceptStep (loop : AcceptLoop) : AcceptLoop → Prop where
  | time (later : Nat) (passes : loop.now ≤ later) : AcceptStep loop { loop with now := later }
  | shutdown (stage : loop.stage = .checks) :
      AcceptStep loop { loop with stage := .stopped false }
  | idle (stage : loop.stage = .checks) (elapsed : loop.idle.elapsed idleTimeout loop.now = true) :
      AcceptStep loop { loop with stage := .stopped true }
  | proceed (stage : loop.stage = .checks)
      (waits : loop.idle.elapsed idleTimeout loop.now = false) :
      AcceptStep loop { loop with stage := .accept }
  /-- No connection is there, or one whose handle cannot be cloned is dropped. -/
  | again (stage : loop.stage = .accept) : AcceptStep loop { loop with stage := .checks }
  | failed (stage : loop.stage = .accept) : AcceptStep loop { loop with stage := .stopped false }
  | counted (stage : loop.stage = .accept) :
      AcceptStep loop { loop with stage := .counted, idle := loop.idle.opened }
  | spawned (stage : loop.stage = .counted) :
      AcceptStep loop { loop with stage := .checks, serving := loop.serving + 1 }
  | closed (busy : 0 < loop.serving) :
      AcceptStep loop { loop with
        idle := loop.idle.closed idleTimeout loop.now
        serving := loop.serving - 1
        lastClosed := some loop.now }
  | panicked (busy : 0 < loop.serving) :
      AcceptStep loop { loop with serving := loop.serving - 1, panicked := loop.panicked + 1 }

variable (bound : Nat)

def acceptLoop : TransitionSystem AcceptLoop where
  initial loop := loop = ⟨⟨0, idleTimeout.map fun timeout => bound + timeout.max (60 * 1000000000)⟩,
    .checks, 0, 0, bound, none⟩
  step := AcceptStep idleTimeout

/-- When a worker that is bound at this time may stop, if nobody connects any more. -/
def idleAt (lastClosed : Option Nat) (timeout : Nat) : Nat :=
  lastClosed.elim (bound + timeout.max (60 * 1000000000)) (· + timeout)

namespace AcceptLoop

variable {loop after : AcceptLoop}

/-- No connection is open, and none was for as long as the worker may be idle. -/
def Quiet (loop : AcceptLoop) : Prop :=
  loop.serving + loop.panicked = 0 ∧
    ∃ timeout ∈ idleTimeout, idleAt bound loop.lastClosed timeout ≤ loop.now

structure Sound (loop : AcceptLoop) : Prop where
  counts : loop.idle.connCount = loop.serving + loop.panicked + loop.stage.pending
  armed : loop.idle.deadline = if loop.idle.connCount = 0
    then idleTimeout.map (idleAt bound loop.lastClosed) else none
  quiet : loop.stage = .stopped true → loop.Quiet idleTimeout bound

variable {idleTimeout bound} (sound : loop.Sound idleTimeout bound)
include sound

theorem Sound.elapsed_iff (stage : loop.stage = .checks) :
    loop.idle.elapsed idleTimeout loop.now = true ↔ loop.Quiet idleTimeout bound := by
  have counts : loop.idle.connCount = loop.serving + loop.panicked := by
    rw [sound.counts, stage]
    rfl
  unfold IdleState.elapsed Quiet
  rw [sound.armed, ← counts]
  by_cases none : loop.idle.connCount = 0
  · cases idleTimeout <;> simp [none]
  · simp [none]

theorem Sound.step (taken : AcceptStep idleTimeout loop after) : after.Sound idleTimeout bound := by
  obtain ⟨counts, armed, quiet⟩ := id sound
  cases taken with
  | time _ passes =>
    refine ⟨counts, armed, fun stopped => ?_⟩
    obtain ⟨none, timeout, given, elapsed⟩ := quiet stopped
    exact ⟨none, timeout, given, Nat.le_trans elapsed passes⟩
  | shutdown stage | proceed stage | again stage | failed stage =>
    exact ⟨by rw [counts, stage]; rfl, armed, by rintro ⟨⟩⟩
  | idle stage elapsed =>
    exact ⟨by rw [counts, stage]; rfl, armed, fun _ => (sound.elapsed_iff stage).mp elapsed⟩
  | counted stage =>
    refine ⟨?_, rfl, by rintro ⟨⟩⟩
    simp only [IdleState.opened, counts, stage, Stage.pending]
  | spawned stage => exact ⟨by rw [counts, stage, Nat.add_right_comm]; rfl, armed, by rintro ⟨⟩⟩
  | closed busy =>
    refine ⟨?_, ?_, fun stopped => absurd (quiet stopped).1 (by omega)⟩
    · simp only [IdleState.closed]
      omega
    · rw [if_neg (by omega)] at armed
      simp only [IdleState.closed, armed, Option.or_none]
      rfl
  | panicked busy =>
    refine ⟨?_, armed, fun stopped => absurd (quiet stopped).1 (by omega)⟩
    dsimp only
    omega

omit sound

theorem Sound.reachable (reachable : (acceptLoop idleTimeout bound).Reachable loop) :
    loop.Sound idleTimeout bound := by
  refine TransitionSystem.Invariant.reachable ⟨?_, fun _ _ sound => sound.step⟩ reachable
  rintro _ rfl
  exact ⟨rfl, rfl, by rintro ⟨⟩⟩

end AcceptLoop

/-- In every interleaving the loop finds itself idle exactly when no connection is open
and none was for the idle timeout, or for the grace of the start if there never was one,
and a worker that stopped for it never has a connection open again. -/
theorem acceptLoop_idles {loop : AcceptLoop}
    (reachable : (acceptLoop idleTimeout bound).Reachable loop) :
    (loop.stage = .checks →
        (loop.idle.elapsed idleTimeout loop.now = true ↔ loop.Quiet idleTimeout bound)) ∧
      (loop.stage = .stopped true → loop.Quiet idleTimeout bound) :=
  have sound := AcceptLoop.Sound.reachable reachable
  ⟨sound.elapsed_iff, sound.quiet⟩

/-- One connection, and the worker idles out a nanosecond after it. -/
theorem acceptLoop_idles_once :
    AcceptLoop.Quiet (some 1) 0 ⟨⟨0, some 1⟩, .stopped true, 0, 0, 1, some 0⟩ :=
  (acceptLoop_idles _ _ (.next (.next (.next (.next (.next (.next (.start rfl) (.proceed rfl rfl))
    (.counted rfl)) (.spawned rfl)) (.closed Nat.one_pos)) (.time 1 (Nat.zero_le 1)))
    (.idle rfl rfl))).2 rfl

end VgiRpc.Server
