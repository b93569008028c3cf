import TernScheduler.Library.Path

/-!
# The polling loops

`PollingCallback` of `basics.ts`, and the loops of `strategies/poll.ts` that are started on
it.  The host runs one action at a time: a timer, the settling of a promise, the reaction to
it, or a call.

* `PollState.step` takes an action, where it can come; any order is a path of it.

An error that a poll throws in a timer is caught there; the event that reports it is left
out.
-/

namespace TernScheduler

/-- A registered callback: its key in `runningCallbacks`, the delay of its timer, and the
loop whose `pollCallback` it is. -/
structure RunningCallback where
  id : Nat
  delaySeconds : Nat
  loop : Nat
  deriving DecidableEq, Repr

/-- The fields of `PollingCallback`. -/
structure PollingCallback where
  count : Nat
  runningCallbacks : List RunningCallback
  isActive : Bool
  deriving DecidableEq, Repr

namespace PollingCallback

/-- A new one. -/
def new : PollingCallback := ⟨0, [], true⟩

def registerPollCallback (polling : PollingCallback) (delaySeconds loop : Nat) :
    PollingCallback :=
  if polling.isActive then
    { polling with
      count := polling.count + 1
      runningCallbacks := polling.runningCallbacks ++ [⟨polling.count, delaySeconds, loop⟩] }
  else polling

def activeCount (polling : PollingCallback) : Nat := polling.runningCallbacks.length

def stop (polling : PollingCallback) : PollingCallback := { polling with isActive := false }

end PollingCallback

/-- What `pollLoop` closes over: the poll times and the next one's index. -/
structure PollLoop where
  pollTimes : List Nat
  pollIndex : Nat
  inRange : pollIndex < pollTimes.length
  deriving DecidableEq, Repr

namespace PollLoop

/-- A loop before its first poll; without poll times `pollLoop` throws. -/
def start (pollTimes : List Nat) : Option PollLoop :=
  if hTimes : 0 < pollTimes.length then some ⟨pollTimes, 0, hTimes⟩ else none

/-- `pollTimes[pollIndex]`. -/
def pollTime (loop : PollLoop) : Nat := loop.pollTimes.get ⟨loop.pollIndex, loop.inRange⟩

/-- The loop with the next index. -/
def next (loop : PollLoop) : PollLoop where
  pollTimes := loop.pollTimes
  pollIndex := (loop.pollIndex + 1) % loop.pollTimes.length
  inRange := Nat.mod_lt _ (Nat.zero_lt_of_lt loop.inRange)

end PollLoop

/-- What `onPoll()` does: it throws, or it answers with a promise. -/
inductive PollOutcome
  | throws
  | promises
  deriving DecidableEq, Repr

/-- A poll operation: its loop, and the time until the next one. -/
structure PollOperation where
  loop : Nat
  pollTime : Nat
  deriving DecidableEq, Repr

/-- The promise of a call of `stopAndWait`: it looks again while the time has not run out. -/
inductive StopPromise
  | pending (timedOut : Int)
  | resolved
  | rejected
  deriving DecidableEq, Repr

/-- The polling, the loops started on it, their operations, and the calls of
`stopAndWait`. -/
structure PollState where
  polling : PollingCallback
  loops : List PollLoop
  /-- The operations whose promises have not settled. -/
  unsettled : List PollOperation
  /-- The operations whose promises were fulfilled, before the reaction has run. -/
  fulfilled : List PollOperation
  stopPromises : List StopPromise
  deriving DecidableEq, Repr

/-- What the host can run next. -/
inductive PollAction
  /-- A call of `pollLoop`, which polls for the first time. -/
  | pollLoop (pollTimes : List Nat) (outcome : PollOutcome)
  /-- The timer of a registered callback. -/
  | timer (id : Nat) (outcome : PollOutcome)
  /-- A promise of a poll operation settles. -/
  | settle (index : Nat) (fulfilled : Bool)
  /-- The reaction to a fulfilled one. -/
  | react (index : Nat)
  | stop
  /-- A call of `stopAndWait`, with the time of the call and of its first look. -/
  | stopAndWait (timeoutSeconds : Option Int) (called now : Int)
  /-- The timer that looks again. -/
  | tryIt (index : Nat) (now : Int)
  deriving DecidableEq, Repr

namespace PollState

/-- Nothing was started yet. -/
def new : PollState := ⟨.new, [], [], [], []⟩

/-- `pollCallback` of a loop. -/
def pollCallback (s : PollState) (index : Nat) (outcome : PollOutcome) : PollState :=
  match s.loops[index]? with
  | none => s
  | some loop =>
      { s with
        loops := s.loops.set index loop.next
        unsettled :=
          match outcome with
          | .throws => s.unsettled
          | .promises => s.unsettled ++ [⟨index, loop.pollTime⟩] }

/-- `tryIt` of `stopAndWait`. -/
def tryIt (polling : PollingCallback) (timedOut now : Int) : StopPromise :=
  if polling.activeCount > 0 then
    if now > timedOut then .rejected else .pending timedOut
  else .resolved

/-- `DEFAULT_WAIT_FOR_COMPLETION_SECONDS`. -/
def defaultWaitForCompletionSeconds : Int := 600

/-- One action of the host, where it can come. -/
def step (s : PollState) : PollAction → Option PollState
  | .pollLoop pollTimes outcome =>
      match PollLoop.start pollTimes with
      | none => some s
      | some loop =>
          some ({ s with loops := s.loops ++ [loop] }.pollCallback s.loops.length outcome)
  | .timer id outcome =>
      match s.polling.runningCallbacks.find? (·.id = id) with
      | none => none
      | some running =>
          let called := if s.polling.isActive then s.pollCallback running.loop outcome else s
          some { called with
            polling := { called.polling with
              runningCallbacks := called.polling.runningCallbacks.filter (·.id ≠ id) } }
  | .settle index fulfilled =>
      match s.unsettled[index]? with
      | none => none
      | some operation =>
          some { s with
            unsettled := s.unsettled.eraseIdx index
            fulfilled := if fulfilled then s.fulfilled ++ [operation] else s.fulfilled }
  | .react index =>
      match s.fulfilled[index]? with
      | none => none
      | some operation =>
          some { s with
            polling := s.polling.registerPollCallback operation.pollTime operation.loop
            fulfilled := s.fulfilled.eraseIdx index }
  | .stop => some { s with polling := s.polling.stop }
  | .stopAndWait timeoutSeconds called now =>
      let polling := s.polling.stop
      let timedOut := called + timeoutSeconds.getD defaultWaitForCompletionSeconds * 1000
      some { s with
        polling := polling
        stopPromises := s.stopPromises ++ [tryIt polling timedOut now] }
  | .tryIt index now =>
      match s.stopPromises[index]? with
      | some (.pending timedOut) =>
          some { s with stopPromises := s.stopPromises.set index (tryIt s.polling timedOut now) }
      | _ => none

end PollState

end TernScheduler
