import KeyValueServer.Reactor.Basic

/-!
# The event loop: rounds

A round waits, collects what has become ready or due, and hands it to the handler one by one:
first the timers in the order of their creation, then the descriptors in the order of the poll.
What has lost its registration before its turn is passed over, so a handler that cancels a
timer or disarms a descriptor is not told of it any more.

A handler answers with a list of actions on the loop, which are carried out before the next
turn. It may do anything but run the loop itself. What the outside world shows in a round is an
argument: the outcome of the poll and the readings of the clock.

## Main definitions

* `Fired`, `Action`, `Handler` — what a handler is told and what it answers;
* `Round` — what the outside world shows;
* `Reactor.process` — one round;
* `Reactor.run` — rounds until the loop is stopped.
-/

namespace KeyValueServer

/-- A `Fired` event is what has fired. -/
inductive Fired (φ τ : Type)
  /-- A timer, by its number and its tag. -/
  | timer (id : Nat) (tag : τ)
  /-- A descriptor, with the direction and its tag. -/
  | descriptor (fd : Descriptor) (direction : Direction) (tag : φ)
  deriving DecidableEq

/-- An `Action` is what a handler may ask of the loop. -/
inductive Action (φ τ : Type)
  | arm (fd : Descriptor) (direction : Direction) (tag : φ)
  | disarm (fd : Descriptor) (direction : Direction)
  /-- Start a timer, at a reading of the clock. -/
  | start (kind : TimerKind) (interval : Nat) (tag : τ) (now : Nat)
  | cancel (id : Nat)
  | stop
  deriving DecidableEq

/-- A `Handler` with states `σ` is what is done when something fires: it sees the loop and its own
state, and gives actions and its next state. -/
abbrev Handler (φ τ σ : Type) :=
  Fired φ τ → Reactor φ τ → σ → Checked (List (Action φ τ) × σ)

/-- `Readiness` is what a poll reports of a descriptor. -/
structure Readiness where
  /-- There is something to read. -/
  readable : Bool
  /-- There is room to write. -/
  writable : Bool
  /-- The descriptor is broken or its peer has hung up. -/
  broken : Bool
  deriving DecidableEq

/-- A `Round` is what the outside world shows in a round. -/
structure Round where
  /-- The clock before the wait. -/
  before : Nat
  /-- What the poll reports, in its order. -/
  polled : List (Descriptor × Readiness)
  /-- The clock when the due timers are collected. -/
  now : Nat
  /-- The clock when the timer of a number is scheduled again. -/
  later : Nat → Nat

namespace Reactor

variable {φ τ σ : Type}

/-- `r.act action` is the loop after one action. -/
def act (r : Reactor φ τ) : Action φ τ → Checked (Reactor φ τ)
  | .arm fd direction tag => .ok (r.arm fd direction tag)
  | .disarm fd direction => .ok (r.disarm fd direction)
  | .start kind interval tag now => do
    let (_, r) ← r.start kind interval tag now
    .ok r
  | .cancel id => .ok (r.cancel id)
  | .stop => .ok r.stop

/-- `r.due now` are the numbers of the timers that are due. -/
def due (r : Reactor φ τ) (now : Nat) : List Nat :=
  (r.timers.filter (·.due ≤ now)).map (·.id)

/-- `firing interest readiness` are the directions for which a poll makes a descriptor fire. A
broken descriptor fires for whatever it is armed for. -/
def firing (interest : Interest φ) (readiness : Readiness) : List Direction :=
  (if interest.read?.isSome && (readiness.readable || readiness.broken) then [.readable] else [])
  ++ (if interest.write?.isSome && (readiness.writable || readiness.broken) then [.writable]
    else [])

/-- `r.ready polled` are the descriptors that a poll makes fire, and the directions. -/
def ready (r : Reactor φ τ) (polled : List (Descriptor × Readiness)) :
    List (Descriptor × Direction) :=
  polled.flatMap fun (fd, readiness) =>
    match r.interests.get? fd with
    | some interest => (firing interest readiness).map (fd, ·)
    | none => []

/-- A `Course` is what the rest of a round yields: what has fired, and the states after it. -/
structure Course (φ τ σ : Type) where
  /-- What has fired, in order. -/
  fired : List (Fired φ τ)
  /-- The loop. -/
  reactor : Reactor φ τ
  /-- The state of the handler. -/
  state : σ

/-- `c.after event` is the course with something that fired before it. -/
def Course.after (event : Fired φ τ) (c : Course φ τ σ) : Course φ τ σ :=
  { c with fired := event :: c.fired }

/-- `r.settleTimer kind id later` is the loop after a timer of a kind has fired. -/
def settleTimer (r : Reactor φ τ) (kind : TimerKind) (id later : Nat) : Checked (Reactor φ τ) :=
  match kind with
  | .once => .ok (r.cancel id)
  | .recurring => r.reschedule id later

/-- `fireTimers` fires the timers of the given numbers that are still there when their turn
comes. -/
def fireTimers (handler : Handler φ τ σ) (later : Nat → Nat) :
    List Nat → Reactor φ τ → σ → Checked (Course φ τ σ)
  | [], r, s => .ok ⟨[], r, s⟩
  | id :: rest, r, s =>
    match r.timer? id with
    | none => fireTimers handler later rest r s
    | some timer => do
      let (actions, s) ← handler (.timer id timer.tag) r s
      let r ← actions.foldlM act r
      let r ← r.settleTimer timer.kind id (later id)
      let course ← fireTimers handler later rest r s
      .ok (course.after (.timer id timer.tag))

/-- `fireDescriptors` fires the descriptors that are still armed when their turn comes. -/
def fireDescriptors (handler : Handler φ τ σ) :
    List (Descriptor × Direction) → Reactor φ τ → σ → Checked (Course φ τ σ)
  | [], r, s => .ok ⟨[], r, s⟩
  | (fd, direction) :: rest, r, s =>
    match r.tag? fd direction with
    | none => fireDescriptors handler rest r s
    | some tag => do
      let (actions, s) ← handler (.descriptor fd direction tag) r s
      let r ← actions.foldlM act r
      let course ← fireDescriptors handler rest r s
      .ok (course.after (.descriptor fd direction tag))

/-- `process handler round r s` is one round. -/
def process (handler : Handler φ τ σ) (round : Round) (r : Reactor φ τ) (s : σ) :
    Checked (Course φ τ σ) := do
  let _ ← r.waitTimeout round.before
  let timers ← fireTimers handler round.later (r.due round.now) r s
  let descriptors ←
    fireDescriptors handler (r.ready round.polled) timers.reactor timers.state
  .ok { descriptors with fired := timers.fired ++ descriptors.fired }

/-- `run handler world turn count r s` is up to `count` rounds from the `turn`-th on, until the loop
is stopped. The outside world shows `world turn`, which may depend on the states at that moment. -/
def run (handler : Handler φ τ σ) (world : Nat → Reactor φ τ → σ → Round) (turn : Nat) :
    Nat → Reactor φ τ → σ → Checked (Course φ τ σ)
  | 0, r, s => .ok ⟨[], r, s⟩
  | count + 1, r, s =>
    if r.stopped then .ok ⟨[], r, s⟩
    else do
      let first ← process handler (world turn r s) r s
      let rest ← run handler world (turn + 1) count first.reactor first.state
      .ok { rest with fired := first.fired ++ rest.fired }

end Reactor

end KeyValueServer
