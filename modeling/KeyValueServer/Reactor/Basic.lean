import KeyValueServer.Fault
import KeyValueServer.Registry

/-!
# The event loop: registrations

A single thread waits for descriptors to become ready and for timers to fall due. A
registration is a plain tag: the loop does not call back by itself but hands the tag of what
has fired to a handler. A descriptor may be armed for reading, for writing, or for both; it is
watched exactly while it is armed for something. Timers stand in the order of their creation
and have numbers that are never given twice.

All clock readings are arguments, in milliseconds of a clock that never goes back.

## Main definitions

* `Interest`, `Timer`, `Reactor` — what is registered;
* `Reactor.arm`, `disarm`, `isArmed` — interests in descriptors;
* `Reactor.start`, `cancel`, `hasTimer` — timers;
* `Reactor.waitTimeout` — how long the next wait may take.
-/

namespace KeyValueServer

/-- What a descriptor may be ready for. -/
inductive Direction
  | readable
  | writable
  deriving DecidableEq

/-- The tags under which a descriptor is armed. -/
structure Interest (φ : Type) where
  /-- The tag for reading. -/
  read? : Option φ
  /-- The tag for writing. -/
  write? : Option φ
  deriving DecidableEq

namespace Interest

variable {φ : Type}

/-- A descriptor that is armed for nothing. -/
def none : Interest φ := ⟨.none, .none⟩

/-- The tag for a direction. -/
def get? (i : Interest φ) : Direction → Option φ
  | .readable => i.read?
  | .writable => i.write?

/-- The interest with another tag for a direction. -/
def set (i : Interest φ) (direction : Direction) (tag? : Option φ) : Interest φ :=
  match direction with
  | .readable => { i with read? := tag? }
  | .writable => { i with write? := tag? }

/-- Whether a descriptor is armed for nothing. -/
def isNone (i : Interest φ) : Bool :=
  i.read?.isNone && i.write?.isNone

end Interest

/-- What becomes of a timer once it has fired. -/
inductive TimerKind
  /-- It is removed. -/
  | once
  /-- It falls due again after its interval. -/
  | recurring
  deriving DecidableEq

/-- A timer. -/
structure Timer (τ : Type) where
  /-- The number of the timer. -/
  id : Nat
  /-- What becomes of it once it has fired. -/
  kind : TimerKind
  /-- The time at which it falls due. -/
  due : Nat
  /-- The time between one firing and the next. -/
  interval : Nat
  /-- What the handler is told. -/
  tag : τ
  deriving DecidableEq

/-- The registrations of an event loop whose descriptors have tags `φ` and whose timers have
tags `τ`. -/
structure Reactor (φ τ : Type) where
  /-- The descriptors that are armed for something. -/
  interests : Registry (Interest φ)
  /-- The timers in the order of their creation. -/
  timers : List (Timer τ)
  /-- The number of the next timer. -/
  nextId : Nat
  /-- Whether the loop ends after the current round. -/
  stopped : Bool

namespace Reactor

variable {φ τ : Type}

/-- An event loop without registrations. -/
def empty : Reactor φ τ where
  interests := []
  timers := []
  nextId := 1
  stopped := false

/-- The loop that ends after the current round. -/
def stop (r : Reactor φ τ) : Reactor φ τ :=
  { r with stopped := true }

/-! ### Descriptors -/

/-- The tag under which a descriptor is armed for a direction. -/
def tag? (r : Reactor φ τ) (fd : Descriptor) (direction : Direction) : Option φ :=
  (r.interests.get? fd).bind (·.get? direction)

/-- Whether a descriptor is armed for a direction. -/
def isArmed (r : Reactor φ τ) (fd : Descriptor) (direction : Direction) : Bool :=
  (r.tag? fd direction).isSome

/-- Arms a descriptor for a direction. If it is armed for it already, it keeps its tag. -/
def arm (r : Reactor φ τ) (fd : Descriptor) (direction : Direction) (tag : φ) : Reactor φ τ :=
  match r.interests.get? fd with
  | some interest =>
    if (interest.get? direction).isNone then
      { r with interests := r.interests.put fd (interest.set direction (some tag)) }
    else r
  | none => { r with interests := r.interests.put fd (Interest.none.set direction (some tag)) }

/-- Disarms a descriptor for one direction. It is no longer watched when it is armed for
nothing. -/
def disarm (r : Reactor φ τ) (fd : Descriptor) (direction : Direction) : Reactor φ τ :=
  match r.interests.get? fd with
  | some interest =>
    if (interest.set direction none).isNone then { r with interests := r.interests.erase fd }
    else { r with interests := r.interests.put fd (interest.set direction none) }
  | none => r

/-! ### Timers -/

/-- Starts a timer that falls due an interval from now, and gives its number. -/
def start (r : Reactor φ τ) (kind : TimerKind) (interval : Nat) (tag : τ) (now : Nat) :
    Checked (Nat × Reactor φ τ) := do
  let due ← Checked.sum64 now interval
  .ok (r.nextId,
    { r with
      timers := r.timers ++ [⟨r.nextId, kind, due, interval, tag⟩]
      nextId := r.nextId + 1 })

/-- The timer of a number. -/
def timer? (r : Reactor φ τ) (id : Nat) : Option (Timer τ) :=
  r.timers.find? (·.id == id)

/-- Whether there is a timer of a number. -/
def hasTimer (r : Reactor φ τ) (id : Nat) : Bool :=
  (r.timer? id).isSome

/-- Removes the timer of a number, if there is one. -/
def cancel (r : Reactor φ τ) (id : Nat) : Reactor φ τ :=
  { r with timers := r.timers.eraseP (·.id == id) }

/-- Lets a timer fall due an interval from now, if it is still there. -/
def reschedule (r : Reactor φ τ) (id now : Nat) : Checked (Reactor φ τ) :=
  match r.timer? id with
  | none => .ok r
  | some timer => do
    let due ← Checked.sum64 now timer.interval
    .ok { r with timers := r.timers.map fun t => if t.id = id then { t with due := due } else t }

/-! ### Waiting -/

/-- The longest wait, in milliseconds. -/
def maxWait : Nat := 1000

/-- The wait when a timer is due already, in milliseconds. -/
def dueWait : Nat := 10

/-- The time at which the next timer falls due, or the end of the longest wait. -/
def nearest (r : Reactor φ τ) (now : Nat) : Checked Nat := do
  let limit ← Checked.sum64 now maxWait
  .ok ((r.timers.map (·.due)).foldl min limit)

/-- How many milliseconds the next wait may take. -/
def waitTimeout (r : Reactor φ τ) (now : Nat) : Checked Int32 := do
  let nearest ← r.nearest now
  .ok (if nearest ≤ now then Int32.ofNat dueWait else Int32.ofNat (nearest - now))

end Reactor

end KeyValueServer
