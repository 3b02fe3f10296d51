import KeyValueServer.Table.Sample
import KeyValueServer.Value

/-!
# The keyspace

The keyspace maps keys to values, and some keys to deadlines: times of the wall clock, in
milliseconds, from which on the key counts as gone. Nothing happens at a deadline. A key that
is due leaves when somebody asks for it, or when a cycle of samples happens on it.

Values and deadlines are two tables. A deadline may outlive or precede its value, and a
deadline that denotes no integer is never due.

## Main definitions

* `Keyspace` — the two tables;
* `Keyspace.read`, `Keyspace.store`, `Keyspace.setDeadline` — what commands do;
* `Keyspace.evictIfDue` — the departure of one key;
* `Keyspace.expireCycle` — the departure of due keys among a number of samples.
-/

namespace KeyValueServer

/-- Keys are strings of bytes, hashed by FNV-1a. -/
def Value.keying : Keying Value where
  hash := Value.fingerprint
  same := Value.sameText

/-- The keys with their values and deadlines. -/
structure Keyspace where
  /-- The value of each key. -/
  values : Table Value.keying Value
  /-- The deadline of each key that has one. -/
  deadlines : Table Value.keying Value

namespace Keyspace

/-- A keyspace without keys. -/
def empty : Keyspace := ⟨.empty, .empty⟩

/-- Whether a deadline is at or before a time. -/
def isDue (deadline : Value) (now : Int64) : Bool :=
  match deadline.integer? with
  | some time => time ≤ now
  | none => false

/-- The keyspace without a key and its deadline. -/
def evict (s : Keyspace) (key : Value) : Checked Keyspace := do
  let (_, deadlines) ← s.deadlines.delete key
  let (_, values) ← s.values.delete key
  .ok ⟨values, deadlines⟩

/-- Evicts a key if its deadline is at or before `now`, and says whether it was. -/
def evictIfDue (s : Keyspace) (key : Value) (now : Int64) : Checked (Bool × Keyspace) := do
  let (deadline?, deadlines) ← s.deadlines.get key
  let s := { s with deadlines := deadlines }
  if deadline?.any (isDue · now) then do
    let s ← s.evict key
    .ok (true, s)
  else .ok (false, s)

/-- The value of a key at the time `now`. -/
def read (s : Keyspace) (key : Value) (now : Int64) : Checked (Option Value × Keyspace) := do
  let (_, s) ← s.evictIfDue key now
  let (value?, values) ← s.values.get key
  .ok (value?, { s with values := values })

/-- Stores a value under a key, which has no deadline from then on. -/
def store (s : Keyspace) (key value : Value) : Checked Keyspace := do
  let (_, deadlines) ← s.deadlines.delete key
  let values ← s.values.set key value
  .ok ⟨values, deadlines⟩

/-- Gives a key a deadline. -/
def setDeadline (s : Keyspace) (key : Value) (deadline : Int64) : Checked Keyspace := do
  let deadlines ← s.deadlines.set key (.int deadline)
  .ok { s with deadlines := deadlines }

/-- Samples up to `count` deadlines and evicts the keys of those that are due, until a sample
finds nothing. The `turn`-th sample makes the random choices `draws turn`. The result begins
with the number of keys evicted. -/
def expireFrom (now : Int64) (draws : Nat → Draws) :
    Nat → Nat → Keyspace → Checked (Nat × Keyspace)
  | _, 0, s => .ok (0, s)
  | turn, count + 1, s => do
    let (found, deadlines) ← s.deadlines.sample (draws turn)
    let s := { s with deadlines := deadlines }
    match found with
    | none => .ok (0, s)
    | some e =>
      if isDue e.val now then do
        let s ← s.evict e.key
        let (evicted, s) ← expireFrom now draws (turn + 1) count s
        .ok (evicted + 1, s)
      else expireFrom now draws (turn + 1) count s

/-- One cycle of expiration: up to `count` samples at the time `now`. -/
def expireCycle (s : Keyspace) (count : Nat) (now : Int64) (draws : Nat → Draws) :
    Checked (Nat × Keyspace) :=
  expireFrom now draws 0 count s

end Keyspace

end KeyValueServer
