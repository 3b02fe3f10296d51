import KeyValueServer.Table.Generation

/-!
# A chained hash table that rehashes incrementally

A table never moves all its entries at once. When it grows it keeps two generations: the old
one, which only shrinks, and the new one, which receives every new entry. Each operation first
moves one chain from the old generation to the new, and looks for its key in both. When the old
generation has no entry left, the next such step drops it.

Growth starts by itself when a stable generation holds more than `forceRatio` entries for each
chain, and by `expand` on request; a table that is rehashing does neither.

## Main definitions

* `Table` — no generation yet, one, or two with the index of the next chain to move;
* `Table.rehash`, `Table.rehashStep` — moving chains;
* `Table.expand` — growth on request;
* `Table.add`, `set`, `find`, `get`, `delete` — the mappings;
* `Table.entries`, `Table.size` — what the table holds.
-/

namespace KeyValueServer

/-- Why a table refuses a request. -/
inductive TableError
  /-- The table is rehashing, or already as large as asked. -/
  | expandRefused
  /-- The key has a mapping. -/
  | keyExists
  /-- The key has no mapping. -/
  | keyNotFound
  deriving DecidableEq

/-- The wording of a refusal. -/
def TableError.message : TableError → String
  | .expandRefused => "expand refused: already rehashing or table large enough"
  | .keyExists => "key already exists"
  | .keyNotFound => "key does not exist"

/-- A hash table from keys `κ` to values `ν`. -/
inductive Table {κ : Type} (K : Keying κ) (ν : Type)
  /-- A table that has no chains yet. -/
  | empty
  /-- A table with one generation. -/
  | stable (live : Generation κ ν)
  /-- A table that moves its chains from the old generation to the new. Those before `cursor`
  have been moved. -/
  | rehashing (old new : Generation κ ν) (cursor : Nat)

namespace Table

/-- How many chains a table starts with. -/
def initialSize : Nat := 8

/-- A stable table grows when it holds more entries for each chain than this. -/
def forceRatio : Nat := 2

/-- How many times more chains a table has after it has grown by itself. -/
def growRatio : Nat := 2

/-- The least power of two that is at least `size` and the initial size. -/
def nextPower (size : Nat) : Nat :=
  1 <<< ((max size initialSize - 1).log2 + 1)

variable {κ ν : Type} {K : Keying κ}

/-- The live generations, the old one first. -/
def generations : Table K ν → List (Generation κ ν)
  | empty => []
  | stable live => [live]
  | rehashing old new _ => [old, new]

/-- Whether the table has two generations. -/
def isRehashing : Table K ν → Bool
  | rehashing .. => true
  | _ => false

/-- The index of the next chain to move, if the table is rehashing. -/
def cursor? : Table K ν → Option Nat
  | rehashing _ _ cursor => some cursor
  | _ => none

/-- How many mappings the table holds. -/
def size (t : Table K ν) : Nat :=
  t.generations.foldl (fun count g => count + g.used) 0

/-- Whether the table holds no mapping. -/
def isEmpty (t : Table K ν) : Bool :=
  t.size == 0

/-- All entries: the old generation before the new, chains in order, each from its head. -/
def entries (t : Table K ν) : List (Entry κ ν) :=
  t.generations.flatMap (·.entries)

/-! ### Growing and moving chains -/

/-- The table with a fresh generation of `size` chains. A stable table begins to rehash into
it. -/
def grow (t : Table K ν) (size : Nat) : Table K ν :=
  match t with
  | stable live => rehashing live (Generation.ofSize size) 0
  | _ => stable (Generation.ofSize size)

/-- The number of bytes that no piece of memory reaches. -/
def memoryLimit : Nat := UInt64.size / 2

/-- How many bytes a chain takes besides its entries. -/
def chainBytes : Nat := 16

/-- The table with a fresh generation of `size` chains, if there can be memory for them. -/
def growWithin (t : Table K ν) (size : Nat) : Checked (Table K ν) :=
  if size * chainBytes < memoryLimit then .ok (t.grow size) else .error .capacity

/-- Grows the table to the least power of two that covers `target`. That power must be a
64-bit word, whatever the state of the table; and memory must have room for as many chains if
the table is to grow. -/
def expand (t : Table K ν) (target : Nat) : Checked (Except TableError Unit × Table K ν) :=
  if wordLimit ≤ nextPower target then .error .overflow
  else match t with
    | empty => (t.growWithin (nextPower target)).map fun t => (.ok (), t)
    | stable live =>
      if nextPower target ≤ live.size then .ok (.error .expandRefused, t)
      else (t.growWithin (nextPower target)).map fun t => (.ok (), t)
    | rehashing .. => .ok (.error .expandRefused, t)

/-- The table, growing if it has no chains or too many entries for them. -/
def growIfCrowded (t : Table K ν) : Table K ν :=
  match t with
  | empty => t.grow (nextPower initialSize)
  | stable live =>
    if live.size < live.used ∧ forceRatio < live.used / live.size then
      t.grow (nextPower (live.size * growRatio))
    else t
  | rehashing .. => t

/-- Moves up to `n` chains that hold entries. A step that finds the old generation without
entries drops it instead, and ends the rehash. -/
def rehash : Nat → Table K ν → Checked (Table K ν)
  | 0, t => .ok t
  | n + 1, rehashing old new cursor =>
    if old.used = 0 then .ok (stable new)
    else do
      let index ← old.occupiedFrom cursor
      let (old, new) ← old.migrate new index
      rehash n (rehashing old new (index + 1))
  | _ + 1, t => .ok t

/-- Moves one chain, if the table is rehashing. -/
def rehashStep (t : Table K ν) : Checked (Table K ν) :=
  rehash 1 t

/-! ### Mappings -/

/-- The entry that answers for a key, sought in the old generation before the new. -/
def lookup (t : Table K ν) (hash : UInt64) (key : κ) : Checked (Option (Entry κ ν)) :=
  match t with
  | empty => .ok none
  | stable live => live.find? K hash key
  | rehashing old new _ => do
    match ← old.find? K hash key with
    | some e => .ok (some e)
    | none => new.find? K hash key

/-- The table with an entry in its newest generation. -/
def insert (t : Table K ν) (e : Entry κ ν) : Checked (Table K ν) :=
  match t with
  | empty => do
    let live ← (Generation.ofSize initialSize).push e
    .ok (stable live)
  | stable live => do
    let live ← live.push e
    .ok (stable live)
  | rehashing old new cursor => do
    let new ← new.push e
    .ok (rehashing old new cursor)

/-- The table with another value in the entry that answers for a key, after whether one
does. -/
def reassign (t : Table K ν) (hash : UInt64) (key : κ) (val : ν) :
    Checked (Bool × Table K ν) :=
  match t with
  | empty => .ok (false, empty)
  | stable live => do
    let (found, live) ← live.reassign K hash key val
    .ok (found, stable live)
  | rehashing old new cursor => do
    let (found, old) ← old.reassign K hash key val
    if found then .ok (true, rehashing old new cursor)
    else do
      let (found, new) ← new.reassign K hash key val
      .ok (found, rehashing old new cursor)

/-- The table without the entry that answers for a key, after whether one does. -/
def remove (t : Table K ν) (hash : UInt64) (key : κ) : Checked (Bool × Table K ν) :=
  match t with
  | empty => .ok (false, empty)
  | stable live => do
    let (found, live) ← live.remove K hash key
    .ok (found, stable live)
  | rehashing old new cursor => do
    let (found, old) ← old.remove K hash key
    if found then .ok (true, rehashing old new cursor)
    else do
      let (found, new) ← new.remove K hash key
      .ok (found, rehashing old new cursor)

/-- Adds a mapping for a key that has none. -/
def add (t : Table K ν) (key : κ) (val : ν) : Checked (Except TableError Unit × Table K ν) := do
  let t ← t.rehashStep
  let t := t.growIfCrowded
  match ← t.lookup (K.hash key) key with
  | some _ => .ok (.error .keyExists, t)
  | none => do
    let t ← t.insert ⟨K.hash key, key, val⟩
    .ok (.ok (), t)

/-- Maps a key to a value. A mapping that is there keeps its stored key and its place. -/
def set (t : Table K ν) (key : κ) (val : ν) : Checked (Table K ν) := do
  let t ← t.rehashStep
  let t := t.growIfCrowded
  let (found, t) ← t.reassign (K.hash key) key val
  if found then .ok t else t.insert ⟨K.hash key, key, val⟩

/-- The entry for a key. -/
def find (t : Table K ν) (key : κ) : Checked (Option (Entry κ ν) × Table K ν) := do
  let t ← t.rehashStep
  let found ← t.lookup (K.hash key) key
  .ok (found, t)

/-- The value for a key. -/
def get (t : Table K ν) (key : κ) : Checked (Option ν × Table K ν) := do
  let (found, t) ← t.find key
  .ok (found.map (·.val), t)

/-- Removes the mapping for a key. -/
def delete (t : Table K ν) (key : κ) : Checked (Except TableError Unit × Table K ν) :=
  match t with
  | empty => .ok (.error .keyNotFound, empty)
  | t => do
    let t ← t.rehashStep
    let (found, t) ← t.remove (K.hash key) key
    .ok (if found then .ok () else .error .keyNotFound, t)

end Table

end KeyValueServer
