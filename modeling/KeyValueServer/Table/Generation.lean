import KeyValueServer.Fault

/-!
# One generation of a hash table

A generation is an array of chains. An entry stands in the chain that the low bits of its hash
select, the newest entry of a chain first, and the number of entries is kept beside the array.
The hash is stored with the entry: a key is compared only with the entries of its own hash.

A generation takes no view on which entries it holds; `Table` decides that. All it can fail at
is an index outside the array or a count that would go below zero, and both are faults.

## Main definitions

* `Keying` — how keys are hashed and compared;
* `Entry`, `Generation` — an entry, and an array of chains of them;
* `Generation.push`, `find?`, `reassign`, `remove` — the operations on the chain of a hash;
* `Generation.migrate` — the move of one chain into another generation.
-/

namespace KeyValueServer

/-- How the keys of a table are hashed and compared. Nothing is assumed of either function. -/
structure Keying (κ : Type) where
  /-- The hash of a key. -/
  hash : κ → UInt64
  /-- Whether a stored key, given first, is the one asked for. -/
  same : κ → κ → Bool

/-- A mapping in a table. -/
structure Entry (κ ν : Type) where
  /-- The hash of the key. -/
  hash : UInt64
  /-- The key as it was first stored. -/
  key : κ
  /-- The value stored last. -/
  val : ν
  deriving DecidableEq

namespace Entry

variable {κ ν : Type}

/-- Whether an entry answers for a key: the hashes agree and the stored key compares as the
same. -/
def answers (K : Keying κ) (hash : UInt64) (key : κ) (e : Entry κ ν) : Bool :=
  e.hash == hash && K.same e.key key

end Entry

/-- An array of chains. Its size is a power of two and `mask` is one less, so that masking a
hash gives a chain's index. -/
structure Generation (κ ν : Type) where
  /-- The chains. -/
  chains : Array (List (Entry κ ν))
  /-- How many chains there are. -/
  size : Nat
  /-- The bits of a hash that select a chain. -/
  mask : Nat
  /-- How many entries the chains hold. -/
  used : Nat

namespace Generation

variable {κ ν : Type}

/-- A generation of empty chains. -/
def ofSize (size : Nat) : Generation κ ν where
  chains := Array.replicate size []
  size := size
  mask := size - 1
  used := 0

/-- The index of the chain for a hash. -/
def indexOf (g : Generation κ ν) (hash : UInt64) : Nat :=
  hash.toNat &&& g.mask

/-- The chain at an index. -/
def chainAt (g : Generation κ ν) (index : Nat) : Checked (List (Entry κ ν)) :=
  Checked.orFault .outOfRange g.chains[index]?

/-- All entries: the chains in the order of their indices, each from its head. -/
def entries (g : Generation κ ν) : List (Entry κ ν) :=
  g.chains.toList.flatten

/-- The generation with another chain at an index and another count. -/
def withChain (g : Generation κ ν) (index : Nat) (chain : List (Entry κ ν)) (used : Nat) :
    Generation κ ν :=
  { g with chains := g.chains.setIfInBounds index chain, used := used }

/-- The generation with an entry at the head of its chain. -/
def push (g : Generation κ ν) (e : Entry κ ν) : Checked (Generation κ ν) :=
  match g.chains[g.indexOf e.hash]? with
  | some chain => .ok (g.withChain (g.indexOf e.hash) (e :: chain) (g.used + 1))
  | none => .error .outOfRange

/-- The first entry of the chain of `hash` that answers for the key. -/
def find? (K : Keying κ) (g : Generation κ ν) (hash : UInt64) (key : κ) :
    Checked (Option (Entry κ ν)) :=
  match g.chains[g.indexOf hash]? with
  | some chain => .ok (chain.find? (Entry.answers K hash key))
  | none => .error .outOfRange

/-- A chain with another value in the first entry that is a hit, if there is one. -/
def reassignFirst? (hit : Entry κ ν → Bool) (val : ν) :
    List (Entry κ ν) → Option (List (Entry κ ν))
  | [] => none
  | e :: rest =>
    if hit e then some ({ e with val := val } :: rest)
    else (reassignFirst? hit val rest).map (e :: ·)

/-- A chain without the first entry that is a hit, if there is one. -/
def removeFirst? (hit : Entry κ ν → Bool) : List (Entry κ ν) → Option (List (Entry κ ν))
  | [] => none
  | e :: rest =>
    if hit e then some rest else (removeFirst? hit rest).map (e :: ·)

/-- The generation with another value in the first entry that answers for the key, after
whether there is one. The stored key and the entry's place in its chain stay. -/
def reassign (K : Keying κ) (g : Generation κ ν) (hash : UInt64) (key : κ) (val : ν) :
    Checked (Bool × Generation κ ν) :=
  match g.chains[g.indexOf hash]? with
  | some chain =>
    match reassignFirst? (Entry.answers K hash key) val chain with
    | some chain' => .ok (true, g.withChain (g.indexOf hash) chain' g.used)
    | none => .ok (false, g)
  | none => .error .outOfRange

/-- The generation without the first entry that answers for the key, after whether there is
one. -/
def remove (K : Keying κ) (g : Generation κ ν) (hash : UInt64) (key : κ) :
    Checked (Bool × Generation κ ν) :=
  match g.chains[g.indexOf hash]? with
  | some chain =>
    match removeFirst? (Entry.answers K hash key) chain with
    | some chain' => do
      let used ← Checked.difference g.used 1
      .ok (true, g.withChain (g.indexOf hash) chain' used)
    | none => .ok (false, g)
  | none => .error .outOfRange

/-- The index of the first chain with an entry among the `steps` chains from `index` on. -/
def occupiedWithin? (chains : Array (List (Entry κ ν))) (index : Nat) : Nat → Option Nat
  | 0 => none
  | steps + 1 =>
    match chains[index]? with
    | none => none
    | some [] => occupiedWithin? chains (index + 1) steps
    | some (_ :: _) => some index

/-- The index of the first chain with an entry from `index` on. There must be one. -/
def occupiedFrom (g : Generation κ ν) (index : Nat) : Checked Nat :=
  Checked.orFault .outOfRange (occupiedWithin? g.chains index (g.chains.size - index))

/-- Moves one chain into another generation, entry by entry from its head. As each entry goes
to the head of its new chain, entries that stay together change their order. -/
def migrate (source target : Generation κ ν) (index : Nat) :
    Checked (Generation κ ν × Generation κ ν) := do
  let chain ← source.chainAt index
  let used ← Checked.difference source.used chain.length
  let target ← chain.foldlM push target
  .ok (source.withChain index [] used, target)

end Generation

end KeyValueServer
