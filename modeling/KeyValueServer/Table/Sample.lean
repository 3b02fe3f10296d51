import KeyValueServer.Table.Basic

/-!
# Random samples of a table

A sample is one entry of the table, chosen at random: first a chain, tried again while the
chain is empty, then a place in it. While the table is rehashing, the generation that holds
more entries is sampled. The random choices are an argument, so a statement about every sample
is a statement about all choices.

## Main definitions

* `Draws` — the random choices that one sample makes;
* `Table.sample` — the entry that they select, after one step of a rehash.
-/

namespace KeyValueServer

/-- The random choices of one sample. A number stands for the choice that it leaves as a
remainder, so every choice is open and none is out of range. -/
structure Draws where
  /-- The chain that each probe looks at. -/
  probe : Nat → Nat
  /-- The place in the chain that was found. -/
  pick : Nat

namespace Generation

variable {κ ν : Type}

/-- The first chain with an entry among the probes from `turn` on, and the last chain looked
at when `retries` more probes have found none. -/
def probeChain (g : Generation κ ν) (draws : Draws) (turn : Nat) :
    Nat → Checked (List (Entry κ ν))
  | 0 => g.chainAt (draws.probe turn % g.size)
  | retries + 1 => do
    let chain ← g.chainAt (draws.probe turn % g.size)
    if chain.isEmpty then probeChain g draws (turn + 1) retries else .ok chain

end Generation

namespace Table

/-- How many more chains a sample tries when the first is empty. -/
def sampleRetries : Nat := 1000

variable {κ ν : Type} {K : Keying κ}

/-- The generation to sample: the new one when it holds strictly more entries. -/
def sampled? : Table K ν → Option (Generation κ ν)
  | empty => none
  | stable live => some live
  | rehashing old new _ => if old.used < new.used then some new else some old

/-- One entry of the table at random, or nothing if the table is empty or every probe met an
empty chain. -/
def sample (t : Table K ν) (draws : Draws) : Checked (Option (Entry κ ν) × Table K ν) := do
  let t ← t.rehashStep
  match t.sampled? with
  | none => .ok (none, t)
  | some g =>
    if g.used = 0 then .ok (none, t)
    else do
      let chain ← g.probeChain draws 0 sampleRetries
      .ok (chain[draws.pick % chain.length]?, t)

end Table

end KeyValueServer
