import KeyValueServer.Fault

/-!
# Sequences with a first-match search

A sequence of values that grows and shrinks at both ends and is searched by an equality that
its owner chooses. The equality is asked as `same stored probe` and need not be symmetric or
hold of a value and itself. The number of items is kept beside them.

## Main definitions

* `Sequence.append`, `Sequence.prepend`, `Sequence.popFirst?` — the ends;
* `Sequence.find?`, `Sequence.erase?` — the first item that matches a probe.
-/

namespace KeyValueServer

/-- A sequence of items and the equality by which they are searched. -/
structure Sequence (α : Type) (same : α → α → Bool) where
  /-- The items in order. -/
  items : List α
  /-- How many items there are. -/
  count : Nat

namespace Sequence

variable {α : Type} {same : α → α → Bool}

/-- The sequence without items. -/
def empty : Sequence α same := ⟨[], 0⟩

/-- Whether there is no item. -/
def isEmpty (s : Sequence α same) : Bool :=
  s.count == 0

/-- The first item. -/
def first? (s : Sequence α same) : Option α :=
  s.items.head?

/-- The last item. -/
def last? (s : Sequence α same) : Option α :=
  s.items.getLast?

/-- The sequence with an item behind the others. -/
def append (s : Sequence α same) (a : α) : Sequence α same :=
  ⟨s.items ++ [a], s.count + 1⟩

/-- The sequence with an item before the others. -/
def prepend (s : Sequence α same) (a : α) : Sequence α same :=
  ⟨a :: s.items, s.count + 1⟩

/-- The first item and the sequence of the others. -/
def popFirst? (s : Sequence α same) : Option (α × Sequence α same) :=
  match s.items with
  | [] => none
  | a :: rest => some (a, ⟨rest, s.count - 1⟩)

/-- The first item that matches a probe. -/
def find? (s : Sequence α same) (probe : α) : Option α :=
  s.items.find? (same · probe)

/-- The first item that is a hit, and the other items. -/
def takeFirst? (hit : α → Bool) : List α → Option (α × List α)
  | [] => none
  | a :: rest =>
    if hit a then some (a, rest)
    else (takeFirst? hit rest).map fun (found, others) => (found, a :: others)

/-- The first item that matches a probe, and the sequence without it. -/
def erase? (s : Sequence α same) (probe : α) : Option (α × Sequence α same) :=
  (takeFirst? (same · probe) s.items).map fun (found, others) => (found, ⟨others, s.count - 1⟩)

end Sequence

end KeyValueServer
