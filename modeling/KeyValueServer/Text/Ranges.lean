/-!
# Classes of characters

A property of characters is kept as the list of the ranges of code points that have it, in
ascending order, as the Unicode Character Database gives it.

## Main definitions

* `Ranges` — inclusive ranges of code points;
* `Ranges.holds` — whether a character lies in one of them.
-/

namespace KeyValueServer

/-- Inclusive ranges of code points. -/
abbrev Ranges := Array (Nat × Nat)

/-- Whether a character lies in one of the ranges. -/
def Ranges.holds (ranges : Ranges) (c : Char) : Bool :=
  ranges.any fun (first, last) => first ≤ c.toNat && c.toNat ≤ last

end KeyValueServer
