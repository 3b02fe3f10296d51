/-!
# Faults

A computation that has no result at all ends in a `Fault`: an index that lies outside its
data, an integer that leaves its width, more memory than there can be, an assertion that does
not hold. A fault is not an error that a caller handles; it ends the program. Every operation
whose arguments might lead to one returns `Checked`, so that "this never happens" is a statement
about its result.

Counts of things held in memory (entries, replies, timers made so far) are natural numbers
without a bound; a width is checked only where an input or a clock can bring a number near it.

## Main definitions

* `Fault`, `Checked` — the causes, and a result that may be one of them;
* `Checked.sum64` — addition of two 64-bit words;
* `Checked.difference` — subtraction of counts, which never goes below zero.
-/

namespace KeyValueServer

/-- Why a computation has no result. -/
inductive Fault
  /-- An index or a slice lies outside the data it is taken from. -/
  | outOfRange
  /-- An integer does not fit its width, or a count would fall below zero. -/
  | overflow
  /-- No memory can hold as much as is asked for. -/
  | capacity
  /-- A condition that the operation demands of its caller does not hold. -/
  | assertion
  /-- A bounded search used up its bound. -/
  | exhausted
  deriving DecidableEq

/-- A result, or the fault that prevents it. -/
abbrev Checked (α : Type) := Except Fault α

/-- The number of values of a 64-bit word. -/
def wordLimit : Nat := UInt64.size

namespace Checked

/-- The sum of two 64-bit words; it overflows when it is no word. -/
def sum64 (a b : Nat) : Checked Nat :=
  if a + b < wordLimit then .ok (a + b) else .error .overflow

/-- The difference of two counts; it overflows when it is negative. -/
def difference (a b : Nat) : Checked Nat :=
  if b ≤ a then .ok (a - b) else .error .overflow

/-- The value where there is one, and `fault` where there is none. -/
def orFault {α : Type} (fault : Fault) : Option α → Checked α
  | some a => .ok a
  | none => .error fault

/-- A sum of words is the plain sum exactly when that is a word. -/
theorem sum64_eq_ok_iff {a b c : Nat} :
    sum64 a b = .ok c ↔ a + b < wordLimit ∧ c = a + b := by
  unfold sum64
  split
  · rename_i h
    constructor
    · intro e
      exact ⟨h, (Except.ok.inj e).symm⟩
    · rintro ⟨-, rfl⟩
      rfl
  · rename_i h
    constructor
    · intro e
      cases e
    · exact fun e => absurd e.1 h

/-- A difference is the plain difference exactly when it is not negative. -/
theorem difference_eq_ok_iff {a b c : Nat} :
    difference a b = .ok c ↔ b ≤ a ∧ c = a - b := by
  unfold difference
  split
  · rename_i h
    constructor
    · intro e
      exact ⟨h, (Except.ok.inj e).symm⟩
    · rintro ⟨-, rfl⟩
      rfl
  · rename_i h
    constructor
    · intro e
      cases e
    · exact fun e => absurd e.1 h

end Checked

end KeyValueServer
