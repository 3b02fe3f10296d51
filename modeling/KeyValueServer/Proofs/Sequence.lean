import KeyValueServer.Proofs.Checked
import KeyValueServer.Sequence

/-!
# Sequences, over any history of calls

A sequence is used through calls that add an item at either end, remove the first item or the first
that matches, look at an item, or remove all of them. What these do to a plain list is said by a
relation, `Sequence.Does`, which describes each outcome by the items on either side of the one that
is found and knows neither of `takeFirst?` nor of the count. `Sequence.call` does that and nothing
else, whatever the equality is: it is asked about a stored item and the probe, in this order, and
need not hold of two items in both orders, nor of an item and itself.

The count is kept beside the items and changes with them. A removal that found the count at zero
would fault; none does.

## Main results

* `Sequence.takeFirst?_eq_some_iff`, `Sequence.takeFirst?_eq_none_iff`: what a search for the first
  hit comes to.
* `Sequence.Does.call_eq`: one call.
* `Sequence.run_exact`: all calls of a history, and what is seen after each.
-/

namespace KeyValueServer

namespace Sequence

variable {α : Type} {same : α → α → Bool} {s : Sequence α same} {items items' : List α}

/-! ### The first hit -/

/-- **`takeFirst?` finds the first hit**: it stands behind items that are none, and the others keep
their order. -/
theorem takeFirst?_eq_some_iff {hit : α → Bool} {a : α} {others : List α} :
    takeFirst? hit items = some (a, others) ↔
      ∃ front back, items = front ++ a :: back ∧ others = front ++ back ∧ hit a = true ∧
        ∀ b ∈ front, hit b = false := by
  induction items generalizing others with
  | nil => simp [takeFirst?]
  | cons c rest ih =>
      rw [takeFirst?]
      by_cases hc : hit c = true
      · rw [if_pos hc]
        constructor
        · intro h
          cases h
          exact ⟨[], rest, rfl, rfl, hc, nofun⟩
        · rintro ⟨front, back, hitems, rfl, -, hfront⟩
          cases front with
          | nil =>
              cases hitems
              rfl
          | cons b front =>
              cases hitems
              rw [hfront c List.mem_cons_self] at hc
              cases hc
      · rw [if_neg hc, Option.map_eq_some_iff]
        constructor
        · rintro ⟨⟨found, later⟩, hlater, h⟩
          cases h
          obtain ⟨front, back, rfl, rfl, hhit, hfront⟩ := ih.1 hlater
          refine ⟨c :: front, back, rfl, rfl, hhit, fun b hb => ?_⟩
          rcases List.mem_cons.1 hb with rfl | hb
          · exact Bool.eq_false_iff.2 hc
          · exact hfront b hb
        · rintro ⟨front, back, hitems, rfl, hhit, hfront⟩
          cases front with
          | nil =>
              cases hitems
              exact absurd hhit hc
          | cons b front =>
              cases hitems
              have hrest : ∀ b ∈ front, hit b = false :=
                fun b hb => hfront b (List.mem_cons_of_mem c hb)
              exact ⟨(a, front ++ back), ih.2 ⟨front, back, rfl, rfl, hhit, hrest⟩, rfl⟩

/-- **`takeFirst?` finds no hit** where no item is one. -/
theorem takeFirst?_eq_none_iff {hit : α → Bool} :
    takeFirst? hit items = none ↔ ∀ a ∈ items, hit a = false := by
  induction items with
  | nil => simp [takeFirst?]
  | cons c rest ih =>
      rw [takeFirst?, List.forall_mem_cons]
      by_cases hc : hit c = true
      · simp [hc]
      · rw [if_neg hc, Option.map_eq_none_iff, ih, Bool.eq_false_iff.2 hc]
        simp

/-! ### Calls -/

/-- A `Call` is what is asked of a sequence. -/
inductive Call (α : Type)
  | append (a : α)
  | prepend (a : α)
  | popFirst
  | erase (probe : α)
  | find (probe : α)
  | first
  | last
  | clear
  deriving DecidableEq

/-- `s.remove` is the answer to a removal and the sequence after it. The count is lowered where an
item is removed, and cannot be lowered below zero. -/
def remove (s : Sequence α same) : Option (α × Sequence α same) →
    Checked (Option α × Sequence α same)
  | none => .ok (none, s)
  | some (a, s') => do
    let _ ← Checked.difference s.count 1
    .ok (some a, s')

/-- `s.call c` is the answer to a call and the sequence after it. -/
def call (s : Sequence α same) : Call α → Checked (Option α × Sequence α same)
  | .append a => .ok (none, s.append a)
  | .prepend a => .ok (none, s.prepend a)
  | .popFirst => s.remove s.popFirst?
  | .erase probe => s.remove (s.erase? probe)
  | .find probe => .ok (s.find? probe, s)
  | .first => .ok (s.first?, s)
  | .last => .ok (s.last?, s)
  | .clear => .ok (none, .empty)

/-- `Seen` is what is seen once a call is answered. -/
structure Seen (α : Type) where
  /-- The answer. -/
  answer? : Option α
  /-- How many items there are said to be. -/
  count : Nat
  /-- Whether there is said to be none. -/
  isEmpty : Bool
  /-- The items in the order in which they are gone through. -/
  items : List α
  deriving DecidableEq

/-- `run calls s` is what is seen after each call. -/
def run : List (Call α) → Sequence α same → Checked (List (Seen α))
  | [], _ => .ok []
  | c :: rest, s => do
    let (answer?, s) ← s.call c
    let later ← run rest s
    .ok (⟨answer?, s.count, s.isEmpty, s.items⟩ :: later)

/-! ### What calls do to a list -/

/-- `Does same items c answer? items'`: the call `c` on a list of items answers so, and of the items
there become `items'`. -/
inductive Does (same : α → α → Bool) : List α → Call α → Option α → List α → Prop
  | append {items : List α} {a : α} : Does same items (.append a) none (items ++ [a])
  | prepend {items : List α} {a : α} : Does same items (.prepend a) none (a :: items)
  | popFirst {a : α} {rest : List α} : Does same (a :: rest) .popFirst (some a) rest
  | popFirst_nil : Does same [] .popFirst none []
  | erase {front back : List α} {a probe : α} (hfront : ∀ b ∈ front, same b probe = false)
      (hit : same a probe = true) :
      Does same (front ++ a :: back) (.erase probe) (some a) (front ++ back)
  | erase_none {items : List α} {probe : α} (h : ∀ b ∈ items, same b probe = false) :
      Does same items (.erase probe) none items
  | find {front back : List α} {a probe : α} (hfront : ∀ b ∈ front, same b probe = false)
      (hit : same a probe = true) :
      Does same (front ++ a :: back) (.find probe) (some a) (front ++ a :: back)
  | find_none {items : List α} {probe : α} (h : ∀ b ∈ items, same b probe = false) :
      Does same items (.find probe) none items
  | first {a : α} {rest : List α} : Does same (a :: rest) .first (some a) (a :: rest)
  | first_nil : Does same [] .first none []
  | last {front : List α} {a : α} : Does same (front ++ [a]) .last (some a) (front ++ [a])
  | last_nil : Does same [] .last none []
  | clear {items : List α} : Does same items .clear none []

/-- `Follows same items calls seen`: calls on a list of items answer and leave what is seen. -/
inductive Follows (same : α → α → Bool) : List α → List (Call α) → List (Seen α) → Prop
  | nil {items : List α} : Follows same items [] []
  | cons {items items' : List α} {c : Call α} {answer? : Option α} {rest : List (Call α)}
      {later : List (Seen α)} (h : Does same items c answer? items')
      (hs : Follows same items' rest later) :
      Follows same items (c :: rest) (⟨answer?, items'.length, items'.isEmpty, items'⟩ :: later)

/-- `Does` has an outcome for every call on any items. -/
theorem exists_does (same : α → α → Bool) (items : List α) (c : Call α) :
    ∃ answer? items', Does same items c answer? items' := by
  cases c with
  | append a => exact ⟨_, _, .append⟩
  | prepend a => exact ⟨_, _, .prepend⟩
  | popFirst =>
      cases items with
      | nil => exact ⟨_, _, .popFirst_nil⟩
      | cons a rest => exact ⟨_, _, .popFirst⟩
  | erase probe =>
      cases htake : takeFirst? (same · probe) items with
      | none => exact ⟨_, _, .erase_none (takeFirst?_eq_none_iff.1 htake)⟩
      | some taken =>
          obtain ⟨front, back, rfl, -, hit, hfront⟩ := takeFirst?_eq_some_iff.1 htake
          exact ⟨_, _, .erase hfront hit⟩
  | find probe =>
      cases htake : takeFirst? (same · probe) items with
      | none => exact ⟨_, _, .find_none (takeFirst?_eq_none_iff.1 htake)⟩
      | some taken =>
          obtain ⟨front, back, rfl, -, hit, hfront⟩ := takeFirst?_eq_some_iff.1 htake
          exact ⟨_, _, .find hfront hit⟩
  | first =>
      cases items with
      | nil => exact ⟨_, _, .first_nil⟩
      | cons a rest => exact ⟨_, _, .first⟩
  | last =>
      rcases List.eq_nil_or_concat items with rfl | ⟨front, a, rfl⟩
      · exact ⟨_, _, .last_nil⟩
      · rw [List.concat_eq_append]
        exact ⟨_, _, .last⟩
  | clear => exact ⟨_, _, .clear⟩

/-! ### The calls do that -/

/-- `ofItems same items` is the sequence of the items that are counted. -/
def ofItems (same : α → α → Bool) (items : List α) : Sequence α same := ⟨items, items.length⟩

/-- `remove` of an item that has been counted. -/
theorem remove_ofItems (hne : items ≠ []) (a : α) (s : Sequence α same) :
    (ofItems same items).remove (some (a, s)) = .ok (some a, s) := by
  have hcount : 1 ≤ (ofItems same items).count := List.length_pos_iff.2 hne
  rw [remove, Checked.difference_eq_ok_iff.2 ⟨hcount, rfl⟩, Checked.ok_bind]

variable {c : Call α} {answer? : Option α}

/-- **`Sequence.call` does to the items what `Does` says**, and counts them. -/
theorem Does.call_eq (h : Does same items c answer? items') :
    (ofItems same items).call c = .ok (answer?, ofItems same items') := by
  cases h with
  | append =>
      rw [call, Sequence.append, ofItems, ofItems, List.length_append, List.length_singleton]
  | prepend => rfl
  | popFirst => exact remove_ofItems (List.cons_ne_nil _ _) _ _
  | popFirst_nil => rfl
  | @erase front back a probe hfront hit =>
      have htake : takeFirst? (same · probe) (front ++ a :: back) = some (a, front ++ back) :=
        takeFirst?_eq_some_iff.2 ⟨front, back, rfl, rfl, hit, hfront⟩
      have herase : (ofItems same (front ++ a :: back)).erase? probe =
          some (a, ofItems same (front ++ back)) := by
        rw [erase?, ofItems, htake, Option.map_some, ofItems, List.length_append,
          List.length_append, List.length_cons]
        rfl
      rw [call, herase]
      exact remove_ofItems (List.append_ne_nil_of_right_ne_nil _ (List.cons_ne_nil _ _)) _ _
  | erase_none h =>
      rw [call, erase?, ofItems, takeFirst?_eq_none_iff.2 h]
      rfl
  | @find front back a probe hfront hit =>
      have hfind : (front ++ a :: back).find? (same · probe) = some a := by
        have hnone : front.find? (same · probe) = none :=
          List.find?_eq_none.2 fun b hb => by simp [hfront b hb]
        rw [List.find?_append, hnone, Option.none_or]
        exact List.find?_cons_of_pos hit
      rw [call, find?, ofItems, hfind]
  | @find_none _ probe h =>
      have hfind : items.find? (same · probe) = none :=
        List.find?_eq_none.2 fun b hb => by simp [h b hb]
      rw [call, find?, ofItems, hfind]
  | first => rfl
  | first_nil => rfl
  | last => rw [call, last?, ofItems, List.getLast?_concat]
  | last_nil => rfl
  | clear => rfl

/-- **`Sequence.run` shows what `Follows` says.** -/
theorem Follows.run_eq {calls : List (Call α)} {seen : List (Seen α)}
    (h : Follows same items calls seen) : run calls (ofItems same items) = .ok seen := by
  induction h with
  | nil => rfl
  | @cons items items' c answer? rest later hdoes _ ih =>
      have hempty : (ofItems same items').isEmpty = items'.isEmpty := by cases items' <;> rfl
      rw [run, hdoes.call_eq, Checked.ok_bind]
      dsimp only
      rw [ih, Checked.ok_bind, hempty]
      rfl

/-- `Follows` has an outcome for all calls on any items. -/
theorem exists_follows (same : α → α → Bool) (items : List α) (calls : List (Call α)) :
    ∃ seen, Follows same items calls seen := by
  induction calls generalizing items with
  | nil => exact ⟨[], .nil⟩
  | cons c rest ih =>
      obtain ⟨answer?, items', hdoes⟩ := exists_does same items c
      obtain ⟨later, hlater⟩ := ih items'
      exact ⟨_, .cons hdoes hlater⟩

/-- **A sequence over any history of calls, whatever its equality.** No removal finds the count at
zero, and what is `Seen` after each call is what `Follows` from the calls on the list of items, and
no more than that: an item that is looked for or removed is the first that matches the probe, the
others keep their order, and where none matches nothing changes; the count is the number of the
items. -/
theorem run_exact (same : α → α → Bool) (calls : List (Call α)) :
    ∃ seen, run calls (.empty : Sequence α same) = .ok seen ∧
      ∀ seen', Follows same [] calls seen' ↔ seen' = seen := by
  obtain ⟨seen, hseen⟩ := exists_follows same [] calls
  have hrun : run calls (.empty : Sequence α same) = .ok seen := hseen.run_eq
  refine ⟨seen, hrun, fun seen' => ⟨fun h => ?_, fun h => h ▸ hseen⟩⟩
  have hrun' : run calls (.empty : Sequence α same) = .ok seen' := h.run_eq
  rw [hrun] at hrun'
  exact (Except.ok.inj hrun').symm

/-- An item that is less than the probe is found by it, and not the other way round. -/
example : run [.append 3, .prepend 5, .append 1, .erase 4, .find 3, .erase 0, .popFirst]
    (.empty : Sequence Nat fun stored probe => decide (stored < probe)) =
    .ok [⟨none, 1, false, [3]⟩, ⟨none, 2, false, [5, 3]⟩, ⟨none, 3, false, [5, 3, 1]⟩,
      ⟨some 3, 2, false, [5, 1]⟩, ⟨some 1, 2, false, [5, 1]⟩, ⟨none, 2, false, [5, 1]⟩,
      ⟨some 5, 1, false, [1]⟩] := rfl

end Sequence

end KeyValueServer
