import KeyValueServer.Keyspace
import KeyValueServer.Proofs.Table.Represents

/-!
# Tables with byte strings as keys

The tables of a keyspace have byte strings as keys (`Value.textKey`). Such a string is the same key
as no other, so a table is a map on byte strings itself (`Table.IsMap`). A table of deadlines is a
map to the integers that its values denote (`Table.IsTimetable`); it is a `Table.IsSchedule` when
all of them are integers.

## Main results

* `Table.IsMap.get`, `set`, `delete`: what the operations do to a map.
* `Table.IsTimetable.get`, `set`, `delete`, `sample`: what they do to deadlines.
-/

namespace KeyValueServer

/-! ### Byte strings as keys -/

namespace Value

/-- `textKey bytes` is a byte string as a key. -/
def textKey (bytes : Bytes) : keying.Key :=
  ⟨.str bytes, sameText_iff.2 ⟨bytes, rfl, rfl⟩⟩

/-- Every key is a `textKey`. -/
theorem exists_eq_textKey (key : keying.Key) : ∃ bytes, key = textKey bytes := by
  obtain ⟨key, hkey⟩ := key
  obtain ⟨bytes, rfl, -⟩ := sameText_iff.1 hkey
  exact ⟨bytes, rfl⟩

/-- `byBytes` names keys by their bytes and shows their values. -/
def byBytes : Indexing keying Value Bytes Value where
  index key := key.1.bytes
  view _ val := val
  index_eq_iff := by
    intro a b
    obtain ⟨x, rfl⟩ := exists_eq_textKey a
    obtain ⟨y, rfl⟩ := exists_eq_textKey b
    constructor
    · intro h
      obtain rfl : x = y := h
      exact ⟨rfl, (textKey x).2⟩
    · rintro ⟨-, hsame⟩
      change sameText (.str x) (.str y) = true at hsame
      obtain ⟨z, hx, hy⟩ := sameText_iff.1 hsame
      exact congrArg bytes (hx.trans hy.symm)

/-- `byBytes` names a byte string by itself. -/
@[simp]
theorem byBytes_index (bytes : Bytes) : byBytes.index (textKey bytes) = bytes := rfl

/-- `byBytes` shows the value. -/
@[simp]
theorem byBytes_view (key : keying.Key) (val : Value) : byBytes.view key val = val := rfl

end Value

namespace Table

/-! ### Maps -/

/-- `t.IsMap m`: the table is the map `m` from byte strings to values. -/
def IsMap (t : Table Value.keying Value) (m : Finmap fun _ : Bytes => Value) : Prop :=
  Represents Value.byBytes t m

namespace IsMap

variable {t : Table Value.keying Value} {m : Finmap fun _ : Bytes => Value}

/-- `Table.empty` is the empty map. -/
theorem empty : IsMap .empty ∅ :=
  Represents.empty

/-- `Table.get` gives what the map holds. -/
theorem get (h : t.IsMap m) (key : Bytes) :
    ∃ t', t.get (.str key) = .ok (m.lookup key, t') ∧ t'.IsMap m := by
  obtain ⟨t', h', ⟨hnot, hfind⟩ | ⟨stored, val, -, hlookup, hfind⟩⟩ :=
    Represents.find h (Value.textKey key)
  · refine ⟨t', ?_, h'⟩
    change t.find (.str key) = _ at hfind
    rw [Table.get, hfind, Finmap.lookup_eq_none.2 (by simpa using hnot)]
    rfl
  · refine ⟨t', ?_, h'⟩
    change t.find (.str key) = _ at hfind
    rw [Value.byBytes_index, Value.byBytes_view] at hlookup
    rw [Table.get, hfind, hlookup]
    rfl

/-- `Table.set` inserts. -/
theorem set (h : t.IsMap m) (key : Bytes) (val : Value) :
    ∃ t', t.set (.str key) val = .ok t' ∧ t'.IsMap (m.insert key val) := by
  obtain ⟨t', hset, ⟨stored, old, -, -, h'⟩ | ⟨-, h'⟩⟩ := Represents.set h (Value.textKey key) val
  · exact ⟨t', hset, h'⟩
  · exact ⟨t', hset, h'⟩

/-- `Table.delete` erases, whether or not it succeeds. -/
theorem delete (h : t.IsMap m) (key : Bytes) :
    ∃ result t', t.delete (.str key) = .ok (result, t') ∧ t'.IsMap (m.erase key) := by
  rcases Represents.delete h (Value.textKey key) with ⟨-, t', hdelete, h'⟩ | ⟨hnot, t', hdelete, h'⟩
  · exact ⟨_, t', hdelete, h'⟩
  · rw [Value.byBytes_index] at hnot
    refine ⟨_, t', hdelete, ?_⟩
    rw [erase_eq_self hnot]
    exact h'

/-- `Table.sample` is a mapping of the map, if it is anything. -/
theorem sample (h : t.IsMap m) (draws : Draws) :
    ∃ t', t'.IsMap m ∧ (t.sample draws = .ok (none, t') ∨
      ∃ key val, m.lookup key = some val ∧
        t.sample draws = .ok (some (Entry.ofKey (Value.textKey key) val), t')) := by
  obtain ⟨t', h', hsample | ⟨stored, val, hlookup, hsample⟩⟩ := Represents.sample h draws
  · exact ⟨t', h', .inl hsample⟩
  · obtain ⟨key, rfl⟩ := Value.exists_eq_textKey stored
    exact ⟨t', h', .inr ⟨key, val, hlookup, hsample⟩⟩

end IsMap

/-! ### Deadlines -/

/-- `t.IsTimetable fit m`: the table of deadlines is the map `m` from byte strings to the integers
that its values denote. A value that denotes none is not seen. Every value that the table holds is
`fit`. -/
def IsTimetable (fit : Value → Prop) (t : Table Value.keying Value)
    (m : Finmap fun _ : Bytes => Int64) : Prop :=
  ∃ held, t.IsMap held ∧ (∀ key val, held.lookup key = some val → fit val) ∧
    ∀ key, (held.lookup key).bind Value.integer? = m.lookup key

/-- `t.IsSchedule m`: the table is the map `m` from byte strings to integers, each held as a
value. -/
def IsSchedule (t : Table Value.keying Value) (m : Finmap fun _ : Bytes => Int64) : Prop :=
  ∃ held, t.IsMap held ∧ ∀ key, held.lookup key = (m.lookup key).map Value.int

namespace IsTimetable

variable {fit : Value → Prop} {t : Table Value.keying Value}
  {m : Finmap fun _ : Bytes => Int64}

/-- `Table.empty` is the empty map. -/
theorem empty : IsTimetable fit .empty ∅ := by
  refine ⟨∅, IsMap.empty, fun key val h => ?_, fun key => ?_⟩
  · rw [Finmap.lookup_empty] at h
    cases h
  · rw [Finmap.lookup_empty, Finmap.lookup_empty]
    rfl

/-- `Table.get` gives a value that denotes what the map holds. -/
theorem get (h : t.IsTimetable fit m) (key : Bytes) :
    ∃ val? t', t.get (.str key) = .ok (val?, t') ∧ val?.bind Value.integer? = m.lookup key ∧
      t'.IsTimetable fit m := by
  obtain ⟨held, ht, hfit, hheld⟩ := h
  obtain ⟨t', hget, ht'⟩ := ht.get key
  exact ⟨held.lookup key, t', hget, hheld key, held, ht', hfit, hheld⟩

/-- `Table.set` inserts. -/
theorem set (h : t.IsTimetable fit m) (key : Bytes) {deadline : Int64}
    (hdeadline : fit (.int deadline)) :
    ∃ t', t.set (.str key) (.int deadline) = .ok t' ∧
      t'.IsTimetable fit (m.insert key deadline) := by
  obtain ⟨held, ht, hfit, hheld⟩ := h
  obtain ⟨t', hset, ht'⟩ := ht.set key (.int deadline)
  refine ⟨t', hset, _, ht', fun other val hval => ?_, fun other => ?_⟩
  · by_cases hother : other = key
    · subst hother
      rw [Finmap.lookup_insert] at hval
      cases hval
      exact hdeadline
    · rw [Finmap.lookup_insert_of_ne _ hother] at hval
      exact hfit other val hval
  · by_cases hother : other = key
    · subst hother
      rw [Finmap.lookup_insert, Finmap.lookup_insert]
      rfl
    · rw [Finmap.lookup_insert_of_ne _ hother, Finmap.lookup_insert_of_ne _ hother, hheld]

/-- `Table.delete` erases, whether or not it succeeds. -/
theorem delete (h : t.IsTimetable fit m) (key : Bytes) :
    ∃ result t', t.delete (.str key) = .ok (result, t') ∧ t'.IsTimetable fit (m.erase key) := by
  obtain ⟨held, ht, hfit, hheld⟩ := h
  obtain ⟨result, t', hdelete, ht'⟩ := ht.delete key
  refine ⟨result, t', hdelete, _, ht', fun other val hval => ?_, fun other => ?_⟩
  · by_cases hother : other = key
    · subst hother
      rw [Finmap.lookup_erase] at hval
      cases hval
    · rw [Finmap.lookup_erase_ne hother] at hval
      exact hfit other val hval
  · by_cases hother : other = key
    · subst hother
      rw [Finmap.lookup_erase, Finmap.lookup_erase]
      rfl
    · rw [Finmap.lookup_erase_ne hother, Finmap.lookup_erase_ne hother, hheld]

/-- `Table.sample` is a value that denotes what the map holds for its key, if it is anything. -/
theorem sample (h : t.IsTimetable fit m) (draws : Draws) :
    ∃ t', t'.IsTimetable fit m ∧ (t.sample draws = .ok (none, t') ∨
      ∃ key val, val.integer? = m.lookup key ∧
        t.sample draws = .ok (some (Entry.ofKey (Value.textKey key) val), t')) := by
  obtain ⟨held, ht, hfit, hheld⟩ := h
  obtain ⟨t', ht', hsample | ⟨key, val, hlookup, hsample⟩⟩ := ht.sample draws
  · exact ⟨t', ⟨held, ht', hfit, hheld⟩, .inl hsample⟩
  · refine ⟨t', ⟨held, ht', hfit, hheld⟩, .inr ⟨key, val, ?_, hsample⟩⟩
    rw [← hheld key, hlookup]
    rfl

end IsTimetable

/-- `IsSchedule` is `IsTimetable` where all values are integers. -/
theorem isSchedule_iff {t : Table Value.keying Value} {m : Finmap fun _ : Bytes => Int64} :
    t.IsSchedule m ↔ t.IsTimetable (fun val => ∃ n, val = .int n) m := by
  constructor
  · rintro ⟨held, ht, hheld⟩
    refine ⟨held, ht, fun key val hval => ?_, fun key => ?_⟩
    · rw [hheld key, Option.map_eq_some_iff] at hval
      obtain ⟨n, -, rfl⟩ := hval
      exact ⟨n, rfl⟩
    · rw [hheld key]
      cases m.lookup key <;> rfl
  · rintro ⟨held, ht, hfit, hheld⟩
    refine ⟨held, ht, fun key => ?_⟩
    rw [← hheld key]
    cases hval : held.lookup key with
    | none => rfl
    | some val =>
        obtain ⟨n, rfl⟩ := hfit key val hval
        rfl

end Table

end KeyValueServer
