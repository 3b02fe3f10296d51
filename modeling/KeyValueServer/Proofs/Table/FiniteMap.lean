import KeyValueServer.Proofs.Table.Bytes

/-!
# A table is a finite map at every stage of a rehash

The operations of a table answer as a finite map does. Its keys are the classes of the keys that
have one hash and compare as equal (`Keying.Class`); under each class it holds the key that was
stored first and the value that was stored last. The equality must be symmetric and transitive
(`Keying.Lawful`), and it must hold of each key that is used and itself; of the hash nothing is
assumed.

A `Table.run` may hold operations in any order, and any of them may begin a rehash, move a chain or
end it. None of that shows in an answer. A run ends early in one case alone: an `expand` is granted
more chains than any memory can hold.

## Main results

* `FiniteMap.Answers`: what each operation may answer of a map, and the map after it.
* `Table.perform_refines`: one operation.
* `Table.run_refines_finiteMap`: every run of operations from a table without chains.
* `Table.exists_isMap_of_run`: with strings as keys, the table at its end is a map on byte strings.
-/

namespace KeyValueServer

/-! ### Classes of keys -/

/-- `K.Lawful`: the equality of keys is symmetric and transitive. It need not hold of a key and
itself. -/
structure Keying.Lawful {κ : Type} (K : Keying κ) : Prop where
  symm : ∀ {a b : κ}, K.same a b = true → K.same b a = true
  trans : ∀ {a b c : κ}, K.same a b = true → K.same b c = true → K.same a c = true

namespace Keying

variable {κ ν : Type} {K : Keying κ}

/-- `setoid hK`: keys are equivalent when their hashes agree and they compare as the same. -/
def setoid (hK : K.Lawful) : Setoid K.Key where
  r a b := K.hash a.1 = K.hash b.1 ∧ K.same a.1 b.1 = true
  iseqv :=
    { refl := fun a => ⟨rfl, a.2⟩
      symm := fun h => ⟨h.1.symm, hK.symm h.2⟩
      trans := fun h h' => ⟨h.1.trans h'.1, hK.trans h.2 h'.2⟩ }

/-- A `Class` of keys. -/
def Class (hK : K.Lawful) : Type := Quotient (setoid hK)

/-- Classes are compared by comparing keys. -/
instance (hK : K.Lawful) : DecidableEq (Class hK) :=
  haveI : ∀ a b : K.Key, Decidable ((setoid hK).r a b) :=
    fun _ _ => inferInstanceAs (Decidable (_ ∧ _))
  inferInstanceAs (DecidableEq (Quotient (setoid hK)))

/-- `classOf hK key` is the class of a key. -/
def classOf (hK : K.Lawful) (key : K.Key) : Class hK := Quotient.mk (setoid hK) key

/-- `classes` show of each class the key that is stored and its value. -/
def classes (hK : K.Lawful) (ν : Type) : Indexing K ν (Class hK) (κ × ν) where
  index := classOf hK
  view key val := (key.1, val)
  index_eq_iff := Quotient.eq (r := setoid hK)

end Keying

/-- A `FiniteMap` from classes of keys to the key stored first and the value stored last. -/
abbrev FiniteMap {κ : Type} {K : Keying κ} (hK : K.Lawful) (ν : Type) : Type :=
  Finmap fun _ : Keying.Class hK => κ × ν

/-! ### Operations and answers -/

/-- A `Call` of an operation on a table, with keys in `κ`. -/
inductive Table.Call (κ ν : Type)
  | add (key : κ) (val : ν)
  | set (key : κ) (val : ν)
  | find (key : κ)
  | get (key : κ)
  | delete (key : κ)
  | expand (target : Nat)
  | rehash (count : Nat)
  | sample (draws : Draws)
  | size
  | list

/-- `c.mapKey f` is the call with another key in place of its own, if it has one. -/
def Table.Call.mapKey {α β ν : Type} (f : α → β) : Call α ν → Call β ν
  | .add key val => .add (f key) val
  | .set key val => .set (f key) val
  | .find key => .find (f key)
  | .get key => .get (f key)
  | .delete key => .delete (f key)
  | .expand target => .expand target
  | .rehash count => .rehash count
  | .sample draws => .sample draws
  | .size => .size
  | .list => .list

/-- An `Operation` is a `Call` whose key is equal to itself. -/
abbrev Table.Operation {κ : Type} (K : Keying κ) (ν : Type) : Type := Call K.Key ν

/-- An `Answer` is what a call answers. -/
inductive Table.Answer (κ ν : Type)
  /-- A success or a refusal. -/
  | outcome (result : Except TableError Unit)
  /-- Nothing but its end. -/
  | done
  /-- A key and its value, if there are any. -/
  | entry (pair? : Option (κ × ν))
  /-- A value, if there is one. -/
  | value (val? : Option ν)
  /-- A number. -/
  | count (n : Nat)
  /-- Keys and values in some order. -/
  | listing (pairs : List (κ × ν))

/-- `e.pair` is the key and the value of an entry. -/
def Entry.pair {κ ν : Type} (e : Entry κ ν) : κ × ν := (e.key, e.val)

namespace Table

variable {κ ν : Type} {K : Keying κ}

/-- `t.call c` carries out the call `c`: the answer and the table after it. -/
def call (t : Table K ν) : Call κ ν → Checked (Answer κ ν × Table K ν)
  | .add key val => do
    let (result, t) ← t.add key val
    .ok (.outcome result, t)
  | .set key val => do
    let t ← t.set key val
    .ok (.done, t)
  | .find key => do
    let (found, t) ← t.find key
    .ok (.entry (found.map Entry.pair), t)
  | .get key => do
    let (val?, t) ← t.get key
    .ok (.value val?, t)
  | .delete key => do
    let (result, t) ← t.delete key
    .ok (.outcome result, t)
  | .expand target => do
    let (result, t) ← t.expand target
    .ok (.outcome result, t)
  | .rehash count => do
    let t ← t.rehash count
    .ok (.done, t)
  | .sample draws => do
    let (found, t) ← t.sample draws
    .ok (.entry (found.map Entry.pair), t)
  | .size => .ok (.count t.size, t)
  | .list => .ok (.listing (t.entries.map Entry.pair), t)

/-- `t.perform op` carries out `op` with its key as it is: `mapKey` forgets that it is equal to
itself. -/
def perform (t : Table K ν) (op : Operation K ν) : Checked (Answer κ ν × Table K ν) :=
  t.call (op.mapKey fun key => key.1)

/-- `run ops t` carries out operations one after the other, until one faults: the answers, and the
table or the fault at the end. -/
def run : List (Operation K ν) → Table K ν → List (Answer κ ν) × Checked (Table K ν)
  | [], t => ([], .ok t)
  | op :: rest, t =>
    match t.perform op with
    | .ok (answer, t) => (answer :: (run rest t).1, (run rest t).2)
    | .error fault => ([], .error fault)

end Table

/-! ### What a finite map answers -/

namespace FiniteMap

open Keying

variable {κ ν : Type} {K : Keying κ} {hK : K.Lawful}

/-- `Answers m op answer m'`: of the map `m` the operation `op` may answer `answer`, and the map
after it is `m'`. -/
inductive Answers : FiniteMap hK ν → Table.Operation K ν → Table.Answer κ ν → FiniteMap hK ν → Prop
  | addNew {m : FiniteMap hK ν} {key : K.Key} {val : ν} (h : classOf hK key ∉ m) :
      Answers m (.add key val) (.outcome (.ok ())) (m.insert (classOf hK key) (key.1, val))
  | addOld {m : FiniteMap hK ν} {key : K.Key} {val : ν} (h : classOf hK key ∈ m) :
      Answers m (.add key val) (.outcome (.error .keyExists)) m
  | setNew {m : FiniteMap hK ν} {key : K.Key} {val : ν} (h : classOf hK key ∉ m) :
      Answers m (.set key val) .done (m.insert (classOf hK key) (key.1, val))
  | setOld {m : FiniteMap hK ν} {key : K.Key} {val : ν} {stored : κ} {old : ν}
      (h : m.lookup (classOf hK key) = some (stored, old)) :
      Answers m (.set key val) .done (m.insert (classOf hK key) (stored, val))
  | find {m : FiniteMap hK ν} {key : K.Key} :
      Answers m (.find key) (.entry (m.lookup (classOf hK key))) m
  | get {m : FiniteMap hK ν} {key : K.Key} :
      Answers m (.get key) (.value ((m.lookup (classOf hK key)).map (·.2))) m
  | deleteOld {m : FiniteMap hK ν} {key : K.Key} (h : classOf hK key ∈ m) :
      Answers m (.delete key) (.outcome (.ok ())) (m.erase (classOf hK key))
  | deleteNone {m : FiniteMap hK ν} {key : K.Key} (h : classOf hK key ∉ m) :
      Answers m (.delete key) (.outcome (.error .keyNotFound)) m
  | expandGranted {m : FiniteMap hK ν} {target : Nat} :
      Answers m (.expand target) (.outcome (.ok ())) m
  | expandRefused {m : FiniteMap hK ν} {target : Nat} :
      Answers m (.expand target) (.outcome (.error .expandRefused)) m
  | rehash {m : FiniteMap hK ν} {count : Nat} : Answers m (.rehash count) .done m
  | sampleNone {m : FiniteMap hK ν} {draws : Draws} : Answers m (.sample draws) (.entry none) m
  | sampleSome {m : FiniteMap hK ν} {draws : Draws} {a : Class hK} {pair : κ × ν}
      (h : m.lookup a = some pair) : Answers m (.sample draws) (.entry (some pair)) m
  | size {m : FiniteMap hK ν} : Answers m .size (.count m.keys.card) m
  | list {m : FiniteMap hK ν} {pairs : List (κ × ν)}
      (h : (pairs : Multiset (κ × ν)) = m.entries.map (·.2)) :
      Answers m .list (.listing pairs) m

/-- `Runs m ops answers m'`: one operation after the other may answer so from `m`, and the map at
the end is `m'`. -/
inductive Runs : FiniteMap hK ν → List (Table.Operation K ν) → List (Table.Answer κ ν) →
    FiniteMap hK ν → Prop
  | nil {m : FiniteMap hK ν} : Runs m [] [] m
  | cons {m m₁ m₂ : FiniteMap hK ν} {op : Table.Operation K ν} {ops : List (Table.Operation K ν)}
      {answer : Table.Answer κ ν} {answers : List (Table.Answer κ ν)}
      (h : Answers m op answer m₁) (hs : Runs m₁ ops answers m₂) :
      Runs m (op :: ops) (answer :: answers) m₂

end FiniteMap

namespace Table

open Keying

variable {κ ν : Type} {K : Keying κ} {hK : K.Lawful} {t : Table K ν} {m : FiniteMap hK ν}

/-- The entries of a table are the pairs of the map that it `Represents`. -/
theorem Represents.pairs_eq (h : Represents (classes hK ν) t m) :
    ((t.entries.map Entry.pair : List (κ × ν)) : Multiset (κ × ν)) = m.entries.map (·.2) := by
  obtain ⟨-, listing, hperm, hm⟩ := h
  rw [hm, Multiset.map_coe, Multiset.coe_eq_coe, List.map_map]
  refine (hperm.map Entry.pair).trans ?_
  rw [List.map_map]
  exact .refl _

/-- **`Table.perform`** on a table that `Represents` a finite map answers as the map does, and what
it leaves represents the map after it. The exception is growth beyond `memoryLimit`. -/
theorem perform_refines (h : Represents (classes hK ν) t m) (op : Operation K ν)
    (hword : ∀ target, op = .expand target → nextPower target < wordLimit) :
    (∃ answer t' m', t.perform op = .ok (answer, t') ∧ m.Answers op answer m' ∧
        Represents (classes hK ν) t' m') ∨
      (t.perform op = .error .capacity ∧
        ∃ target, op = .expand target ∧ memoryLimit ≤ nextPower target * chainBytes) := by
  rw [perform]
  cases op with
  | add key val =>
      simp only [Call.mapKey, call]
      refine .inl ?_
      rcases h.add key val with ⟨hmem, t', hadd, h'⟩ | ⟨hnot, t', hadd, h'⟩
      · exact ⟨_, t', m, by rw [hadd]; rfl, .addOld hmem, h'⟩
      · exact ⟨_, t', _, by rw [hadd]; rfl, .addNew hnot, h'⟩
  | set key val =>
      simp only [Call.mapKey, call]
      refine .inl ?_
      obtain ⟨t', hset, ⟨stored, old, -, hlookup, h'⟩ | ⟨hnot, h'⟩⟩ := h.set key val
      · exact ⟨_, t', _, by rw [hset]; rfl, .setOld hlookup, h'⟩
      · exact ⟨_, t', _, by rw [hset]; rfl, .setNew hnot, h'⟩
  | find key =>
      simp only [Call.mapKey, call]
      refine .inl ?_
      obtain ⟨t', h', ⟨hnot, hfind⟩ | ⟨stored, val, -, hlookup, hfind⟩⟩ := h.find key
      · refine ⟨.entry none, t', m, by rw [hfind]; rfl, ?_, h'⟩
        rw [← Finmap.lookup_eq_none.2 hnot]
        exact .find
      · refine ⟨.entry (some (stored.1, val)), t', m, by rw [hfind]; rfl, ?_, h'⟩
        change m.lookup (classOf hK key) = some (stored.1, val) at hlookup
        rw [← hlookup]
        exact .find
  | get key =>
      simp only [Call.mapKey, call]
      refine .inl ?_
      obtain ⟨t', h', ⟨hnot, hfind⟩ | ⟨stored, val, -, hlookup, hfind⟩⟩ := h.find key
      · refine ⟨.value none, t', m, by rw [get, hfind]; rfl, ?_, h'⟩
        change classOf hK key ∉ m at hnot
        have hget : m.Answers (.get key) (.value ((m.lookup (classOf hK key)).map (·.2))) m := .get
        rwa [Finmap.lookup_eq_none.2 hnot] at hget
      · refine ⟨.value (some val), t', m, by rw [get, hfind]; rfl, ?_, h'⟩
        change m.lookup (classOf hK key) = some (stored.1, val) at hlookup
        have hget : m.Answers (.get key) (.value ((m.lookup (classOf hK key)).map (·.2))) m := .get
        rwa [hlookup] at hget
  | delete key =>
      simp only [Call.mapKey, call]
      refine .inl ?_
      rcases h.delete key with ⟨hmem, t', hdelete, h'⟩ | ⟨hnot, t', hdelete, h'⟩
      · exact ⟨_, t', _, by rw [hdelete]; rfl, .deleteOld hmem, h'⟩
      · exact ⟨_, t', m, by rw [hdelete]; rfl, .deleteNone hnot, h'⟩
  | expand target =>
      simp only [Call.mapKey, call]
      rcases h.wellFormed.expand_ok (hword target rfl) with
        ⟨answer, t', hexpand, hkept, rfl | rfl⟩ | ⟨hexpand, hlimit⟩
      · exact .inl ⟨_, t', m, by rw [hexpand]; rfl, .expandGranted, h.kept hkept⟩
      · exact .inl ⟨_, t', m, by rw [hexpand]; rfl, .expandRefused, h.kept hkept⟩
      · exact .inr ⟨by rw [hexpand]; rfl, target, rfl, hlimit⟩
  | rehash count =>
      simp only [Call.mapKey, call]
      obtain ⟨t', hrehash, hkept⟩ := h.wellFormed.rehash_ok count
      exact .inl ⟨_, t', m, by rw [hrehash]; rfl, .rehash, h.kept hkept⟩
  | sample draws =>
      simp only [Call.mapKey, call]
      refine .inl ?_
      obtain ⟨t', h', hsample | ⟨stored, val, hlookup, hsample⟩⟩ := h.sample draws
      · exact ⟨_, t', m, by rw [hsample]; rfl, .sampleNone, h'⟩
      · exact ⟨_, t', m, by rw [hsample]; rfl, .sampleSome hlookup, h'⟩
  | size =>
      simp only [Call.mapKey, call]
      exact .inl ⟨_, t, m, by rw [h.size_eq], .size, h⟩
  | list => exact .inl ⟨_, t, m, rfl, .list h.pairs_eq, h⟩

/-- `Table.run` from a table that `Represents` a finite map answers as the map does, to its end or
to the first `expand` that memory cannot meet. -/
theorem run_refines (ops : List (Operation K ν))
    (hword : ∀ target, .expand target ∈ ops → nextPower target < wordLimit)
    (h : Represents (classes hK ν) t m) :
    ∃ m', m.Runs (ops.take (run ops t).1.length) (run ops t).1 m' ∧
      ((∃ t', (run ops t).2 = .ok t' ∧ (run ops t).1.length = ops.length ∧
          Represents (classes hK ν) t' m') ∨
        ((run ops t).2 = .error .capacity ∧ ∃ target,
          ops[(run ops t).1.length]? = some (.expand target) ∧
            memoryLimit ≤ nextPower target * chainBytes)) := by
  induction ops generalizing t m with
  | nil => exact ⟨m, .nil, .inl ⟨t, rfl, rfl, h⟩⟩
  | cons op rest ih =>
      have hop : ∀ target, op = .expand target → nextPower target < wordLimit :=
        fun target heq => hword target (by simp [heq])
      have hrest : ∀ target, .expand target ∈ rest → nextPower target < wordLimit :=
        fun target hmem => hword target (List.mem_cons_of_mem op hmem)
      rcases perform_refines h op hop with
        ⟨answer, t₁, m₁, hperform, hanswer, h₁⟩ | ⟨hperform, target, hop', hlimit⟩
      · obtain ⟨m', hruns, hend⟩ := ih hrest h₁
        refine ⟨m', ?_, ?_⟩
        · simp only [run, hperform, List.length_cons, List.take_succ_cons]
          exact .cons hanswer hruns
        · simpa only [run, hperform, List.length_cons, List.getElem?_cons_succ,
            Nat.add_right_cancel_iff] using hend
      · refine ⟨m, ?_, .inr ⟨?_, target, ?_, hlimit⟩⟩
        · simp only [run, hperform, List.length_nil, List.take_zero]
          exact .nil
        · simp only [run, hperform]
        · simp only [run, hperform, List.length_nil, List.getElem?_cons_zero]
          rw [hop']

/-- **A table is a finite map at every stage of a rehash.** From `Table.empty`, `Table.run` answers
as the finite map does that is empty at first. The targets of `expand` must have powers of two that
are 64-bit words. The run then goes on to its end, unless an `expand` is granted so many chains that
they take up all memory: there it stops with that fault, and all answers before are those of the
map. -/
theorem run_refines_finiteMap (hK : K.Lawful) (ops : List (Operation K ν))
    (hword : ∀ target, .expand target ∈ ops → nextPower target < wordLimit) :
    ∃ m : FiniteMap hK ν,
      FiniteMap.Runs ∅ (ops.take (run ops .empty).1.length) (run ops .empty).1 m ∧
        ((∃ t, (run ops .empty).2 = .ok t ∧ (run ops .empty).1.length = ops.length) ∨
          ((run ops .empty).2 = .error .capacity ∧ ∃ target,
            ops[(run ops .empty).1.length]? = some (.expand target) ∧
              memoryLimit ≤ nextPower target * chainBytes)) := by
  obtain ⟨m, hruns, ⟨t, ht, hlen, -⟩ | hfault⟩ := run_refines ops hword (.empty (I := classes hK ν))
  · exact ⟨m, hruns, .inl ⟨t, ht, hlen⟩⟩
  · exact ⟨m, hruns, .inr hfault⟩

end Table

/-! ### Keys that are byte strings -/

/-- `Value.keying` is `Lawful`. -/
theorem Value.keying_lawful : Value.keying.Lawful where
  symm h := by
    obtain ⟨bytes, rfl, rfl⟩ := Value.sameText_iff.1 h
    exact h
  trans h h' := by
    obtain ⟨bytes, rfl, rfl⟩ := Value.sameText_iff.1 h
    exact h'

namespace Table

/-- A run that adds, grows, moves a chain, reads and deletes answers as a map does. -/
theorem run_refines_finiteMap_textKey :
    (∀ target, .expand target ∈ ([.add (Value.textKey [97]) 1, .expand 20, .rehash 1,
        .get (Value.textKey [97]), .delete (Value.textKey [97]), .size] :
        List (Operation Value.keying Nat)) → nextPower target < wordLimit) ∧
      ∃ m : FiniteMap Value.keying_lawful Nat,
        FiniteMap.Runs ∅ [.add (Value.textKey [97]) 1, .expand 20, .rehash 1,
          .get (Value.textKey [97]), .delete (Value.textKey [97]), .size]
          [.outcome (.ok ()), .outcome (.ok ()), .done, .value (some 1), .outcome (.ok ()),
            .count 0] m := by
  have hword : ∀ target, .expand target ∈ ([.add (Value.textKey [97]) 1, .expand 20, .rehash 1,
      .get (Value.textKey [97]), .delete (Value.textKey [97]), .size] :
      List (Operation Value.keying Nat)) → nextPower target < wordLimit := by
    intro target hmem
    have htarget : target = 20 := by simpa using hmem
    subst htarget
    decide
  refine ⟨hword, ?_⟩
  obtain ⟨m, hruns, -⟩ := run_refines_finiteMap Value.keying_lawful _ hword
  exact ⟨m, hruns⟩

/-- An `expand` to a power of two that is a 64-bit word may have no answer at all. -/
theorem run_expand_beyond_memory :
    nextPower (2 ^ 59) < wordLimit ∧
      run [.expand (2 ^ 59)] (.empty : Table Value.keying Nat) = ([], .error .capacity) := by
  have hpower : nextPower (2 ^ 59) = 2 ^ 59 := by decide
  have hexpand : (.empty : Table Value.keying Nat).expand (2 ^ 59) = .error .capacity := by
    rw [expand, hpower]
    rfl
  refine ⟨by decide, ?_⟩
  rw [run, perform, Call.mapKey, call, hexpand]
  rfl

/-- **A table with strings as keys is a map on byte strings** (`Table.IsMap`), whatever operations
have led to it. -/
theorem exists_isMap_of_run {ops : List (Operation Value.keying Value)}
    (hword : ∀ target, .expand target ∈ ops → nextPower target < wordLimit)
    {t : Table Value.keying Value} (h : (run ops .empty).2 = .ok t) : ∃ m, t.IsMap m := by
  have hempty : Represents (Keying.classes Value.keying_lawful Value) .empty ∅ := .empty
  obtain ⟨m, -, ⟨t', ht', -, hm⟩ | ⟨hfault, -⟩⟩ := run_refines ops hword hempty
  · rw [h] at ht'
    cases ht'
    exact hm.reindex Value.byBytes
  · rw [h] at hfault
    cases hfault

end Table

end KeyValueServer
