import KeyValueServer.Command
import KeyValueServer.Proofs.Table.Bytes

/-!
# A keyspace as a pair of finite maps

To those who use it, a keyspace is two finite maps on byte strings (`Keyspace.Maps`): the value of
each key and the deadline of each key. The rehashing of the two tables is not seen, and neither are
failures to delete what is not there.

A key that is due leaves both maps when it is asked for, or when a cycle of samples happens on it
(`Maps.Expires`). Which keys a cycle happens on is left open; all of them are due.

## Main results

* `Keyspace.Maps.Answers`: what each operation may answer of the maps, and the maps after it.
* `Keyspace.Maps.Answers.sameAt`: an operation leaves the keys that it is not about.
-/

namespace KeyValueServer

/-- `outcome.isRejection`: a request is turned away without a look at any key. It ends the
connection, is no command, or has arguments that its command does not take. -/
def Outcome.isRejection : Outcome → Bool
  | .quit => true
  | .reply (.refused (.unknownCommand _)) => true
  | .reply (.refused (.wrongArity _)) => true
  | .reply (.refused .notInteger) => true
  | .reply _ => false

namespace Keyspace

/-! ### Operations and answers -/

/-- An `Operation` on a keyspace, with byte strings as keys and as arguments of requests. -/
inductive Operation
  /-- A request with at least a name. -/
  | request (name : Bytes) (args : List Bytes) (now : Int64)
  | store (key : Bytes) (value : Value)
  | setDeadline (key : Bytes) (deadline : Int64)
  | evictIfDue (key : Bytes) (now : Int64)
  | read (key : Bytes) (now : Int64)
  | expireCycle (count : Nat) (now : Int64) (draws : Nat → Draws)

/-- An `Answer` is what an operation answers. -/
inductive Answer
  /-- What a request comes to. -/
  | outcome (result : Outcome)
  /-- Nothing but its end. -/
  | done
  /-- Whether a key was evicted. -/
  | evicted (gone : Bool)
  /-- A value, if there is one. -/
  | value (value? : Option Value)
  /-- How many keys were evicted. -/
  | count (n : Nat)

/-- `answer.isRejection`: the answer turns a request away without a look at any key. -/
def Answer.isRejection : Answer → Bool
  | .outcome result => result.isRejection
  | _ => false

/-- `s.apply op` carries out one operation. -/
def apply (s : Keyspace) : Operation → Checked (Answer × Keyspace)
  | .request name args now => do
    let (outcome, s) ← s.perform now ((name :: args).map .str)
    .ok (.outcome outcome, s)
  | .store key value => do
    let s ← s.store (.str key) value
    .ok (.done, s)
  | .setDeadline key deadline => do
    let s ← s.setDeadline (.str key) deadline
    .ok (.done, s)
  | .evictIfDue key now => do
    let (gone, s) ← s.evictIfDue (.str key) now
    .ok (.evicted gone, s)
  | .read key now => do
    let (value?, s) ← s.read (.str key) now
    .ok (.value value?, s)
  | .expireCycle count now draws => do
    let (n, s) ← s.expireCycle count now draws
    .ok (.count n, s)

/-- `run ops s` carries out operations one after the other. -/
def run : List Operation → Keyspace → Checked (List Answer × Keyspace)
  | [], s => .ok ([], s)
  | op :: rest, s => do
    let (answer, s) ← s.apply op
    let (answers, s) ← run rest s
    .ok (answer :: answers, s)

/-! ### The two maps -/

/-- `Maps` are the value and the deadline of each key. -/
structure Maps where
  /-- The value of each key. -/
  values : Finmap fun _ : Bytes => Value
  /-- The deadline of each key that has one. -/
  deadlines : Finmap fun _ : Bytes => Int64

namespace Maps

/-- `Maps.empty` has no keys. -/
def empty : Maps := ⟨∅, ∅⟩

/-- `m.evict key` are the maps without the key. -/
def evict (m : Maps) (key : Bytes) : Maps := ⟨m.values.erase key, m.deadlines.erase key⟩

/-- `m.store key value` are the maps with a value under the key, which has no deadline. -/
def store (m : Maps) (key : Bytes) (value : Value) : Maps :=
  ⟨m.values.insert key value, m.deadlines.erase key⟩

/-- `m.setDeadline key deadline` are the maps with a deadline for the key. -/
def setDeadline (m : Maps) (key : Bytes) (deadline : Int64) : Maps :=
  ⟨m.values, m.deadlines.insert key deadline⟩

/-- `m.isDue key now`: the key has a deadline at or before `now`. -/
def isDue (m : Maps) (key : Bytes) (now : Int64) : Bool :=
  (m.deadlines.lookup key).any (· ≤ now)

/-- `m.upTo key now` are the maps as they are to someone who asks for the key at `now`: without it,
if it is due. -/
def upTo (m : Maps) (key : Bytes) (now : Int64) : Maps :=
  if m.isDue key now then m.evict key else m

/-- `Expires now m n m'`: one after the other, `n` keys that are due leave the maps. -/
inductive Expires (now : Int64) : Maps → Nat → Maps → Prop
  | nil {m : Maps} : Expires now m 0 m
  | cons {m m' : Maps} {n : Nat} {key : Bytes} (h : m.isDue key now)
      (hs : Expires now (m.evict key) n m') : Expires now m (n + 1) m'

/-- `Answers m op answer m'`: of the maps `m` the operation `op` may answer `answer`, and the maps
after it are `m'`. -/
inductive Answers : Maps → Operation → Answer → Maps → Prop
  | quit {m : Maps} {name : Bytes} {args : List Bytes} {now : Int64} (h : Command.isQuit name) :
      Answers m (.request name args now) (.outcome .quit) m
  | unknown {m : Maps} {name : Bytes} {args : List Bytes} {now : Int64}
      (hquit : Command.isQuit name = false) (h : Command.lookup? name = none) :
      Answers m (.request name args now)
        (.outcome (.reply (.refused (.unknownCommand (Utf8.lossy name))))) m
  | wrongArity {m : Maps} {name : Bytes} {args : List Bytes} {now : Int64} {command : Command}
      (h : Command.lookup? name = some command) (hne : command.arity ≠ args.length + 1) :
      Answers m (.request name args now)
        (.outcome (.reply (.refused (.wrongArity (Utf8.lossy name))))) m
  | getNone {m : Maps} {name key : Bytes} {now : Int64} (h : Command.lookup? name = some .get)
      (hvalue : (m.upTo key now).values.lookup key = none) :
      Answers m (.request name [key] now) (.outcome (.reply .nil)) (m.upTo key now)
  | getText {m : Maps} {name key bytes : Bytes} {now : Int64}
      (h : Command.lookup? name = some .get)
      (hvalue : (m.upTo key now).values.lookup key = some (.str bytes)) :
      Answers m (.request name [key] now) (.outcome (.reply (.bulk (.str bytes)))) (m.upTo key now)
  | getInteger {m : Maps} {name key : Bytes} {now n : Int64}
      (h : Command.lookup? name = some .get)
      (hvalue : (m.upTo key now).values.lookup key = some (.int n)) :
      Answers m (.request name [key] now) (.outcome (.reply (.refused .wrongType)))
        (m.upTo key now)
  | set {m : Maps} {name key bytes : Bytes} {now : Int64} (h : Command.lookup? name = some .set) :
      Answers m (.request name [key, bytes] now) (.outcome (.reply .done))
        (m.store key (.str bytes))
  | expireAccepted {m : Maps} {name key seconds : Bytes} {now deadline : Int64}
      (h : Command.lookup? name = some .expire)
      (hdeadline : (Numeral.int64? seconds).bind (deadlineAfter? · now) = some deadline) :
      Answers m (.request name [key, seconds] now) (.outcome (.reply .done))
        (m.setDeadline key deadline)
  | expireRejected {m : Maps} {name key seconds : Bytes} {now : Int64}
      (h : Command.lookup? name = some .expire)
      (hdeadline : (Numeral.int64? seconds).bind (deadlineAfter? · now) = none) :
      Answers m (.request name [key, seconds] now) (.outcome (.reply (.refused .notInteger))) m
  | store {m : Maps} {key : Bytes} {value : Value} :
      Answers m (.store key value) .done (m.store key value)
  | setDeadline {m : Maps} {key : Bytes} {deadline : Int64} :
      Answers m (.setDeadline key deadline) .done (m.setDeadline key deadline)
  | evictIfDue {m : Maps} {key : Bytes} {now : Int64} :
      Answers m (.evictIfDue key now) (.evicted (m.isDue key now)) (m.upTo key now)
  | read {m : Maps} {key : Bytes} {now : Int64} :
      Answers m (.read key now) (.value ((m.upTo key now).values.lookup key)) (m.upTo key now)
  | expireCycle {m m' : Maps} {count n : Nat} {now : Int64} {draws : Nat → Draws}
      (hle : n ≤ count) (h : Expires now m n m') :
      Answers m (.expireCycle count now draws) (.count n) m'

/-- `Runs m ops answers m'`: one operation after the other may answer so from `m`, and the maps at
the end are `m'`. -/
inductive Runs : Maps → List Operation → List Answer → Maps → Prop
  | nil {m : Maps} : Runs m [] [] m
  | cons {m m₁ m₂ : Maps} {op : Operation} {ops : List Operation} {answer : Answer}
      {answers : List Answer} (h : Answers m op answer m₁) (hs : Runs m₁ ops answers m₂) :
      Runs m (op :: ops) (answer :: answers) m₂

end Maps

/-! ### Keys that an operation is not about -/

/-- `op.isAbout m key`: the operation on the maps `m` is about the key. A cycle is about the keys
that are due, and a request is about its first argument. -/
def Operation.isAbout (m : Maps) : Operation → Bytes → Bool
  | .request _ args _, key => args.head? == some key
  | .store key' _, key | .setDeadline key' _, key | .evictIfDue key' _, key | .read key' _, key =>
    key' == key
  | .expireCycle _ now _, key => m.isDue key now

namespace Maps

/-- `m.SameAt m' key`: two pairs of maps are the same at the key. -/
def SameAt (m m' : Maps) (key : Bytes) : Prop :=
  m'.values.lookup key = m.values.lookup key ∧ m'.deadlines.lookup key = m.deadlines.lookup key

variable {m m' : Maps} {key other : Bytes} {now : Int64}

/-- `SameAt` is reflexive. -/
theorem SameAt.rfl : m.SameAt m key := ⟨Eq.refl _, Eq.refl _⟩

/-- `SameAt` is transitive. -/
theorem SameAt.trans {m'' : Maps} (h : m.SameAt m' key) (h' : m'.SameAt m'' key) :
    m.SameAt m'' key :=
  ⟨h'.1.trans h.1, h'.2.trans h.2⟩

/-- `evict` leaves the other keys. -/
theorem sameAt_evict (h : key ≠ other) : m.SameAt (m.evict other) key :=
  ⟨Finmap.lookup_erase_ne h, Finmap.lookup_erase_ne h⟩

/-- `upTo` leaves the other keys. -/
theorem sameAt_upTo (h : key ≠ other) : m.SameAt (m.upTo other now) key := by
  unfold upTo
  split
  · exact sameAt_evict h
  · exact .rfl

/-- `store` leaves the other keys. -/
theorem sameAt_store {value : Value} (h : key ≠ other) : m.SameAt (m.store other value) key :=
  ⟨Finmap.lookup_insert_of_ne _ h, Finmap.lookup_erase_ne h⟩

/-- `setDeadline` leaves the other keys. -/
theorem sameAt_setDeadline {deadline : Int64} (h : key ≠ other) :
    m.SameAt (m.setDeadline other deadline) key :=
  ⟨Eq.refl _, Finmap.lookup_insert_of_ne _ h⟩

/-- `isDue` depends on the key only. -/
theorem SameAt.isDue_eq (h : m.SameAt m' key) : m'.isDue key now = m.isDue key now := by
  rw [isDue, isDue, h.2]

/-- `Expires` leaves the keys that are not due. -/
theorem Expires.sameAt {n : Nat} (h : Expires now m n m') (hkey : m.isDue key now = false) :
    m.SameAt m' key := by
  induction h with
  | nil => exact .rfl
  | @cons m m' n gone hdue _ ih =>
      have hne : key ≠ gone := by
        rintro rfl
        rw [hdue] at hkey
        cases hkey
      have hsame : m.SameAt (m.evict gone) key := sameAt_evict hne
      exact hsame.trans (ih (by rw [hsame.isDue_eq, hkey]))

/-- **`Answers` leaves the maps as they are at each key that the operation is not about.** -/
theorem Answers.sameAt {op : Operation} {answer : Answer} (h : m.Answers op answer m')
    (hkey : op.isAbout m key = false) : m.SameAt m' key := by
  have hne : ∀ {other : Bytes}, (other == key) = false → key ≠ other := by
    rintro other hfalse rfl
    rw [beq_self_eq_true] at hfalse
    cases hfalse
  cases h with
  | quit => exact .rfl
  | unknown => exact .rfl
  | wrongArity => exact .rfl
  | getNone => exact sameAt_upTo (hne hkey)
  | getText => exact sameAt_upTo (hne hkey)
  | getInteger => exact sameAt_upTo (hne hkey)
  | set => exact sameAt_store (hne hkey)
  | expireAccepted => exact sameAt_setDeadline (hne hkey)
  | expireRejected => exact .rfl
  | store => exact sameAt_store (hne hkey)
  | setDeadline => exact sameAt_setDeadline (hne hkey)
  | evictIfDue => exact sameAt_upTo (hne hkey)
  | read => exact sameAt_upTo (hne hkey)
  | expireCycle _ h => exact h.sameAt hkey

end Maps

end Keyspace

end KeyValueServer
