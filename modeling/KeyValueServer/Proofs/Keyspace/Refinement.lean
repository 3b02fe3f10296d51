import KeyValueServer.Proofs.Keyspace.Maps

/-!
# The keyspace refines its maps

The two tables of a keyspace follow the two `Keyspace.Maps`, whatever the stage at which either is
rehashing. `Keyspace.apply` of each operation is one operation of the maps, and it never faults.
Requests that are turned away without a look at any key leave the tables as they are, even within.

Deadlines are integers in every keyspace that commands and cycles lead to (`Keyspace.Represents`),
but none of this depends on it: a keyspace `Keyspace.Tracks` its maps whatever values stand as
deadlines.

## Main results

* `Keyspace.Tracks.apply`: one operation.
* `Keyspace.run_refines_maps`: every run of operations from the empty keyspace, and one more.
-/

namespace KeyValueServer

namespace Keyspace

/-- `isDue` holds of a deadline when the integer that it denotes is at or before the time. -/
theorem isDue_eq (deadline : Value) (now : Int64) :
    isDue deadline now = deadline.integer?.any (· ≤ now) := by
  rw [isDue]
  cases deadline.integer? <;> rfl

/-- `s.Represents m`: the tables of the keyspace represent the two maps. -/
structure Represents (s : Keyspace) (m : Maps) : Prop where
  values : s.values.IsMap m.values
  deadlines : s.deadlines.IsSchedule m.deadlines

/-- `s.Tracks fit m`: the tables of the keyspace are the two maps, its deadlines being any values
that are `fit`. Those that denote no integer are never due, and are not seen in the maps. -/
structure Tracks (s : Keyspace) (fit : Value → Prop) (m : Maps) : Prop where
  values : s.values.IsMap m.values
  deadlines : s.deadlines.IsTimetable fit m.deadlines

/-- `Represents` is `Tracks` with integers as deadlines. -/
theorem represents_iff {s : Keyspace} {m : Maps} :
    s.Represents m ↔ s.Tracks (fun val => ∃ n, val = .int n) m := by
  constructor
  · rintro ⟨hv, hd⟩
    exact ⟨hv, Table.isSchedule_iff.1 hd⟩
  · rintro ⟨hv, hd⟩
    exact ⟨hv, Table.isSchedule_iff.2 hd⟩

namespace Tracks

variable {s : Keyspace} {fit : Value → Prop} {m : Maps}

/-- `Keyspace.empty` tracks the empty maps. -/
theorem empty : Tracks .empty fit .empty :=
  ⟨.empty, .empty⟩

/-! ### The operations of the keyspace -/

/-- `Keyspace.evict` is `Maps.evict`. -/
theorem evict (h : s.Tracks fit m) (key : Bytes) :
    ∃ s', s.evict (.str key) = .ok s' ∧ s'.Tracks fit (m.evict key) := by
  obtain ⟨_, deadlines, hdeadlines, hd⟩ := h.deadlines.delete key
  obtain ⟨_, values, hvalues, hv⟩ := h.values.delete key
  refine ⟨⟨values, deadlines⟩, ?_, hv, hd⟩
  simp only [Keyspace.evict, hdeadlines, hvalues, Checked.ok_bind]

/-- `Keyspace.evictIfDue` is `Maps.upTo`. -/
theorem evictIfDue (h : s.Tracks fit m) (key : Bytes) (now : Int64) :
    ∃ s', s.evictIfDue (.str key) now = .ok (m.isDue key now, s') ∧
      s'.Tracks fit (m.upTo key now) := by
  obtain ⟨val?, deadlines, hget, hval, hd⟩ := h.deadlines.get key
  have h' : Tracks ⟨s.values, deadlines⟩ fit m := ⟨h.values, hd⟩
  have hdue : val?.any (isDue · now) = m.isDue key now := by
    rw [Maps.isDue, ← hval]
    cases val? with
    | none => rfl
    | some val => exact isDue_eq val now
  cases hcase : m.isDue key now with
  | false =>
      refine ⟨⟨s.values, deadlines⟩, ?_, ?_⟩
      · simp [Keyspace.evictIfDue, hget, hdue, hcase]
      · rw [Maps.upTo, if_neg (by rw [hcase]; exact Bool.false_ne_true)]
        exact h'
  | true =>
      obtain ⟨s', hevict, hs'⟩ := h'.evict key
      refine ⟨s', ?_, ?_⟩
      · simp [Keyspace.evictIfDue, hget, hdue, hcase, hevict]
      · rw [Maps.upTo, if_pos hcase]
        exact hs'

/-- `Keyspace.read` is a look at the value after `Maps.upTo`. -/
theorem read (h : s.Tracks fit m) (key : Bytes) (now : Int64) :
    ∃ s', s.read (.str key) now = .ok ((m.upTo key now).values.lookup key, s') ∧
      s'.Tracks fit (m.upTo key now) := by
  obtain ⟨s₁, hevict, h₁⟩ := h.evictIfDue key now
  obtain ⟨values, hget, hv⟩ := h₁.values.get key
  refine ⟨⟨values, s₁.deadlines⟩, ?_, hv, h₁.deadlines⟩
  simp only [Keyspace.read, hevict, hget, Checked.ok_bind]

/-- `Keyspace.store` is `Maps.store`. -/
theorem store (h : s.Tracks fit m) (key : Bytes) (value : Value) :
    ∃ s', s.store (.str key) value = .ok s' ∧ s'.Tracks fit (m.store key value) := by
  obtain ⟨_, deadlines, hdeadlines, hd⟩ := h.deadlines.delete key
  obtain ⟨values, hvalues, hv⟩ := h.values.set key value
  refine ⟨⟨values, deadlines⟩, ?_, hv, hd⟩
  simp only [Keyspace.store, hdeadlines, hvalues, Checked.ok_bind]

/-- `Keyspace.setDeadline` is `Maps.setDeadline`. -/
theorem setDeadline (h : s.Tracks fit m) (hfit : ∀ n, fit (.int n)) (key : Bytes)
    (deadline : Int64) :
    ∃ s', s.setDeadline (.str key) deadline = .ok s' ∧
      s'.Tracks fit (m.setDeadline key deadline) := by
  obtain ⟨deadlines, hdeadlines, hd⟩ := h.deadlines.set key (hfit deadline)
  refine ⟨⟨s.values, deadlines⟩, ?_, h.values, hd⟩
  simp only [Keyspace.setDeadline, hdeadlines, Checked.ok_bind]

/-- `Keyspace.expireFrom` lets keys that are due expire, at most one for each sample. -/
theorem expireFrom (h : s.Tracks fit m) (now : Int64) (draws : Nat → Draws) (turn count : Nat) :
    ∃ n s' m', Keyspace.expireFrom now draws turn count s = .ok (n, s') ∧ n ≤ count ∧
      m.Expires now n m' ∧ s'.Tracks fit m' := by
  induction count generalizing turn s m with
  | zero => exact ⟨0, s, m, rfl, Nat.le_refl 0, .nil, h⟩
  | succ count ih =>
      obtain ⟨deadlines, hd, hsample | ⟨key, deadline, hlookup, hsample⟩⟩ :=
        h.deadlines.sample (draws turn)
      · refine ⟨0, ⟨s.values, deadlines⟩, m, ?_, Nat.zero_le _, .nil, h.values, hd⟩
        simp only [Keyspace.expireFrom, hsample, Checked.ok_bind]
      · have h' : Tracks ⟨s.values, deadlines⟩ fit m := ⟨h.values, hd⟩
        have hdue : isDue deadline now = m.isDue key now := by
          rw [isDue_eq, hlookup, Maps.isDue]
        cases hcase : m.isDue key now with
        | false =>
            obtain ⟨n, s', m', hrest, hle, hexpires, hs'⟩ := ih h' (turn + 1)
            refine ⟨n, s', m', ?_, Nat.le_succ_of_le hle, hexpires, hs'⟩
            simp [Keyspace.expireFrom, hsample, Entry.ofKey, hdue, hcase, hrest]
        | true =>
            obtain ⟨s₁, hevict, h₁⟩ := h'.evict key
            obtain ⟨n, s', m', hrest, hle, hexpires, hs'⟩ := ih h₁ (turn + 1)
            have hkey : (Value.textKey key).1 = .str key := rfl
            refine ⟨n + 1, s', m', ?_, Nat.succ_le_succ hle, .cons hcase hexpires, hs'⟩
            simp [Keyspace.expireFrom, hsample, Entry.ofKey, hdue, hcase, hkey, hevict, hrest]

/-! ### Requests -/

/-- `performGet` answers with the value of a key. -/
theorem performGet (h : s.Tracks fit m) {name : Bytes} (hname : Command.lookup? name = some .get)
    (key : Bytes) (now : Int64) :
    ∃ reply s', s.performGet (.str key) now = .ok (reply, s') ∧
      m.Answers (.request name [key] now) (.outcome (.reply reply)) (m.upTo key now) ∧
      s'.Tracks fit (m.upTo key now) ∧ Outcome.isRejection (.reply reply) = false := by
  obtain ⟨s', hread, h'⟩ := h.read key now
  cases hvalue : (m.upTo key now).values.lookup key with
  | none =>
      rw [hvalue] at hread
      exact ⟨.nil, s', by simp [Keyspace.performGet, hread], .getNone hname hvalue, h', rfl⟩
  | some value =>
      rw [hvalue] at hread
      cases value with
      | str bytes =>
          exact ⟨.bulk (.str bytes), s', by simp [Keyspace.performGet, hread],
            .getText hname hvalue, h', rfl⟩
      | int n =>
          exact ⟨.refused .wrongType, s', by simp [Keyspace.performGet, hread],
            .getInteger hname hvalue, h', rfl⟩

/-- `performSet` stores a string. -/
theorem performSet (h : s.Tracks fit m) (key bytes : Bytes) :
    ∃ s', s.performSet (.str key) (.str bytes) = .ok (.done, s') ∧
      s'.Tracks fit (m.store key (.str bytes)) := by
  obtain ⟨s', hstore, h'⟩ := h.store key (.str bytes)
  exact ⟨s', by simp [Keyspace.performSet, hstore], h'⟩

/-- `performExpire` gives a key a deadline, or rejects the seconds. -/
theorem performExpire (h : s.Tracks fit m) (hfit : ∀ n, fit (.int n)) {name : Bytes}
    (hname : Command.lookup? name = some .expire) (key seconds : Bytes) (now : Int64) :
    ∃ reply s' m', s.performExpire (.str key) (.str seconds) now = .ok (reply, s') ∧
      m.Answers (.request name [key, seconds] now) (.outcome (.reply reply)) m' ∧
      s'.Tracks fit m' ∧ (Outcome.isRejection (.reply reply) → s' = s) := by
  cases hdeadline : (Numeral.int64? seconds).bind (deadlineAfter? · now) with
  | none =>
      refine ⟨.refused .notInteger, s, m, ?_, .expireRejected hname hdeadline, h, fun _ => rfl⟩
      simp only [Keyspace.performExpire, Value.integer?, hdeadline]
  | some deadline =>
      obtain ⟨s', hset, h'⟩ := h.setDeadline hfit key deadline
      refine ⟨.done, s', _, ?_, .expireAccepted hname hdeadline, h', fun hidle => ?_⟩
      · simp only [Keyspace.performExpire, Value.integer?, hdeadline, hset, Checked.ok_bind]
      · cases hidle

/-- `Keyspace.perform` of a request with strings as arguments answers as the maps do. -/
theorem perform (h : s.Tracks fit m) (hfit : ∀ n, fit (.int n)) (name : Bytes)
    (args : List Bytes) (now : Int64) :
    ∃ outcome s' m', s.perform now ((name :: args).map .str) = .ok (outcome, s') ∧
      m.Answers (.request name args now) (.outcome outcome) m' ∧ s'.Tracks fit m' ∧
      (outcome.isRejection → s' = s) := by
  have hbytes : (Value.str name).bytes = name := rfl
  rw [List.map_cons, Keyspace.perform, hbytes, List.length_map]
  cases hquit : Command.isQuit name with
  | true => exact ⟨.quit, s, m, by simp, .quit hquit, h, fun _ => rfl⟩
  | false =>
      cases hname : Command.lookup? name with
      | none => exact ⟨_, s, m, by simp, .unknown hquit hname, h, fun _ => rfl⟩
      | some command =>
          by_cases harity : command.arity = args.length + 1
          · simp only [Bool.false_eq_true, if_false, harity, ne_eq, not_true_eq_false]
            cases command with
            | get =>
                obtain ⟨key, rfl⟩ := List.length_eq_one_iff.1 (Nat.succ.inj harity).symm
                obtain ⟨reply, s', hget, hanswer, h', hnot⟩ := h.performGet hname key now
                refine ⟨.reply reply, s', _, ?_, hanswer, h', fun hidle => ?_⟩
                · simp only [List.map_cons, List.map_nil, performCommand, hget, Checked.ok_bind]
                · rw [hnot] at hidle
                  cases hidle
            | set =>
                obtain ⟨key, bytes, rfl⟩ := List.length_eq_two.1 (Nat.succ.inj harity).symm
                obtain ⟨s', hset, h'⟩ := h.performSet key bytes
                refine ⟨.reply .done, s', _, ?_, .set hname, h', fun hidle => ?_⟩
                · simp only [List.map_cons, List.map_nil, performCommand, hset, Checked.ok_bind]
                · cases hidle
            | expire =>
                obtain ⟨key, seconds, rfl⟩ := List.length_eq_two.1 (Nat.succ.inj harity).symm
                obtain ⟨reply, s', m', hexpire, hanswer, h', hidle⟩ :=
                  h.performExpire hfit hname key seconds now
                refine ⟨.reply reply, s', m', ?_, hanswer, h', hidle⟩
                simp only [List.map_cons, List.map_nil, performCommand, hexpire, Checked.ok_bind]
          · refine ⟨_, s, m, ?_, .wrongArity hname harity, h, fun _ => rfl⟩
            simp [harity]

end Tracks

/-! ### Operations -/

namespace Tracks

variable {s : Keyspace} {fit : Value → Prop} {m : Maps}

/-- **`Keyspace.apply`** on a keyspace that `Tracks` a pair of maps answers as the maps do, and what
it leaves tracks the maps after it. A rejection leaves the keyspace itself. -/
theorem apply (h : s.Tracks fit m) (hfit : ∀ n, fit (.int n)) (op : Operation) :
    ∃ answer s' m', s.apply op = .ok (answer, s') ∧ m.Answers op answer m' ∧ s'.Tracks fit m' ∧
      (answer.isRejection → s' = s) := by
  cases op with
  | request name args now =>
      obtain ⟨outcome, s', m', hperform, hanswer, h', hidle⟩ := h.perform hfit name args now
      exact ⟨.outcome outcome, s', m', by rw [Keyspace.apply, hperform]; rfl, hanswer, h', hidle⟩
  | store key value =>
      obtain ⟨s', hstore, h'⟩ := h.store key value
      exact ⟨.done, s', _, by rw [Keyspace.apply, hstore]; rfl, .store, h', nofun⟩
  | setDeadline key deadline =>
      obtain ⟨s', hset, h'⟩ := h.setDeadline hfit key deadline
      exact ⟨.done, s', _, by rw [Keyspace.apply, hset]; rfl, .setDeadline, h', nofun⟩
  | evictIfDue key now =>
      obtain ⟨s', hevict, h'⟩ := h.evictIfDue key now
      exact ⟨_, s', _, by rw [Keyspace.apply, hevict]; rfl, .evictIfDue, h', nofun⟩
  | read key now =>
      obtain ⟨s', hread, h'⟩ := h.read key now
      exact ⟨_, s', _, by rw [Keyspace.apply, hread]; rfl, .read, h', nofun⟩
  | expireCycle count now draws =>
      obtain ⟨n, s', m', hcycle, hle, hexpires, h'⟩ := h.expireFrom now draws 0 count
      refine ⟨.count n, s', m', ?_, .expireCycle hle hexpires, h', nofun⟩
      rw [Keyspace.apply, expireCycle, hcycle]
      rfl

end Tracks

namespace Represents

variable {s : Keyspace} {m : Maps}

/-- `Keyspace.empty` represents the empty maps. -/
theorem empty : Represents .empty .empty :=
  represents_iff.2 .empty

/-- `Tracks.perform` for `Represents`. -/
theorem perform (h : s.Represents m) (name : Bytes) (args : List Bytes) (now : Int64) :
    ∃ outcome s' m', s.perform now ((name :: args).map .str) = .ok (outcome, s') ∧
      m.Answers (.request name args now) (.outcome outcome) m' ∧ s'.Represents m' ∧
      (outcome.isRejection → s' = s) := by
  obtain ⟨outcome, s', m', hperform, hanswer, h', hidle⟩ :=
    (represents_iff.1 h).perform (fun n => ⟨n, rfl⟩) name args now
  exact ⟨outcome, s', m', hperform, hanswer, represents_iff.2 h', hidle⟩

/-- `Tracks.expireFrom` for `Represents`. -/
theorem expireFrom (h : s.Represents m) (now : Int64) (draws : Nat → Draws) (turn count : Nat) :
    ∃ n s' m', Keyspace.expireFrom now draws turn count s = .ok (n, s') ∧ n ≤ count ∧
      m.Expires now n m' ∧ s'.Represents m' := by
  obtain ⟨n, s', m', hcycle, hle, hexpires, h'⟩ :=
    (represents_iff.1 h).expireFrom now draws turn count
  exact ⟨n, s', m', hcycle, hle, hexpires, represents_iff.2 h'⟩

end Represents

/-! ### Runs -/

variable {s : Keyspace} {m : Maps}

/-- `Tracks.apply` for `Represents`. -/
theorem apply_refines (h : s.Represents m) (op : Operation) :
    ∃ answer s' m', s.apply op = .ok (answer, s') ∧ m.Answers op answer m' ∧ s'.Represents m' ∧
      (answer.isRejection → s' = s) := by
  obtain ⟨answer, s', m', happly, hanswer, h', hidle⟩ :=
    (represents_iff.1 h).apply (fun n => ⟨n, rfl⟩) op
  exact ⟨answer, s', m', happly, hanswer, represents_iff.2 h', hidle⟩

/-- `Keyspace.run` answers as the maps do. -/
theorem run_refines (ops : List Operation) (h : s.Represents m) :
    ∃ answers s' m', run ops s = .ok (answers, s') ∧ m.Runs ops answers m' ∧ s'.Represents m' := by
  induction ops generalizing s m with
  | nil => exact ⟨[], s, m, rfl, .nil, h⟩
  | cons op rest ih =>
      obtain ⟨answer, s₁, m₁, happly, hanswer, h₁, -⟩ := apply_refines h op
      obtain ⟨answers, s', m', hrun, hruns, h'⟩ := ih h₁
      refine ⟨answer :: answers, s', m', ?_, .cons hanswer hruns, h'⟩
      simp only [run, happly, hrun, Checked.ok_bind]

/-- **A keyspace is a pair of finite maps.** `Keyspace.run` of any operations from `Keyspace.empty`
ends without a fault, with the answers that two maps give which are empty at first, and the keyspace
`Represents` these maps then. Whatever operation comes next, it answers as they do too, and what it
leaves represents the maps after it; at each key that the operation is not about, both maps are as
they were; and if it is a rejection the keyspace itself is as it was. -/
theorem run_refines_maps (ops : List Operation) (op : Operation) :
    ∃ answers s m, run ops .empty = .ok (answers, s) ∧ Maps.empty.Runs ops answers m ∧
      s.Represents m ∧
      ∃ answer s' m', s.apply op = .ok (answer, s') ∧ m.Answers op answer m' ∧ s'.Represents m' ∧
        (∀ key, op.isAbout m key = false → m.SameAt m' key) ∧
        (answer.isRejection → s' = s) := by
  obtain ⟨answers, s, m, hrun, hruns, h⟩ := run_refines ops Represents.empty
  obtain ⟨answer, s', m', happly, hanswer, h', hidle⟩ := apply_refines h op
  exact ⟨answers, s, m, hrun, hruns, h, answer, s', m', happly, hanswer, h',
    fun _ hkey => hanswer.sameAt hkey, hidle⟩

end Keyspace

end KeyValueServer
