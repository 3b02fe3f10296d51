import KeyValueServer.Proofs.Keyspace.Events
import KeyValueServer.Proofs.Numeral

/-!
# The deadline that is asked for

`EXPIRE` reads seconds from a signed numeral, turns them into milliseconds and adds them to the time
(`deadlineAfter?`). The numeral may denote any number, and each of the three numbers on the way has
to be a signed 64-bit integer; if one is not, the request is refused and nothing has happened. No
request leads to a deadline other than the one that it asks for (`Keyspace.AsksFor`).

## Main results

* `deadlineAfter?_eq_some_iff`: the two checked operations.
* `Keyspace.deadlineOf?_eq_some_iff`: the arguments that lead to a deadline, and to which.
* `Keyspace.expire_exact`: what `EXPIRE` does to a keyspace.
-/

namespace KeyValueServer

open Numeral

/-! ### From an argument to a deadline -/

/-- **`deadlineAfter?` is exact**, and there is a deadline when neither operation leaves the
range. -/
theorem deadlineAfter?_eq_some_iff {seconds now deadline : Int64} :
    deadlineAfter? seconds now = some deadline ↔
      InInt64 (1000 * seconds.toInt) ∧ deadline.toInt = 1000 * seconds.toInt + now.toInt := by
  rw [deadlineAfter?, Option.bind_eq_some_iff, Int.mul_comm]
  constructor
  · rintro ⟨milliseconds, hmilliseconds, hdeadline⟩
    rw [narrow?_eq_some_iff] at hmilliseconds hdeadline
    rw [← hmilliseconds]
    exact ⟨inInt64_toInt milliseconds, hdeadline⟩
  · rintro ⟨hrange, hdeadline⟩
    obtain ⟨milliseconds, hmilliseconds⟩ := exists_narrow? hrange
    refine ⟨milliseconds, hmilliseconds, ?_⟩
    rw [narrow?_eq_some_iff] at hmilliseconds ⊢
    rw [hmilliseconds, hdeadline]

namespace Keyspace

/-- `AsksFor seconds now n`: the argument denotes `n` seconds, and these lead to a deadline. The
number, as many milliseconds and the time so many milliseconds from `now` are in range. -/
structure AsksFor (seconds : Bytes) (now : Int64) (n : Int) : Prop where
  denotes : DenotesInt seconds n
  inInt64 : InInt64 n
  milliseconds_inInt64 : InInt64 (1000 * n)
  deadline_inInt64 : InInt64 (1000 * n + now.toInt)

variable {seconds : Bytes} {now deadline : Int64} {n : Int}

/-- `deadlineOf?` is the deadline that the argument `AsksFor`, and no other. -/
theorem deadlineOf?_eq_some_iff :
    deadlineOf? seconds now = some deadline ↔
      ∃ n, AsksFor seconds now n ∧ deadline.toInt = 1000 * n + now.toInt := by
  rw [deadlineOf?, Option.bind_eq_some_iff]
  constructor
  · rintro ⟨m, hseconds, hdeadline⟩
    rw [int64?_eq_some_iff] at hseconds
    rw [deadlineAfter?_eq_some_iff] at hdeadline
    obtain ⟨hmilliseconds, hdeadline⟩ := hdeadline
    refine ⟨m.toInt, ⟨hseconds, inInt64_toInt m, hmilliseconds, ?_⟩, hdeadline⟩
    rw [← hdeadline]
    exact inInt64_toInt deadline
  · rintro ⟨n, hasks, hdeadline⟩
    obtain ⟨m, hm⟩ := exists_narrow? hasks.inInt64
    rw [narrow?_eq_some_iff] at hm
    subst hm
    exact ⟨m, int64?_eq_some_iff.2 hasks.denotes,
      deadlineAfter?_eq_some_iff.2 ⟨hasks.milliseconds_inInt64, hdeadline⟩⟩

/-- What the argument `AsksFor` is there. -/
theorem AsksFor.exists_deadline (h : AsksFor seconds now n) :
    ∃ deadline, deadlineOf? seconds now = some deadline ∧
      deadline.toInt = 1000 * n + now.toInt := by
  obtain ⟨deadline, hdeadline⟩ := exists_narrow? h.deadline_inInt64
  rw [narrow?_eq_some_iff] at hdeadline
  exact ⟨deadline, deadlineOf?_eq_some_iff.2 ⟨n, h, hdeadline⟩, hdeadline⟩

/-- `deadlineOf?` is `none` where the argument asks for none. -/
theorem deadlineOf?_eq_none_iff :
    deadlineOf? seconds now = none ↔ ¬ ∃ n, AsksFor seconds now n := by
  constructor
  · rintro hnone ⟨n, hasks⟩
    obtain ⟨deadline, hsome, -⟩ := hasks.exists_deadline
    rw [hnone] at hsome
    cases hsome
  · intro hnot
    rw [Option.eq_none_iff_forall_ne_some]
    intro deadline hsome
    obtain ⟨n, hasks, -⟩ := deadlineOf?_eq_some_iff.1 hsome
    exact hnot ⟨n, hasks⟩

/-! ### What becomes of the keyspace -/

variable {s : Keyspace} {name key : Bytes}

/-- `Keyspace.perform` of `EXPIRE` with a key and an argument is `performExpire`. -/
theorem perform_expire (hname : Command.lookup? name = some .expire) :
    s.perform now ([name, key, seconds].map .str) =
      (do
        let (reply, s') ← s.performExpire (.str key) (.str seconds) now
        .ok (.reply reply, s')) := by
  have hbytes : (Value.str name).bytes = name := rfl
  rw [List.map_cons, perform, hbytes, isQuit_eq_false hname, hname]
  rfl

/-- `EXPIRE` where `deadlineOf?` is `none` is refused, and nothing has happened. -/
theorem perform_expire_of_none (hname : Command.lookup? name = some .expire)
    (hnone : deadlineOf? seconds now = none) :
    s.perform now ([name, key, seconds].map .str) =
      .ok (.reply (.refused .notInteger), s) := by
  have hrefused : s.performExpire (.str key) (.str seconds) now =
      .ok (.refused .notInteger, s) := by
    rw [performExpire, Value.integer?, ← deadlineOf?, hnone]
  rw [perform_expire hname, hrefused, Checked.ok_bind]

/-- `EXPIRE` where `deadlineOf?` is a deadline stores it, and the values are left alone. -/
theorem perform_expire_of_some {deadlines : Finmap fun _ : Bytes => Value}
    (hdeadlines : s.deadlines.IsMap deadlines) (hname : Command.lookup? name = some .expire)
    (hsome : deadlineOf? seconds now = some deadline) (key : Bytes) :
    ∃ s', s.perform now ([name, key, seconds].map .str) = .ok (.reply .done, s') ∧
      s'.values = s.values ∧ s'.deadlines.IsMap (deadlines.insert key (.int deadline)) := by
  obtain ⟨stored, hset, hstored⟩ := hdeadlines.set key (.int deadline)
  refine ⟨⟨s.values, stored⟩, ?_, rfl, hstored⟩
  have hdone : s.performExpire (.str key) (.str seconds) now =
      .ok (.done, ⟨s.values, stored⟩) := by
    rw [performExpire, Value.integer?, ← deadlineOf?, hsome]
    simp only [setDeadline, hset, Checked.ok_bind]
  rw [perform_expire hname, hdone, Checked.ok_bind]

/-- **`EXPIRE` is exact, or it is refused and nothing has happened.** It is carried out when its
argument `AsksFor` a deadline: it is a decimal numeral with at most one sign, and the number of
seconds, as many milliseconds and the deadline are signed 64-bit integers. Then the key has exactly
this deadline, every other key has the deadline that it had, and the values are as they were.
Otherwise it is refused, and both tables are as they were. -/
theorem expire_exact {deadlines : Finmap fun _ : Bytes => Value}
    (hdeadlines : s.deadlines.IsMap deadlines) (hname : Command.lookup? name = some .expire)
    (key seconds : Bytes) (now : Int64) :
    ∃ outcome s', s.perform now ([name, key, seconds].map .str) = .ok (outcome, s') ∧
      (outcome = .reply .done ↔ ∃ n, AsksFor seconds now n) ∧
      (∀ n, AsksFor seconds now n → ∃ deadline : Int64, deadline.toInt = 1000 * n + now.toInt ∧
        s'.values = s.values ∧ s'.deadlines.IsMap (deadlines.insert key (.int deadline))) ∧
      ((¬ ∃ n, AsksFor seconds now n) → outcome = .reply (.refused .notInteger) ∧ s' = s) := by
  by_cases hasks : ∃ n, AsksFor seconds now n
  · obtain ⟨n, hn⟩ := hasks
    obtain ⟨deadline, hsome, hdeadline⟩ := hn.exists_deadline
    obtain ⟨s', hperform, hvalues, hstored⟩ := perform_expire_of_some hdeadlines hname hsome key
    refine ⟨.reply .done, s', hperform, iff_of_true rfl ⟨n, hn⟩, ?_, ?_⟩
    · intro n' hn'
      -- the argument denotes one number only, as it leads to one deadline
      obtain ⟨deadline', hsome', hdeadline'⟩ := hn'.exists_deadline
      rw [hsome] at hsome'
      cases hsome'
      exact ⟨deadline, hdeadline', hvalues, hstored⟩
    · intro hnot
      exact absurd ⟨n, hn⟩ hnot
  · refine ⟨.reply (.refused .notInteger), s,
      perform_expire_of_none hname (deadlineOf?_eq_none_iff.2 hasks), ?_, ?_, fun _ => ⟨rfl, rfl⟩⟩
    · exact iff_of_false (by decide) hasks
    · intro n hn
      exact absurd ⟨n, hn⟩ hasks

/-- A signed numeral with a leading zero, in a keyspace without keys; and the least number of
seconds that there is, which has too many milliseconds. -/
theorem expire_exact_of_signs :
    (∃ s' deadlines,
        empty.perform 5 ([Bytes.ofText "Expire", [107], Bytes.ofText "+010"].map .str) =
          .ok (.reply .done, s') ∧
        s'.deadlines.IsMap deadlines ∧ deadlines.lookup [107] = some (.int 10005)) ∧
      empty.perform 5
          ([Bytes.ofText "Expire", [107], Bytes.ofText "-9223372036854775808"].map .str) =
        .ok (.reply (.refused .notInteger), empty) := by
  have hname : Command.lookup? (Bytes.ofText "Expire") = some .expire := by decide
  constructor
  · have hten : AsksFor (Bytes.ofText "+010") 5 10 :=
      ⟨int64?_eq_some_iff.1 (by decide : int64? (Bytes.ofText "+010") = some 10),
        by decide, by decide, by decide⟩
    obtain ⟨outcome, s', hperform, hdone, hexact, -⟩ :=
      expire_exact (s := empty) Table.IsMap.empty hname [107] (Bytes.ofText "+010") 5
    obtain ⟨deadline, hdeadline, -, hstored⟩ := hexact 10 hten
    obtain rfl := hdone.2 ⟨10, hten⟩
    refine ⟨s', _, hperform, hstored, ?_⟩
    obtain rfl : deadline = 10005 := Int64.toInt_inj.1 hdeadline
    exact Finmap.lookup_insert _
  · obtain ⟨outcome, s', hperform, -, -, hrefused⟩ := expire_exact (s := empty) Table.IsMap.empty
      hname [107] (Bytes.ofText "-9223372036854775808") 5
    obtain ⟨rfl, rfl⟩ := hrefused (deadlineOf?_eq_none_iff.1 (by decide))
    exact hperform

end Keyspace

end KeyValueServer
