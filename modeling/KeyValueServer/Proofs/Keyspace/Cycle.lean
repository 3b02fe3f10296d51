import KeyValueServer.Proofs.Keyspace.Refinement
import KeyValueServer.Proofs.Table.FiniteMap
import KeyValueServer.Proofs.Table.GivingUp

/-!
# One cycle of expiration

`Keyspace.expireCycle` samples deadlines and evicts the keys of those that are past. Each sample and
each deletion moves a chain of either table, so an entry that has been sampled may be in the other
generation when it is deleted. What leaves the tables is nevertheless the keys that were sampled as
past, each once, and nothing else; and the cycle counts exactly those.

Deadlines need not be integers here. The two tables are followed as maps from keys to the values
that they hold (`Table.IsMap`), so that a deadline which denotes no integer is seen to stay as it
is.

## Main results

* `Keyspace.expireFrom_ok`: the keys that leave, in the order in which they do.
* `Keyspace.expireCycle_exact`: what one cycle counts, takes and leaves.
-/

namespace KeyValueServer

/-! ### Maps without a list of keys -/

section Without

variable {α β : Type} [DecidableEq α]

/-- `withoutKeys m gone` is the map without the keys `gone`, which leave it one after the other. -/
def withoutKeys (m : Finmap fun _ : α => β) (gone : List α) : Finmap fun _ : α => β :=
  gone.foldl (fun m a => m.erase a) m

/-- `withoutKeys` leaves the values of the other keys. -/
theorem lookup_withoutKeys (m : Finmap fun _ : α => β) (gone : List α) (a : α) :
    (withoutKeys m gone).lookup a = if a ∈ gone then none else m.lookup a := by
  induction gone generalizing m with
  | nil => simp [withoutKeys]
  | cons b rest ih =>
      change (withoutKeys (m.erase b) rest).lookup a = _
      rw [ih]
      by_cases hrest : a ∈ rest
      · rw [if_pos hrest, if_pos (List.mem_cons_of_mem b hrest)]
      · rw [if_neg hrest]
        by_cases hab : a = b
        · subst hab
          rw [if_pos List.mem_cons_self, Finmap.lookup_erase]
        · rw [if_neg (by simp [hab, hrest]), Finmap.lookup_erase_ne hab]

/-- `withoutKeys` leaves the keys that were there and have not gone. -/
theorem mem_withoutKeys_iff {m : Finmap fun _ : α => β} {gone : List α} {a : α} :
    a ∈ withoutKeys m gone ↔ a ∉ gone ∧ a ∈ m := by
  rw [← Finmap.lookup_isSome, ← Finmap.lookup_isSome, lookup_withoutKeys]
  by_cases hgone : a ∈ gone
  · simp [hgone]
  · simp [hgone]

/-- The keys of `withoutKeys`. -/
theorem keys_withoutKeys (m : Finmap fun _ : α => β) (gone : List α) :
    (withoutKeys m gone).keys = m.keys \ gone.toFinset := by
  ext a
  rw [Finset.mem_sdiff, Finmap.mem_keys, Finmap.mem_keys, mem_withoutKeys_iff, List.mem_toFinset]
  exact and_comm

/-- `withoutKeys` takes no more keys than are named. -/
theorem card_keys_le_withoutKeys (m : Finmap fun _ : α => β) (gone : List α) :
    m.keys.card ≤ (withoutKeys m gone).keys.card + gone.length := by
  have hcover : m.keys ⊆ (withoutKeys m gone).keys ∪ gone.toFinset := by
    rw [keys_withoutKeys, Finset.sdiff_union_self_eq_union]
    exact Finset.subset_union_left
  calc m.keys.card ≤ ((withoutKeys m gone).keys ∪ gone.toFinset).card := Finset.card_le_card hcover
    _ ≤ (withoutKeys m gone).keys.card + gone.toFinset.card := Finset.card_union_le _ _
    _ ≤ (withoutKeys m gone).keys.card + gone.length :=
        Nat.add_le_add_left (List.toFinset_card_le gone) _

/-- `withoutKeys` takes as many keys as are named, if each was there and is named once. -/
theorem card_keys_withoutKeys {m : Finmap fun _ : α => β} {gone : List α} (hnodup : gone.Nodup)
    (hmem : ∀ a ∈ gone, a ∈ m) :
    (withoutKeys m gone).keys.card + gone.length = m.keys.card := by
  have hsub : gone.toFinset ⊆ m.keys := by
    intro a ha
    exact Finmap.mem_keys.2 (hmem a (List.mem_toFinset.1 ha))
  rw [keys_withoutKeys, ← List.toFinset_card_of_nodup hnodup]
  exact Finset.card_sdiff_add_card_eq_card hsub

end Without

/-! ### The keys that leave -/

namespace Keyspace

variable {s : Keyspace} {values deadlines : Finmap fun _ : Bytes => Value}

/-- `IsPast deadlines now key`: the key has a deadline that denotes an integer at or before
`now`. -/
def IsPast (deadlines : Finmap fun _ : Bytes => Value) (now : Int64) (key : Bytes) : Prop :=
  ∃ deadline time, deadlines.lookup key = some deadline ∧ deadline.integer? = some time ∧
    time ≤ now

/-- `IsPast` is `isDue` of the deadline. -/
theorem isPast_iff {key : Bytes} {deadline : Value} {now : Int64}
    (hlookup : deadlines.lookup key = some deadline) :
    IsPast deadlines now key ↔ isDue deadline now = true := by
  rw [isDue_eq]
  constructor
  · rintro ⟨deadline', time, hlookup', hinteger, hle⟩
    rw [hlookup] at hlookup'
    cases hlookup'
    rw [hinteger]
    exact decide_eq_true hle
  · intro hdue
    obtain ⟨time, hinteger, hle⟩ := (Option.any_eq_true _ _).1 hdue
    exact ⟨deadline, time, hlookup, hinteger, of_decide_eq_true hle⟩

/-- `IsPast` without some key is `IsPast` with it, and of another key. -/
theorem isPast_erase {key gone : Bytes} {now : Int64}
    (h : IsPast (deadlines.erase gone) now key) : key ≠ gone ∧ IsPast deadlines now key := by
  obtain ⟨deadline, time, hlookup, hinteger, hle⟩ := h
  have hne : key ≠ gone := by
    rintro rfl
    rw [Finmap.lookup_erase] at hlookup
    cases hlookup
  rw [Finmap.lookup_erase_ne hne] at hlookup
  exact ⟨hne, deadline, time, hlookup, hinteger, hle⟩

/-! ### One sample -/

/-- `Keyspace.evict` takes a key from both tables. -/
theorem evict_ok (hvalues : s.values.IsMap values) (hdeadlines : s.deadlines.IsMap deadlines)
    (key : Bytes) :
    ∃ s', s.evict (.str key) = .ok s' ∧ s'.values.IsMap (values.erase key) ∧
      s'.deadlines.IsMap (deadlines.erase key) := by
  obtain ⟨_, t, hdelete, ht⟩ := hdeadlines.delete key
  obtain ⟨_, u, hdelete', hu⟩ := hvalues.delete key
  refine ⟨⟨u, t⟩, ?_, hu, ht⟩
  simp only [Keyspace.evict, hdelete, hdelete', Checked.ok_bind]

/-- One sample of `expireFrom`, however many may follow. It finds nothing, and the cycle ends; or it
finds a key that is not past; or it finds one that is, which leaves. -/
theorem expireFrom_succ (hvalues : s.values.IsMap values)
    (hdeadlines : s.deadlines.IsMap deadlines) (now : Int64) (draws : Nat → Draws) (turn : Nat) :
    ∃ s₁,
      (s₁.values.IsMap values ∧ s₁.deadlines.IsMap deadlines ∧
          (∀ count, expireFrom now draws turn (count + 1) s = .ok (0, s₁)) ∧
          (¬ s.deadlines.GivesUp (draws turn) → deadlines.keys.card = 0)) ∨
        (s₁.values.IsMap values ∧ s₁.deadlines.IsMap deadlines ∧
          (∀ count, expireFrom now draws turn (count + 1) s =
            expireFrom now draws (turn + 1) count s₁) ∧
          ∃ key ∈ deadlines, ¬ IsPast deadlines now key) ∨
        ∃ key, s₁.values.IsMap (values.erase key) ∧ s₁.deadlines.IsMap (deadlines.erase key) ∧
          (∀ count n s', expireFrom now draws (turn + 1) count s₁ = .ok (n, s') →
            expireFrom now draws turn (count + 1) s = .ok (n + 1, s')) ∧
          IsPast deadlines now key := by
  obtain ⟨t, ht, hsample | ⟨key, deadline, hlookup, hsample⟩⟩ := hdeadlines.sample (draws turn)
  · refine ⟨⟨s.values, t⟩, .inl ⟨hvalues, ht, fun count => ?_, fun hnever => ?_⟩⟩
    · simp only [expireFrom, hsample, Checked.ok_bind]
    · rcases hdeadlines.wellFormed.isEmpty_or_givesUp hsample with hnil | hgives
      · rw [← hdeadlines.size_eq, hdeadlines.wellFormed.size_eq, hnil]
        rfl
      · exact absurd hgives hnever
  · cases hdue : isDue deadline now with
    | false =>
        refine ⟨⟨s.values, t⟩, .inr (.inl ⟨hvalues, ht, fun count => ?_, key, ?_, ?_⟩)⟩
        · simp [expireFrom, hsample, Entry.ofKey, hdue]
        · exact Finmap.mem_of_lookup_eq_some hlookup
        · rw [isPast_iff hlookup, hdue]
          exact Bool.false_ne_true
    | true =>
        obtain ⟨s₁, hevict, hvalues₁, hdeadlines₁⟩ := evict_ok (s := ⟨s.values, t⟩) hvalues ht key
        refine ⟨s₁, .inr (.inr ⟨key, hvalues₁, hdeadlines₁, ?_, (isPast_iff hlookup).2 hdue⟩)⟩
        intro count n s' hrest
        have hkey : (Value.textKey key).1 = .str key := rfl
        simp [expireFrom, hsample, Entry.ofKey, hdue, hkey, hevict, hrest]

/-! ### Samples that do not give up -/

/-- `NoneGivesUp now draws turn count s`: of `count` samples from the `turn`-th on, none gives up.
The samples are those that are made: after one that has found nothing the tables stay as they are,
and none follows. -/
def NoneGivesUp (now : Int64) (draws : Nat → Draws) (turn count : Nat) (s : Keyspace) : Prop :=
  ∀ k < count, ∀ n s', expireFrom now draws turn k s = .ok (n, s') →
    ¬ s'.deadlines.GivesUp (draws (turn + k))

namespace NoneGivesUp

variable {s₁ : Keyspace} {now : Int64} {draws : Nat → Draws} {turn count : Nat}

/-- `NoneGivesUp` of the first sample. -/
theorem head (h : NoneGivesUp now draws turn (count + 1) s) :
    ¬ s.deadlines.GivesUp (draws turn) :=
  h 0 (Nat.zero_lt_succ count) 0 s rfl

/-- `NoneGivesUp` of the other samples, in the tables that the first one leaves. -/
theorem tail (h : NoneGivesUp now draws turn (count + 1) s)
    (hfirst : ∀ k n s', expireFrom now draws (turn + 1) k s₁ = .ok (n, s') →
      ∃ n', expireFrom now draws turn (k + 1) s = .ok (n', s')) :
    NoneGivesUp now draws (turn + 1) count s₁ := by
  intro k hk n s' hrest
  obtain ⟨n', hall⟩ := hfirst k n s' hrest
  have hnever := h (k + 1) (by omega) n' s' hall
  rwa [← Nat.add_assoc, Nat.add_right_comm] at hnever

end NoneGivesUp

/-! ### All samples -/

/-- **The keys that leave in `expireFrom`.** Each leaves once, and was past. If all keys with a
deadline are past and no sample gives up, a key leaves at each sample while there is one. -/
theorem expireFrom_ok (hvalues : s.values.IsMap values) (hdeadlines : s.deadlines.IsMap deadlines)
    (now : Int64) (draws : Nat → Draws) (turn count : Nat) :
    ∃ gone s', expireFrom now draws turn count s = .ok (gone.length, s') ∧
      s'.values.IsMap (withoutKeys values gone) ∧
      s'.deadlines.IsMap (withoutKeys deadlines gone) ∧
      gone.length ≤ count ∧ gone.Nodup ∧ (∀ key ∈ gone, IsPast deadlines now key) ∧
      ((∀ key ∈ deadlines, IsPast deadlines now key) → NoneGivesUp now draws turn count s →
        gone.length = min count deadlines.keys.card) := by
  induction count generalizing turn s values deadlines with
  | zero =>
      refine ⟨[], s, rfl, hvalues, hdeadlines, Nat.le_refl 0, List.nodup_nil, nofun, ?_⟩
      intro _ _
      exact (Nat.zero_min _).symm
  | succ count ih =>
      obtain ⟨s₁, ⟨hvalues₁, hdeadlines₁, hone, hcard⟩ |
          ⟨hvalues₁, hdeadlines₁, hone, key, hmem, hnot⟩ |
          ⟨key, hvalues₁, hdeadlines₁, hone, hpast⟩⟩ :=
        expireFrom_succ hvalues hdeadlines now draws turn
      · refine ⟨[], s₁, hone count, hvalues₁, hdeadlines₁, Nat.zero_le _, List.nodup_nil, nofun, ?_⟩
        intro _ hnever
        rw [hcard hnever.head]
        exact (Nat.min_zero _).symm
      · obtain ⟨gone, s', hrest, hvalues', hdeadlines', hle, hnodup, hgone, -⟩ :=
          ih hvalues₁ hdeadlines₁ (turn + 1)
        refine ⟨gone, s', (hone count).trans hrest, hvalues', hdeadlines', Nat.le_succ_of_le hle,
          hnodup, hgone, ?_⟩
        intro hall _
        exact absurd (hall key hmem) hnot
      · obtain ⟨gone, s', hrest, hvalues', hdeadlines', hle, hnodup, hgone, hcount⟩ :=
          ih hvalues₁ hdeadlines₁ (turn + 1)
        have hmem : key ∈ deadlines := by
          obtain ⟨deadline, _, hlookup, -⟩ := hpast
          exact Finmap.mem_of_lookup_eq_some hlookup
        have hnew : key ∉ gone := fun hkey => (isPast_erase (hgone key hkey)).1 rfl
        refine ⟨key :: gone, s', hone count gone.length s' hrest, hvalues', hdeadlines',
          Nat.succ_le_succ hle, List.nodup_cons.2 ⟨hnew, hnodup⟩, ?_, ?_⟩
        · intro other hother
          rcases List.mem_cons.1 hother with rfl | hother
          · exact hpast
          · exact (isPast_erase (hgone other hother)).2
        · intro hall hnever
          have hall₁ : ∀ other ∈ deadlines.erase key, IsPast (deadlines.erase key) now other := by
            intro other hother
            obtain ⟨hne, hother⟩ := Finmap.mem_erase.1 hother
            obtain ⟨deadline, time, hlookup, hinteger, htime⟩ := hall other hother
            exact ⟨deadline, time, by rwa [Finmap.lookup_erase_ne hne], hinteger, htime⟩
          have hlength := hcount hall₁ (hnever.tail fun k n s' hk => ⟨_, hone k n s' hk⟩)
          have hcard : (deadlines.erase key).keys.card + 1 = deadlines.keys.card := by
            rw [Finmap.keys_erase, Finset.card_erase_add_one (Finmap.mem_keys.2 hmem)]
          rw [List.length_cons, hlength]
          omega

/-- **One `expireCycle` is exact.** It never faults, whatever the stage at which the tables are
rehashing and whatever is drawn. Its count is at most that of its samples, and is how much smaller
the table of deadlines gets. A key leaves the deadlines only if its deadline was an integer at or
before `now`, and then it is in neither table. All other keys keep their values and their deadlines.
The table of values gets smaller by the count at most. And if all deadlines are such integers and no
sample gives up, the count is that of the samples or of the deadlines, whichever is less. -/
theorem expireCycle_exact (hvalues : s.values.IsMap values)
    (hdeadlines : s.deadlines.IsMap deadlines) (count : Nat) (now : Int64)
    (draws : Nat → Draws) :
    ∃ n s' values' deadlines', s.expireCycle count now draws = .ok (n, s') ∧
      s'.values.IsMap values' ∧ s'.deadlines.IsMap deadlines' ∧
      n ≤ count ∧ s'.deadlines.size + n = s.deadlines.size ∧
      (∀ key, key ∈ deadlines → key ∉ deadlines' →
        IsPast deadlines now key ∧ key ∉ values') ∧
      (∀ key, (key ∈ deadlines → key ∈ deadlines') →
        values'.lookup key = values.lookup key ∧ deadlines'.lookup key = deadlines.lookup key) ∧
      s'.values.size ≤ s.values.size ∧ s.values.size ≤ s'.values.size + n ∧
      ((∀ key ∈ deadlines, IsPast deadlines now key) → NoneGivesUp now draws 0 count s →
        n = min count s.deadlines.size) := by
  obtain ⟨gone, s', hcycle, hvalues', hdeadlines', hle, hnodup, hgone, hcount⟩ :=
    expireFrom_ok hvalues hdeadlines now draws 0 count
  have hmem : ∀ key ∈ gone, key ∈ deadlines := by
    intro key hkey
    obtain ⟨deadline, _, hlookup, -⟩ := hgone key hkey
    exact Finmap.mem_of_lookup_eq_some hlookup
  refine ⟨gone.length, s', _, _, hcycle, hvalues', hdeadlines', hle, ?_, ?_, ?_, ?_, ?_, ?_⟩
  · rw [hdeadlines'.size_eq, hdeadlines.size_eq]
    exact card_keys_withoutKeys hnodup hmem
  · intro key hkey hkey'
    have hkeyGone : key ∈ gone := by
      rw [mem_withoutKeys_iff] at hkey'
      exact Decidable.byContradiction fun hnot => hkey' ⟨hnot, hkey⟩
    refine ⟨hgone key hkeyGone, ?_⟩
    rw [mem_withoutKeys_iff]
    exact fun h => h.1 hkeyGone
  · intro key hkeeps
    have hkey : key ∉ gone := fun h => (mem_withoutKeys_iff.1 (hkeeps (hmem key h))).1 h
    rw [lookup_withoutKeys, lookup_withoutKeys, if_neg hkey, if_neg hkey]
    exact ⟨rfl, rfl⟩
  · rw [hvalues'.size_eq, hvalues.size_eq, keys_withoutKeys]
    exact Finset.card_le_card Finset.sdiff_subset
  · rw [hvalues'.size_eq, hvalues.size_eq]
    exact card_keys_le_withoutKeys values gone
  · rw [hdeadlines.size_eq]
    exact hcount

/-- `byteEntry key n` is the entry of a key of one byte whose value is an integer. -/
def byteEntry (key : UInt8) (n : Int64) : Entry Value Value :=
  .ofKey (Value.textKey [key]) (.int n)

/-- A table that is rehashing, with two keys in each generation. -/
def twoGenerations : Table Value.keying Value :=
  .rehashing
    ⟨#[[], [], [], [], [byteEntry 97 0], [byteEntry 98 1], [], []], 8, 7, 2⟩
    ⟨#[[], [], [byteEntry 99 2], [byteEntry 100 3], [], [], [], [], [], [], [], [], [], [], [],
      []], 16, 15, 2⟩ 3

/-- The table grows when it holds three keys. The fourth comes after one of them has moved. -/
def twoGenerationsCalls : List (Table.Operation Value.keying Value) :=
  [.set (Value.textKey [97]) (.int 0), .set (Value.textKey [98]) (.int 1),
    .set (Value.textKey [99]) (.int 2), .expand 16, .set (Value.textKey [100]) (.int 3)]

/-- Two tables that are rehashing go through a cycle of three samples. The first sample moves a
chain and finds a key of the new generation; its eviction moves the last chain of the deadlines, and
the second sample drops their old generation. Three of the four keys leave. -/
theorem expireCycle_exact_of_rehashing :
    (Table.run twoGenerationsCalls .empty).2 = .ok twoGenerations ∧
      ∃ deadlines : Finmap fun _ : Bytes => Value,
        twoGenerations.IsMap deadlines ∧ (∀ key ∈ deadlines, IsPast deadlines 5 key) ∧
          NoneGivesUp 5 (fun _ => ⟨id, 0⟩) 0 3 ⟨twoGenerations, twoGenerations⟩ ∧
          ∃ s', expireCycle ⟨twoGenerations, twoGenerations⟩ 3 5 (fun _ => ⟨id, 0⟩) =
              .ok (3, s') ∧ s'.deadlines.size = 1 := by
  have hrun : (Table.run twoGenerationsCalls .empty).2 = .ok twoGenerations := rfl
  have hword : ∀ target, .expand target ∈ twoGenerationsCalls →
      Table.nextPower target < wordLimit := by
    intro target hmem
    obtain rfl : target = 16 := by simpa [twoGenerationsCalls] using hmem
    decide
  obtain ⟨deadlines, hmap⟩ := Table.exists_isMap_of_run hword hrun
  have hpast : ∀ key ∈ deadlines, IsPast deadlines 5 key := by
    intro key hkey
    obtain ⟨deadline, hlookup⟩ := Finmap.mem_iff.1 hkey
    obtain ⟨stored, val, hmem, -, rfl⟩ := hmap.exists_of_lookup hlookup
    have hdue : ∀ e ∈ twoGenerations.entries, isDue e.val 5 = true := by decide
    exact (isPast_iff hlookup).2 (hdue _ hmem)
  have hnever : NoneGivesUp 5 (fun _ => ⟨id, 0⟩) 0 3 ⟨twoGenerations, twoGenerations⟩ := by
    intro k hk n s' hrest
    rintro ⟨t, g, hstep, hg, -, hmisses⟩
    -- the samples meet their entries in the chains 2, 3 and 5 of the new generation
    match k, hk with
    | 0, _ =>
        cases hrest
        cases hstep
        cases hg
        exact absurd (hmisses 2 (by decide)) nofun
    | 1, _ =>
        cases hrest
        cases hstep
        cases hg
        exact absurd (hmisses 3 (by decide)) nofun
    | 2, _ =>
        cases hrest
        cases hstep
        cases hg
        exact absurd (hmisses 5 (by decide)) nofun
  obtain ⟨n, s', -, -, hcycle, -, -, -, hsize, -, -, -, -, hcount⟩ :=
    expireCycle_exact (s := ⟨twoGenerations, twoGenerations⟩) hmap hmap 3 5 fun _ => ⟨id, 0⟩
  obtain rfl : n = 3 := hcount hpast hnever
  exact ⟨hrun, deadlines, hmap, hpast, hnever, s', hcycle, Nat.add_right_cancel hsize⟩

end Keyspace

end KeyValueServer
