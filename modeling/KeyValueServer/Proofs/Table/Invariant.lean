import KeyValueServer.Proofs.Table.Generation
import KeyValueServer.Table.Basic

/-!
# Well-formed tables

A table is `Table.WellFormed` when its generations are, and when during a rehash the new generation
is at least twice as large as the old and no chain before the cursor holds an entry. Each part of an
operation succeeds on a well-formed table and leaves it well formed; a step of the rehash and growth
only rearrange the entries (`Table.Kept`), and a change of a mapping changes one entry.

As for generations, nothing is assumed of the hash or of the equality. An entry that answers for a
key is *an* entry, of which there may be several as long as the equality has no laws.

## Main results

* `WellFormed.rehash_ok`: a rehash of any length keeps all entries.
* `WellFormed.lookup_eq`: a search of both generations is a search of all entries.
* `WellFormed.insert_ok`, `reassign_ok`, `remove_ok`: a change touches one entry.
-/

namespace KeyValueServer

namespace Table

variable {κ ν : Type} {K : Keying κ}

/-! ### Powers of two -/

/-- `nextPower` is a power of two. -/
theorem nextPower_pow (size : Nat) : ∃ k, nextPower size = 1 <<< k := ⟨_, rfl⟩

/-- `nextPower` covers the size that is asked for, and the initial one. -/
theorem max_le_nextPower (size : Nat) : max size initialSize ≤ nextPower size := by
  have h := Nat.lt_log2_self (n := max size initialSize - 1)
  rw [nextPower, Nat.one_shiftLeft]
  omega

/-- A power of two that exceeds another is at least twice as large. -/
theorem two_mul_le_of_lt_pow {m n a b : Nat} (hm : m = 1 <<< a) (hn : n = 1 <<< b)
    (h : m < n) : 2 * m ≤ n := by
  rw [Nat.one_shiftLeft] at hm hn
  subst hm
  subst hn
  have hab : a < b := (Nat.pow_lt_pow_iff_right (by omega)).1 h
  calc 2 * 2 ^ a = 2 ^ (a + 1) := by rw [Nat.pow_succ, Nat.mul_comm]
    _ ≤ 2 ^ b := Nat.pow_le_pow_right (by omega) hab

/-- A fresh generation of `nextPower` is well formed. -/
theorem wellFormed_ofSize_nextPower (size : Nat) :
    (Generation.ofSize (nextPower size) : Generation κ ν).WellFormed K := by
  obtain ⟨k, hk⟩ := nextPower_pow size
  have hmax := max_le_nextPower size
  exact .ofSize hk (by rw [initialSize] at hmax; omega)

/-! ### Well-formedness -/

/-- `t.WellFormed`: what holds of a table in each of its states. -/
inductive WellFormed : Table K ν → Prop
  | empty : WellFormed empty
  | stable {live : Generation κ ν} (h : live.WellFormed K) : WellFormed (stable live)
  | rehashing {old new : Generation κ ν} {cursor : Nat} (hold : old.WellFormed K)
      (hnew : new.WellFormed K) (hsize : 2 * old.size ≤ new.size) (hcursor : cursor ≤ old.size)
      (hdrained : old.DrainedBelow cursor) : WellFormed (rehashing old new cursor)

/-- `Kept t t'`: the table `t'` holds the entries of `t`, in some order, and is well formed. -/
structure Kept (t t' : Table K ν) : Prop where
  wellFormed : t'.WellFormed
  perm : t'.entries.Perm t.entries

/-- `Kept` is transitive. -/
theorem Kept.trans {t t' t'' : Table K ν} (h : Kept t t') (h' : Kept t' t'') : Kept t t'' :=
  ⟨h'.wellFormed, h'.perm.trans h.perm⟩

@[simp] theorem entries_empty : (empty : Table K ν).entries = [] := rfl

@[simp] theorem entries_stable (live : Generation κ ν) :
    (stable live : Table K ν).entries = live.entries := by
  simp [entries, generations]

@[simp] theorem entries_rehashing (old new : Generation κ ν) (cursor : Nat) :
    (rehashing old new cursor : Table K ν).entries = old.entries ++ new.entries := by
  simp [entries, generations]

@[simp] theorem entries_ofSize (size : Nat) :
    (Generation.ofSize size : Generation κ ν).entries = [] := by
  simp [Generation.ofSize, Generation.entries]

namespace WellFormed

variable {t : Table K ν}

/-- `Kept` of a well-formed table and itself. -/
theorem kept (h : t.WellFormed) : Kept t t := ⟨h, .refl _⟩

/-- **`Table.size` is the number of entries.** -/
theorem size_eq (h : t.WellFormed) : t.size = t.entries.length := by
  cases h with
  | empty => rfl
  | stable h => simp [size, generations, h.used_eq]
  | rehashing hold hnew _ _ _ => simp [size, generations, hold.used_eq, hnew.used_eq]

/-! ### Growing and moving chains -/

/-- `rehash` moves a chain in a turn that finds entries in the old generation. -/
theorem rehash_turn {old new : Generation κ ν} {cursor : Nat}
    (h : (Table.rehashing old new cursor : Table K ν).WellFormed) (hused : old.used ≠ 0) (n : Nat) :
    ∃ t', rehash (n + 1) (Table.rehashing old new cursor : Table K ν) = rehash n t' ∧
      Kept (Table.rehashing old new cursor) t' := by
  cases h with
  | rehashing hold hnew hsize hcursor hdrained =>
      obtain ⟨i, e, rest, hi, hdrained', hchain⟩ := hold.occupiedFrom_ok hcursor hdrained hused
      obtain ⟨old', new', hm, hold', hnew', hosize, hnsize, hchains, hperm⟩ :=
        hold.migrate_ok hnew hchain
      refine ⟨Table.rehashing old' new' (i + 1), ?_, ?_, ?_⟩
      · simp only [rehash, if_neg hused, hi, hm, Checked.ok_bind]
      · obtain ⟨hlt, -⟩ := Array.getElem?_eq_some_iff.1 hchain
        have hsz := hold.size_chains
        refine .rehashing hold' hnew' (by omega) (by omega) fun j hj => ?_
        rw [hchains, Array.getElem?_setIfInBounds]
        split
        · rename_i hij
          subst hij
          rfl
        · exact hdrained' j (by omega)
      · simpa using hperm

/-- **`rehash` keeps all entries**, however many chains it may move and whatever is left of it. -/
theorem rehash_ok (n : Nat) (h : t.WellFormed) : ∃ t', rehash n t = .ok t' ∧ Kept t t' := by
  induction n generalizing t with
  | zero => exact ⟨t, by rw [rehash], h.kept⟩
  | succ n ih =>
      cases t with
      | empty => exact ⟨.empty, by rw [rehash]; simp, h.kept⟩
      | stable live => exact ⟨.stable live, by rw [rehash]; simp, h.kept⟩
      | rehashing old new cursor =>
          by_cases hused : old.used = 0
          · refine ⟨.stable new, by rw [rehash, if_pos hused], ?_, ?_⟩
            · cases h with
              | rehashing _ hnew _ _ _ => exact .stable hnew
            · cases h with
              | rehashing hold _ _ _ _ =>
                  have hnil : old.entries = [] := by
                    rw [← List.length_eq_zero_iff, ← hold.used_eq, hused]
                  simp [hnil]
          · obtain ⟨t₁, hturn, hkept₁⟩ := h.rehash_turn hused n
            obtain ⟨t₂, h₂, hkept₂⟩ := ih hkept₁.wellFormed
            exact ⟨t₂, hturn.trans h₂, hkept₁.trans hkept₂⟩

/-- `rehashStep` keeps all entries. -/
theorem rehashStep_ok (h : t.WellFormed) : ∃ t', t.rehashStep = .ok t' ∧ Kept t t' :=
  h.rehash_ok 1

/-- `grow` to a power of two that exceeds the size of a stable table keeps all entries. -/
theorem grow_kept (h : t.WellFormed) (hstable : t.isRehashing = false) (target : Nat)
    (hlarge : ∀ live, t = Table.stable live → live.size < nextPower target) :
    Kept t (t.grow (nextPower target)) := by
  have hfresh : (Generation.ofSize (nextPower target) : Generation κ ν).WellFormed K :=
    wellFormed_ofSize_nextPower target
  cases h with
  | empty => exact ⟨.stable hfresh, by simp [grow]⟩
  | @stable live h =>
      obtain ⟨a, ha⟩ := h.size_pow
      obtain ⟨b, hb⟩ := nextPower_pow target
      have hdouble := two_mul_le_of_lt_pow ha hb (hlarge live rfl)
      refine ⟨.rehashing h hfresh hdouble (Nat.zero_le _) ?_, by simp [grow]⟩
      exact fun i hi => absurd hi (Nat.not_lt_zero i)
  | rehashing => cases hstable

/-- `growIfCrowded` keeps all entries. -/
theorem growIfCrowded_kept (h : t.WellFormed) : Kept t t.growIfCrowded := by
  cases t with
  | empty => exact h.grow_kept rfl _ (by simp)
  | stable live =>
      rw [growIfCrowded]
      split
      · refine h.grow_kept rfl _ fun live' hlive => ?_
        obtain rfl := Table.stable.inj hlive
        have hmax := max_le_nextPower (live.size * growRatio)
        cases h with
        | stable h =>
            have hsize := h.eight_le_size
            rw [growRatio] at hmax ⊢
            omega
      · exact h.kept
  | rehashing old new cursor => exact h.kept

/-! ### The entry of a key -/

/-- **`lookup` in both generations is `find?` among all entries.** -/
theorem lookup_eq (h : t.WellFormed) (hash : UInt64) (key : κ) :
    t.lookup hash key = .ok (t.entries.find? (Entry.answers K hash key)) := by
  cases h with
  | empty => rfl
  | stable h => simp [lookup, h.find?_eq]
  | rehashing hold hnew _ _ _ =>
      simp only [lookup, hold.find?_eq, hnew.find?_eq, Checked.ok_bind, entries_rehashing,
        List.find?_append]
      split
      · rename_i e he
        rw [he, Option.some_or]
      · rename_i he
        rw [he, Option.none_or]

/-- `insert` puts one entry more into the table. -/
theorem insert_ok (h : t.WellFormed) {e : Entry κ ν} (he : e.hash = K.hash e.key) :
    ∃ t', t.insert e = .ok t' ∧ t'.WellFormed ∧ t'.entries.Perm (e :: t.entries) := by
  cases h with
  | empty =>
      have hfresh : (Generation.ofSize initialSize : Generation κ ν).WellFormed K :=
        .ofSize (k := 3) rfl (by decide)
      obtain ⟨live, hpush, hwf, -, hperm⟩ := hfresh.push_ok he
      exact ⟨_, by rw [insert, hpush]; rfl, .stable hwf, by simpa using hperm⟩
  | stable h =>
      obtain ⟨live, hpush, hwf, -, hperm⟩ := h.push_ok he
      exact ⟨_, by rw [insert, hpush]; rfl, .stable hwf, by simpa using hperm⟩
  | rehashing hold hnew hsize hcursor hdrained =>
      obtain ⟨new, hpush, hwf, hnsize, hperm⟩ := hnew.push_ok he
      refine ⟨_, by rw [insert, hpush]; rfl, ?_, ?_⟩
      · exact .rehashing hold hwf (by omega) hcursor hdrained
      · simp only [entries_rehashing]
        exact (hperm.append_left _).trans List.perm_middle

/-- `reassign` gives another value to one entry that `answers` for the key, unless none does. -/
theorem reassign_ok (h : t.WellFormed) (hash : UInt64) (key : κ) (val : ν) :
    (∃ t', t.reassign hash key val = .ok (true, t') ∧ t'.WellFormed ∧
        Entry.Replaced (Entry.answers K hash key) val t.entries t'.entries) ∨
      (t.reassign hash key val = .ok (false, t) ∧
        ∀ e ∈ t.entries, Entry.answers K hash key e = false) := by
  cases h with
  | empty => exact .inr ⟨rfl, by simp⟩
  | stable h =>
      rcases h.reassign_ok hash key val with ⟨live, hr, hwf, -, hrep, -⟩ | ⟨hr, hnone⟩
      · exact .inl ⟨_, by rw [reassign, hr]; rfl, .stable hwf, by simpa using hrep⟩
      · exact .inr ⟨by rw [reassign, hr]; rfl, by simpa using hnone⟩
  | @rehashing old new cursor hold hnew hsize hcursor hdrained =>
      rcases hold.reassign_ok hash key val with ⟨old', hr, hwf, hosize, hrep, hnil⟩ | ⟨hr, hnone⟩
      · refine .inl ⟨_, by rw [reassign, hr]; rfl, ?_, ?_⟩
        · exact .rehashing hwf hnew (by omega) (by omega) fun j hj => hnil j (hdrained j hj)
        · simpa using hrep.frame [] new.entries
      · rcases hnew.reassign_ok hash key val with ⟨new', hr', hwf, hnsize, hrep, -⟩ | ⟨hr', hnone'⟩
        · refine .inl ⟨_, by rw [reassign, hr, Checked.ok_bind, hr']; rfl, ?_, ?_⟩
          · exact .rehashing hold hwf (by omega) hcursor hdrained
          · simpa using hrep.frame old.entries []
        · refine .inr ⟨by rw [reassign, hr, Checked.ok_bind, hr']; rfl, fun e he => ?_⟩
          rcases List.mem_append.1 (by simpa using he) with he | he
          · exact hnone e he
          · exact hnone' e he

/-- `remove` takes one entry that `answers` for the key, unless none does. -/
theorem remove_ok (h : t.WellFormed) (hash : UInt64) (key : κ) :
    (∃ t', t.remove hash key = .ok (true, t') ∧ t'.WellFormed ∧
        Entry.Removed (Entry.answers K hash key) t.entries t'.entries) ∨
      (t.remove hash key = .ok (false, t) ∧
        ∀ e ∈ t.entries, Entry.answers K hash key e = false) := by
  cases h with
  | empty => exact .inr ⟨rfl, by simp⟩
  | stable h =>
      rcases h.remove_ok hash key with ⟨live, hr, hwf, -, hrem, -⟩ | ⟨hr, hnone⟩
      · exact .inl ⟨_, by rw [remove, hr]; rfl, .stable hwf, by simpa using hrem⟩
      · exact .inr ⟨by rw [remove, hr]; rfl, by simpa using hnone⟩
  | @rehashing old new cursor hold hnew hsize hcursor hdrained =>
      rcases hold.remove_ok hash key with ⟨old', hr, hwf, hosize, hrem, hnil⟩ | ⟨hr, hnone⟩
      · refine .inl ⟨_, by rw [remove, hr]; rfl, ?_, ?_⟩
        · exact .rehashing hwf hnew (by omega) (by omega) fun j hj => hnil j (hdrained j hj)
        · simpa using hrem.frame [] new.entries
      · rcases hnew.remove_ok hash key with ⟨new', hr', hwf, hnsize, hrem, -⟩ | ⟨hr', hnone'⟩
        · refine .inl ⟨_, by rw [remove, hr, Checked.ok_bind, hr']; rfl, ?_, ?_⟩
          · exact .rehashing hold hwf (by omega) hcursor hdrained
          · simpa using hrem.frame old.entries []
        · refine .inr ⟨by rw [remove, hr, Checked.ok_bind, hr']; rfl, fun e he => ?_⟩
          rcases List.mem_append.1 (by simpa using he) with he | he
          · exact hnone e he
          · exact hnone' e he

end WellFormed

end Table

end KeyValueServer
