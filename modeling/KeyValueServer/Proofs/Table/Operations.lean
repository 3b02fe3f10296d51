import KeyValueServer.Proofs.Table.Invariant
import KeyValueServer.Table.Sample

/-!
# What the operations of a table do to its entries

Each public operation begins with `Table.rehashStep`, may grow the table, and only then looks for
its key. On a well-formed table none of that is seen in the entries: an operation either keeps them
all (`Table.Kept`), or adds, changes or takes one entry of its own key.

The one operation that can fault is `Table.expand`, when more chains are asked for than memory can
hold.

## Main results

* `WellFormed.add_ok`, `set_ok`, `find_ok`, `delete_ok`: the mappings.
* `WellFormed.expand_ok`, `sample_ok`: what keeps all entries whatever it answers.
-/

namespace KeyValueServer

/-- `isFor K key` holds of the entries that `answers` for `key`, the hash being that of the key. -/
def Entry.isFor {κ ν : Type} (K : Keying κ) (key : κ) : Entry κ ν → Bool :=
  Entry.answers K (K.hash key) key

namespace Table

variable {κ ν : Type} {K : Keying κ} {t : Table K ν}

/-- Whether no entry is a hit does not depend on the order of `Kept` entries. -/
theorem Kept.forall_iff {t' : Table K ν} (h : Kept t t') {hit : Entry κ ν → Bool} :
    (∀ e ∈ t'.entries, hit e = false) ↔ ∀ e ∈ t.entries, hit e = false :=
  forall_congr' fun _ => by rw [h.perm.mem_iff]

namespace WellFormed

/-! ### Mappings -/

/-- `Table.add` puts one entry into the table when no entry `isFor` the key, and keeps all entries
when one is. -/
theorem add_ok (h : t.WellFormed) (key : κ) (val : ν) :
    (∃ t', t.add key val = .ok (.error .keyExists, t') ∧ Kept t t' ∧
        ∃ e ∈ t.entries, e.isFor K key = true) ∨
      (∃ t', t.add key val = .ok (.ok (), t') ∧ t'.WellFormed ∧
        t'.entries.Perm (⟨K.hash key, key, val⟩ :: t.entries) ∧
        ∀ e ∈ t.entries, e.isFor K key = false) := by
  obtain ⟨t₁, hstep, hkept₁⟩ := h.rehashStep_ok
  have hkept := hkept₁.trans hkept₁.wellFormed.growIfCrowded_kept
  have hlookup := hkept.wellFormed.lookup_eq (K.hash key) key
  cases hfound : t₁.growIfCrowded.entries.find? (Entry.answers K (K.hash key) key) with
  | some e =>
      refine .inl ⟨_, ?_, hkept, e, ?_, List.find?_some hfound⟩
      · simp only [add, hstep, hlookup, hfound, Checked.ok_bind]
      · exact hkept.perm.mem_iff.1 (List.mem_of_find?_eq_some hfound)
  | none =>
      obtain ⟨t₂, hinsert, hwf, hperm⟩ :=
        hkept.wellFormed.insert_ok (e := ⟨K.hash key, key, val⟩) rfl
      refine .inr ⟨t₂, ?_, hwf, hperm.trans (hkept.perm.cons _), ?_⟩
      · simp only [add, hstep, hlookup, hfound, hinsert, Checked.ok_bind]
      · exact hkept.forall_iff.1 (by simpa [Entry.isFor] using hfound)

/-- `Table.set` gives another value to one entry that `isFor` the key, or puts a new one into the
table when none is. -/
theorem set_ok (h : t.WellFormed) (key : κ) (val : ν) :
    ∃ t', t.set key val = .ok t' ∧ t'.WellFormed ∧
      (Entry.Replaced (Entry.isFor K key) val t.entries t'.entries ∨
        t'.entries.Perm (⟨K.hash key, key, val⟩ :: t.entries) ∧
          ∀ e ∈ t.entries, e.isFor K key = false) := by
  obtain ⟨t₁, hstep, hkept₁⟩ := h.rehashStep_ok
  have hkept := hkept₁.trans hkept₁.wellFormed.growIfCrowded_kept
  rcases hkept.wellFormed.reassign_ok (K.hash key) key val with ⟨t₂, hr, hwf, hrep⟩ | ⟨hr, hnone⟩
  · obtain ⟨e, rest, he, hb, ha⟩ := hrep
    refine ⟨t₂, ?_, hwf, .inl ⟨e, rest, he, hkept.perm.symm.trans hb, ha⟩⟩
    simp only [set, hstep, hr, Checked.ok_bind, if_true]
  · obtain ⟨t₂, hinsert, hwf, hperm⟩ :=
      hkept.wellFormed.insert_ok (e := ⟨K.hash key, key, val⟩) rfl
    refine ⟨t₂, ?_, hwf, .inr ⟨hperm.trans (hkept.perm.cons _), hkept.forall_iff.1 hnone⟩⟩
    simp only [set, hstep, hr, hinsert, Checked.ok_bind, Bool.false_eq_true, if_false]

/-- `Table.find` gives an entry that `isFor` the key, unless there is none, and keeps all
entries. -/
theorem find_ok (h : t.WellFormed) (key : κ) :
    ∃ found t', t.find key = .ok (found, t') ∧ Kept t t' ∧
      (∀ e, found = some e → e ∈ t.entries ∧ e.isFor K key = true) ∧
      (found = none → ∀ e ∈ t.entries, e.isFor K key = false) := by
  obtain ⟨t₁, hstep, hkept⟩ := h.rehashStep_ok
  have hlookup := hkept.wellFormed.lookup_eq (K.hash key) key
  refine ⟨t₁.entries.find? (Entry.isFor K key), t₁, ?_, hkept, fun e he => ?_, fun hnone => ?_⟩
  · simp only [find, hstep, hlookup, Checked.ok_bind, Entry.isFor]
  · exact ⟨hkept.perm.mem_iff.1 (List.mem_of_find?_eq_some he), List.find?_some he⟩
  · exact hkept.forall_iff.1 (by simpa [Entry.isFor] using hnone)

/-- `Table.delete` takes one entry that `isFor` the key; when none is, it keeps all entries. -/
theorem delete_ok (h : t.WellFormed) (key : κ) :
    (∃ t', t.delete key = .ok (.ok (), t') ∧ t'.WellFormed ∧
        Entry.Removed (Entry.isFor K key) t.entries t'.entries) ∨
      (∃ t', t.delete key = .ok (.error .keyNotFound, t') ∧ Kept t t' ∧
        ∀ e ∈ t.entries, e.isFor K key = false) := by
  by_cases hempty : t = .empty
  · subst hempty
    exact .inr ⟨.empty, rfl, h.kept, by simp⟩
  · obtain ⟨t₁, hstep, hkept⟩ := h.rehashStep_ok
    have hdelete : t.delete key = t₁.remove (K.hash key) key >>= fun r =>
        .ok (if r.1 then .ok () else .error .keyNotFound, r.2) := by
      cases t with
      | empty => exact absurd rfl hempty
      | stable live => simp only [delete, hstep, Checked.ok_bind]
      | rehashing old new cursor => simp only [delete, hstep, Checked.ok_bind]
    rcases hkept.wellFormed.remove_ok (K.hash key) key with ⟨t₂, hr, hwf, hrem⟩ | ⟨hr, hnone⟩
    · obtain ⟨e, he, hp⟩ := hrem
      refine .inl ⟨t₂, ?_, hwf, e, he, hkept.perm.symm.trans hp⟩
      rw [hdelete, hr, Checked.ok_bind]
      rfl
    · refine .inr ⟨t₁, ?_, hkept, hkept.forall_iff.1 hnone⟩
      rw [hdelete, hr, Checked.ok_bind]
      rfl

/-! ### Growth on request, and samples -/

/-- `growWithin` keeps all entries, or faults for want of memory. -/
theorem growWithin_ok (h : t.WellFormed) (hstable : t.isRehashing = false) (target : Nat)
    (hlarge : ∀ live, t = Table.stable live → live.size < nextPower target) :
    (∃ t', t.growWithin (nextPower target) = .ok t' ∧ Kept t t') ∨
      (t.growWithin (nextPower target) = .error .capacity ∧
        memoryLimit ≤ nextPower target * chainBytes) := by
  rw [growWithin]
  split
  · exact .inl ⟨_, rfl, h.grow_kept hstable target hlarge⟩
  · exact .inr ⟨rfl, by omega⟩

/-- `Table.expand` to a power of two that is a 64-bit word is granted or refused without a change of
the entries, unless it is granted more chains than memory can hold. -/
theorem expand_ok (h : t.WellFormed) {target : Nat} (hword : nextPower target < wordLimit) :
    (∃ answer t', t.expand target = .ok (answer, t') ∧ Kept t t' ∧
        (answer = .ok () ∨ answer = .error .expandRefused)) ∨
      (t.expand target = .error .capacity ∧ memoryLimit ≤ nextPower target * chainBytes) := by
  have hfits : ¬ wordLimit ≤ nextPower target := by omega
  cases t with
  | empty =>
      rcases h.growWithin_ok rfl target (by simp) with ⟨t', hgrow, hkept⟩ | ⟨hgrow, hlimit⟩
      · refine .inl ⟨.ok (), t', ?_, hkept, .inl rfl⟩
        simp only [expand, if_neg hfits, hgrow, Except.map]
      · exact .inr ⟨by simp only [expand, if_neg hfits, hgrow, Except.map], hlimit⟩
  | stable live =>
      by_cases hlarge : nextPower target ≤ live.size
      · refine .inl ⟨.error .expandRefused, .stable live, ?_, h.kept, .inr rfl⟩
        simp only [expand, if_neg hfits, if_pos hlarge]
      · have hlt : ∀ live', (Table.stable live : Table K ν) = Table.stable live' →
            live'.size < nextPower target := by
          intro live' hlive
          obtain rfl := Table.stable.inj hlive
          omega
        rcases h.growWithin_ok rfl target hlt with ⟨t', hgrow, hkept⟩ | ⟨hgrow, hlimit⟩
        · refine .inl ⟨.ok (), t', ?_, hkept, .inl rfl⟩
          simp only [expand, if_neg hfits, if_neg hlarge, hgrow, Except.map]
        · refine .inr ⟨?_, hlimit⟩
          simp only [expand, if_neg hfits, if_neg hlarge, hgrow, Except.map]
  | rehashing old new cursor =>
      refine .inl ⟨.error .expandRefused, .rehashing old new cursor, ?_, h.kept, .inr rfl⟩
      simp only [expand, if_neg hfits]

/-- `probeChain` meets a chain of the generation, whatever the draws. -/
theorem probeChain_ok {g : Generation κ ν} (h : g.WellFormed K) (draws : Draws)
    (turn retries : Nat) :
    ∃ chain, g.probeChain draws turn retries = .ok chain ∧ ∀ e ∈ chain, e ∈ g.entries := by
  have hprobe : ∀ turn, ∃ chain, g.chainAt (draws.probe turn % g.size) = .ok chain ∧
      ∀ e ∈ chain, e ∈ g.entries := by
    intro turn
    have hpos : 0 < g.size := by
      have hsize := h.eight_le_size
      omega
    obtain ⟨chain, hchain⟩ := h.exists_chain (Nat.mod_lt (draws.probe turn) hpos)
    refine ⟨chain, by rw [Generation.chainAt, hchain, Checked.orFault], fun e he => ?_⟩
    exact Generation.mem_entries_iff.2 ⟨_, chain, hchain, he⟩
  induction retries generalizing turn with
  | zero => exact hprobe turn
  | succ retries ih =>
      obtain ⟨chain, hchain, hmem⟩ := hprobe turn
      rw [Generation.probeChain, hchain, Checked.ok_bind]
      split
      · exact ih (turn + 1)
      · exact ⟨chain, rfl, hmem⟩

/-- `sampled?` is a generation that is well formed and part of the table, and it has entries if the
table has. -/
theorem sampled_ok (h : t.WellFormed) {g : Generation κ ν} (hg : t.sampled? = some g) :
    g.WellFormed K ∧ (∀ e ∈ g.entries, e ∈ t.entries) ∧ (g.used = 0 → t.entries = []) := by
  cases h with
  | empty => cases hg
  | @stable live hlive =>
      obtain rfl := Option.some.inj hg
      refine ⟨hlive, by simp, fun hused => ?_⟩
      rw [entries_stable, ← List.length_eq_zero_iff, ← hlive.used_eq, hused]
  | @rehashing old new cursor hold hnew _ _ _ =>
      have hcount : (Table.rehashing old new cursor : Table K ν).entries.length =
          old.used + new.used := by
        rw [entries_rehashing, List.length_append, hold.used_eq, hnew.used_eq]
      simp only [sampled?] at hg
      split at hg
      · obtain rfl := Option.some.inj hg
        refine ⟨hnew, fun e he => by simp [he], fun hused => ?_⟩
        omega
      · obtain rfl := Option.some.inj hg
        refine ⟨hold, fun e he => by simp [he], fun hused => ?_⟩
        rw [← List.length_eq_zero_iff]
        omega

/-- `Table.sample` is an entry of the table, or nothing, and keeps all entries. -/
theorem sample_ok (h : t.WellFormed) (draws : Draws) :
    ∃ found t', t.sample draws = .ok (found, t') ∧ Kept t t' ∧
      ∀ e, found = some e → e ∈ t.entries := by
  obtain ⟨t₁, hstep, hkept⟩ := h.rehashStep_ok
  cases hg : t₁.sampled? with
  | none => exact ⟨none, t₁, by simp only [sample, hstep, Checked.ok_bind, hg], hkept, by simp⟩
  | some g =>
      obtain ⟨hwf, hmem, -⟩ := hkept.wellFormed.sampled_ok hg
      by_cases hused : g.used = 0
      · refine ⟨none, t₁, ?_, hkept, by simp⟩
        simp only [sample, hstep, Checked.ok_bind, hg, if_pos hused]
      · obtain ⟨chain, hchain, hin⟩ := probeChain_ok hwf draws 0 sampleRetries
        refine ⟨chain[draws.pick % chain.length]?, t₁, ?_, hkept, fun e he => ?_⟩
        · simp only [sample, hstep, Checked.ok_bind, hg, if_neg hused, hchain]
        · exact hkept.perm.mem_iff.1 (hmem e (hin e (List.mem_of_getElem? he)))

end WellFormed

end Table

end KeyValueServer
