import KeyValueServer.Table.Generation
import KeyValueServer.Proofs.Checked

/-!
# Well-formed generations

A generation is `Generation.WellFormed` when its size is a power of two, each entry stands in the
chain that its hash selects, and the count is that of the entries. On a well-formed generation no
operation faults, and the chain of a hash can stand for the whole: an entry that answers for a key
is in no other chain. Nothing is assumed here of the hash or of the equality.

The order of entries is an accident of the chains, so the operations are described up to a
permutation of `Generation.entries` (`Entry.Replaced`, `Entry.Removed`).

## Main results

* `WellFormed.find?_eq`: a search of one chain is a search of all entries.
* `WellFormed.push_ok`, `WellFormed.reassign_ok`, `WellFormed.remove_ok`: each operation succeeds
  and changes one entry.
* `WellFormed.migrate_ok`: a moved chain is neither lost nor doubled.
-/

namespace KeyValueServer

/-! ### Changes of one entry -/

namespace Entry

variable {κ ν : Type}

/-- `Replaced hit val before after`: one entry that is a hit has the value `val`, and the rest is
the same up to order. -/
def Replaced (hit : Entry κ ν → Bool) (val : ν) (before after : List (Entry κ ν)) : Prop :=
  ∃ e rest, hit e = true ∧ before.Perm (e :: rest) ∧ after.Perm ({ e with val := val } :: rest)

/-- `Removed hit before after`: one entry that is a hit is gone, and the rest is the same up to
order. -/
def Removed (hit : Entry κ ν → Bool) (before after : List (Entry κ ν)) : Prop :=
  ∃ e, hit e = true ∧ before.Perm (e :: after)

/-- `Replaced` inside a part is `Replaced` in the whole. -/
theorem Replaced.frame {hit : Entry κ ν → Bool} {val : ν} {before after : List (Entry κ ν)}
    (h : Replaced hit val before after) (front back : List (Entry κ ν)) :
    Replaced hit val (front ++ before ++ back) (front ++ after ++ back) := by
  obtain ⟨e, rest, he, hb, ha⟩ := h
  refine ⟨e, front ++ rest ++ back, he, ?_, ?_⟩
  · exact ((hb.append_left front).append_right back).trans (by simp)
  · exact ((ha.append_left front).append_right back).trans (by simp)

/-- `Removed` inside a part is `Removed` in the whole. -/
theorem Removed.frame {hit : Entry κ ν → Bool} {before after : List (Entry κ ν)}
    (h : Removed hit before after) (front back : List (Entry κ ν)) :
    Removed hit (front ++ before ++ back) (front ++ after ++ back) := by
  obtain ⟨e, he, hb⟩ := h
  exact ⟨e, he, ((hb.append_left front).append_right back).trans (by simp)⟩

/-- `Removed` takes one entry. -/
theorem Removed.length {hit : Entry κ ν → Bool} {before after : List (Entry κ ν)}
    (h : Removed hit before after) : before.length = after.length + 1 := by
  obtain ⟨e, -, hp⟩ := h
  simpa using hp.length_eq

end Entry

namespace Generation

variable {κ ν : Type} {K : Keying κ}

/-- `reassignFirst?` changes one entry of a chain, or finds none to change. -/
theorem reassignFirst?_spec (hit : Entry κ ν → Bool) (val : ν) (chain : List (Entry κ ν)) :
    (∃ chain', reassignFirst? hit val chain = some chain' ∧
        Entry.Replaced hit val chain chain' ∧ chain'.length = chain.length) ∨
      (reassignFirst? hit val chain = none ∧ ∀ e ∈ chain, hit e = false) := by
  induction chain with
  | nil => exact .inr ⟨rfl, by simp⟩
  | cons e rest ih =>
      cases he : hit e with
      | true =>
          refine .inl ⟨{ e with val := val } :: rest, by simp [reassignFirst?, he], ?_, by simp⟩
          exact ⟨e, rest, he, .refl _, .refl _⟩
      | false =>
          rcases ih with ⟨rest', hr, hrep, hlen⟩ | ⟨hr, hnone⟩
          · refine .inl ⟨e :: rest', by simp [reassignFirst?, he, hr], ?_, by simp [hlen]⟩
            simpa using hrep.frame [e] []
          · refine .inr ⟨by simp [reassignFirst?, he, hr], ?_⟩
            simpa [he] using hnone

/-- `removeFirst?` takes one entry of a chain, or finds none to take. -/
theorem removeFirst?_spec (hit : Entry κ ν → Bool) (chain : List (Entry κ ν)) :
    (∃ chain', removeFirst? hit chain = some chain' ∧ Entry.Removed hit chain chain') ∨
      (removeFirst? hit chain = none ∧ ∀ e ∈ chain, hit e = false) := by
  induction chain with
  | nil => exact .inr ⟨rfl, by simp⟩
  | cons e rest ih =>
      cases he : hit e with
      | true => exact .inl ⟨rest, by simp [removeFirst?, he], e, he, .refl _⟩
      | false =>
          rcases ih with ⟨rest', hr, hrem⟩ | ⟨hr, hnone⟩
          · refine .inl ⟨e :: rest', by simp [removeFirst?, he, hr], ?_⟩
            simpa using hrem.frame [e] []
          · refine .inr ⟨by simp [removeFirst?, he, hr], ?_⟩
            simpa [he] using hnone

/-! ### Well-formedness -/

/-- `g.WellFormed K`: what holds of every generation of a table. -/
structure WellFormed (K : Keying κ) (g : Generation κ ν) : Prop where
  /-- The size is a power of two. -/
  size_pow : ∃ k, g.size = 1 <<< k
  /-- There are at least eight chains. -/
  eight_le_size : 8 ≤ g.size
  /-- The mask selects the chains. -/
  mask_eq : g.mask = g.size - 1
  /-- There are as many chains as the size says. -/
  size_chains : g.chains.size = g.size
  /-- Each entry stands in the chain of its hash. -/
  placed : ∀ i chain, g.chains[i]? = some chain → ∀ e ∈ chain, g.indexOf e.hash = i
  /-- The stored hash of an entry is that of its key. -/
  hashed : ∀ e ∈ g.entries, e.hash = K.hash e.key
  /-- The count is that of the entries. -/
  used_eq : g.used = g.entries.length

/-- `entries` are those of the chains. -/
theorem mem_entries_iff {g : Generation κ ν} {e : Entry κ ν} :
    e ∈ g.entries ↔ ∃ (i : Nat) (chain : _), g.chains[i]? = some chain ∧ e ∈ chain := by
  rw [entries, List.mem_flatten]
  constructor
  · rintro ⟨chain, hchain, he⟩
    obtain ⟨i, hi, rfl⟩ := List.mem_iff_getElem.1 hchain
    exact ⟨i, _, by simp, he⟩
  · rintro ⟨i, chain, hi, he⟩
    obtain ⟨hlt, rfl⟩ := Array.getElem?_eq_some_iff.1 hi
    exact ⟨_, by simp, he⟩

/-- `entries` are cut in two by a chain, and another chain in its place changes nothing else. -/
theorem entries_split {g : Generation κ ν} {i : Nat} {chain : List (Entry κ ν)}
    (h : g.chains[i]? = some chain) :
    ∃ front back, g.entries = front ++ chain ++ back ∧
      (∀ chain' used, (g.withChain i chain' used).entries = front ++ chain' ++ back) ∧
      ∀ e, e ∈ front ∨ e ∈ back → ∃ j other, j ≠ i ∧ g.chains[j]? = some other ∧ e ∈ other := by
  obtain ⟨hi, hget⟩ := Array.getElem?_eq_some_iff.1 h
  have hlen : i < g.chains.toList.length := by simpa using hi
  refine ⟨(g.chains.toList.take i).flatten, (g.chains.toList.drop (i + 1)).flatten, ?_, ?_, ?_⟩
  · have hdrop : g.chains.toList.drop i = chain :: g.chains.toList.drop (i + 1) := by
      rw [List.drop_eq_getElem_cons hlen, Array.getElem_toList, hget]
    calc g.entries = (g.chains.toList.take i ++ g.chains.toList.drop i).flatten := by
          rw [List.take_append_drop, entries]
      _ = _ := by rw [hdrop]; simp
  · intro chain' used
    simp only [entries, withChain, Array.toList_setIfInBounds]
    rw [List.set_eq_take_append_cons_drop, if_pos hlen]
    simp
  · rintro e (he | he)
    · obtain ⟨other, hother, he⟩ := List.mem_flatten.1 he
      obtain ⟨j, hj, rfl⟩ := List.mem_take_iff_getElem.1 hother
      refine ⟨j, _, ?_, ?_, he⟩
      · omega
      · simp
    · obtain ⟨other, hother, he⟩ := List.mem_flatten.1 he
      obtain ⟨j, hj, rfl⟩ := List.mem_drop_iff_getElem.1 hother
      refine ⟨i + 1 + j, _, ?_, ?_, he⟩
      · omega
      · simp

namespace WellFormed

variable {g : Generation κ ν}

/-- `Generation.ofSize` a power of two is well formed. -/
theorem ofSize {size k : Nat} (hpow : size = 1 <<< k) (h : 8 ≤ size) :
    (Generation.ofSize size : Generation κ ν).WellFormed K where
  size_pow := ⟨k, hpow⟩
  eight_le_size := h
  mask_eq := rfl
  size_chains := by simp [Generation.ofSize]
  placed := by
    intro i chain hi e he
    obtain ⟨-, rfl⟩ : i < size ∧ [] = chain := by
      simpa [Generation.ofSize, Array.getElem?_replicate] using hi
    cases he
  hashed := by simp [Generation.ofSize, entries]
  used_eq := by simp [Generation.ofSize, entries]

/-- `indexOf` of any hash is the index of a chain. -/
theorem indexOf_lt (h : g.WellFormed K) (hash : UInt64) : g.indexOf hash < g.size := by
  have hle : hash.toNat &&& g.mask ≤ g.mask := Nat.and_le_right
  have hmask := h.mask_eq
  have hsize := h.eight_le_size
  rw [indexOf]
  omega

/-- There is a chain for each index below the size. -/
theorem exists_chain (h : g.WellFormed K) {i : Nat} (hi : i < g.size) :
    ∃ chain, g.chains[i]? = some chain :=
  ⟨_, Array.getElem?_eq_getElem (by rw [h.size_chains]; exact hi)⟩

/-- There is a chain for each hash. -/
theorem exists_chain_of_hash (h : g.WellFormed K) (hash : UInt64) :
    ∃ chain, g.chains[g.indexOf hash]? = some chain :=
  h.exists_chain (h.indexOf_lt hash)

/-- **Another chain at an index keeps a generation well formed** when its entries belong there
and the count follows. -/
theorem withChain (h : g.WellFormed K) {i used : Nat} {chain chain' : List (Entry κ ν)}
    (hi : g.chains[i]? = some chain)
    (hplaced : ∀ e ∈ chain', g.indexOf e.hash = i ∧ e.hash = K.hash e.key)
    (hused : used + chain.length = g.used + chain'.length) :
    (g.withChain i chain' used).WellFormed K := by
  obtain ⟨front, back, hentries, hset, -⟩ := entries_split hi
  refine ⟨h.size_pow, h.eight_le_size, h.mask_eq, ?_, ?_, ?_, ?_⟩
  · simpa [Generation.withChain] using h.size_chains
  · intro j other hj e he
    simp only [Generation.withChain, Array.getElem?_setIfInBounds] at hj
    split at hj
    · rename_i hij
      subst hij
      split at hj
      · obtain rfl := Option.some.inj hj
        exact (hplaced e he).1
      · cases hj
    · exact h.placed j other hj e he
  · intro e he
    rw [hset] at he
    have hold : e ∈ front ∨ e ∈ back → e ∈ g.entries := by
      rw [hentries]
      rintro (he | he) <;> simp [he]
    rcases List.mem_append.1 he with he | he
    · rcases List.mem_append.1 he with he | he
      · exact h.hashed e (hold (.inl he))
      · exact (hplaced e he).2
    · exact h.hashed e (hold (.inr he))
  · have hcount := h.used_eq
    rw [hset]
    rw [hentries] at hcount
    simp only [List.length_append] at hcount ⊢
    change used = _
    omega

/-! ### Searching -/

/-- What a search of the chain of a hash does not find is in no other chain either. -/
theorem answers_eq_false (h : g.WellFormed K) {hash : UInt64} {key : κ} {i : Nat}
    {other : List (Entry κ ν)} (hi : g.chains[i]? = some other) (hne : i ≠ g.indexOf hash)
    {e : Entry κ ν} (he : e ∈ other) : Entry.answers K hash key e = false := by
  cases hans : Entry.answers K hash key e with
  | false => rfl
  | true =>
      simp only [Entry.answers, Bool.and_eq_true, beq_iff_eq] at hans
      exact absurd (by rw [← h.placed i other hi e he, hans.1]) hne

/-- When the chain of a hash has no entry that answers for a key, the generation has none. -/
theorem answers_eq_false_of_chain (h : g.WellFormed K) {hash : UInt64} {key : κ}
    {chain : List (Entry κ ν)} (hchain : g.chains[g.indexOf hash]? = some chain)
    (hnone : ∀ e ∈ chain, Entry.answers K hash key e = false) :
    ∀ e ∈ g.entries, Entry.answers K hash key e = false := by
  intro e he
  obtain ⟨i, other, hi, hmem⟩ := mem_entries_iff.1 he
  by_cases hne : i = g.indexOf hash
  · subst hne
    rw [hchain] at hi
    obtain rfl := Option.some.inj hi
    exact hnone e hmem
  · exact h.answers_eq_false hi hne hmem

/-- **`find?` in one chain is `find?` among all entries.** -/
theorem find?_eq (h : g.WellFormed K) (hash : UInt64) (key : κ) :
    g.find? K hash key = .ok (g.entries.find? (Entry.answers K hash key)) := by
  obtain ⟨chain, hchain⟩ := h.exists_chain_of_hash hash
  obtain ⟨front, back, hentries, -, hout⟩ := entries_split hchain
  have hother : ∀ e, e ∈ front ∨ e ∈ back → ¬ Entry.answers K hash key e = true := by
    intro e he
    obtain ⟨j, other, hj, hother, hmem⟩ := hout e he
    simp [h.answers_eq_false hother hj hmem]
  have hf : front.find? (Entry.answers K hash key) = none :=
    List.find?_eq_none.2 fun e he => hother e (.inl he)
  have hb : back.find? (Entry.answers K hash key) = none :=
    List.find?_eq_none.2 fun e he => hother e (.inr he)
  rw [Generation.find?, hchain, hentries]
  simp [List.find?_append, hf, hb]

/-! ### Changing one chain -/

/-- `push` puts one entry more into the generation. -/
theorem push_ok (h : g.WellFormed K) {e : Entry κ ν} (he : e.hash = K.hash e.key) :
    ∃ g', g.push e = .ok g' ∧ g'.WellFormed K ∧ g'.size = g.size ∧
      g'.entries.Perm (e :: g.entries) := by
  obtain ⟨chain, hchain⟩ := h.exists_chain_of_hash e.hash
  obtain ⟨front, back, hentries, hset, -⟩ := entries_split hchain
  refine ⟨g.withChain (g.indexOf e.hash) (e :: chain) (g.used + 1), ?_, ?_, rfl, ?_⟩
  · rw [Generation.push, hchain]
  · refine h.withChain hchain ?_ (by simp only [List.length_cons]; omega)
    have hin : ∀ e' ∈ chain, e' ∈ g.entries := by
      intro e' he'
      rw [hentries]
      simp [he']
    intro e' he'
    rcases List.mem_cons.1 he' with rfl | he'
    · exact ⟨rfl, he⟩
    · exact ⟨h.placed _ _ hchain e' he', h.hashed e' (hin e' he')⟩
  · rw [hset, hentries]
    simp

/-- A chain without entries stays so while entries of other chains are changed. -/
theorem getElem?_withChain_of_nil {i j used : Nat} {e : Entry κ ν} {chain chain' : List (Entry κ ν)}
    (hi : g.chains[i]? = some chain) (hmem : e ∈ chain) (hj : g.chains[j]? = some []) :
    (g.withChain i chain' used).chains[j]? = some [] := by
  have hne : i ≠ j := by
    rintro rfl
    rw [hi] at hj
    obtain rfl := Option.some.inj hj
    cases hmem
  simp only [Generation.withChain, Array.getElem?_setIfInBounds, if_neg hne]
  exact hj

/-- `reassign` gives another value to one entry that `answers` for the key, unless none does. -/
theorem reassign_ok (h : g.WellFormed K) (hash : UInt64) (key : κ) (val : ν) :
    (∃ g', g.reassign K hash key val = .ok (true, g') ∧ g'.WellFormed K ∧ g'.size = g.size ∧
        Entry.Replaced (Entry.answers K hash key) val g.entries g'.entries ∧
        ∀ j : Nat, g.chains[j]? = some [] → g'.chains[j]? = some []) ∨
      (g.reassign K hash key val = .ok (false, g) ∧
        ∀ e ∈ g.entries, Entry.answers K hash key e = false) := by
  obtain ⟨chain, hchain⟩ := h.exists_chain_of_hash hash
  obtain ⟨front, back, hentries, hset, -⟩ := entries_split hchain
  rcases reassignFirst?_spec (Entry.answers K hash key) val chain with
    ⟨chain', hr, hrep, hlen⟩ | ⟨hr, hnone⟩
  · refine .inl ⟨g.withChain (g.indexOf hash) chain' g.used, ?_, ?_, rfl, ?_, ?_⟩
    · rw [Generation.reassign, hchain]
      simp only [hr]
    · refine h.withChain hchain ?_ (by omega)
      obtain ⟨e, rest, he, hb, ha⟩ := hrep
      have hold : ∀ e' ∈ chain, g.indexOf e'.hash = g.indexOf hash ∧ e'.hash = K.hash e'.key := by
        intro e' he'
        exact ⟨h.placed _ _ hchain e' he', h.hashed e' (by rw [hentries]; simp [he'])⟩
      intro e' he'
      rcases List.mem_cons.1 (ha.mem_iff.1 he') with rfl | he'
      · exact hold e (hb.mem_iff.2 List.mem_cons_self)
      · exact hold e' (hb.mem_iff.2 (List.mem_cons_of_mem e he'))
    · rw [hset, hentries]
      exact hrep.frame front back
    · obtain ⟨e, rest, -, hb, -⟩ := hrep
      exact fun j => getElem?_withChain_of_nil hchain (hb.mem_iff.2 List.mem_cons_self)
  · refine .inr ⟨?_, ?_⟩
    · rw [Generation.reassign, hchain]
      simp only [hr]
    · exact h.answers_eq_false_of_chain hchain hnone

/-- `remove` takes one entry that `answers` for the key, unless none does. -/
theorem remove_ok (h : g.WellFormed K) (hash : UInt64) (key : κ) :
    (∃ g', g.remove K hash key = .ok (true, g') ∧ g'.WellFormed K ∧ g'.size = g.size ∧
        Entry.Removed (Entry.answers K hash key) g.entries g'.entries ∧
        ∀ j : Nat, g.chains[j]? = some [] → g'.chains[j]? = some []) ∨
      (g.remove K hash key = .ok (false, g) ∧
        ∀ e ∈ g.entries, Entry.answers K hash key e = false) := by
  obtain ⟨chain, hchain⟩ := h.exists_chain_of_hash hash
  obtain ⟨front, back, hentries, hset, -⟩ := entries_split hchain
  rcases removeFirst?_spec (Entry.answers K hash key) chain with ⟨chain', hr, hrem⟩ | ⟨hr, hnone⟩
  · have hlen := hrem.length
    have hused : 1 ≤ g.used := by
      rw [h.used_eq, hentries]
      simp only [List.length_append]
      omega
    refine .inl ⟨g.withChain (g.indexOf hash) chain' (g.used - 1), ?_, ?_, rfl, ?_, ?_⟩
    · rw [Generation.remove, hchain]
      simp only [hr, Checked.difference, if_pos hused, Checked.ok_bind]
    · refine h.withChain hchain ?_ (by omega)
      obtain ⟨e, -, hb⟩ := hrem
      intro e' he'
      have hmem : e' ∈ chain := hb.mem_iff.2 (List.mem_cons_of_mem e he')
      exact ⟨h.placed _ _ hchain e' hmem, h.hashed e' (by rw [hentries]; simp [hmem])⟩
    · rw [hset, hentries]
      exact hrem.frame front back
    · obtain ⟨e, -, hb⟩ := hrem
      exact fun j => getElem?_withChain_of_nil hchain (hb.mem_iff.2 List.mem_cons_self)
  · refine .inr ⟨?_, ?_⟩
    · rw [Generation.remove, hchain]
      simp only [hr]
    · exact h.answers_eq_false_of_chain hchain hnone

/-! ### Moving a chain -/

/-- `push` of the entries of a chain one by one puts all of them into the generation. -/
theorem foldlM_push_ok (h : g.WellFormed K) {chain : List (Entry κ ν)}
    (hchain : ∀ e ∈ chain, e.hash = K.hash e.key) :
    ∃ g', chain.foldlM push g = .ok g' ∧ g'.WellFormed K ∧ g'.size = g.size ∧
      g'.entries.Perm (chain ++ g.entries) := by
  induction chain generalizing g with
  | nil => exact ⟨g, rfl, h, rfl, .refl _⟩
  | cons e rest ih =>
      obtain ⟨g₁, h₁, hwf₁, hsize₁, hperm₁⟩ := h.push_ok (hchain e List.mem_cons_self)
      obtain ⟨g₂, h₂, hwf₂, hsize₂, hperm₂⟩ :=
        ih hwf₁ fun e' he' => hchain e' (List.mem_cons_of_mem e he')
      refine ⟨g₂, ?_, hwf₂, hsize₂.trans hsize₁, ?_⟩
      · rw [List.foldlM_cons, h₁, Checked.ok_bind, h₂]
      · exact hperm₂.trans ((hperm₁.append_left rest).trans (by simp))

/-- **`migrate` neither loses an entry nor doubles one**, and leaves the other chains of the source
as they are. -/
theorem migrate_ok (h : g.WellFormed K) {target : Generation κ ν} (ht : target.WellFormed K)
    {i : Nat} {chain : List (Entry κ ν)} (hi : g.chains[i]? = some chain) :
    ∃ g' target', g.migrate target i = .ok (g', target') ∧ g'.WellFormed K ∧
      target'.WellFormed K ∧ g'.size = g.size ∧ target'.size = target.size ∧
      g'.chains = g.chains.setIfInBounds i [] ∧
      (g'.entries ++ target'.entries).Perm (g.entries ++ target.entries) := by
  obtain ⟨front, back, hentries, hset, -⟩ := entries_split hi
  have hhashed : ∀ e ∈ chain, e.hash = K.hash e.key :=
    fun e he => h.hashed e (by rw [hentries]; simp [he])
  obtain ⟨target', hpush, hwf', hsize', hperm'⟩ := ht.foldlM_push_ok hhashed
  have hused : chain.length ≤ g.used := by
    rw [h.used_eq, hentries]
    simp only [List.length_append]
    omega
  refine ⟨g.withChain i [] (g.used - chain.length), target', ?_, ?_, hwf', rfl, hsize', rfl, ?_⟩
  · simp only [migrate, chainAt, hi, Checked.orFault, Checked.difference, if_pos hused,
      Checked.ok_bind, hpush]
  · exact h.withChain hi (by simp) (by simp only [List.length_nil]; omega)
  · rw [hset, hentries]
    refine (hperm'.append_left _).trans ?_
    simp only [List.append_nil, List.append_assoc]
    refine List.Perm.append_left front ?_
    rw [← List.append_assoc, ← List.append_assoc]
    exact List.perm_append_comm.append_right _

end WellFormed

/-! ### The next chain with entries -/

/-- `g.DrainedBelow index`: the chains before `index` hold no entry. -/
def DrainedBelow (g : Generation κ ν) (index : Nat) : Prop :=
  ∀ i < index, g.chains[i]? = some []

/-- `occupiedWithin?` finds the first chain with entries, from an index with only empty chains
before it. -/
theorem occupiedWithin?_spec {chains : Array (List (Entry κ ν))} {j : Nat} {e : Entry κ ν}
    {rest : List (Entry κ ν)} (hj : chains[j]? = some (e :: rest)) (steps index : Nat)
    (hsteps : index + steps = chains.size) (hd : ∀ i < index, chains[i]? = some []) :
    ∃ i e rest, occupiedWithin? chains index steps = some i ∧
      (∀ i' < i, chains[i']? = some []) ∧ chains[i]? = some (e :: rest) := by
  obtain ⟨hlt, -⟩ := Array.getElem?_eq_some_iff.1 hj
  induction steps generalizing index with
  | zero =>
      have hnil := hd j (by omega)
      rw [hj] at hnil
      cases hnil
  | succ steps ih =>
      rw [occupiedWithin?]
      have hget : chains[index]? = some chains[index] := Array.getElem?_eq_getElem (by omega)
      cases hchain : chains[index] with
      | nil =>
          rw [hchain] at hget
          rw [hget]
          refine ih (index + 1) (by omega) fun i hi => ?_
          rcases Nat.lt_succ_iff_lt_or_eq.1 hi with hi | rfl
          · exact hd i hi
          · exact hget
      | cons e' rest' =>
          rw [hchain] at hget
          exact ⟨index, e', rest', by rw [hget], hd, hget⟩

/-- `occupiedFrom` finds the first chain with entries of a generation that is `DrainedBelow` the
index and not empty. -/
theorem WellFormed.occupiedFrom_ok {g : Generation κ ν} (h : g.WellFormed K) {index : Nat}
    (hindex : index ≤ g.size) (hd : g.DrainedBelow index) (hused : g.used ≠ 0) :
    ∃ i e rest, g.occupiedFrom index = .ok i ∧ g.DrainedBelow i ∧
      g.chains[i]? = some (e :: rest) := by
  have hne : g.entries ≠ [] := by
    intro hnil
    rw [h.used_eq, hnil] at hused
    exact hused rfl
  obtain ⟨e, he⟩ := List.exists_mem_of_ne_nil _ hne
  obtain ⟨j, chain, hj, hmem⟩ := mem_entries_iff.1 he
  obtain ⟨e', rest, rfl⟩ := List.exists_cons_of_ne_nil (List.ne_nil_of_mem hmem)
  have hsize := h.size_chains
  obtain ⟨i, e, rest, hi, hd', hchain⟩ :=
    occupiedWithin?_spec hj (g.chains.size - index) index (by omega) hd
  exact ⟨i, e, rest, by rw [occupiedFrom, hi, Checked.orFault], hd', hchain⟩

end Generation

end KeyValueServer
