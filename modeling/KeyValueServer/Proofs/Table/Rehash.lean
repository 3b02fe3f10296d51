import KeyValueServer.Proofs.Table.Load

/-!
# What a rehash comes to

`Table.rehash` is a number of turns, and each turn moves the entries of one chain. They arrive in
the new generation in the order in which the old one lists them, so the end of a rehash is settled
when it begins: it is the new generation with the old entries pushed, one after the other. Turns may
be made at once or apart.

The masks of both generations are one less than powers of two, so the chain that a hash selects in
the new generation tells which chain it selects in the old one. A new chain therefore receives the
entries of one old chain only, in the reverse of their order, in front of those that it held.

## Main results

* `Table.rehash_add`: turns are additive.
* `Table.WellFormed.rehashStep_of_used_ne_zero`: one turn of a rehash.
* `Table.WellFormed.rehash_of_le`, `rehash_of_gt`: a rehash before its end, and at its end.
* `Table.Reachable.rehash_additive_and_determined`: all of this for each rehash that is reached.
-/

namespace KeyValueServer

/-- `Keying.numbers`: keys that are equal as numbers and hash to themselves. -/
def Keying.numbers : Keying Nat where
  hash := UInt64.ofNat
  same := fun stored key => stored == key

namespace Generation

variable {κ ν : Type} {K : Keying κ} {g g' : Generation κ ν}

/-! ### Chains that hold entries -/

/-- `g.occupied` is how many chains hold entries. -/
def occupied (g : Generation κ ν) : Nat :=
  g.chains.toList.countP fun chain => !chain.isEmpty

/-- `occupied` counts a chain less when it is emptied. -/
theorem occupied_withChain_nil {i used : Nat} {e : Entry κ ν} {rest : List (Entry κ ν)}
    (hi : g.chains[i]? = some (e :: rest)) : (g.withChain i [] used).occupied + 1 = g.occupied := by
  obtain ⟨hlt, hget⟩ := Array.getElem?_eq_some_iff.1 hi
  have hlen : i < g.chains.toList.length := by simpa using hlt
  have hdrop : g.chains.toList.drop i = (e :: rest) :: g.chains.toList.drop (i + 1) := by
    rw [List.drop_eq_getElem_cons hlen, Array.getElem_toList, hget]
  have hsplit : g.occupied =
      (g.chains.toList.take i ++ g.chains.toList.drop i).countP fun chain => !chain.isEmpty := by
    rw [List.take_append_drop, occupied]
  rw [hsplit, hdrop, occupied, withChain, Array.toList_setIfInBounds,
    List.set_eq_take_append_cons_drop, if_pos hlen]
  simp only [List.countP_append, List.countP_cons, List.isEmpty_nil, List.isEmpty_cons,
    Bool.not_true, Bool.not_false, Bool.false_eq_true, if_true, if_false]
  omega

/-- `occupied` is zero when there are no entries. -/
theorem WellFormed.occupied_eq_zero_iff (h : g.WellFormed K) : g.occupied = 0 ↔ g.used = 0 := by
  rw [h.used_eq, occupied, List.length_eq_zero_iff, entries, List.flatten_eq_nil_iff,
    List.countP_eq_zero]
  simp

/-! ### The order in which entries arrive -/

/-- A well-formed generation lists no entries when its count is zero. -/
theorem WellFormed.entries_eq_nil (h : g.WellFormed K) (hused : g.used = 0) : g.entries = [] := by
  rw [← List.length_eq_zero_iff, ← h.used_eq, hused]

/-- Below `DrainedBelow` there is nothing to list. -/
theorem flatten_take_eq_nil {i : Nat} (hd : g.DrainedBelow i) :
    (g.chains.toList.take i).flatten = [] := by
  rw [List.flatten_eq_nil_iff]
  intro chain hchain
  obtain ⟨j, hj, rfl⟩ := List.mem_take_iff_getElem.1 hchain
  have hnil := hd j (by omega)
  rw [← Array.getElem?_toList, List.getElem?_eq_getElem (by omega)] at hnil
  exact Option.some.inj hnil

/-- The entries of the first chain that has some are listed first. -/
theorem entries_eq_of_drainedBelow {i used : Nat} {chain : List (Entry κ ν)}
    (hi : g.chains[i]? = some chain) (hd : g.DrainedBelow i) :
    g.entries = chain ++ (g.withChain i [] used).entries := by
  obtain ⟨hlt, hget⟩ := Array.getElem?_eq_some_iff.1 hi
  have hlen : i < g.chains.toList.length := by simpa using hlt
  have hdrop : g.chains.toList.drop i = chain :: g.chains.toList.drop (i + 1) := by
    rw [List.drop_eq_getElem_cons hlen, Array.getElem_toList, hget]
  have hfront := flatten_take_eq_nil hd
  calc g.entries = (g.chains.toList.take i ++ g.chains.toList.drop i).flatten := by
        rw [List.take_append_drop, entries]
    _ = chain ++ (g.chains.toList.drop (i + 1)).flatten := by
        rw [List.flatten_append, hfront, hdrop, List.nil_append, List.flatten_cons]
    _ = chain ++ (g.withChain i [] used).entries := by
        rw [entries, withChain, Array.toList_setIfInBounds, List.set_eq_take_append_cons_drop,
          if_pos hlen, List.flatten_append, hfront, List.nil_append, List.flatten_cons,
          List.nil_append]

/-- `migrate` pushes the entries of the chain, from its head. -/
theorem eq_of_migrate {target target' : Generation κ ν} {i : Nat} {chain : List (Entry κ ν)}
    (hi : g.chains[i]? = some chain) (h : g.migrate target i = .ok (g', target')) :
    g' = g.withChain i [] (g.used - chain.length) ∧ chain.foldlM push target = .ok target' := by
  rw [migrate, chainAt, hi] at h
  obtain ⟨chain', hchain, h⟩ := Checked.bind_eq_ok_iff.1 h
  obtain rfl : chain = chain' := Except.ok.inj hchain
  obtain ⟨used, hused, h⟩ := Checked.bind_eq_ok_iff.1 h
  obtain ⟨target₁, hpush, h⟩ := Checked.bind_eq_ok_iff.1 h
  obtain ⟨rfl, rfl⟩ := Prod.mk.inj (Except.ok.inj h)
  obtain ⟨-, rfl⟩ := Checked.difference_eq_ok_iff.1 hused
  exact ⟨rfl, hpush⟩

/-! ### Where entries arrive -/

/-- `push` puts the entry at the head of its chain. -/
theorem getElem?_push {e : Entry κ ν} (h : g.push e = .ok g') :
    g'.mask = g.mask ∧ ∀ (j : Nat) (held : List (Entry κ ν)), g.chains[j]? = some held →
      g'.chains[j]? = some (if g.indexOf e.hash = j then e :: held else held) := by
  rw [push] at h
  split at h
  · rename_i chain hchain
    obtain rfl := Except.ok.inj h
    refine ⟨rfl, fun j held hj => ?_⟩
    have hlt := (Array.getElem?_eq_some_iff.1 hj).1
    simp only [withChain, Array.getElem?_setIfInBounds]
    split
    · rename_i hindex
      subst hindex
      rw [hchain] at hj
      obtain rfl := Option.some.inj hj
      rw [if_pos hlt]
    · exact hj
  · cases h

/-- **`push` of one entry after the other** puts them at the head of their chains, the last one
first. -/
theorem getElem?_foldlM_push {pushed : List (Entry κ ν)} (h : pushed.foldlM push g = .ok g')
    {j : Nat} {held : List (Entry κ ν)} (hj : g.chains[j]? = some held) :
    g'.chains[j]? = some ((pushed.filter fun e => g.indexOf e.hash = j).reverse ++ held) := by
  induction pushed generalizing g held with
  | nil =>
      obtain rfl := Except.ok.inj h
      simpa using hj
  | cons e rest ih =>
      rw [List.foldlM_cons] at h
      obtain ⟨g₁, hpush, hrest⟩ := Checked.bind_eq_ok_iff.1 h
      obtain ⟨hmask, hchains⟩ := getElem?_push hpush
      have hindex : ∀ hash, g₁.indexOf hash = g.indexOf hash := by
        intro hash
        rw [indexOf, indexOf, hmask]
      have hlater := ih hrest (hchains j held hj)
      simp only [hindex] at hlater
      rw [hlater, List.filter_cons]
      by_cases he : g.indexOf e.hash = j
      · simp [he]
      · simp [he]

/-! ### One old chain for each new chain -/

/-- **`indexOf` in a larger generation tells `indexOf` in a smaller one.** -/
theorem WellFormed.indexOf_eq_and_mask (h : g.WellFormed K) (h' : g'.WellFormed K)
    (hsize : g.size ≤ g'.size) (hash : UInt64) :
    g.indexOf hash = g'.indexOf hash &&& g.mask := by
  obtain ⟨a, ha⟩ := h.size_pow
  obtain ⟨b, hb⟩ := h'.size_pow
  rw [Nat.one_shiftLeft] at ha hb
  have hab : a ≤ b := by
    rw [ha, hb] at hsize
    exact (Nat.pow_le_pow_iff_right (by omega)).1 hsize
  rw [indexOf, indexOf, h.mask_eq, h'.mask_eq, ha, hb]
  simp only [Nat.and_two_pow_sub_one_eq_mod]
  exact (Nat.mod_mod_of_dvd _ (Nat.pow_dvd_pow 2 hab)).symm

/-- What a chain of a larger generation takes from a smaller one it takes from one chain. -/
theorem WellFormed.filter_entries_eq (h : g.WellFormed K) (h' : g'.WellFormed K)
    (hsize : g.size ≤ g'.size) {j : Nat} {chain : List (Entry κ ν)}
    (hchain : g.chains[j &&& g.mask]? = some chain) :
    (g.entries.filter fun e => g'.indexOf e.hash = j) =
      chain.filter fun e => g'.indexOf e.hash = j := by
  obtain ⟨front, back, hentries, -, hother⟩ := entries_split hchain
  have hnone : ∀ e, e ∈ front ∨ e ∈ back → g'.indexOf e.hash ≠ j := by
    intro e he hj
    obtain ⟨i, other, hne, hi, hmem⟩ := hother e he
    have hplace := h.placed i other hi e hmem
    rw [h.indexOf_eq_and_mask h' hsize, hj] at hplace
    exact hne hplace.symm
  have hfront : (front.filter fun e => g'.indexOf e.hash = j) = [] := by
    simpa using fun e he => hnone e (.inl he)
  have hback : (back.filter fun e => g'.indexOf e.hash = j) = [] := by
    simpa using fun e he => hnone e (.inr he)
  rw [hentries, List.filter_append, List.filter_append, hfront, hback, List.nil_append,
    List.append_nil]

end Generation

namespace Table

variable {κ ν : Type} {K : Keying κ}

/-! ### Turns -/

/-- **`rehash` is additive.** -/
theorem rehash_add (a b : Nat) (t : Table K ν) : rehash (a + b) t = rehash a t >>= rehash b := by
  induction a generalizing t with
  | zero => rw [Nat.zero_add, rehash, Checked.ok_bind]
  | succ a ih =>
      cases hstable : t.isRehashing with
      | false =>
          rw [rehash_eq_self hstable, rehash_eq_self hstable, Checked.ok_bind,
            rehash_eq_self hstable]
      | true =>
          cases t with
          | empty => cases hstable
          | stable live => cases hstable
          | rehashing old new cursor =>
              rw [Nat.add_right_comm, rehash, rehash]
              split
              · exact (rehash_eq_self rfl b).symm
              · simp only [bind_assoc, ih]

section Rehashing

variable {old new : Generation κ ν} {cursor : Nat}

/-- **One `rehashStep`** empties a chain of the old generation, and leaves it as it was what the
rehash comes to. -/
theorem WellFormed.rehashStep_of_used_ne_zero
    (h : (Table.rehashing old new cursor : Table K ν).WellFormed) (hused : old.used ≠ 0) :
    ∃ old' new' cursor', (Table.rehashing old new cursor : Table K ν).rehashStep =
        .ok (Table.rehashing old' new' cursor') ∧
      (Table.rehashing old' new' cursor' : Table K ν).WellFormed ∧
      old'.occupied + 1 = old.occupied ∧
      old'.entries.foldlM Generation.push new' = old.entries.foldlM Generation.push new := by
  obtain ⟨t', hstep, hkept⟩ := h.rehashStep_ok
  cases h with
  | rehashing hold hnew hsize hcursor hdrained =>
      obtain ⟨i, e, rest, hi, hdrained', hchain⟩ := hold.occupiedFrom_ok hcursor hdrained hused
      have hmoves := hstep
      rw [rehashStep, rehash, if_neg hused, hi, Checked.ok_bind] at hmoves
      obtain ⟨⟨old', new'⟩, hmigrate, hmoves⟩ := Checked.bind_eq_ok_iff.1 hmoves
      obtain rfl : Table.rehashing old' new' (i + 1) = t' := Except.ok.inj hmoves
      obtain ⟨rfl, hpush⟩ := Generation.eq_of_migrate hchain hmigrate
      refine ⟨_, new', i + 1, hstep, hkept.wellFormed,
        Generation.occupied_withChain_nil hchain, ?_⟩
      rw [Generation.entries_eq_of_drainedBelow hchain hdrained', List.foldlM_append, hpush,
        Checked.ok_bind]

/-- **`rehash` by no more turns than are `occupied`** has emptied a chain with each turn. -/
theorem WellFormed.rehash_of_le (h : (Table.rehashing old new cursor : Table K ν).WellFormed)
    {n : Nat} (hn : n ≤ old.occupied) :
    ∃ old' new' cursor', rehash n (Table.rehashing old new cursor : Table K ν) =
        .ok (Table.rehashing old' new' cursor') ∧
      (Table.rehashing old' new' cursor' : Table K ν).WellFormed ∧
      old'.occupied + n = old.occupied ∧
      old'.entries.foldlM Generation.push new' = old.entries.foldlM Generation.push new := by
  induction n generalizing old new cursor with
  | zero => exact ⟨old, new, cursor, by rw [rehash], h, rfl, rfl⟩
  | succ n ih =>
      have hused : old.used ≠ 0 := by
        intro hzero
        cases h with
        | rehashing hold _ _ _ _ =>
            rw [hold.occupied_eq_zero_iff.2 hzero] at hn
            omega
      obtain ⟨old₁, new₁, cursor₁, hstep, hwf, hcount, hpush⟩ :=
        h.rehashStep_of_used_ne_zero hused
      obtain ⟨old', new', cursor', hrest, hwf', hcount', hpush'⟩ := ih hwf (by omega)
      refine ⟨old', new', cursor', ?_, hwf', by omega, hpush'.trans hpush⟩
      rw [Nat.add_comm, rehash_add]
      change rehashStep _ >>= rehash n = _
      rw [hstep, Checked.ok_bind, hrest]

/-- **`rehash` by more turns than are `occupied`** has ended, and has pushed all old entries in the
order of their list. -/
theorem WellFormed.rehash_of_gt (h : (Table.rehashing old new cursor : Table K ν).WellFormed)
    {n : Nat} (hn : old.occupied < n) :
    ∃ live, rehash n (Table.rehashing old new cursor : Table K ν) = .ok (Table.stable live) ∧
      old.entries.foldlM Generation.push new = .ok live := by
  obtain ⟨old', live, cursor', hrehash, hwf, hcount, hpush⟩ := h.rehash_of_le (Nat.le_refl _)
  cases hwf with
  | rehashing hold _ _ _ _ =>
      have hused : old'.used = 0 := hold.occupied_eq_zero_iff.1 (by omega)
      obtain ⟨more, rfl⟩ : ∃ more, n = old.occupied + (more + 1) :=
        ⟨n - old.occupied - 1, by omega⟩
      rw [hold.entries_eq_nil hused] at hpush
      refine ⟨live, ?_, hpush.symm⟩
      rw [rehash_add, hrehash, Checked.ok_bind, rehash, if_pos hused]

end Rehashing

namespace Reachable

/-- **A rehash is additive, and what it comes to is determined.** Turns have a result, and it is the
same whether they are made at once or apart. A rehash with as many turns as `occupied` old chains,
or fewer, goes on and has emptied a chain with each; with exactly as many it has emptied all of
them, and the old generation is still there. With one more it has ended, and what is left is the new
generation with all entries. Its chain at `j` begins with the old entries that go there, all of them
from one old chain and in the reverse of its order, and continues with those that the new chain
already held, in theirs. -/
theorem rehash_additive_and_determined {old new : Generation κ ν} {cursor : Nat}
    (h : (rehashing old new cursor : Table K ν).Reachable) :
    (∀ a b, ∃ t₁ t₂, rehash a (rehashing old new cursor : Table K ν) = .ok t₁ ∧
        rehash b t₁ = .ok t₂ ∧ rehash (a + b) (rehashing old new cursor : Table K ν) = .ok t₂) ∧
      (∀ n ≤ old.occupied, ∃ old' new' cursor',
        rehash n (rehashing old new cursor : Table K ν) = .ok (rehashing old' new' cursor') ∧
          old'.occupied = old.occupied - n ∧ old'.size = old.size ∧ new'.size = new.size ∧
          (old'.used = 0 ↔ n = old.occupied)) ∧
      ∀ n > old.occupied, ∃ live,
        rehash n (rehashing old new cursor : Table K ν) = .ok (stable live) ∧
          live.WellFormed K ∧ live.size = new.size ∧ live.used = old.used + new.used ∧
          ∀ j < new.size, ∃ chain held, old.chains[j &&& (old.size - 1)]? = some chain ∧
            new.chains[j]? = some held ∧
            live.chains[j]? = some ((chain.filter fun e =>
              e.hash.toNat &&& (new.size - 1) = j).reverse ++ held) ∧
            ∀ e ∈ old.entries, e.hash.toNat &&& (new.size - 1) = j → e ∈ chain := by
  have hwf := h.wellFormed
  refine ⟨fun a b => ?_, fun n hn => ?_, fun n hn => ?_⟩
  · obtain ⟨t₁, ha, hkept⟩ := hwf.rehash_ok a
    obtain ⟨t₂, hb, -⟩ := hkept.wellFormed.rehash_ok b
    exact ⟨t₁, t₂, ha, hb, by rw [rehash_add, ha, Checked.ok_bind, hb]⟩
  · obtain ⟨old', new', cursor', hrehash, hwf', hcount, -⟩ := hwf.rehash_of_le hn
    have hsizes : old'.size = old.size ∧ new'.size = new.size := by
      cases onward_of_rehash hrehash with
      | rehashing hold hnew _ _ => exact ⟨hold, hnew⟩
    have hdrained : old'.used = 0 ↔ n = old.occupied := by
      cases hwf' with
      | rehashing hold _ _ _ _ =>
          rw [← hold.occupied_eq_zero_iff]
          omega
    exact ⟨old', new', cursor', hrehash, by omega, hsizes.1, hsizes.2, hdrained⟩
  · obtain ⟨live, hrehash, hpush⟩ := hwf.rehash_of_gt hn
    cases hwf with
    | rehashing hold hnew hsize _ _ =>
        obtain ⟨live', hpush', hlive, -, -⟩ := hnew.foldlM_push_ok hold.hashed
        rw [hpush] at hpush'
        obtain rfl := Except.ok.inj hpush'
        obtain ⟨hlsize, hused⟩ := Generation.used_of_foldlM_push hpush
        rw [← hold.used_eq, Nat.add_comm] at hused
        refine ⟨live, hrehash, hlive, hlsize, hused, fun j hj => ?_⟩
        have hlt : j &&& old.mask < old.size := by
          have hle : j &&& old.mask ≤ old.mask := Nat.and_le_right
          have hmask := hold.mask_eq
          have height := hold.eight_le_size
          omega
        obtain ⟨chain, hchain⟩ := hold.exists_chain hlt
        obtain ⟨held, hheld⟩ := hnew.exists_chain hj
        have hone := hold.filter_entries_eq hnew (by omega) hchain
        have hend := Generation.getElem?_foldlM_push hpush hheld
        rw [hone] at hend
        simp only [Generation.indexOf, hnew.mask_eq] at hone hend
        rw [hold.mask_eq] at hchain
        refine ⟨chain, held, hchain, hheld, hend, fun e he hindex => ?_⟩
        have hmem : e ∈ old.entries.filter fun e => e.hash.toNat &&& (new.size - 1) = j :=
          List.mem_filter.2 ⟨he, decide_eq_true hindex⟩
        rw [hone] at hmem
        exact (List.mem_filter.1 hmem).1

/-- Two turns end a rehash with one chain to go. Of its entries, the head first, `9` goes to a chain
of its own, and `17` and then `1` go in front of `33`, which the new chain already held. -/
theorem rehash_additive_and_determined_of_three :
    ∃ old new, follow [.add 0 0, .add 1 0, .add 17 0, .add 9 0, .expand 16, .add 33 0]
        (Table.empty : Table Keying.numbers Nat) = .ok (rehashing old new 1) ∧ old.occupied = 1 ∧
      ∃ live, rehash 2 (rehashing old new 1 : Table Keying.numbers Nat) = .ok (stable live) ∧
        live.used = 5 ∧ live.chains[1]? = some [⟨1, 1, 0⟩, ⟨17, 17, 0⟩, ⟨33, 33, 0⟩] := by
  refine ⟨_, _, rfl, rfl, ?_⟩
  have h := rehash_additive_and_determined (K := Keying.numbers)
    ⟨[.add 0 0, .add 1 0, .add 17 0, .add 9 0, .expand 16, .add 33 0], rfl⟩
  obtain ⟨live, hrehash, -, -, hused, hchains⟩ := h.2.2 2 (by decide)
  obtain ⟨chain, held, hchain, hheld, hend, -⟩ := hchains 1 (by decide)
  cases hchain
  cases hheld
  exact ⟨live, hrehash, hused, hend⟩

end Reachable

end Table

end KeyValueServer
