import KeyValueServer.Proofs.Table.GivingUp
import KeyValueServer.Proofs.Table.Rehash

/-!
# What samples of a table may be

`Table.sample` first makes a step of the rehash, and that step may move entries or end the rehash;
only then is a generation chosen, by the counts after the step (`Table.Samples`). Its draws are
arbitrary. What is drawn is nevertheless never out of range, never stale and never from the wrong
generation; nothing is drawn only for want of entries or of luck; and luck can bring each entry of
the chosen generation.

An entry that is drawn holds what its key is mapped to. Where the equality is `Lawful` this needs no
care at the draw: the keys of a table are `Keying.Apart`, so looking for the key of an entry can
find no other one.

## Main results

* `Generation.WellFormed.probeChain_eq_nil_iff`: when probing ends without an entry.
* `Table.Reachable.apart`: no two entries answer for each other's keys.
* `Table.Reachable.sample_exact`: what samples of a table may be, and that each of these may be.
-/

namespace KeyValueServer

/-! ### Keys apart from each other -/

namespace Keying

variable {κ : Type} {K : Keying κ} {key : κ} {keys : Multiset κ}

/-- `K.Apart keys`: none of the keys `meets` another one. -/
def Apart (K : Keying κ) (keys : Multiset κ) : Prop :=
  ∀ key rest, keys = key ::ₘ rest → ∀ other ∈ rest, K.meets other key = false

/-- `meets` is symmetric where the equality is `Lawful`. -/
theorem meets_comm (hK : K.Lawful) (a b : κ) : K.meets a b = K.meets b a := by
  have hsame : K.same a b = K.same b a := Bool.eq_iff_iff.mpr ⟨hK.symm, hK.symm⟩
  rw [meets, meets, hsame, Bool.beq_comm]

/-- `Apart` without keys. -/
theorem apart_zero : K.Apart 0 := by
  intro key rest heq
  exact absurd heq (Multiset.zero_ne_cons)

/-- `Apart` with one more key that none of the others `meets`. -/
theorem Apart.cons (h : K.Apart keys) (hK : K.Lawful)
    (hfree : ∀ other ∈ keys, K.meets other key = false) : K.Apart (key ::ₘ keys) := by
  intro first rest heq other hother
  obtain ⟨rfl, rfl⟩ | ⟨-, others, rfl, rfl⟩ := Multiset.cons_eq_cons.mp heq
  · exact hfree other hother
  · rcases Multiset.mem_cons.mp hother with rfl | hother
    · rw [meets_comm hK]
      exact hfree first (Multiset.mem_cons_self _ _)
    · exact h first others rfl other hother

/-- `Apart` with one key less. -/
theorem Apart.of_cons (h : K.Apart (key ::ₘ keys)) : K.Apart keys := by
  rintro first rest rfl other hother
  exact h first (key ::ₘ rest) (Multiset.cons_swap _ _ _) other (Multiset.mem_cons_of_mem hother)

end Keying

/-! ### Probing a generation -/

namespace Generation

variable {κ ν : Type} {K : Keying κ} {g : Generation κ ν} {draws : Draws}

/-- `probeChain` ends without an entry if each probe `Misses`. -/
theorem probeChain_of_misses {turn retries : Nat}
    (h : ∀ i ≤ retries, g.Misses draws (turn + i)) : g.probeChain draws turn retries = .ok [] := by
  have hfirst : g.chains[draws.probe turn % g.size]? = some [] := h 0 (Nat.zero_le _)
  induction retries generalizing turn with
  | zero => rw [probeChain, chainAt, hfirst, Checked.orFault]
  | succ retries ih =>
      rw [probeChain, chainAt, hfirst, Checked.orFault, Checked.ok_bind]
      have hlater : ∀ i ≤ retries, g.Misses draws (turn + 1 + i) := by
        intro i hi
        have hmiss := h (i + 1) (by omega)
        rwa [show turn + (i + 1) = turn + 1 + i by omega] at hmiss
      exact ih hlater (hlater 0 (Nat.zero_le _))

/-- **`probeChain` ends without an entry** if and only if each probe `Misses`. -/
theorem WellFormed.probeChain_eq_nil_iff (h : g.WellFormed K) {turn retries : Nat} :
    g.probeChain draws turn retries = .ok [] ↔ ∀ i ≤ retries, g.Misses draws (turn + i) :=
  ⟨h.misses_of_probeChain, probeChain_of_misses⟩

/-- `probeChain` ends at a first probe that meets an entry. -/
theorem probeChain_of_hit {chain : List (Entry κ ν)} {e : Entry κ ν} {turn : Nat}
    (hchain : g.chains[draws.probe turn % g.size]? = some chain) (he : e ∈ chain) (retries : Nat) :
    g.probeChain draws turn retries = .ok chain := by
  cases retries with
  | zero => rw [probeChain, chainAt, hchain, Checked.orFault]
  | succ retries =>
      rw [probeChain, chainAt, hchain, Checked.orFault, Checked.ok_bind]
      cases chain with
      | nil => cases he
      | cons first rest => rfl

/-- **Each entry may be drawn**: some `Draws` lead `probeChain` to its chain and pick it. -/
theorem WellFormed.exists_draws (h : g.WellFormed K) {e : Entry κ ν} (he : e ∈ g.entries) :
    ∃ draws : Draws, ∃ chain, (∀ retries, g.probeChain draws 0 retries = .ok chain) ∧
      chain[draws.pick % chain.length]? = some e := by
  obtain ⟨i, chain, hchain, hmem⟩ := mem_entries_iff.mp he
  obtain ⟨place, hplace⟩ := List.mem_iff_getElem?.mp hmem
  obtain ⟨hi, -⟩ := Array.getElem?_eq_some_iff.mp hchain
  obtain ⟨hlt, -⟩ := List.getElem?_eq_some_iff.mp hplace
  refine ⟨⟨fun _ => i, place⟩, chain, fun retries => probeChain_of_hit ?_ hmem retries, ?_⟩
  · rw [Nat.mod_eq_of_lt (h.size_chains ▸ hi)]
    exact hchain
  · rw [Nat.mod_eq_of_lt hlt]
    exact hplace

end Generation

namespace Table

variable {κ ν : Type} {K : Keying κ} {t t₁ : Table K ν} {g : Generation κ ν}

/-! ### Sampling -/

/-- `t.Samples g`: samples of the table look at `g`, which of two generations is the new one if it
holds strictly more entries, and the old one otherwise. -/
inductive Samples : Table K ν → Generation κ ν → Prop
  | stable {live : Generation κ ν} : Samples (.stable live) live
  | new {old new : Generation κ ν} {cursor : Nat}
      (h : old.entries.length < new.entries.length) : Samples (.rehashing old new cursor) new
  | old {old new : Generation κ ν} {cursor : Nat}
      (h : new.entries.length ≤ old.entries.length) : Samples (.rehashing old new cursor) old

/-- `sampled?` is the generation that `Samples` names. -/
theorem WellFormed.sampled_eq_some_iff (h : t.WellFormed) : t.sampled? = some g ↔ t.Samples g := by
  cases h with
  | empty => exact iff_of_false nofun nofun
  | stable _ =>
      constructor
      · rintro ⟨⟩
        exact .stable
      · rintro ⟨⟩
        rfl
  | rehashing hold hnew _ _ _ =>
      rw [sampled?, hold.used_eq, hnew.used_eq]
      constructor
      · intro hg
        split at hg
        · rename_i hlt
          obtain rfl := Option.some.inj hg
          exact .new hlt
        · rename_i hle
          obtain rfl := Option.some.inj hg
          exact .old (Nat.le_of_not_lt hle)
      · rintro (_ | hlt | hle)
        · rw [if_pos hlt]
        · rw [if_neg (Nat.not_lt.mpr hle)]

/-- `Samples` names one generation. -/
theorem Samples.unique {g' : Generation κ ν} (h : t.Samples g) (h' : t.Samples g') : g = g' := by
  cases h with
  | stable =>
      cases h'
      rfl
  | new hlt =>
      cases h' with
      | new => rfl
      | old hle => omega
  | old hle =>
      cases h' with
      | new hlt => omega
      | old => rfl

/-- `sample` draws nothing where the step leaves no generation. -/
theorem sample_of_none (hstep : t.rehashStep = .ok t₁) (hg : t₁.sampled? = none) (draws : Draws) :
    t.sample draws = .ok (none, t₁) := by
  rw [sample, hstep, Checked.ok_bind, hg]

/-- `sample` draws nothing from a generation without entries. -/
theorem sample_of_unused (hstep : t.rehashStep = .ok t₁) (hg : t₁.sampled? = some g)
    (hused : g.used = 0) (draws : Draws) : t.sample draws = .ok (none, t₁) := by
  simp only [sample, hstep, Checked.ok_bind, hg, if_pos hused]

/-- `sample` draws from the chain at which `probeChain` ends. -/
theorem sample_of_used {draws : Draws} {chain : List (Entry κ ν)}
    (hstep : t.rehashStep = .ok t₁) (hg : t₁.sampled? = some g) (hused : g.used ≠ 0)
    (hchain : g.probeChain draws 0 sampleRetries = .ok chain) :
    t.sample draws = .ok (chain[draws.pick % chain.length]?, t₁) := by
  simp only [sample, hstep, Checked.ok_bind, hg, if_neg hused, hchain]

/-- **What one `sample` may draw.** It is an entry of the generation that it `Samples`. It is
nothing if there are no entries, or if all probes miss. -/
theorem Kept.sample_cases (hkept : Kept t t₁) (hstep : t.rehashStep = .ok t₁) (draws : Draws) :
    ∃ found, t.sample draws = .ok (found, t₁) ∧
      (∀ e, found = some e → ∃ g, t₁.Samples g ∧ e ∈ g.entries) ∧
      (found = none ↔ t.entries = [] ∨
        ∃ g, t₁.Samples g ∧ ∀ turn ≤ sampleRetries, g.Misses draws turn) := by
  cases hg : t₁.sampled? with
  | none =>
      refine ⟨none, sample_of_none hstep hg draws, nofun, iff_of_true rfl (.inl ?_)⟩
      exact hkept.entries_eq_nil (hkept.wellFormed.entries_eq_nil_of_sampled hg)
  | some g =>
      obtain ⟨hwf, hmem, hentries⟩ := hkept.wellFormed.sampled_ok hg
      have hsamples : t₁.Samples g := hkept.wellFormed.sampled_eq_some_iff.mp hg
      by_cases hused : g.used = 0
      · refine ⟨none, sample_of_unused hstep hg hused draws, nofun, iff_of_true rfl (.inl ?_)⟩
        exact hkept.entries_eq_nil (hentries hused)
      · obtain ⟨chain, hchain, hin⟩ := WellFormed.probeChain_ok hwf draws 0 sampleRetries
        refine ⟨_, sample_of_used hstep hg hused hchain, fun e he => ?_, ?_⟩
        · exact ⟨g, hsamples, hin e (List.mem_of_getElem? he)⟩
        · have hmisses : chain = [] ↔ ∀ turn ≤ sampleRetries, g.Misses draws turn := by
            have hiff : g.probeChain draws 0 sampleRetries = .ok [] ↔
                ∀ i ≤ sampleRetries, g.Misses draws (0 + i) := hwf.probeChain_eq_nil_iff
            simp only [Nat.zero_add] at hiff
            rw [← hiff, hchain, Except.ok.injEq]
          rw [getElem?_mod_length_eq_none_iff, hmisses]
          constructor
          · exact fun hmiss => .inr ⟨g, hsamples, hmiss⟩
          · rintro (hempty | ⟨g', hg', hmiss⟩)
            · -- a generation that holds an entry is part of a table that does
              have hlength : g.entries ≠ [] := by
                rw [hwf.used_eq, List.length_eq_zero_iff] at hused
                exact hused
              obtain ⟨e, he⟩ := List.exists_mem_of_ne_nil _ hlength
              have hheld := hkept.perm.mem_iff.mp (hmem e he)
              rw [hempty] at hheld
              cases hheld
            · rwa [hsamples.unique hg']

/-! ### Keys of different entries -/

/-- `Changes` keeps the keys `Apart`. -/
theorem Changes.apart (hK : K.Lawful) {c : Call κ ν} {answer : Answer κ ν}
    {before after : Multiset (κ × ν)} (h : Changes K c answer before after)
    (hbefore : K.Apart (before.map Prod.fst)) : K.Apart (after.map Prod.fst) := by
  have hfree : ∀ {key : κ} {held : Multiset (κ × ν)}, (∀ p ∈ held, K.meets p.1 key = false) →
      ∀ other ∈ held.map Prod.fst, K.meets other key = false := by
    intro key held hnone other hother
    obtain ⟨p, hp, rfl⟩ := Multiset.mem_map.mp hother
    exact hnone p hp
  cases h with
  | added hnone =>
      rw [Multiset.map_cons]
      exact hbefore.cons hK (hfree hnone)
  | put hnone =>
      rw [Multiset.map_cons]
      exact hbefore.cons hK (hfree hnone)
  | replaced _ =>
      rw [Multiset.map_cons] at hbefore ⊢
      exact hbefore
  | deleted _ =>
      rw [Multiset.map_cons] at hbefore
      exact hbefore.of_cons
  | _ => exact hbefore

/-- **The keys of a table that is `Reachable` are `Apart`.** -/
theorem Reachable.apart (hK : K.Lawful) (h : t.Reachable) : K.Apart (t.pairs.map Prod.fst) := by
  obtain ⟨calls, hcalls⟩ := h
  have hend : t.WellFormed ∧ K.Apart (t.pairs.map Prod.fst) := by
    refine follow_induction (P := fun t => t.WellFormed ∧ K.Apart (t.pairs.map Prod.fst)) ?_
      ⟨.empty, Keying.apart_zero⟩ hcalls
    rintro t t' c answer ⟨hwf, hapart⟩ hcall
    refine ⟨hwf.call hcall, ?_⟩
    obtain ⟨answer', t'', hok, -, hchanges⟩ | ⟨-, -, hfault, -⟩ :=
      hwf.call_ok c (fits_of_call hcall)
    · rw [hcall] at hok
      obtain ⟨rfl, rfl⟩ := Prod.mk.inj (Except.ok.inj hok)
      exact hchanges.apart hK hapart
    · rw [hcall] at hfault
      cases hfault
  exact hend.2

/-- **An entry whose key `meets` that of another one is that one.** -/
theorem Reachable.eq_of_meets (hK : K.Lawful) (h : t.Reachable) {e e' : Entry κ ν}
    (he : e ∈ t.entries) (he' : e' ∈ t.entries) (hmeets : K.meets e'.key e.key = true) :
    e' = e := by
  by_contra hne
  obtain ⟨front, back, hsplit⟩ := List.append_of_mem he
  have hperm : t.entries.Perm (e :: (front ++ back)) := by
    rw [hsplit]
    exact List.perm_middle
  have hother : e' ∈ front ++ back := by
    rcases List.mem_cons.mp (hperm.mem_iff.mp he') with heq | hother
    · exact absurd heq hne
    · exact hother
  have hkeys : t.pairs.map Prod.fst =
      e.key ::ₘ (((front ++ back).map Entry.key : List κ) : Multiset κ) := by
    rw [pairs_eq_cons_of_perm hperm, Multiset.map_cons, Multiset.map_coe, List.map_map]
    rfl
  have hapart := h.apart hK e.key _ hkeys e'.key
    (Multiset.mem_coe.mpr (List.mem_map_of_mem hother))
  rw [hmeets] at hapart
  cases hapart

/-- **`get` of the key of an entry finds the entry.** -/
theorem Reachable.get_of_mem (hK : K.Lawful) (h : t.Reachable) {e : Entry κ ν}
    (he : e ∈ t.entries) (hself : K.same e.key e.key = true) :
    ∃ t', t.get e.key = .ok (some e.val, t') := by
  have hwf := h.wellFormed
  have hmeets : K.meets e.key e.key = true := by
    rw [Keying.meets, hself, beq_self_eq_true]
    rfl
  obtain ⟨found, t', hfind, -, hsome, hnone⟩ := hwf.find_ok e.key
  cases found with
  | none =>
      have hmiss := hnone rfl e he
      rw [hwf.isFor_eq_meets he, hmeets] at hmiss
      cases hmiss
  | some e' =>
      obtain ⟨he', hfor⟩ := hsome e' rfl
      rw [hwf.isFor_eq_meets he'] at hfor
      refine ⟨t', ?_⟩
      rw [get, hfind, Checked.ok_bind, h.eq_of_meets hK he he' hfor]
      rfl

/-! ### Samples of a table that calls lead to -/

/-- **What samples of a table may be.** The table after a `sample` is that after one `rehashStep`,
whatever is drawn, and holds the same entries. An entry that is drawn is one of them, and one of the
generation that the table `Samples`; its value is that of its key, if the equality is `Lawful` and
holds of the key and itself. Nothing is drawn if and only if the table has no entries, or the first
probe and all 1000 retries miss. The generation that is looked at has entries if the table has, and
each of its entries is drawn for some draws. -/
theorem Reachable.sample_exact (h : t.Reachable) :
    ∃ t₁, t.rehashStep = .ok t₁ ∧ t₁.entries.Perm t.entries ∧
      (∀ draws, ∃ found, t.sample draws = .ok (found, t₁) ∧
        (∀ e, found = some e → e ∈ t.entries ∧ (∃ g, t₁.Samples g ∧ e ∈ g.entries) ∧
          (K.Lawful → K.same e.key e.key = true → ∃ t', t.get e.key = .ok (some e.val, t'))) ∧
        (found = none ↔ t.entries = [] ∨
          ∃ g, t₁.Samples g ∧ ∀ turn ≤ 1000, g.Misses draws turn)) ∧
      ∀ g, t₁.Samples g → (g.entries = [] → t.entries = []) ∧
        ∀ e ∈ g.entries, ∃ draws, t.sample draws = .ok (some e, t₁) := by
  obtain ⟨t₁, hstep, hkept⟩ := h.wellFormed.rehashStep_ok
  refine ⟨t₁, hstep, hkept.perm, fun draws => ?_, fun g hg => ?_⟩
  · obtain ⟨found, hsample, hsome, hnone⟩ := hkept.sample_cases hstep draws
    refine ⟨found, hsample, fun e he => ?_, hnone⟩
    obtain ⟨g, hg, hmem⟩ := hsome e he
    obtain ⟨-, hpart, -⟩ :=
      hkept.wellFormed.sampled_ok (hkept.wellFormed.sampled_eq_some_iff.mpr hg)
    have hheld : e ∈ t.entries := hkept.perm.mem_iff.mp (hpart e hmem)
    exact ⟨hheld, ⟨g, hg, hmem⟩, fun hK => h.get_of_mem hK hheld⟩
  · have hsampled := hkept.wellFormed.sampled_eq_some_iff.mpr hg
    obtain ⟨hwf, -, hentries⟩ := hkept.wellFormed.sampled_ok hsampled
    refine ⟨fun hempty => ?_, fun e he => ?_⟩
    · have hused : g.used = 0 := by
        rw [hwf.used_eq, hempty]
        rfl
      exact hkept.entries_eq_nil (hentries hused)
    · have hused : g.used ≠ 0 := by
        rw [hwf.used_eq]
        exact fun hzero => List.not_mem_nil (List.length_eq_zero_iff.mp hzero ▸ he)
      obtain ⟨draws, chain, hchain, hpick⟩ := hwf.exists_draws he
      refine ⟨draws, ?_⟩
      rw [sample_of_used hstep hsampled hused (hchain sampleRetries), hpick]

/-- The step moves one of two entries. The new generation then holds no more than the old one, so
the entry that has stayed is drawn, and the other one never is. -/
theorem Reachable.sample_exact_of_tie :
    ∃ t, follow [.add 0 5, .add 1 6, .expand 16] (Table.empty : Table Keying.numbers Nat) = .ok t ∧
      (∀ draws found t₁, t.sample draws = .ok (found, t₁) → ∀ e, found = some e → e = ⟨1, 1, 6⟩) ∧
      ∃ draws t₁, t.sample draws = .ok (some ⟨1, 1, 6⟩, t₁) := by
  refine ⟨_, rfl, ?_⟩
  obtain ⟨t₁, hstep, -, hdraws, hall⟩ :=
    sample_exact (K := Keying.numbers) ⟨[.add 0 5, .add 1 6, .expand 16], rfl⟩
  cases hstep
  refine ⟨fun draws found t₁ hsample e he => ?_, ?_⟩
  · obtain ⟨found', hsample', hsome, -⟩ := hdraws draws
    rw [hsample] at hsample'
    obtain ⟨rfl, -⟩ := Prod.mk.inj (Except.ok.inj hsample')
    obtain ⟨-, ⟨g, hg, hmem⟩, -⟩ := hsome e he
    cases hg with
    | new hlt => exact absurd hlt (by decide)
    | old _ => exact List.mem_singleton.mp hmem
  · obtain ⟨-, hdrawn⟩ := hall _ (.old (by decide))
    obtain ⟨draws, hsample⟩ := hdrawn ⟨1, 1, 6⟩ (by decide)
    exact ⟨draws, _, hsample⟩

end Table

end KeyValueServer
