import KeyValueServer.Proofs.Table.Operations

/-!
# Samples that find nothing

`Generation.probeChain` looks at one chain after the other until it meets an entry, and stops
looking after `Table.sampleRetries` of them. So `Table.sample` may find nothing in a table that
holds entries: it has given up. A table without entries is the one other reason to find nothing.
This holds at every stage of a rehash, since the generation that a sample looks at has entries
whenever the table has.

## Main results

* `Table.GivesUp`: all the chains that a sample may look at are empty, and it has entries to look
  for.
* `Table.WellFormed.isEmpty_or_givesUp`: a sample that finds nothing has no entries to find or gives
  up.
-/

namespace KeyValueServer

/-- A place in a chain is found unless the chain is empty. -/
theorem getElem?_mod_length_eq_none_iff {α : Type} {chain : List α} {pick : Nat} :
    chain[pick % chain.length]? = none ↔ chain = [] := by
  rw [List.getElem?_eq_none_iff]
  constructor
  · intro hle
    rcases Nat.eq_zero_or_pos chain.length with hzero | hpos
    · exact List.length_eq_zero_iff.mp hzero
    · have hlt := Nat.mod_lt pick hpos
      omega
  · rintro rfl
    exact Nat.zero_le _

namespace Generation

variable {κ ν : Type} {K : Keying κ}

/-- `g.Misses draws turn`: a probe of the generation meets an empty chain. -/
def Misses (g : Generation κ ν) (draws : Draws) (turn : Nat) : Prop :=
  g.chains[draws.probe turn % g.size]? = some []

/-- `probeChain` ends at an empty chain only when each probe `Misses`. -/
theorem WellFormed.misses_of_probeChain {g : Generation κ ν} (h : g.WellFormed K) {draws : Draws}
    {turn retries : Nat} (hprobe : g.probeChain draws turn retries = .ok []) :
    ∀ i ≤ retries, g.Misses draws (turn + i) := by
  have hpos : 0 < g.size := by
    have hsize := h.eight_le_size
    omega
  induction retries generalizing turn with
  | zero =>
      obtain ⟨chain, hchain⟩ := h.exists_chain (Nat.mod_lt (draws.probe turn) hpos)
      rw [probeChain, chainAt, hchain, Checked.orFault] at hprobe
      cases hprobe
      intro i hi
      obtain rfl : i = 0 := by omega
      exact hchain
  | succ retries ih =>
      obtain ⟨chain, hchain⟩ := h.exists_chain (Nat.mod_lt (draws.probe turn) hpos)
      rw [probeChain, chainAt, hchain, Checked.orFault, Checked.ok_bind] at hprobe
      cases chain with
      | cons e rest => cases hprobe
      | nil =>
          intro i hi
          rcases Nat.eq_zero_or_pos i with rfl | hi'
          · exact hchain
          · have hlater := ih hprobe (i - 1) (by omega)
            rwa [show turn + 1 + (i - 1) = turn + i by omega] at hlater

end Generation

namespace Table

variable {κ ν : Type} {K : Keying κ} {t t' : Table K ν}

/-- `t.GivesUp draws`: the generation that a sample looks at has entries, but its first probe and
all the retries miss. -/
def GivesUp (t : Table K ν) (draws : Draws) : Prop :=
  ∃ t' g, t.rehashStep = .ok t' ∧ t'.sampled? = some g ∧ g.used ≠ 0 ∧
    ∀ turn ≤ sampleRetries, g.Misses draws turn

/-- A table with `Kept` entries had none if it has none. -/
theorem Kept.entries_eq_nil (h : Kept t t') (hnil : t'.entries = []) : t.entries = [] := by
  have hperm := h.perm
  rw [hnil] at hperm
  exact hperm.nil_eq.symm

namespace WellFormed

/-- `sampled?` is `none` only for a table without chains. -/
theorem entries_eq_nil_of_sampled (h : t.WellFormed) (hg : t.sampled? = none) : t.entries = [] := by
  cases h with
  | empty => rfl
  | stable => cases hg
  | rehashing =>
      simp only [sampled?] at hg
      split at hg <;> cases hg

/-- **A `sample` that finds nothing has no entries to find, or `GivesUp`.** -/
theorem isEmpty_or_givesUp (h : t.WellFormed) {draws : Draws}
    (hsample : t.sample draws = .ok (none, t')) : t.entries = [] ∨ t.GivesUp draws := by
  obtain ⟨t₁, hstep, hkept⟩ := h.rehashStep_ok
  rw [sample, hstep, Checked.ok_bind] at hsample
  cases hg : t₁.sampled? with
  | none => exact .inl (hkept.entries_eq_nil (hkept.wellFormed.entries_eq_nil_of_sampled hg))
  | some g =>
      obtain ⟨hwf, -, hentries⟩ := hkept.wellFormed.sampled_ok hg
      by_cases hused : g.used = 0
      · exact .inl (hkept.entries_eq_nil (hentries hused))
      right
      obtain ⟨chain, hchain, -⟩ := probeChain_ok hwf draws 0 sampleRetries
      simp only [hg, if_neg hused, hchain, Checked.ok_bind] at hsample
      have hpick : chain[draws.pick % chain.length]? = none := by
        injection hsample with hsample
        exact congrArg Prod.fst hsample
      rw [getElem?_mod_length_eq_none_iff.1 hpick] at hchain
      refine ⟨t₁, g, hstep, hg, hused, fun turn hturn => ?_⟩
      have hmiss := hwf.misses_of_probeChain hchain turn hturn
      rwa [Nat.zero_add] at hmiss

end WellFormed

end Table

end KeyValueServer
