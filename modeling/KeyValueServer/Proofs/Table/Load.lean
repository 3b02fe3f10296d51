import KeyValueServer.Proofs.Table.Reachable

/-!
# The load of a table, and how soon a rehash ends

A stable table has room for three entries for each chain, and grows when it has no room left
(`Table.growIfCrowded`). Then entries go on arriving while the old generation is drained: at most
one with each call, and each such call moves a chain. So a rehash lends one more place to begin with
and one for each chain that its cursor has passed (`Table.allowance`). When it ends, at most four
entries for each old chain and one more have come together, in at least twice as many chains; that
is less than three for each, and leaves a place for the entry that the ending call may still insert.

The accounts are kept with sizes, counts and the cursor alone. Which entries there are is of no
matter, so nothing is said here of the hash or of the equality.

## Main results

* `Table.call_touched`: a call prepares the generations, then touches at most one entry.
* `Table.Onward.size_add_le_allowance`: what a rehash has room for, while it goes on and when it
  ends.
* `Table.Reachable.load_bounded_and_rehash_ends`: the bound on every table that can be reached, and
  the number of calls that end a rehash.
-/

namespace KeyValueServer

/-! ### Sizes and counts of a generation -/

namespace Generation

variable {κ ν : Type} {K : Keying κ} {g g' : Generation κ ν}

/-- `push` counts one entry more. -/
theorem used_of_push {e : Entry κ ν} (h : g.push e = .ok g') :
    g'.size = g.size ∧ g'.used = g.used + 1 := by
  rw [push] at h
  split at h
  · obtain rfl := Except.ok.inj h
    exact ⟨rfl, rfl⟩
  · cases h

/-- `push` of a chain counts each of its entries. -/
theorem used_of_foldlM_push {chain : List (Entry κ ν)} (h : chain.foldlM push g = .ok g') :
    g'.size = g.size ∧ g'.used = g.used + chain.length := by
  induction chain generalizing g with
  | nil =>
      obtain rfl := Except.ok.inj h
      exact ⟨rfl, rfl⟩
  | cons e rest ih =>
      rw [List.foldlM_cons] at h
      obtain ⟨g₁, hpush, hrest⟩ := Checked.bind_eq_ok_iff.1 h
      obtain ⟨hsize, hused⟩ := used_of_push hpush
      obtain ⟨hsize', hused'⟩ := ih hrest
      rw [List.length_cons]
      omega

/-- `Generation.reassign` keeps the count. -/
theorem used_of_reassign {hash : UInt64} {key : κ} {val : ν} {found : Bool}
    (h : g.reassign K hash key val = .ok (found, g')) : g'.size = g.size ∧ g'.used = g.used := by
  rw [reassign] at h
  split at h
  · split at h
    · obtain ⟨-, rfl⟩ := Prod.mk.inj (Except.ok.inj h)
      exact ⟨rfl, rfl⟩
    · obtain ⟨-, rfl⟩ := Prod.mk.inj (Except.ok.inj h)
      exact ⟨rfl, rfl⟩
  · cases h

/-- `Generation.remove` does not raise the count. -/
theorem used_of_remove {hash : UInt64} {key : κ} {found : Bool}
    (h : g.remove K hash key = .ok (found, g')) : g'.size = g.size ∧ g'.used ≤ g.used := by
  rw [remove] at h
  split at h
  · split at h
    · obtain ⟨used, hused, heq⟩ := Checked.bind_eq_ok_iff.1 h
      obtain ⟨-, rfl⟩ := Prod.mk.inj (Except.ok.inj heq)
      obtain ⟨-, rfl⟩ := Checked.difference_eq_ok_iff.1 hused
      exact ⟨rfl, Nat.sub_le _ _⟩
    · obtain ⟨-, rfl⟩ := Prod.mk.inj (Except.ok.inj h)
      exact ⟨rfl, Nat.le_refl _⟩
  · cases h

/-- `migrate` counts each entry of the chain in one generation or the other. -/
theorem used_of_migrate {target target' : Generation κ ν} {index : Nat}
    (h : g.migrate target index = .ok (g', target')) :
    g'.size = g.size ∧ target'.size = target.size ∧
      g'.used + target'.used = g.used + target.used := by
  rw [migrate] at h
  obtain ⟨chain, -, h⟩ := Checked.bind_eq_ok_iff.1 h
  obtain ⟨used, hused, h⟩ := Checked.bind_eq_ok_iff.1 h
  obtain ⟨target₁, hpush, h⟩ := Checked.bind_eq_ok_iff.1 h
  obtain ⟨rfl, rfl⟩ := Prod.mk.inj (Except.ok.inj h)
  obtain ⟨hle, rfl⟩ := Checked.difference_eq_ok_iff.1 hused
  obtain ⟨hsize, hcount⟩ := used_of_foldlM_push hpush
  refine ⟨rfl, hsize, ?_⟩
  change g.used - chain.length + target₁.used = _
  omega

/-- `occupiedWithin?` goes up. -/
theorem le_of_occupiedWithin? {chains : Array (List (Entry κ ν))} {steps index i : Nat}
    (h : occupiedWithin? chains index steps = some i) : index ≤ i := by
  induction steps generalizing index with
  | zero => cases h
  | succ steps ih =>
      rw [occupiedWithin?] at h
      split at h
      · cases h
      · exact Nat.le_of_succ_le (ih h)
      · exact (Option.some.inj h).le

/-- `occupiedFrom` ends at its start or beyond. -/
theorem le_of_occupiedFrom {index i : Nat} (h : g.occupiedFrom index = .ok i) : index ≤ i := by
  rw [occupiedFrom] at h
  cases hfound : occupiedWithin? g.chains index (g.chains.size - index) with
  | none =>
      rw [hfound] at h
      cases h
  | some j =>
      rw [hfound] at h
      obtain rfl := Except.ok.inj h
      exact le_of_occupiedWithin? hfound

end Generation

namespace Table

variable {κ ν : Type} {K : Keying κ}

@[simp] theorem size_stable (live : Generation κ ν) :
    (stable live : Table K ν).size = live.used := by
  simp [size, generations]

@[simp] theorem size_rehashing (old new : Generation κ ν) (cursor : Nat) :
    (rehashing old new cursor : Table K ν).size = old.used + new.used := by
  simp [size, generations]

/-! ### Touching entries -/

/-- `Touched more t t'`: the generations of `t'` are those of `t`, moved as far, and hold at most
`more` entries more. -/
inductive Touched (more : Nat) : Table K ν → Table K ν → Prop
  | empty : Touched more empty empty
  | stable {live live' : Generation κ ν} (hsize : live'.size = live.size)
      (hused : live'.used ≤ live.used + more) : Touched more (stable live) (stable live')
  | rehashing {old new old' new' : Generation κ ν} {cursor : Nat} (hold : old'.size = old.size)
      (hnew : new'.size = new.size) (hused : old'.used + new'.used ≤ old.used + new.used + more) :
      Touched more (rehashing old new cursor) (rehashing old' new' cursor)

/-- `Touched` is reflexive. -/
theorem Touched.refl (more : Nat) (t : Table K ν) : Touched more t t := by
  cases t with
  | empty => exact .empty
  | stable live => exact .stable rfl (Nat.le_add_right _ _)
  | rehashing old new cursor => exact .rehashing rfl rfl (Nat.le_add_right _ _)

variable {t t' : Table K ν}

/-- `Touched` is transitive, and the entries add up. -/
theorem Touched.trans {m n : Nat} {t₁ t₂ t₃ : Table K ν} (h : Touched m t₁ t₂)
    (h' : Touched n t₂ t₃) : Touched (m + n) t₁ t₃ := by
  cases h with
  | empty =>
      cases h'
      exact .empty
  | stable hsize hused =>
      cases h' with
      | stable hsize' hused' => exact .stable (hsize'.trans hsize) (by omega)
  | rehashing hold hnew hused =>
      cases h' with
      | rehashing hold' hnew' hused' =>
          exact .rehashing (hold'.trans hold) (hnew'.trans hnew) (by omega)

/-- `Touched` tables keep their chains. -/
theorem Touched.ne_empty {n : Nat} (h : Touched n t t') (hne : t ≠ .empty) : t' ≠ .empty := by
  rintro rfl
  cases h
  exact hne rfl

/-- `insert` touches one entry of a table that has chains. -/
theorem touched_of_insert {e : Entry κ ν} (hne : t ≠ .empty) (h : t.insert e = .ok t') :
    Touched 1 t t' := by
  cases t with
  | empty => exact absurd rfl hne
  | stable live =>
      rw [insert] at h
      obtain ⟨live', hpush, h⟩ := Checked.bind_eq_ok_iff.1 h
      obtain rfl := Except.ok.inj h
      obtain ⟨hsize, hused⟩ := Generation.used_of_push hpush
      exact .stable hsize hused.le
  | rehashing old new cursor =>
      rw [insert] at h
      obtain ⟨new', hpush, h⟩ := Checked.bind_eq_ok_iff.1 h
      obtain rfl := Except.ok.inj h
      obtain ⟨hsize, hused⟩ := Generation.used_of_push hpush
      exact .rehashing rfl hsize (by omega)

/-- `inPlace op` applies `op` to the old generation and, if it finds nothing there, to the new
one. -/
def inPlace (op : Generation κ ν → Checked (Bool × Generation κ ν)) :
    Table K ν → Checked (Bool × Table K ν)
  | empty => .ok (false, empty)
  | stable live => do
    let (found, live) ← op live
    .ok (found, stable live)
  | rehashing old new cursor => do
    let (found, old) ← op old
    if found then .ok (true, rehashing old new cursor)
    else do
      let (found, new) ← op new
      .ok (found, rehashing old new cursor)

/-- `Table.reassign` is `Generation.reassign` applied `inPlace`. -/
theorem reassign_eq_inPlace (t : Table K ν) (hash : UInt64) (key : κ) (val : ν) :
    t.reassign hash key val = t.inPlace (·.reassign K hash key val) := by
  cases t <;> rfl

/-- `Table.remove` is `Generation.remove` applied `inPlace`. -/
theorem remove_eq_inPlace (t : Table K ν) (hash : UInt64) (key : κ) :
    t.remove hash key = t.inPlace (·.remove K hash key) := by
  cases t <;> rfl

/-- `inPlace` touches no entry, where the operation keeps the size of a generation and does not
raise its count. -/
theorem touched_of_inPlace {op : Generation κ ν → Checked (Bool × Generation κ ν)}
    (hop : ∀ {g g' : Generation κ ν} {found : Bool}, op g = .ok (found, g') →
      g'.size = g.size ∧ g'.used ≤ g.used)
    {found : Bool} (h : t.inPlace op = .ok (found, t')) : Touched 0 t t' := by
  cases t with
  | empty =>
      obtain ⟨-, rfl⟩ := Prod.mk.inj (Except.ok.inj h)
      exact .empty
  | stable live =>
      obtain ⟨⟨found', live'⟩, hlive, h⟩ := Checked.bind_eq_ok_iff.1 h
      obtain ⟨-, rfl⟩ := Prod.mk.inj (Except.ok.inj h)
      obtain ⟨hsize, hused⟩ := hop hlive
      exact .stable hsize hused
  | rehashing old new cursor =>
      obtain ⟨⟨found', old'⟩, hold, h⟩ := Checked.bind_eq_ok_iff.1 h
      obtain ⟨hosize, houused⟩ := hop hold
      cases found' with
      | true =>
          obtain ⟨-, rfl⟩ := Prod.mk.inj (Except.ok.inj h)
          exact .rehashing hosize rfl (by omega)
      | false =>
          obtain ⟨⟨found'', new'⟩, hnew, h⟩ := Checked.bind_eq_ok_iff.1 h
          obtain ⟨-, rfl⟩ := Prod.mk.inj (Except.ok.inj h)
          obtain ⟨hnsize, hnused⟩ := hop hnew
          exact .rehashing hosize hnsize (by omega)

/-- `reassign` touches no entry but the one that it changes. -/
theorem touched_of_reassign {hash : UInt64} {key : κ} {val : ν} {found : Bool}
    (h : t.reassign hash key val = .ok (found, t')) : Touched 0 t t' := by
  rw [reassign_eq_inPlace] at h
  refine touched_of_inPlace (fun hop => ?_) h
  obtain ⟨hsize, hused⟩ := Generation.used_of_reassign hop
  exact ⟨hsize, hused.le⟩

/-- `remove` touches no entry but the one that it takes. -/
theorem touched_of_remove {hash : UInt64} {key : κ} {found : Bool}
    (h : t.remove hash key = .ok (found, t')) : Touched 0 t t' := by
  rw [remove_eq_inPlace] at h
  exact touched_of_inPlace Generation.used_of_remove h

/-! ### What a call is made of -/

/-- `c.steps`: the call moves a chain before anything else. -/
def Call.steps : Call κ ν → Bool
  | .add .. | .set .. | .find _ | .get _ | .delete _ | .sample _ => true
  | .expand _ | .rehash _ | .size | .list => false

/-- `c.inserts` is how many entries the call may insert. -/
def Call.inserts : Call κ ν → Nat
  | .add .. | .set .. => 1
  | _ => 0

/-- `t.prepare c` is what the call does to the generations before it touches an entry. -/
def prepare (t : Table K ν) : Call κ ν → Checked (Table K ν)
  | .add .. | .set .. => do
    let t ← t.rehashStep
    .ok t.growIfCrowded
  | .find _ | .get _ | .delete _ | .sample _ => t.rehashStep
  | .expand target => do
    let (_, t) ← t.expand target
    .ok t
  | .rehash count => t.rehash count
  | .size | .list => .ok t

/-- `growIfCrowded` leaves a table with chains. -/
theorem growIfCrowded_ne_empty (t : Table K ν) : t.growIfCrowded ≠ .empty := by
  cases t with
  | empty => rw [growIfCrowded]; simp [grow]
  | stable live =>
      rw [growIfCrowded]
      split
      · simp [grow]
      · simp
  | rehashing old new cursor => rw [growIfCrowded]; simp

/-- `find` is `rehashStep` and a search. -/
theorem rehashStep_of_find {key : κ} {found : Option (Entry κ ν)}
    (h : t.find key = .ok (found, t')) : t.rehashStep = .ok t' := by
  obtain ⟨t₁, hstep, h⟩ := Checked.bind_eq_ok_iff.1 h
  obtain ⟨found', -, h⟩ := Checked.bind_eq_ok_iff.1 h
  obtain ⟨-, rfl⟩ := Prod.mk.inj (Except.ok.inj h)
  exact hstep

/-- `sample` is `rehashStep` and a search. -/
theorem rehashStep_of_sample {draws : Draws} {found : Option (Entry κ ν)}
    (h : t.sample draws = .ok (found, t')) : t.rehashStep = .ok t' := by
  obtain ⟨t₁, hstep, h⟩ := Checked.bind_eq_ok_iff.1 h
  split at h
  · obtain ⟨-, rfl⟩ := Prod.mk.inj (Except.ok.inj h)
    exact hstep
  · split at h
    · obtain ⟨-, rfl⟩ := Prod.mk.inj (Except.ok.inj h)
      exact hstep
    · obtain ⟨chain, -, h⟩ := Checked.bind_eq_ok_iff.1 h
      obtain ⟨-, rfl⟩ := Prod.mk.inj (Except.ok.inj h)
      exact hstep

/-- **`Table.call` is `prepare`, then at most one entry is `Touched`.** -/
theorem call_touched {c : Call κ ν} {answer : Answer κ ν} (h : t.call c = .ok (answer, t')) :
    ∃ t₁, t.prepare c = .ok t₁ ∧ Touched c.inserts t₁ t' := by
  cases c with
  | add key val =>
      obtain ⟨⟨result, t₂⟩, hadd, h⟩ := Checked.bind_eq_ok_iff.1 h
      obtain ⟨-, rfl⟩ := Prod.mk.inj (Except.ok.inj h)
      obtain ⟨t₁, hstep, hadd⟩ := Checked.bind_eq_ok_iff.1 hadd
      refine ⟨t₁.growIfCrowded, by rw [prepare, hstep]; rfl, ?_⟩
      obtain ⟨found, -, hadd⟩ := Checked.bind_eq_ok_iff.1 hadd
      cases found with
      | some e =>
          obtain ⟨-, rfl⟩ := Prod.mk.inj (Except.ok.inj hadd)
          exact .refl _ _
      | none =>
          obtain ⟨t₃, hinsert, hadd⟩ := Checked.bind_eq_ok_iff.1 hadd
          obtain ⟨-, rfl⟩ := Prod.mk.inj (Except.ok.inj hadd)
          exact touched_of_insert (growIfCrowded_ne_empty t₁) hinsert
  | set key val =>
      obtain ⟨t₂, hset, h⟩ := Checked.bind_eq_ok_iff.1 h
      obtain ⟨-, rfl⟩ := Prod.mk.inj (Except.ok.inj h)
      obtain ⟨t₁, hstep, hset⟩ := Checked.bind_eq_ok_iff.1 hset
      refine ⟨t₁.growIfCrowded, by rw [prepare, hstep]; rfl, ?_⟩
      obtain ⟨⟨found, t₃⟩, hreassign, hset⟩ := Checked.bind_eq_ok_iff.1 hset
      have htouched := touched_of_reassign hreassign
      have hne := growIfCrowded_ne_empty t₁
      cases found with
      | true =>
          obtain rfl := Except.ok.inj hset
          exact htouched.trans (.refl 1 _)
      | false => exact htouched.trans (touched_of_insert (htouched.ne_empty hne) hset)
  | find key =>
      obtain ⟨⟨found, t₂⟩, hfind, h⟩ := Checked.bind_eq_ok_iff.1 h
      obtain ⟨-, rfl⟩ := Prod.mk.inj (Except.ok.inj h)
      exact ⟨_, rehashStep_of_find hfind, .refl _ _⟩
  | get key =>
      obtain ⟨⟨val?, t₂⟩, hget, h⟩ := Checked.bind_eq_ok_iff.1 h
      obtain ⟨-, rfl⟩ := Prod.mk.inj (Except.ok.inj h)
      obtain ⟨⟨found, t₃⟩, hfind, hget⟩ := Checked.bind_eq_ok_iff.1 hget
      obtain ⟨-, rfl⟩ := Prod.mk.inj (Except.ok.inj hget)
      exact ⟨_, rehashStep_of_find hfind, .refl _ _⟩
  | delete key =>
      obtain ⟨⟨result, t₂⟩, hdelete, h⟩ := Checked.bind_eq_ok_iff.1 h
      obtain ⟨-, rfl⟩ := Prod.mk.inj (Except.ok.inj h)
      by_cases hempty : t = .empty
      · subst hempty
        obtain ⟨-, rfl⟩ := Prod.mk.inj (Except.ok.inj hdelete)
        exact ⟨_, rfl, .empty⟩
      · rw [delete.eq_2 _ _ hempty] at hdelete
        obtain ⟨t₁, hstep, hdelete⟩ := Checked.bind_eq_ok_iff.1 hdelete
        obtain ⟨⟨found, t₃⟩, hremove, hdelete⟩ := Checked.bind_eq_ok_iff.1 hdelete
        obtain ⟨-, rfl⟩ := Prod.mk.inj (Except.ok.inj hdelete)
        exact ⟨t₁, hstep, touched_of_remove hremove⟩
  | expand target =>
      obtain ⟨⟨result, t₂⟩, hexpand, h⟩ := Checked.bind_eq_ok_iff.1 h
      obtain ⟨-, rfl⟩ := Prod.mk.inj (Except.ok.inj h)
      exact ⟨t₂, by rw [prepare, hexpand]; rfl, .refl _ _⟩
  | rehash count =>
      obtain ⟨t₂, hrehash, h⟩ := Checked.bind_eq_ok_iff.1 h
      obtain ⟨-, rfl⟩ := Prod.mk.inj (Except.ok.inj h)
      exact ⟨t₂, hrehash, .refl _ _⟩
  | sample draws =>
      obtain ⟨⟨found, t₂⟩, hsample, h⟩ := Checked.bind_eq_ok_iff.1 h
      obtain ⟨-, rfl⟩ := Prod.mk.inj (Except.ok.inj h)
      exact ⟨_, rehashStep_of_sample hsample, .refl _ _⟩
  | size =>
      obtain ⟨-, rfl⟩ := Prod.mk.inj (Except.ok.inj h)
      exact ⟨t, rfl, .refl _ _⟩
  | list =>
      obtain ⟨-, rfl⟩ := Prod.mk.inj (Except.ok.inj h)
      exact ⟨t, rfl, .refl _ _⟩

/-! ### The course of a rehash -/

/-- `Onward old new cursor turns more t`: a rehash that stands at `cursor` has become `t` by at
least `turns` turns and at most `more` entries that arrived. It goes on between generations of the
same sizes, or has ended with a generation of the size of the new one. -/
inductive Onward (old new : Generation κ ν) (cursor turns more : Nat) : Table K ν → Prop
  | rehashing {old' new' : Generation κ ν} {cursor' : Nat} (hold : old'.size = old.size)
      (hnew : new'.size = new.size) (hcursor : cursor + turns ≤ cursor')
      (hused : old'.used + new'.used ≤ old.used + new.used + more) :
      Onward old new cursor turns more (rehashing old' new' cursor')
  | stable {live : Generation κ ν} (hsize : live.size = new.size)
      (hused : live.used ≤ old.used + new.used + more) :
      Onward old new cursor turns more (stable live)

section Onward

variable {old new : Generation κ ν} {cursor turns more : Nat}

/-- `Onward` is kept where entries are `Touched`. -/
theorem Onward.touched {n : Nat} (h : Onward old new cursor turns more t) (h' : Touched n t t') :
    Onward old new cursor turns (more + n) t' := by
  cases h with
  | rehashing hold hnew hcursor hused =>
      cases h' with
      | rehashing hold' hnew' hused' =>
          exact .rehashing (hold'.trans hold) (hnew'.trans hnew) hcursor (by omega)
  | stable hsize hused =>
      cases h' with
      | stable hsize' hused' => exact .stable (hsize'.trans hsize) (by omega)

/-- `Onward` by fewer turns, too. -/
theorem Onward.mono {n : Nat} (h : Onward old new cursor turns more t) (hle : n ≤ turns) :
    Onward old new cursor n more t := by
  cases h with
  | rehashing hold hnew hcursor hused => exact .rehashing hold hnew (by omega) hused
  | stable hsize hused => exact .stable hsize hused

/-- **`rehash` goes `Onward`**, and each turn that it is given takes its cursor further. -/
theorem onward_of_rehash
    (h : rehash turns (rehashing old new cursor : Table K ν) = .ok t') :
    Onward old new cursor turns 0 t' := by
  induction turns generalizing old new cursor with
  | zero =>
      rw [rehash] at h
      obtain rfl := Except.ok.inj h
      exact .rehashing rfl rfl (Nat.le_refl _) (Nat.le_refl _)
  | succ turns ih =>
      rw [rehash] at h
      split at h
      · obtain rfl := Except.ok.inj h
        exact .stable rfl (by omega)
      · obtain ⟨index, hindex, h⟩ := Checked.bind_eq_ok_iff.1 h
        obtain ⟨⟨old₁, new₁⟩, hmigrate, h⟩ := Checked.bind_eq_ok_iff.1 h
        obtain ⟨hosize, hnsize, hused⟩ := Generation.used_of_migrate hmigrate
        have hle := Generation.le_of_occupiedFrom hindex
        cases ih h with
        | rehashing hold hnew hcursor hused' =>
            exact .rehashing (hold.trans hosize) (hnew.trans hnsize) (by omega) (by omega)
        | stable hsize hused' => exact .stable (hsize.trans hnsize) (by omega)

end Onward

/-! ### The load of a table -/

/-- `t.allowance` is how many entries a table has room for: three for each chain, and during a
rehash one more to begin with and one for each chain that the cursor has passed. -/
def allowance : Table K ν → Nat
  | empty => 0
  | stable live => 3 * live.size
  | rehashing old _ cursor => 3 * old.size + 1 + cursor

/-- `Touched` tables have more entries by as many at most, and the same `allowance`. -/
theorem Touched.size_le {n : Nat} (h : Touched n t t') :
    t'.size ≤ t.size + n ∧ t'.allowance = t.allowance := by
  cases h with
  | empty => exact ⟨Nat.zero_le _, rfl⟩
  | stable hsize hused => exact ⟨by simpa using hused, by simp only [allowance, hsize]⟩
  | rehashing hold hnew hused => exact ⟨by simpa using hused, by simp only [allowance, hold]⟩

/-- `growIfCrowded` leaves a table with chains and with room for one more entry. -/
theorem growIfCrowded_eq_self (h : t.size < t.allowance) : t.growIfCrowded = t := by
  cases t with
  | empty => exact absurd h (Nat.lt_irrefl 0)
  | stable live =>
      simp only [size_stable, allowance] at h
      have hpos : 0 < live.size := by omega
      have hdiv : live.used / live.size < 3 := (Nat.div_lt_iff_lt_mul hpos).2 h
      rw [growIfCrowded, forceRatio, if_neg (by omega)]
  | rehashing old new cursor => rfl

/-- `growIfCrowded` of a table that is not rehashing leaves room for one more entry. -/
theorem WellFormed.size_lt_allowance_growIfCrowded (h : t.WellFormed)
    (hload : t.size ≤ t.allowance) (hstable : t.isRehashing = false) :
    t.growIfCrowded.size < t.growIfCrowded.allowance := by
  cases h with
  | empty =>
      have hmax := max_le_nextPower initialSize
      simp only [growIfCrowded, grow, size_stable, allowance, Generation.ofSize]
      rw [initialSize] at hmax ⊢
      omega
  | @stable live h =>
      have hsize := h.eight_le_size
      simp only [size_stable, allowance] at hload
      rw [growIfCrowded]
      split
      · simp only [grow, size_rehashing, allowance, Generation.ofSize]
        omega
      · rename_i hcrowded
        simp only [size_stable, allowance]
        by_contra hfull
        have hratio : 3 ≤ live.used / live.size :=
          (Nat.le_div_iff_mul_le (by omega)).2 (by omega)
        exact hcrowded ⟨by omega, by rw [forceRatio]; omega⟩
  | rehashing => cases hstable

/-- `rehash` of a table that is not rehashing leaves it. -/
theorem rehash_eq_self (hstable : t.isRehashing = false) (n : Nat) : rehash n t = .ok t := by
  cases n with
  | zero => rw [rehash]
  | succ n =>
      cases t with
      | empty => rw [rehash]; simp
      | stable live => rw [rehash]; simp
      | rehashing old new cursor => cases hstable

/-- `expand` of a table that is not rehashing leaves it within its `allowance`. -/
theorem size_le_allowance_of_expand {target : Nat} {result : Except TableError Unit}
    (hstable : t.isRehashing = false) (hload : t.size ≤ t.allowance)
    (h : t.expand target = .ok (result, t')) : t'.size ≤ t'.allowance := by
  have hgrow : ∀ size, (t.grow size).size ≤ (t.grow size).allowance := by
    intro size
    cases t with
    | empty => simp [grow, Generation.ofSize]
    | stable live =>
        simp only [size_stable, allowance] at hload
        simp only [grow, size_rehashing, allowance, Generation.ofSize]
        omega
    | rehashing old new cursor => cases hstable
  have hwithin : ∀ {size : Nat} {r : Except TableError Unit × Table K ν},
      ((t.growWithin size).map fun t => (Except.ok (), t)) = .ok r → r.2.size ≤ r.2.allowance := by
    intro size r hr
    rw [growWithin] at hr
    split at hr
    · obtain rfl := Except.ok.inj hr
      exact hgrow size
    · cases hr
  rw [expand.eq_def] at h
  split at h
  · cases h
  · split at h
    · exact hwithin h
    · split at h
      · obtain ⟨-, rfl⟩ := Prod.mk.inj (Except.ok.inj h)
        exact hload
      · exact hwithin h
    · cases hstable

/-- `prepare` of a table that is not rehashing leaves room for what the call `inserts`. -/
theorem WellFormed.size_add_inserts_le_of_prepare {c : Call κ ν} (h : t.WellFormed)
    (hload : t.size ≤ t.allowance) (hstable : t.isRehashing = false)
    (hprepare : t.prepare c = .ok t') : t'.size + c.inserts ≤ t'.allowance := by
  have hstep : t.rehashStep = .ok t := rehash_eq_self hstable 1
  have hroom := h.size_lt_allowance_growIfCrowded hload hstable
  cases c with
  | add key val | set key val =>
      rw [prepare, hstep] at hprepare
      obtain rfl := Except.ok.inj hprepare
      exact hroom
  | find key | get key | delete key | sample draws =>
      rw [prepare, hstep] at hprepare
      obtain rfl := Except.ok.inj hprepare
      exact hload
  | expand target =>
      obtain ⟨⟨result, t₁⟩, hexpand, hprepare⟩ := Checked.bind_eq_ok_iff.1 hprepare
      obtain rfl := Except.ok.inj hprepare
      exact size_le_allowance_of_expand hstable hload hexpand
  | rehash count =>
      rw [prepare, rehash_eq_self hstable] at hprepare
      obtain rfl := Except.ok.inj hprepare
      exact hload
  | size | list =>
      obtain rfl := Except.ok.inj hprepare
      exact hload

/-! ### Calls during a rehash -/

/-- Only a call that `steps` `inserts`, and one entry at most. -/
theorem Call.inserts_le_steps (c : Call κ ν) : c.inserts ≤ c.steps.toNat := by
  cases c <;> simp [Call.inserts, Call.steps]

section Rehashing

variable {old new : Generation κ ν} {cursor turns more : Nat}

/-- **A rehash has room for each entry that comes with a turn**, while it goes `Onward` and when it
ends. -/
theorem Onward.size_add_le_allowance {n : Nat}
    (hwf : (Table.rehashing old new cursor : Table K ν).WellFormed)
    (hload : old.used + new.used ≤ 3 * old.size + 1 + cursor)
    (h : Onward old new cursor turns more t) (hspare : more + n ≤ turns)
    (hone : more + n ≤ 1) : t.size + n ≤ t.allowance := by
  cases hwf with
  | rehashing hold hnew hsize hcursor _ =>
      have height := hold.eight_le_size
      cases h with
      | rehashing hosize hnsize hcursor' hused =>
          simp only [size_rehashing, allowance]
          omega
      | stable hlsize hused =>
          -- at most `4 * old.size + 2` entries, and `new.size` is at least `2 * old.size`
          simp only [size_stable, allowance]
          omega

/-- `prepare` during a rehash goes `Onward` by one turn if the call `steps`, and begins no other
rehash. -/
theorem onward_of_prepare {c : Call κ ν}
    (hwf : (Table.rehashing old new cursor : Table K ν).WellFormed)
    (hload : old.used + new.used ≤ 3 * old.size + 1 + cursor)
    (h : (rehashing old new cursor : Table K ν).prepare c = .ok t') :
    Onward old new cursor c.steps.toNat 0 t' := by
  cases c with
  | add key val | set key val =>
      obtain ⟨t₁, hstep, h⟩ := Checked.bind_eq_ok_iff.1 h
      obtain rfl := Except.ok.inj h
      have honward : Onward old new cursor 1 0 t₁ := onward_of_rehash hstep
      -- the entry to come has its place, so the end of the rehash is not followed by growth
      have hroom : t₁.size < t₁.allowance :=
        honward.size_add_le_allowance hwf hload (n := 1) (by omega) (by omega)
      rw [growIfCrowded_eq_self hroom]
      exact honward
  | find key | get key | delete key | sample draws => exact onward_of_rehash h
  | expand target =>
      obtain ⟨⟨result, t₁⟩, hexpand, h⟩ := Checked.bind_eq_ok_iff.1 h
      obtain rfl := Except.ok.inj h
      rw [expand] at hexpand
      split at hexpand
      · cases hexpand
      · obtain ⟨-, rfl⟩ := Prod.mk.inj (Except.ok.inj hexpand)
        exact .rehashing rfl rfl (Nat.le_refl _) (Nat.le_refl _)
  | rehash count => exact (onward_of_rehash h).mono (Nat.zero_le _)
  | size | list =>
      obtain rfl := Except.ok.inj h
      exact .rehashing rfl rfl (Nat.le_refl _) (Nat.le_refl _)

/-- **`Table.call` during a rehash goes `Onward`.** -/
theorem onward_of_call {c : Call κ ν} {answer : Answer κ ν}
    (hwf : (Table.rehashing old new cursor : Table K ν).WellFormed)
    (hload : old.used + new.used ≤ 3 * old.size + 1 + cursor)
    (h : (rehashing old new cursor : Table K ν).call c = .ok (answer, t')) :
    Onward old new cursor c.steps.toNat c.inserts t' := by
  obtain ⟨t₁, hprepare, htouched⟩ := call_touched h
  simpa using (onward_of_prepare hwf hload hprepare).touched htouched

/-- `Table.call` during a rehash has a result. -/
theorem WellFormed.exists_call_of_rehashing (c : Call κ ν) (hfits : c.Fits)
    (hwf : (Table.rehashing old new cursor : Table K ν).WellFormed) :
    ∃ answer t', (Table.rehashing old new cursor : Table K ν).call c = .ok (answer, t') := by
  rcases hwf.call_ok c hfits with ⟨answer, t', hcall, -, -⟩ | ⟨target, rfl, hcall, -⟩
  · exact ⟨answer, t', hcall⟩
  · rw [Table.call, expand, if_neg (Nat.not_le.2 hfits)] at hcall
    cases hcall

end Rehashing

/-! ### All calls -/

/-- `Table.call` keeps a table within its `allowance`. -/
theorem WellFormed.size_le_allowance_of_call {c : Call κ ν} {answer : Answer κ ν}
    (hwf : t.WellFormed) (hload : t.size ≤ t.allowance) (h : t.call c = .ok (answer, t')) :
    t'.size ≤ t'.allowance := by
  cases hstable : t.isRehashing with
  | false =>
      obtain ⟨t₁, hprepare, htouched⟩ := call_touched h
      obtain ⟨hsize, hallowance⟩ := htouched.size_le
      have hroom := hwf.size_add_inserts_le_of_prepare hload hstable hprepare
      omega
  | true =>
      cases t with
      | empty => cases hstable
      | stable live => cases hstable
      | rehashing old new cursor =>
          have hsteps : c.steps.toNat ≤ 1 := Bool.toNat_le c.steps
          have hinserts := c.inserts_le_steps
          rw [size_rehashing] at hload
          exact (onward_of_call hwf hload h).size_add_le_allowance hwf hload (n := 0)
            (by omega) (by omega)

namespace Reachable

/-- **`Reachable` tables are within their `allowance`.** -/
theorem size_le_allowance (h : t.Reachable) : t.size ≤ t.allowance := by
  obtain ⟨calls, hcalls⟩ := h
  have hboth : t.WellFormed ∧ t.size ≤ t.allowance :=
    follow_induction (P := fun t => t.WellFormed ∧ t.size ≤ t.allowance)
      (fun h hcall => ⟨h.1.call hcall, h.1.size_le_allowance_of_call h.2 hcall⟩)
      ⟨.empty, Nat.le_refl 0⟩ hcalls
  exact hboth.2

/-- **A rehash ends.** Among calls of which enough have `steps` there is one that ends it: as many
as the old generation has chains from the cursor on, and one more. -/
theorem exists_end_of_rehash {old new : Generation κ ν} {cursor : Nat}
    (h : (rehashing old new cursor : Table K ν).Reachable) (calls : List (Call κ ν))
    (hfits : ∀ c ∈ calls, c.Fits) (hcount : old.size + 1 ≤ cursor + calls.countP Call.steps) :
    ∃ front back live, calls = front ++ back ∧ cursor + front.countP Call.steps ≤ old.size + 1 ∧
      follow front (rehashing old new cursor : Table K ν) = .ok (stable live) ∧
      live.size = new.size := by
  have hcursor : cursor ≤ old.size := by
    cases h.wellFormed with
    | rehashing _ _ _ hcursor _ => exact hcursor
  induction calls generalizing old new cursor with
  | nil =>
      rw [List.countP_nil] at hcount
      omega
  | cons c rest ih =>
      obtain ⟨answer, t', hcall⟩ :=
        h.wellFormed.exists_call_of_rehashing c (hfits c List.mem_cons_self)
      have hcons : ∀ cs : List (Call κ ν),
          (c :: cs).countP Call.steps = cs.countP Call.steps + c.steps.toNat := by
        intro cs
        rw [List.countP_cons]
        cases c.steps <;> rfl
      rw [hcons] at hcount
      have hload := h.size_le_allowance
      rw [size_rehashing] at hload
      cases onward_of_call h.wellFormed hload hcall with
      | @stable live hsize hused =>
          refine ⟨[c], rest, live, rfl, ?_, by rw [follow, hcall]; rfl, hsize⟩
          have hsteps := Bool.toNat_le c.steps
          rw [hcons, List.countP_nil]
          omega
      | @rehashing old' new' cursor' hold hnew hcursor' hused =>
          have hreach := h.call hcall
          have hle : cursor' ≤ old'.size := by
            cases hreach.wellFormed with
            | rehashing _ _ _ hle _ => exact hle
          obtain ⟨front, back, live, rfl, hfront, hfollow, hlive⟩ :=
            ih hreach (fun c hc => hfits c (List.mem_cons_of_mem _ hc)) (by omega) hle
          refine ⟨c :: front, back, live, rfl, ?_, by rw [follow, hcall]; exact hfollow,
            hlive.trans hnew⟩
          rw [hcons]
          omega

/-- **The load of a table is bounded, and a rehash ends in time.** A stable table that is
`Reachable` holds at most three entries for each chain. A table that is rehashing holds at most
three for each old chain, and one more, and one for each chain that the cursor has passed. Of calls
that follow, at most as many as are left of the old chains and one more can have `steps` before one
of them ends the rehash. And each call goes on with the rehash or ends it: what it leaves is the new
generation alone, or two generations of the same two sizes as before. So the call that ends a rehash
does not begin the next, in which the old generation would be the larger one. -/
theorem load_bounded_and_rehash_ends (h : t.Reachable) :
    (∀ live, t = .stable live → live.used ≤ 3 * live.size) ∧
      ∀ old new cursor, t = .rehashing old new cursor →
        old.used + new.used ≤ 3 * old.size + 1 + cursor ∧
        (∀ calls : List (Call κ ν), (∀ c ∈ calls, c.Fits) →
          old.size + 1 ≤ cursor + calls.countP Call.steps →
          ∃ front back live, calls = front ++ back ∧
            cursor + front.countP Call.steps ≤ old.size + 1 ∧
            follow front t = .ok (.stable live) ∧ live.size = new.size) ∧
        ∀ (c : Call κ ν) answer t', t.call c = .ok (answer, t') →
          (∃ live, t' = .stable live ∧ live.size = new.size) ∨
            ∃ old' new' cursor', t' = .rehashing old' new' cursor' ∧ old'.size = old.size ∧
              new'.size = new.size ∧ cursor + c.steps.toNat ≤ cursor' := by
  refine ⟨?_, ?_⟩
  · rintro live rfl
    simpa [allowance] using h.size_le_allowance
  · rintro old new cursor rfl
    have hload : old.used + new.used ≤ 3 * old.size + 1 + cursor := by
      simpa [allowance] using h.size_le_allowance
    refine ⟨hload, h.exists_end_of_rehash, fun c answer t' hcall => ?_⟩
    cases onward_of_call h.wellFormed hload hcall with
    | stable hsize _ => exact .inl ⟨_, rfl, hsize⟩
    | rehashing hold hnew hcursor _ => exact .inr ⟨_, _, _, rfl, hold, hnew, hcursor⟩

/-- A rehash of eight chains that hold one entry ends within nine searches. -/
theorem load_bounded_and_rehash_ends_of_searches :
    ∃ old new, follow [.add 5 1, .expand 16] (Table.empty : Table Keying.discordant Nat) =
        .ok (.rehashing old new 0) ∧ old.used + new.used ≤ 3 * old.size + 1 + 0 ∧
      ∃ front back live, List.replicate 9 (Call.find 5) = front ++ back ∧
        0 + front.countP Call.steps ≤ old.size + 1 ∧
        follow front (.rehashing old new 0 : Table Keying.discordant Nat) = .ok (.stable live) ∧
        live.size = new.size := by
  refine ⟨_, _, rfl, ?_⟩
  have h := load_bounded_and_rehash_ends (K := Keying.discordant) ⟨[.add 5 1, .expand 16], rfl⟩
  obtain ⟨hload, hends, -⟩ := h.2 _ _ _ rfl
  refine ⟨hload, hends _ ?_ (by decide)⟩
  intro c hc
  rw [List.eq_of_mem_replicate hc]
  trivial

end Reachable

end Table

end KeyValueServer
