import KeyValueServer.Proofs.Table.FiniteMap

/-!
# Every table that can be reached is well formed

A table is `Table.Reachable` when calls of its operations, in any order and with any keys, lead to
it from `Table.empty`. Nothing is assumed of the hash or of the equality, so a key need not even be
equal to itself; such a key can be stored twice, and is never found again. `Table.WellFormed` does
not depend on the equality at all, and so holds of every table that can be reached. What a call does
to `Table.pairs` can still be said (`Table.Changes`): one pair is added, one pair gets another
value, one pair is taken, or all of them stay.

## Main results

* `Table.WellFormed.call_ok`: one call of a well-formed table.
* `Table.Reachable.wellFormed`: every sequence of calls leaves a well-formed table.
* `Table.Reachable.representation`: what holds of every table that can be reached, and what one more
  call does to it.
-/

namespace KeyValueServer

/-- `K.meets stored key`: a stored key answers for another, that is, the hashes agree and the two
compare as the same. -/
def Keying.meets {κ : Type} (K : Keying κ) (stored key : κ) : Bool :=
  K.hash stored == K.hash key && K.same stored key

/-- `discordant`: no key is equal to any, itself included, and all hashes collide. -/
def Keying.discordant : Keying Nat where
  hash := fun _ => 0
  same := fun _ _ => false

namespace Table

/-! ### Calls -/

/-- `c.Fits`: the power of two that the call asks for, if it asks for one, is a 64-bit word. -/
def Call.Fits {κ ν : Type} : Call κ ν → Prop
  | .expand target => nextPower target < wordLimit
  | _ => True

variable {κ ν : Type} {K : Keying κ}

/-- `follow calls t` carries out the calls one after the other. -/
def follow : List (Call κ ν) → Table K ν → Checked (Table K ν)
  | [], t => .ok t
  | c :: rest, t => do
    let (_, t) ← t.call c
    follow rest t

/-- `t.Reachable`: calls lead to the table from `Table.empty`. -/
def Reachable (t : Table K ν) : Prop :=
  ∃ calls, follow calls .empty = .ok t

/-- `follow` of `front` and then of `back`. -/
theorem follow_append (front back : List (Call κ ν)) (t : Table K ν) :
    follow (front ++ back) t = follow front t >>= follow back := by
  induction front generalizing t with
  | nil => rfl
  | cons c rest ih =>
      rw [List.cons_append, follow, follow]
      cases t.call c with
      | error fault => rfl
      | ok r => exact ih r.2

/-- `Table.empty` is where all calls begin. -/
theorem Reachable.empty : (Table.empty : Table K ν).Reachable :=
  ⟨[], rfl⟩

/-- `Reachable` after one call more. -/
theorem Reachable.call {t t' : Table K ν} {c : Call κ ν} {answer : Answer κ ν} (h : t.Reachable)
    (hcall : t.call c = .ok (answer, t')) : t'.Reachable := by
  obtain ⟨calls, hcalls⟩ := h
  refine ⟨calls ++ [c], ?_⟩
  rw [follow_append, hcalls, Checked.ok_bind, follow, hcall]
  rfl

/-- `Reachable` after a `Table.run` of operations with keys that are equal to themselves. -/
theorem Reachable.run {t t' : Table K ν} {ops : List (Operation K ν)} (h : t.Reachable)
    (hrun : (Table.run ops t).2 = .ok t') : t'.Reachable := by
  induction ops generalizing t with
  | nil =>
      obtain rfl := Except.ok.inj hrun
      exact h
  | cons op rest ih =>
      rw [Table.run] at hrun
      cases hperform : t.perform op with
      | error fault =>
          rw [hperform] at hrun
          cases hrun
      | ok r =>
          rw [hperform] at hrun
          exact ih (h.call hperform) hrun

/-! ### Keys and values -/

/-- `t.pairs` are the keys and values held, with each as often as it is held. -/
def pairs (t : Table K ν) : Multiset (κ × ν) :=
  (t.entries.map Entry.pair : List (κ × ν))

/-- `Changes K c answer before after`: of a table that holds `before`, the call `c` may answer
`answer` and leave it holding `after`. -/
inductive Changes (K : Keying κ) :
    Call κ ν → Answer κ ν → Multiset (κ × ν) → Multiset (κ × ν) → Prop
  | added {key : κ} {val : ν} {held : Multiset (κ × ν)}
      (h : ∀ p ∈ held, K.meets p.1 key = false) :
      Changes K (.add key val) (.outcome (.ok ())) held ((key, val) ::ₘ held)
  | addRefused {key : κ} {val : ν} {held : Multiset (κ × ν)} {p : κ × ν} (hp : p ∈ held)
      (h : K.meets p.1 key = true) :
      Changes K (.add key val) (.outcome (.error .keyExists)) held held
  | put {key : κ} {val : ν} {held : Multiset (κ × ν)} (h : ∀ p ∈ held, K.meets p.1 key = false) :
      Changes K (.set key val) .done held ((key, val) ::ₘ held)
  | replaced {key stored : κ} {val old : ν} {rest : Multiset (κ × ν)}
      (h : K.meets stored key = true) :
      Changes K (.set key val) .done ((stored, old) ::ₘ rest) ((stored, val) ::ₘ rest)
  | deleted {key stored : κ} {old : ν} {rest : Multiset (κ × ν)} (h : K.meets stored key = true) :
      Changes K (.delete key) (.outcome (.ok ())) ((stored, old) ::ₘ rest) rest
  | deleteRefused {key : κ} {held : Multiset (κ × ν)} (h : ∀ p ∈ held, K.meets p.1 key = false) :
      Changes K (.delete key) (.outcome (.error .keyNotFound)) held held
  | find {key : κ} {pair? : Option (κ × ν)} {held : Multiset (κ × ν)} :
      Changes K (.find key) (.entry pair?) held held
  | get {key : κ} {val? : Option ν} {held : Multiset (κ × ν)} :
      Changes K (.get key) (.value val?) held held
  | expand {target : Nat} {result : Except TableError Unit} {held : Multiset (κ × ν)} :
      Changes K (.expand target) (.outcome result) held held
  | rehash {count : Nat} {held : Multiset (κ × ν)} : Changes K (.rehash count) .done held held
  | sample {draws : Draws} {pair? : Option (κ × ν)} {held : Multiset (κ × ν)} :
      Changes K (.sample draws) (.entry pair?) held held
  | size {n : Nat} {held : Multiset (κ × ν)} : Changes K .size (.count n) held held
  | list {listing : List (κ × ν)} {held : Multiset (κ × ν)} :
      Changes K .list (.listing listing) held held

section Pairs

variable {t t' : Table K ν}

/-- `pairs` do not depend on the order of the entries. -/
theorem pairs_eq_of_perm (h : t'.entries.Perm t.entries) : t'.pairs = t.pairs :=
  Multiset.coe_eq_coe.2 (h.map Entry.pair)

/-- `pairs` have one pair more where there is one entry more. -/
theorem pairs_eq_cons_of_perm {e : Entry κ ν} {rest : List (Entry κ ν)}
    (h : t.entries.Perm (e :: rest)) :
    t.pairs = e.pair ::ₘ ((rest.map Entry.pair : List (κ × ν)) : Multiset (κ × ν)) :=
  Multiset.coe_eq_coe.2 (h.map Entry.pair)

namespace WellFormed

/-- The stored hash of an entry is that of its key. -/
theorem hashed (h : t.WellFormed) : ∀ e ∈ t.entries, e.hash = K.hash e.key := by
  cases h with
  | empty => simp
  | stable hlive => simpa using hlive.hashed
  | rehashing hold hnew _ _ _ =>
      intro e he
      rcases List.mem_append.1 (by simpa using he) with he | he
      · exact hold.hashed e he
      · exact hnew.hashed e he

/-- `isFor` says of an entry what `Keying.meets` says of its key. -/
theorem isFor_eq_meets (h : t.WellFormed) {e : Entry κ ν} (he : e ∈ t.entries) (key : κ) :
    e.isFor K key = K.meets e.key key := by
  rw [Entry.isFor, Entry.answers, h.hashed e he, Keying.meets]

/-- No stored key `meets` a key of which no entry `isFor`. -/
theorem forall_pairs_of_forall_entries (h : t.WellFormed) {key : κ}
    (hnone : ∀ e ∈ t.entries, e.isFor K key = false) :
    ∀ p ∈ t.pairs, K.meets p.1 key = false := by
  intro p hp
  obtain ⟨e, he, rfl⟩ := List.mem_map.1 (Multiset.mem_coe.1 hp)
  exact (h.isFor_eq_meets he key).symm.trans (hnone e he)

end WellFormed

end Pairs

/-! ### One call -/

namespace WellFormed

variable {t : Table K ν}

/-- `Table.call` on a well-formed table leaves it well formed, and changes its pairs as `Changes`
says. The one call without a result is for more chains than memory can hold. -/
theorem call_ok (h : t.WellFormed) (c : Call κ ν) (hfits : c.Fits) :
    (∃ answer t', t.call c = .ok (answer, t') ∧ t'.WellFormed ∧
        Changes K c answer t.pairs t'.pairs) ∨
      (∃ target, c = .expand target ∧ t.call c = .error .capacity ∧
        memoryLimit ≤ nextPower target * chainBytes) := by
  cases c with
  | add key val =>
      rcases h.add_ok key val with ⟨t', hadd, hkept, e, he, hfor⟩ | ⟨t', hadd, hwf, hperm, hnone⟩
      · refine .inl ⟨_, t', by rw [call, hadd]; rfl, hkept.wellFormed, ?_⟩
        rw [pairs_eq_of_perm hkept.perm]
        refine .addRefused (p := e.pair) (List.mem_map_of_mem he) ?_
        exact (h.isFor_eq_meets he key).symm.trans hfor
      · refine .inl ⟨_, t', by rw [call, hadd]; rfl, hwf, ?_⟩
        rw [pairs_eq_cons_of_perm hperm]
        exact .added (h.forall_pairs_of_forall_entries hnone)
  | set key val =>
      obtain ⟨t', hset, hwf, ⟨e, rest, hfor, hbefore, hafter⟩ | ⟨hperm, hnone⟩⟩ := h.set_ok key val
      · refine .inl ⟨_, t', by rw [call, hset]; rfl, hwf, ?_⟩
        rw [pairs_eq_cons_of_perm hbefore, pairs_eq_cons_of_perm hafter]
        refine .replaced ?_
        exact (h.isFor_eq_meets (hbefore.mem_iff.2 List.mem_cons_self) key).symm.trans hfor
      · refine .inl ⟨_, t', by rw [call, hset]; rfl, hwf, ?_⟩
        rw [pairs_eq_cons_of_perm hperm]
        exact .put (h.forall_pairs_of_forall_entries hnone)
  | find key =>
      obtain ⟨found, t', hfind, hkept, -, -⟩ := h.find_ok key
      refine .inl ⟨_, t', by rw [call, hfind]; rfl, hkept.wellFormed, ?_⟩
      rw [pairs_eq_of_perm hkept.perm]
      exact .find
  | get key =>
      obtain ⟨found, t', hfind, hkept, -, -⟩ := h.find_ok key
      refine .inl ⟨_, t', by rw [call, get, hfind]; rfl, hkept.wellFormed, ?_⟩
      rw [pairs_eq_of_perm hkept.perm]
      exact .get
  | delete key =>
      rcases h.delete_ok key with ⟨t', hdelete, hwf, e, hfor, hperm⟩ | ⟨t', hdelete, hkept, hnone⟩
      · refine .inl ⟨_, t', by rw [call, hdelete]; rfl, hwf, ?_⟩
        rw [pairs_eq_cons_of_perm hperm]
        refine .deleted ?_
        exact (h.isFor_eq_meets (hperm.mem_iff.2 List.mem_cons_self) key).symm.trans hfor
      · refine .inl ⟨_, t', by rw [call, hdelete]; rfl, hkept.wellFormed, ?_⟩
        rw [pairs_eq_of_perm hkept.perm]
        exact .deleteRefused (h.forall_pairs_of_forall_entries hnone)
  | expand target =>
      rcases h.expand_ok hfits with ⟨answer, t', hexpand, hkept, -⟩ | ⟨hexpand, hlimit⟩
      · refine .inl ⟨_, t', by rw [call, hexpand]; rfl, hkept.wellFormed, ?_⟩
        rw [pairs_eq_of_perm hkept.perm]
        exact .expand
      · exact .inr ⟨target, rfl, by rw [call, hexpand]; rfl, hlimit⟩
  | rehash count =>
      obtain ⟨t', hrehash, hkept⟩ := h.rehash_ok count
      refine .inl ⟨_, t', by rw [call, hrehash]; rfl, hkept.wellFormed, ?_⟩
      rw [pairs_eq_of_perm hkept.perm]
      exact .rehash
  | sample draws =>
      obtain ⟨found, t', hsample, hkept, -⟩ := h.sample_ok draws
      refine .inl ⟨_, t', by rw [call, hsample]; rfl, hkept.wellFormed, ?_⟩
      rw [pairs_eq_of_perm hkept.perm]
      exact .sample
  | size => exact .inl ⟨_, t, rfl, h, .size⟩
  | list => exact .inl ⟨_, t, rfl, h, .list⟩

end WellFormed

/-- A call that has a result `Fits`. -/
theorem fits_of_call {t t' : Table K ν} {c : Call κ ν} {answer : Answer κ ν}
    (h : t.call c = .ok (answer, t')) : c.Fits := by
  cases c with
  | expand target =>
      rw [Call.Fits]
      by_contra hlarge
      rw [call, expand.eq_def, if_pos (by omega)] at h
      cases h
  | _ => trivial

/-- `Table.call` leaves a well-formed table well formed. -/
theorem WellFormed.call {t t' : Table K ν} {c : Call κ ν} {answer : Answer κ ν} (h : t.WellFormed)
    (hcall : t.call c = .ok (answer, t')) : t'.WellFormed := by
  rcases h.call_ok c (fits_of_call hcall) with ⟨answer', t'', hok, hwf, -⟩ | ⟨-, -, hfault, -⟩
  · rw [hcall] at hok
    obtain ⟨-, rfl⟩ := Prod.mk.inj (Except.ok.inj hok)
    exact hwf
  · rw [hcall] at hfault
    cases hfault

/-! ### All calls -/

/-- What holds of a table and is kept by each call that has a result holds at the end of
`follow`. -/
theorem follow_induction {P : Table K ν → Prop}
    (hcall : ∀ {t t' : Table K ν} {c : Call κ ν} {answer : Answer κ ν}, P t →
      t.call c = .ok (answer, t') → P t')
    {calls : List (Call κ ν)} {t t' : Table K ν} (h : P t) (hfollow : follow calls t = .ok t') :
    P t' := by
  induction calls generalizing t with
  | nil =>
      obtain rfl := Except.ok.inj hfollow
      exact h
  | cons c rest ih =>
      rw [follow] at hfollow
      obtain ⟨⟨answer, t₁⟩, hc, hrest⟩ := Checked.bind_eq_ok_iff.1 hfollow
      exact ih (hcall h hc) hrest

namespace Reachable

variable {t : Table K ν}

/-- **`Reachable` tables are well formed.** -/
theorem wellFormed (h : t.Reachable) : t.WellFormed := by
  obtain ⟨calls, hcalls⟩ := h
  exact follow_induction WellFormed.call .empty hcalls

/-- **The representation of a table holds at every moment**, with any hash and any equality. Each
table that is `Reachable` is well formed; while it is rehashing and its old generation still has
entries, the search from the cursor ends at a chain of the old generation that has some; and one
more call has a result, which leaves a table that is `Reachable` and `Changes` at most the one pair
that the call is about. The only call without a result is an `expand` that is granted more chains
than memory can hold. -/
theorem representation (h : t.Reachable) :
    t.WellFormed ∧
      (∀ old new cursor, t = .rehashing old new cursor → old.used ≠ 0 →
        ∃ (i : Nat) (e : Entry κ ν) (rest : List (Entry κ ν)), old.occupiedFrom cursor = .ok i ∧
          cursor ≤ i ∧ i < old.size ∧ old.chains[i]? = some (e :: rest)) ∧
      ∀ c : Call κ ν, c.Fits →
        (∃ answer t', t.call c = .ok (answer, t') ∧ t'.Reachable ∧
            Changes K c answer t.pairs t'.pairs) ∨
          (∃ target, c = .expand target ∧ t.call c = .error .capacity ∧
            memoryLimit ≤ nextPower target * chainBytes) := by
  refine ⟨h.wellFormed, ?_, fun c hfits => ?_⟩
  · rintro old new cursor rfl hused
    cases h.wellFormed with
    | rehashing hold _ _ hcursor hdrained =>
        obtain ⟨i, e, rest, hi, -, hchain⟩ := hold.occupiedFrom_ok hcursor hdrained hused
        obtain ⟨hlt, -⟩ := Array.getElem?_eq_some_iff.1 hchain
        refine ⟨i, e, rest, hi, ?_, hold.size_chains ▸ hlt, hchain⟩
        -- below the cursor the chains are empty
        by_contra hlow
        have hnil := hdrained i (by omega)
        rw [hchain] at hnil
        cases hnil
  · rcases h.wellFormed.call_ok c hfits with ⟨answer, t', hcall, -, hchanges⟩ | hfault
    · exact .inl ⟨answer, t', hcall, h.call hcall, hchanges⟩
    · exact .inr hfault

/-- A key that is not equal to itself is stored twice, and both entries wait in one chain to be
moved. -/
theorem representation_of_twice_stored :
    ∃ old new, follow [.add 5 1, .add 5 2, .expand 16] (Table.empty : Table Keying.discordant Nat) =
        .ok (.rehashing old new 0) ∧ old.used = 2 ∧
      (.rehashing old new 0 : Table Keying.discordant Nat).WellFormed ∧
      ∃ (i : Nat) (e : Entry Nat Nat) (rest : List (Entry Nat Nat)),
        old.occupiedFrom 0 = .ok i ∧ i < old.size ∧ old.chains[i]? = some (e :: rest) := by
  refine ⟨_, _, rfl, rfl, ?_⟩
  have h := representation (K := Keying.discordant) ⟨[.add 5 1, .add 5 2, .expand 16], rfl⟩
  obtain ⟨i, e, rest, hi, -, hlt, hchain⟩ := h.2.1 _ _ _ rfl (by decide)
  exact ⟨h.1, i, e, rest, hi, hlt, hchain⟩

end Reachable

end Table

end KeyValueServer
