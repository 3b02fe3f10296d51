import Mathlib.Data.Finmap
import KeyValueServer.Proofs.Table.Operations

/-!
# Tables as finite maps

Two keys are one to a table when they have one hash and compare as equal. Where the equality is an
equivalence on the keys that are used, a table holds at most one entry for each class of keys, and
so is a finite map (`Table.Represents`). What the classes are called, and how much of an entry a map
shows, depends on who looks: an `Indexing` fixes both.

Whether the table is rehashing, and how far it has come, is not seen in the map.

## Main results

* `Represents.add`, `set`, `find`, `delete`, `sample`: each operation does to the map what its name
  says.
* `Represents.kept`: what only rearranges the entries leaves the map as it is.
-/

namespace KeyValueServer

/-! ### Finite maps -/

section Finmap

variable {α β : Type} [DecidableEq α]

/-- `insert` overwrites, so `erase` before it changes nothing. -/
theorem insert_erase_eq (m : Finmap fun _ : α => β) (a : α) (b : β) :
    (m.erase a).insert a b = m.insert a b := by
  refine Finmap.ext_lookup fun x => ?_
  by_cases hx : x = a
  · subst hx
    rw [Finmap.lookup_insert, Finmap.lookup_insert]
  · rw [Finmap.lookup_insert_of_ne _ hx, Finmap.lookup_insert_of_ne _ hx, Finmap.lookup_erase_ne hx]

/-- The entries after `insert` are the new one and those of other keys. -/
theorem entries_insert_eq (m : Finmap fun _ : α => β) (a : α) (b : β) :
    (m.insert a b).entries = ⟨a, b⟩ ::ₘ (m.erase a).entries := by
  rw [← insert_erase_eq, Finmap.entries_insert_of_notMem Finmap.notMem_erase_self]

/-- `insert` of what is there changes nothing. -/
theorem insert_eq_self {m : Finmap fun _ : α => β} {a : α} {b : β} (h : m.lookup a = some b) :
    m.insert a b = m := by
  refine Finmap.ext_lookup fun x => ?_
  by_cases hx : x = a
  · subst hx
    rw [Finmap.lookup_insert, h]
  · rw [Finmap.lookup_insert_of_ne _ hx]

/-- `erase` of what is not there changes nothing. -/
theorem erase_eq_self {m : Finmap fun _ : α => β} {a : α} (h : a ∉ m) : m.erase a = m := by
  refine Finmap.ext_lookup fun x => ?_
  by_cases hx : x = a
  · subst hx
    rw [Finmap.lookup_erase, Finmap.lookup_eq_none.2 h]
  · rw [Finmap.lookup_erase_ne hx]

end Finmap

/-! ### Classes of keys -/

/-- `K.Key`: a key that is equal to itself. -/
def Keying.Key {κ : Type} (K : Keying κ) : Type :=
  { key : κ // K.same key key = true }

/-- An `Indexing` names the classes of keys, and says what is shown of an entry. -/
structure Indexing {κ : Type} (K : Keying κ) (ν α β : Type) where
  /-- The name of the class of a key. -/
  index : K.Key → α
  /-- What is shown of an entry with a stored key and a value. -/
  view : K.Key → ν → β
  /-- Two keys are in one class when their hashes agree and they compare as the same. -/
  index_eq_iff : ∀ {a b : K.Key},
    index a = index b ↔ K.hash a.1 = K.hash b.1 ∧ K.same a.1 b.1 = true

/-- `Entry.ofKey key val` is the entry of a key and a value. -/
def Entry.ofKey {κ ν : Type} {K : Keying κ} (key : K.Key) (val : ν) : Entry κ ν :=
  ⟨K.hash key.1, key.1, val⟩

namespace Table

variable {κ ν α β : Type} {K : Keying κ} {I : Indexing K ν α β}

/-- `isFor` holds of an entry exactly when its own key is in the same class. -/
theorem isFor_ofKey (I : Indexing K ν α β) (stored key : K.Key) (val : ν) :
    (Entry.ofKey stored val).isFor K key.1 = true ↔ I.index stored = I.index key := by
  rw [I.index_eq_iff]
  simp [Entry.isFor, Entry.answers, Entry.ofKey]

/-- **`Represents I t m`**: the table is well formed, and its entries are the entries of the finite
map `m`, in some order. -/
structure Represents (I : Indexing K ν α β) (t : Table K ν) (m : Finmap fun _ : α => β) : Prop where
  wellFormed : t.WellFormed
  exists_listing : ∃ listing : List (K.Key × ν),
    t.entries.Perm (listing.map fun p => Entry.ofKey p.1 p.2) ∧
      m.entries = ↑(listing.map fun p => (⟨I.index p.1, I.view p.1 p.2⟩ : Sigma fun _ : α => β))

namespace Represents

variable {t t' : Table K ν} {m : Finmap fun _ : α => β}

/-- `Table.empty` represents the empty map. -/
theorem empty : Represents I (Table.empty : Table K ν) ∅ :=
  ⟨.empty, [], .refl _, rfl⟩

/-- `Represents` is kept by what only rearranges the entries. -/
theorem kept (h : Represents I t m) (hk : Kept t t') : Represents I t' m := by
  obtain ⟨-, listing, hperm, hm⟩ := h
  exact ⟨hk.wellFormed, listing, hk.perm.trans hperm, hm⟩

/-- The size of a table is that of the map that it `Represents`. -/
theorem size_eq (h : Represents I t m) : t.size = m.keys.card := by
  obtain ⟨hwf, listing, hperm, hm⟩ := h
  have hcard : m.keys.card = m.entries.card := by
    rw [Finmap.keys, Finset.card_mk, Multiset.keys, Multiset.card_map]
  rw [hwf.size_eq, hperm.length_eq, hcard, hm]
  simp

/-- `Represents` under any other names for the same classes. -/
theorem reindex {γ δ : Type} (h : Represents I t m) (J : Indexing K ν γ δ) :
    ∃ m', Represents J t m' := by
  obtain ⟨hwf, listing, hperm, hm⟩ := h
  -- names of classes differ under `J` exactly where they do under `I`
  have hnames : (listing.map fun p => I.index p.1).Nodup := by
    have hnodup := m.nodupKeys
    rw [hm, Multiset.coe_nodupKeys, List.NodupKeys, List.keys, List.map_map] at hnodup
    exact hnodup
  have hnodup : Multiset.NodupKeys
      (↑(listing.map fun p => (⟨J.index p.1, J.view p.1 p.2⟩ : Sigma fun _ : γ => δ)) :
        Multiset (Sigma fun _ : γ => δ)) := by
    rw [Multiset.coe_nodupKeys, List.NodupKeys, List.keys, List.map_map, List.Nodup,
      List.pairwise_map]
    rw [List.Nodup, List.pairwise_map] at hnames
    refine hnames.imp fun hne heq => hne ?_
    rw [I.index_eq_iff, ← J.index_eq_iff]
    exact heq
  exact ⟨⟨_, hnodup⟩, hwf, listing, hperm, rfl⟩

variable [DecidableEq α]

/-- An entry of the table is shown in the map under the class of its key. -/
theorem exists_of_mem (h : Represents I t m) {e : Entry κ ν} (he : e ∈ t.entries) :
    ∃ stored val, e = Entry.ofKey stored val ∧
      m.lookup (I.index stored) = some (I.view stored val) := by
  obtain ⟨-, listing, hperm, hm⟩ := h
  obtain ⟨⟨stored, val⟩, hp, rfl⟩ := List.mem_map.1 (hperm.mem_iff.1 he)
  refine ⟨stored, val, rfl, Finmap.lookup_eq_some_iff.2 ?_⟩
  rw [hm, Multiset.mem_coe]
  exact List.mem_map.2 ⟨(stored, val), hp, rfl⟩

/-- What the map shows is shown of an entry of the table. -/
theorem exists_of_lookup (h : Represents I t m) {a : α} {b : β} (hb : m.lookup a = some b) :
    ∃ stored val, Entry.ofKey stored val ∈ t.entries ∧ I.index stored = a ∧
      I.view stored val = b := by
  obtain ⟨-, listing, hperm, hm⟩ := h
  have hmem := Finmap.lookup_eq_some_iff.1 hb
  rw [hm, Multiset.mem_coe] at hmem
  obtain ⟨⟨stored, val⟩, hp, heq⟩ := List.mem_map.1 hmem
  cases heq
  exact ⟨stored, val, hperm.mem_iff.2 (List.mem_map.2 ⟨_, hp, rfl⟩), rfl, rfl⟩

/-- No entry `isFor` a key exactly when its class is not in the map. -/
theorem forall_isFor_eq_false_iff (h : Represents I t m) (key : K.Key) :
    (∀ e ∈ t.entries, e.isFor K key.1 = false) ↔ I.index key ∉ m := by
  constructor
  · intro hnone hmem
    obtain ⟨b, hb⟩ := Finmap.mem_iff.1 hmem
    obtain ⟨stored, val, he, hindex, -⟩ := h.exists_of_lookup hb
    have hfalse := hnone _ he
    rw [(isFor_ofKey I stored key val).2 hindex] at hfalse
    cases hfalse
  · intro hnot e he
    obtain ⟨stored, val, rfl, hlookup⟩ := h.exists_of_mem he
    refine Bool.eq_false_iff.2 fun hfor => hnot ?_
    rw [← (isFor_ofKey I stored key val).1 hfor]
    exact Finmap.mem_of_lookup_eq_some hlookup

/-- `Represents` with one entry more, for a class that is not in the map. -/
theorem insert (h : Represents I t m) {key : K.Key} {val : ν} (hnot : I.index key ∉ m)
    (hwf : t'.WellFormed) (hperm : t'.entries.Perm (Entry.ofKey key val :: t.entries)) :
    Represents I t' (m.insert (I.index key) (I.view key val)) := by
  obtain ⟨-, listing, hl, hm⟩ := h
  refine ⟨hwf, (key, val) :: listing, hperm.trans (hl.cons _), ?_⟩
  rw [Finmap.entries_insert_of_notMem hnot, hm]
  rfl

/-- An entry of the table taken apart from the rest: what is left lists the map without the class
of its key. -/
theorem exists_of_perm_cons (h : Represents I t m) {e : Entry κ ν} {rest : List (Entry κ ν)}
    (hperm : t.entries.Perm (e :: rest)) :
    ∃ stored val, e = Entry.ofKey stored val ∧
      m.lookup (I.index stored) = some (I.view stored val) ∧
      ∃ listing : List (K.Key × ν), rest.Perm (listing.map fun p => Entry.ofKey p.1 p.2) ∧
        (m.erase (I.index stored)).entries =
          ↑(listing.map fun p => (⟨I.index p.1, I.view p.1 p.2⟩ : Sigma fun _ : α => β)) := by
  obtain ⟨-, listing, hl, hm⟩ := h
  have hmem : e ∈ listing.map fun p => Entry.ofKey p.1 p.2 :=
    (hperm.symm.trans hl).mem_iff.1 List.mem_cons_self
  obtain ⟨⟨stored, val⟩, hp, rfl⟩ := List.mem_map.1 hmem
  obtain ⟨front, back, rfl⟩ := List.append_of_mem hp
  have hlookup : m.lookup (I.index stored) = some (I.view stored val) := by
    refine Finmap.lookup_eq_some_iff.2 ?_
    rw [hm, Multiset.mem_coe]
    exact List.mem_map.2 ⟨(stored, val), hp, rfl⟩
  refine ⟨stored, val, rfl, hlookup, front ++ back, ?_, ?_⟩
  · refine List.Perm.cons_inv (a := Entry.ofKey stored val) ((hperm.symm.trans hl).trans ?_)
    simp
  · have hentries := entries_insert_eq m (I.index stored) (I.view stored val)
    rw [insert_eq_self hlookup, hm] at hentries
    refine ((Multiset.cons_inj_right _).1 (hentries.symm.trans ?_))
    rw [Multiset.cons_coe, Multiset.coe_eq_coe]
    simp

/-- `Represents` without the entry of a key, whose class is erased. -/
theorem erase (h : Represents I t m) {key : K.Key} (hwf : t'.WellFormed)
    (hrem : Entry.Removed (Entry.isFor K key.1) t.entries t'.entries) :
    I.index key ∈ m ∧ Represents I t' (m.erase (I.index key)) := by
  obtain ⟨e, he, hperm⟩ := hrem
  obtain ⟨stored, val, rfl, hlookup, listing, hl, hm⟩ := h.exists_of_perm_cons hperm
  rw [(isFor_ofKey I stored key val).1 he] at hlookup hm
  exact ⟨Finmap.mem_of_lookup_eq_some hlookup, hwf, listing, hl, hm⟩

/-- `Represents` with another value in the entry of a key: the map shows that value under its class,
with the key that was stored first. -/
theorem replace (h : Represents I t m) {key : K.Key} {val : ν} (hwf : t'.WellFormed)
    (hrep : Entry.Replaced (Entry.isFor K key.1) val t.entries t'.entries) :
    ∃ stored old, I.index stored = I.index key ∧
      m.lookup (I.index key) = some (I.view stored old) ∧
      Represents I t' (m.insert (I.index key) (I.view stored val)) := by
  obtain ⟨e, rest, he, hbefore, hafter⟩ := hrep
  obtain ⟨stored, old, rfl, hlookup, listing, hl, hm⟩ := h.exists_of_perm_cons hbefore
  have hindex := (isFor_ofKey I stored key old).1 he
  rw [hindex] at hlookup hm
  refine ⟨stored, old, hindex, hlookup, hwf, (stored, val) :: listing, hafter.trans (hl.cons _), ?_⟩
  rw [entries_insert_eq, hm, ← hindex]
  rfl

/-! ### The operations -/

/-- `Table.add` is refused where the class is in the map, and else inserts it. -/
theorem add (h : Represents I t m) (key : K.Key) (val : ν) :
    (I.index key ∈ m ∧ ∃ t', t.add key.1 val = .ok (.error .keyExists, t') ∧
        Represents I t' m) ∨
      (I.index key ∉ m ∧ ∃ t', t.add key.1 val = .ok (.ok (), t') ∧
        Represents I t' (m.insert (I.index key) (I.view key val))) := by
  rcases h.wellFormed.add_ok key.1 val with
    ⟨t', hadd, hkept, e, he, hfor⟩ | ⟨t', hadd, hwf, hperm, hnone⟩
  · refine .inl ⟨?_, t', hadd, h.kept hkept⟩
    by_contra hnot
    rw [(h.forall_isFor_eq_false_iff key).2 hnot e he] at hfor
    cases hfor
  · have hnot := (h.forall_isFor_eq_false_iff key).1 hnone
    exact .inr ⟨hnot, t', hadd, h.insert hnot hwf hperm⟩

/-- `Table.set` inserts the value under the class, with the key that was stored first. -/
theorem set (h : Represents I t m) (key : K.Key) (val : ν) :
    ∃ t', t.set key.1 val = .ok t' ∧
      ((∃ stored old, I.index stored = I.index key ∧
          m.lookup (I.index key) = some (I.view stored old) ∧
          Represents I t' (m.insert (I.index key) (I.view stored val))) ∨
        (I.index key ∉ m ∧ Represents I t' (m.insert (I.index key) (I.view key val)))) := by
  obtain ⟨t', hset, hwf, hrep | ⟨hperm, hnone⟩⟩ := h.wellFormed.set_ok key.1 val
  · exact ⟨t', hset, .inl (h.replace hwf hrep)⟩
  · have hnot := (h.forall_isFor_eq_false_iff key).1 hnone
    exact ⟨t', hset, .inr ⟨hnot, h.insert hnot hwf hperm⟩⟩

/-- `Table.find` answers the entry of the class, if it is in the map. -/
theorem find (h : Represents I t m) (key : K.Key) :
    ∃ t', Represents I t' m ∧
      ((I.index key ∉ m ∧ t.find key.1 = .ok (none, t')) ∨
        ∃ stored val, I.index stored = I.index key ∧
          m.lookup (I.index key) = some (I.view stored val) ∧
          t.find key.1 = .ok (some (Entry.ofKey stored val), t')) := by
  obtain ⟨found, t', hfind, hkept, hsome, hnone⟩ := h.wellFormed.find_ok key.1
  refine ⟨t', h.kept hkept, ?_⟩
  cases found with
  | none => exact .inl ⟨(h.forall_isFor_eq_false_iff key).1 (hnone rfl), hfind⟩
  | some e =>
      obtain ⟨he, hfor⟩ := hsome e rfl
      obtain ⟨stored, val, rfl, hlookup⟩ := h.exists_of_mem he
      have hindex := (isFor_ofKey I stored key val).1 hfor
      rw [hindex] at hlookup
      exact .inr ⟨stored, val, hindex, hlookup, hfind⟩

/-- `Table.delete` erases the class, if it is in the map. -/
theorem delete (h : Represents I t m) (key : K.Key) :
    (I.index key ∈ m ∧ ∃ t', t.delete key.1 = .ok (.ok (), t') ∧
        Represents I t' (m.erase (I.index key))) ∨
      (I.index key ∉ m ∧ ∃ t', t.delete key.1 = .ok (.error .keyNotFound, t') ∧
        Represents I t' m) := by
  rcases h.wellFormed.delete_ok key.1 with ⟨t', hdelete, hwf, hrem⟩ | ⟨t', hdelete, hkept, hnone⟩
  · obtain ⟨hmem, h'⟩ := h.erase hwf hrem
    exact .inl ⟨hmem, t', hdelete, h'⟩
  · exact .inr ⟨(h.forall_isFor_eq_false_iff key).1 hnone, t', hdelete, h.kept hkept⟩

/-- `Table.sample` answers an entry of the map, or none. -/
theorem sample (h : Represents I t m) (draws : Draws) :
    ∃ t', Represents I t' m ∧
      (t.sample draws = .ok (none, t') ∨
        ∃ stored val, m.lookup (I.index stored) = some (I.view stored val) ∧
          t.sample draws = .ok (some (Entry.ofKey stored val), t')) := by
  obtain ⟨found, t', hsample, hkept, hmem⟩ := h.wellFormed.sample_ok draws
  refine ⟨t', h.kept hkept, ?_⟩
  cases found with
  | none => exact .inl hsample
  | some e =>
      obtain ⟨stored, val, rfl, hlookup⟩ := h.exists_of_mem (hmem e rfl)
      exact .inr ⟨stored, val, hlookup, hsample⟩

end Represents

end Table

end KeyValueServer
