import KeyValueServer.Proofs.Keyspace.Events

/-!
# What clients see of expiration

Cycles of expiration remove keys that are due at times and in an order that nobody chose. A client
cannot tell: a key that is due is gone for those who ask for it, whether a cycle has removed it or
not (`Maps.Gone`). The one request that can tell is `EXPIRE`, which gives a key a new deadline
without a look at the old one. If the key was due and still there, it lives on; if a cycle has
removed it, it does not.

## Main results

* `Keyspace.expiration_invisible`: without such an `EXPIRE`, cycles change no reply.
* `Keyspace.get_nil_of_lapsed`: without such an `EXPIRE`, a key that is due stays gone until it is
  stored again.
* `Keyspace.lapsed_key_revived`: with one, it does not.
-/

namespace KeyValueServer

namespace Keyspace

/-! ### Events in order -/

/-- `InOrder since events`: the readings of the clock at the events never go back, and none is
before `since`. -/
def InOrder (since : Int64) (events : List Event) : Prop :=
  (since :: events.map Event.time).Pairwise (· ≤ ·)

instance (since : Int64) (events : List Event) : Decidable (InOrder since events) :=
  inferInstanceAs (Decidable (List.Pairwise (· ≤ ·) (since :: events.map Event.time)))

/-- `InOrder` of the first event and those behind it. -/
theorem inOrder_cons {since : Int64} {e : Event} {events : List Event}
    (h : InOrder since (e :: events)) : since ≤ e.time ∧ InOrder e.time events := by
  rw [InOrder, List.map_cons, List.pairwise_cons] at h
  exact ⟨h.1 e.time List.mem_cons_self, h.2⟩

/-- `EachFinds P events s`: each event of the run finds the keyspace as `P` says. -/
def EachFinds (P : Event → Keyspace → Prop) : List Event → Keyspace → Prop
  | [], _ => True
  | e :: rest, s => P e s ∧ ∀ outcomes s', serve [e] s = .ok (outcomes, s') → EachFinds P rest s'

namespace EachFinds

variable {P : Event → Keyspace → Prop} {e : Event} {events : List Event} {s s' : Keyspace}
  {outcomes : List Outcome}

/-- `EachFinds` of the first event, at the keyspace that the run begins with. -/
theorem head (h : EachFinds P (e :: events) s) : P e s := h.1

/-- `EachFinds` of the others, at what the first one leaves. -/
theorem tail (h : EachFinds P (e :: events) s) (hserve : serve [e] s = .ok (outcomes, s')) :
    EachFinds P events s' :=
  h.2 outcomes s' hserve

/-- `EachFinds` of an event and those behind it. -/
theorem cons (h : P e s) (hserve : serve [e] s = .ok (outcomes, s'))
    (hs : EachFinds P events s') : EachFinds P (e :: events) s := by
  refine ⟨h, fun outcomes' s'' hserve' => ?_⟩
  rw [hserve] at hserve'
  cases hserve'
  exact hs

end EachFinds

/-! ### Keys that are gone -/

namespace Maps

variable {m m' : Maps} {key other : Bytes} {now later : Int64}

/-- `isDue` goes on to hold. -/
theorem isDue_mono (h : m.isDue key now = true) (hle : now ≤ later) :
    m.isDue key later = true := by
  rw [isDue] at h ⊢
  cases hdeadline : m.deadlines.lookup key with
  | none =>
      rw [hdeadline] at h
      cases h
  | some deadline =>
      rw [hdeadline] at h
      have hdue : deadline ≤ now := of_decide_eq_true h
      exact decide_eq_true (Int64.le_trans hdue hle)

/-- `Maps.evict` leaves the key in neither map. -/
theorem evict_at (m : Maps) (key : Bytes) :
    (m.evict key).values.lookup key = none ∧ (m.evict key).deadlines.lookup key = none :=
  ⟨Finmap.lookup_erase key _, Finmap.lookup_erase key _⟩

/-- `Maps.upTo` shows the value of a key that is not due. -/
theorem lookup_upTo (m : Maps) (key : Bytes) (now : Int64) :
    (m.upTo key now).values.lookup key =
      if m.isDue key now = true then none else m.values.lookup key := by
  rw [upTo]
  by_cases hdue : m.isDue key now = true
  · rw [if_pos hdue, if_pos hdue]
    exact (evict_at m key).1
  · rw [if_neg hdue, if_neg hdue]

/-- `Maps.upTo` changes nothing at a key that is not due. -/
theorem upTo_eq_self (h : m.isDue key now = false) : m.upTo key now = m := by
  rw [upTo, h]
  rfl

/-- `Maps.store` does not depend on what was there. -/
theorem sameAt_store_store (m m' : Maps) (key : Bytes) (value : Value) :
    (m.store key value).SameAt (m'.store key value) key := by
  refine ⟨?_, ?_⟩
  · rw [store, store, Finmap.lookup_insert, Finmap.lookup_insert]
  · rw [store, store, Finmap.lookup_erase, Finmap.lookup_erase]

/-- `Maps.setDeadline` keeps `SameAt`. -/
theorem SameAt.setDeadline (h : m.SameAt m' key) (deadline : Int64) :
    (m.setDeadline key deadline).SameAt (m'.setDeadline key deadline) key := by
  refine ⟨h.1, ?_⟩
  rw [Maps.setDeadline, Maps.setDeadline, Finmap.lookup_insert, Finmap.lookup_insert]

/-- `m.Gone key now`: the key is gone, from `now` on, to those who ask for it. -/
def Gone (m : Maps) (key : Bytes) (now : Int64) : Prop :=
  m.isDue key now = true ∨ m.values.lookup key = none

namespace Gone

/-- `Gone` goes on to hold. -/
theorem mono (h : m.Gone key now) (hle : now ≤ later) : m.Gone key later := by
  rcases h with hdue | hnone
  · exact .inl (isDue_mono hdue hle)
  · exact .inr hnone

/-- Who asks for a key that is `Gone` finds nothing. -/
theorem lookup_eq (h : m.Gone key now) : (m.upTo key now).values.lookup key = none := by
  rw [lookup_upTo]
  rcases h with hdue | hnone
  · rw [if_pos hdue]
  · rw [hnone]
    split <;> rfl

/-- `Gone` is kept where nothing has changed at the key. -/
theorem of_sameAt (h : m.Gone key now) (hsame : m.SameAt m' key) : m'.Gone key now := by
  rcases h with hdue | hnone
  · exact .inl (by rw [hsame.isDue_eq, hdue])
  · exact .inr (by rw [hsame.1, hnone])

/-- `Maps.evict` brings nothing back. -/
theorem evict (h : m.Gone key now) (other : Bytes) : (m.evict other).Gone key now := by
  by_cases hkey : key = other
  · subst hkey
    exact .inr (Finmap.lookup_erase key m.values)
  · exact h.of_sameAt (sameAt_evict hkey)

/-- `Expires` brings nothing back. -/
theorem expires {n : Nat} (h : m.Gone key now) (hs : m.Expires later n m') : m'.Gone key now := by
  induction hs with
  | nil => exact h
  | cons _ _ ih => exact ih (h.evict _)

/-- **`Maps.meet` brings a key back** only if it stores a value under it, or gives it a deadline
while there is a value. -/
theorem meet (h : m.Gone key now) (d : Demand) (hstore : ∀ bytes, d ≠ .store key bytes)
    (hdeadline : ∀ deadline, d = .setDeadline key deadline → m.values.lookup key = none) :
    (m.meet now d).2.Gone key now := by
  cases d with
  | nothing outcome => exact h
  | get other =>
      change (m.upTo other now).Gone key now
      rw [upTo]
      split
      · exact h.evict other
      · exact h
  | store other bytes =>
      have hkey : key ≠ other := by
        rintro rfl
        exact hstore bytes rfl
      exact h.of_sameAt (sameAt_store hkey)
  | setDeadline other deadline =>
      by_cases hkey : key = other
      · subst hkey
        exact .inr (hdeadline deadline rfl)
      · exact h.of_sameAt (sameAt_setDeadline hkey)

end Gone

end Maps

/-- **A key that is `Gone` stays so** over events none of which is a `SET` of it, or an `EXPIRE` of
it while a value is stored. -/
theorem Tracks.serve_gone {s : Keyspace} {fit : Value → Prop} {m : Maps} (h : s.Tracks fit m)
    (hfit : ∀ n, fit (.int n)) {key : Bytes} {since : Int64} (hgone : m.Gone key since)
    {events : List Event} (horder : InOrder since events)
    (hset : ∀ e ∈ events, e.isSetOf key = false)
    (hexpire : EachFinds (fun e s' => e.isExpireOf key = true → ¬ s'.Stores key) events s) :
    ∃ outcomes s' m', serve events s = .ok (outcomes, s') ∧ s'.Tracks fit m' ∧
      ∀ now, since ≤ now → (∀ e ∈ events, e.time ≤ now) → m'.Gone key now := by
  induction events generalizing s m since with
  | nil => exact ⟨[], s, m, rfl, h, fun _ hsince _ => hgone.mono hsince⟩
  | cons e rest ih =>
      obtain ⟨hsince, hrest⟩ := inOrder_cons horder
      have hnow : m.Gone key e.time := hgone.mono hsince
      -- one event leaves the key gone
      have hstep : ∃ outcomes s₁ m₁, serve [e] s = .ok (outcomes, s₁) ∧ s₁.Tracks fit m₁ ∧
          m₁.Gone key e.time := by
        cases e with
        | request name args now =>
            obtain ⟨s₁, hserve, h₁⟩ := h.serve_request hfit name args now
            refine ⟨_, s₁, _, hserve, h₁, hnow.meet _ ?_ ?_⟩
            · intro bytes hdemand
              have hno := hset _ List.mem_cons_self
              rw [Event.isSetOf_of_demand hdemand] at hno
              cases hno
            · intro deadline hdemand
              have hno := hexpire.head (Event.isExpireOf_of_demand hdemand)
              rw [h.stores_iff] at hno
              exact not_not.1 hno
        | cycle count now draws =>
            obtain ⟨n, s₁, m₁, hserve, hexpires, h₁⟩ := h.serve_cycle count now draws
            exact ⟨_, s₁, m₁, hserve, h₁, hnow.expires hexpires⟩
      obtain ⟨outcomes, s₁, m₁, hserve, h₁, hgone₁⟩ := hstep
      obtain ⟨outcomes', s', m', hserve', h', hgone'⟩ := ih h₁ hgone₁ hrest
        (fun e' he' => hset e' (List.mem_cons_of_mem e he')) (hexpire.tail hserve)
      refine ⟨outcomes ++ outcomes', s', m', serve_append hserve hserve', h', ?_⟩
      intro now _ hle
      exact hgone' now (hle e List.mem_cons_self)
        fun e' he' => hle e' (List.mem_cons_of_mem e he')

/-- **A key that has `Lapsed` is gone until it is stored again**, over requests and cycles of any
kind in the order of their times, unless an `EXPIRE` of it is carried out while its value is still
stored: `GET` has nothing to give. -/
theorem get_nil_of_lapsed {s : Keyspace} (h : s.HasTextKeys) {key : Bytes} {since : Int64}
    (hlapsed : s.Lapsed key since) {events : List Event} {name : Bytes} {now : Int64}
    (horder : InOrder since (events ++ [.request name [key] now]))
    (hget : Command.lookup? name = some .get) (hset : ∀ e ∈ events, e.isSetOf key = false)
    (hexpire : EachFinds (fun e s' => e.isExpireOf key = true → ¬ s'.Stores key) events s) :
    ∃ outcomes s', serve (events ++ [.request name [key] now]) s =
      .ok (outcomes ++ [.reply .nil], s') := by
  obtain ⟨m, hm⟩ := h.exists_tracks
  have hgone : m.Gone key since := .inl ((hm.lapsed_iff key since).1 hlapsed)
  rw [InOrder, List.map_append, ← List.cons_append, List.pairwise_append] at horder
  obtain ⟨hevents, -, hlast⟩ := horder
  have hle : ∀ t ∈ since :: events.map Event.time, t ≤ now :=
    fun t ht => hlast t ht now List.mem_cons_self
  obtain ⟨outcomes, s₁, m₁, hserve, h₁, hgone₁⟩ :=
    hm.serve_gone (fun _ => trivial) hgone hevents hset hexpire
  have hnow : m₁.Gone key now := by
    refine hgone₁ now (hle since List.mem_cons_self) fun e he => ?_
    exact hle e.time (List.mem_cons_of_mem since (List.mem_map_of_mem he))
  obtain ⟨s₂, hrequest, -⟩ := h₁.serve_request (fun _ => trivial) name [key] now
  rw [demand_get hget, Maps.meet, hnow.lookup_eq, replyOf] at hrequest
  exact ⟨outcomes, s₂, serve_append hserve hrequest⟩

/-- A value may be stored and its deadline have come. -/
theorem exists_lapsed :
    ∃ s, serve [.ofTexts "SET" ["k", "v"] 0, .ofTexts "EXPIRE" ["k", "0"] 0] .empty =
        .ok ([.reply .done, .reply .done], s) ∧
      s.Tracks (fun _ => True)
        ((Maps.empty.store (Bytes.ofText "k") (.str (Bytes.ofText "v"))).setDeadline
          (Bytes.ofText "k") 0) := by
  have h₀ : Tracks .empty (fun _ => True) .empty := .empty
  obtain ⟨s₁, hset, h₁⟩ := h₀.serve_request (fun _ => trivial) (Bytes.ofText "SET")
    [Bytes.ofText "k", Bytes.ofText "v"] 0
  obtain ⟨s₂, hexpire, h₂⟩ := h₁.serve_request (fun _ => trivial) (Bytes.ofText "EXPIRE")
    [Bytes.ofText "k", Bytes.ofText "0"] 0
  exact ⟨s₂, serve_append hset hexpire, h₂⟩

/-- A key has lapsed. An `EXPIRE` with no number in it, and a `GET`, come before the next deadline,
so the value is gone. -/
theorem get_nil_of_lapsed_evicted :
    ∃ s, serve [.ofTexts "SET" ["k", "v"] 0, .ofTexts "EXPIRE" ["k", "0"] 0] .empty =
        .ok ([.reply .done, .reply .done], s) ∧ s.HasTextKeys ∧ s.Lapsed (Bytes.ofText "k") 0 ∧
      ∃ outcomes s', serve ([.ofTexts "EXPIRE" ["k", "soon"] 0, .ofTexts "GET" ["k"] 5,
          .ofTexts "EXPIRE" ["k", "100"] 5] ++ [.ofTexts "GET" ["k"] 9]) s =
        .ok (outcomes ++ [.reply .nil], s') := by
  obtain ⟨s, hserve, h⟩ := exists_lapsed
  have hlapsed : s.Lapsed (Bytes.ofText "k") 0 := (h.lapsed_iff _ _).2 rfl
  -- what the three events find, one after the other
  obtain ⟨s₁, hsoon, h₁⟩ := h.serve_request (fun _ => trivial) (Bytes.ofText "EXPIRE")
    [Bytes.ofText "k", Bytes.ofText "soon"] 0
  obtain ⟨s₂, hget, h₂⟩ := h₁.serve_request (fun _ => trivial) (Bytes.ofText "GET")
    [Bytes.ofText "k"] 5
  have hgone : ¬ s₂.Stores (Bytes.ofText "k") := by
    rw [h₂.stores_iff]
    exact not_not.2 rfl
  refine ⟨s, hserve, h.hasTextKeys, hlapsed, ?_⟩
  refine get_nil_of_lapsed h.hasTextKeys hlapsed (by decide) rfl (by decide) ?_
  exact .cons nofun hsoon (.cons nofun hget ⟨fun _ => hgone, fun _ _ _ => trivial⟩)

/-- A key that has `Lapsed` lives on when an `EXPIRE` finds its value still stored. -/
theorem lapsed_key_revived :
    ∃ s s', serve [.ofTexts "SET" ["k", "v"] 0, .ofTexts "EXPIRE" ["k", "0"] 0] .empty =
        .ok ([.reply .done, .reply .done], s) ∧ s.HasTextKeys ∧ s.Lapsed (Bytes.ofText "k") 0 ∧
      serve [.ofTexts "EXPIRE" ["k", "1000000"] 0, .ofTexts "GET" ["k"] 0] s =
        .ok ([.reply .done, .reply (.bulk (.str (Bytes.ofText "v")))], s') := by
  obtain ⟨s, hserve, h⟩ := exists_lapsed
  obtain ⟨s₁, hlater, h₁⟩ := h.serve_request (fun _ => trivial) (Bytes.ofText "EXPIRE")
    [Bytes.ofText "k", Bytes.ofText "1000000"] 0
  obtain ⟨s₂, hget, -⟩ := h₁.serve_request (fun _ => trivial) (Bytes.ofText "GET")
    [Bytes.ofText "k"] 0
  exact ⟨s, s₂, hserve, h.hasTextKeys, (h.lapsed_iff _ _).2 rfl, serve_append hlater hget⟩

/-! ### Keys that cycles have removed -/

namespace Maps

variable {m m' n n' : Maps} {key other : Bytes} {now later : Int64}

/-- `m.AheadAt m' key now`: at the key, `m'` is where `m` is, or ahead of it, that is, a key that is
due in `m` may have left `m'` already. -/
def AheadAt (m m' : Maps) (key : Bytes) (now : Int64) : Prop :=
  m.SameAt m' key ∨
    m.isDue key now = true ∧ m'.values.lookup key = none ∧ m'.deadlines.lookup key = none

namespace AheadAt

/-- `AheadAt` is reflexive. -/
theorem refl : m.AheadAt m key now := .inl .rfl

/-- `AheadAt` goes on to hold. -/
theorem mono (h : m.AheadAt m' key now) (hle : now ≤ later) : m.AheadAt m' key later := by
  rcases h with hsame | ⟨hdue, hleft⟩
  · exact .inl hsame
  · exact .inr ⟨isDue_mono hdue hle, hleft⟩

/-- `AheadAt` is kept by changes at other keys. -/
theorem of_sameAt (h : m.AheadAt m' key now) (hm : m.SameAt n key) (hm' : m'.SameAt n' key) :
    n.AheadAt n' key now := by
  rcases h with ⟨hvalue, hdeadline⟩ | ⟨hdue, hvalue, hdeadline⟩
  · refine .inl ⟨?_, ?_⟩
    · rw [hm'.1, hm.1, hvalue]
    · rw [hm'.2, hm.2, hdeadline]
  · refine .inr ⟨?_, ?_, ?_⟩
    · rw [hm.isDue_eq, hdue]
    · rw [hm'.1, hvalue]
    · rw [hm'.2, hdeadline]

/-- What is due in the maps ahead is due. -/
theorem isDue (h : m.AheadAt m' key now) (hdue : m'.isDue key now = true) :
    m.isDue key now = true := by
  rcases h with hsame | ⟨hdue', -⟩
  · rw [← hsame.isDue_eq]
    exact hdue
  · exact hdue'

/-- A key that is not due has not left the maps ahead. -/
theorem sameAt (h : m.AheadAt m' key now) (hdue : m.isDue key now = false) : m.SameAt m' key := by
  rcases h with hsame | ⟨hdue', -⟩
  · exact hsame
  · rw [hdue] at hdue'
    cases hdue'

/-- `upTo` of maps of which one is ahead is the same at the key. -/
theorem sameAt_upTo (h : m.AheadAt m' key now) : (m.upTo key now).SameAt (m'.upTo key now) key := by
  cases hdue : m.isDue key now with
  | false =>
      have hsame := h.sameAt hdue
      rw [upTo_eq_self hdue, upTo_eq_self (by rw [hsame.isDue_eq, hdue])]
      exact hsame
  | true =>
      -- the key leaves `m`, and has left `m'` or leaves it now
      have hleft : (m'.upTo key now).values.lookup key = none ∧
          (m'.upTo key now).deadlines.lookup key = none := by
        cases hdue' : m'.isDue key now with
        | true =>
            rw [upTo, if_pos hdue']
            exact evict_at m' key
        | false =>
            rw [upTo_eq_self hdue']
            rcases h with hsame | ⟨-, hvalue, hdeadline⟩
            · rw [hsame.isDue_eq, hdue] at hdue'
              cases hdue'
            · exact ⟨hvalue, hdeadline⟩
      rw [upTo, if_pos hdue]
      exact ⟨hleft.1.trans (evict_at m key).1.symm, hleft.2.trans (evict_at m key).2.symm⟩

/-- `Expires` may take keys from the maps ahead. -/
theorem expires {count : Nat} (h : ∀ key, m.AheadAt m' key now) (hs : m'.Expires now count n') :
    ∀ key, m.AheadAt n' key now := by
  induction hs with
  | nil => exact h
  | @cons m' n' count gone hdue _ ih =>
      refine ih fun key => ?_
      by_cases hkey : key = gone
      · subst hkey
        exact .inr ⟨(h key).isDue hdue, evict_at m' key⟩
      · exact (h key).of_sameAt .rfl (sameAt_evict hkey)

/-- **`Maps.meet` is alike** in maps that are ahead, unless it gives a deadline to a key that is
due. -/
theorem meet (h : ∀ key, m.AheadAt m' key now) (d : Demand)
    (hdeadline : ∀ key deadline, d = .setDeadline key deadline → m.isDue key now = false) :
    (m'.meet now d).1 = (m.meet now d).1 ∧
      ∀ key, (m.meet now d).2.AheadAt (m'.meet now d).2 key now := by
  cases d with
  | nothing outcome => exact ⟨rfl, h⟩
  | get other =>
      have hother := (h other).sameAt_upTo
      refine ⟨?_, fun key => ?_⟩
      · change Outcome.reply (replyOf _) = .reply (replyOf _)
        rw [hother.1]
      · by_cases hkey : key = other
        · subst hkey
          exact .inl hother
        · exact (h key).of_sameAt (Maps.sameAt_upTo hkey) (Maps.sameAt_upTo hkey)
  | store other bytes =>
      refine ⟨rfl, fun key => ?_⟩
      by_cases hkey : key = other
      · subst hkey
        exact .inl (sameAt_store_store m m' key (.str bytes))
      · exact (h key).of_sameAt (sameAt_store hkey) (sameAt_store hkey)
  | setDeadline other deadline =>
      refine ⟨rfl, fun key => ?_⟩
      by_cases hkey : key = other
      · subst hkey
        have hsame := (h key).sameAt (hdeadline key deadline rfl)
        exact .inl (hsame.setDeadline deadline)
      · exact (h key).of_sameAt (sameAt_setDeadline hkey) (sameAt_setDeadline hkey)

end AheadAt

end Maps

/-- `serve` comes to the same with cycles between the requests, where the second keyspace is ahead
of the first by keys that are due. -/
theorem Tracks.serve_ahead {s s' : Keyspace} {fit : Value → Prop} {m m' : Maps}
    (h : s.Tracks fit m) (h' : s'.Tracks fit m') (hfit : ∀ n, fit (.int n)) {events : List Event}
    (hahead : ∀ e ∈ events, ∀ key, m.AheadAt m' key e.time)
    (horder : (events.map Event.time).Pairwise (· ≤ ·))
    (hexpire : EachFinds (fun e s => ∀ key, e.isExpireOf key = true → ¬ s.Lapsed key e.time)
      (events.filter Event.isRequest) s) :
    ∃ outcomes s₁ s₂, serve (events.filter Event.isRequest) s = .ok (outcomes, s₁) ∧
      serve events s' = .ok (outcomes, s₂) := by
  induction events generalizing s s' m m' with
  | nil => exact ⟨[], s, s', rfl, rfl⟩
  | cons e rest ih =>
      rw [List.map_cons, List.pairwise_cons] at horder
      obtain ⟨hfirst, hrest⟩ := horder
      have hnow := hahead e List.mem_cons_self
      -- what is due at this event is due at all later ones, so the relation lasts
      have hlater : ∀ {n n' : Maps}, (∀ key, n.AheadAt n' key e.time) →
          ∀ e' ∈ rest, ∀ key, n.AheadAt n' key e'.time :=
        fun hn e' he' key => (hn key).mono (hfirst e'.time (List.mem_map_of_mem he'))
      cases e with
      | request name args now =>
          rw [List.filter_cons_of_pos rfl] at hexpire ⊢
          obtain ⟨s₁, hserve, h₁⟩ := h.serve_request hfit name args now
          obtain ⟨s₁', hserve', h₁'⟩ := h'.serve_request hfit name args now
          have hdue : ∀ key deadline, demand name args now = .setDeadline key deadline →
              m.isDue key now = false := by
            intro key deadline hdemand
            have hnot := hexpire.head key (Event.isExpireOf_of_demand hdemand)
            rw [h.lapsed_iff] at hnot
            exact Bool.eq_false_of_not_eq_true hnot
          obtain ⟨hsame, hahead₁⟩ :
              (m'.meet now (demand name args now)).1 = (m.meet now (demand name args now)).1 ∧ _ :=
            Maps.AheadAt.meet hnow _ hdue
          obtain ⟨outcomes, s₂, s₂', hall, hall'⟩ :=
            ih h₁ h₁' (hlater hahead₁) hrest (hexpire.tail hserve)
          rw [hsame] at hserve'
          exact ⟨_, s₂, s₂', serve_append hserve hall, serve_append hserve' hall'⟩
      | cycle count now draws =>
          rw [List.filter_cons_of_neg Bool.false_ne_true] at hexpire ⊢
          obtain ⟨n, s₁', m₁', hserve', hexpires, h₁'⟩ := h'.serve_cycle count now draws
          have hahead₁ := Maps.AheadAt.expires hnow hexpires
          obtain ⟨outcomes, s₂, s₂', hall, hall'⟩ := ih h h₁' (hlater hahead₁) hrest hexpire
          exact ⟨outcomes, s₂, s₂', hall, serve_append hserve' hall'⟩

/-- **Clients cannot tell whether keys expire in cycles**: the requests of `serve` come to the same
outcomes with any cycles between them, in the order of their times, as long as no `EXPIRE` that is
carried out finds its key `Lapsed` when there are no cycles. -/
theorem expiration_invisible {s : Keyspace} (h : s.HasTextKeys) {events : List Event}
    (horder : (events.map Event.time).Pairwise (· ≤ ·))
    (hexpire : EachFinds (fun e s => ∀ key, e.isExpireOf key = true → ¬ s.Lapsed key e.time)
      (events.filter Event.isRequest) s) :
    ∃ outcomes s₁ s₂, serve (events.filter Event.isRequest) s = .ok (outcomes, s₁) ∧
      serve events s = .ok (outcomes, s₂) := by
  obtain ⟨m, hm⟩ := h.exists_tracks
  exact hm.serve_ahead hm (fun _ => trivial) (fun _ _ _ => .refl) horder hexpire

/-- A cycle before a deadline, and one at the deadline. -/
theorem expiration_invisible_of_deadline :
    ∃ outcomes s₁ s₂, serve [.ofTexts "SET" ["k", "v"] 0, .ofTexts "EXPIRE" ["k", "1"] 5,
          .ofTexts "GET" ["k"] 900, .ofTexts "GET" ["k"] 1005] .empty = .ok (outcomes, s₁) ∧
      serve [.ofTexts "SET" ["k", "v"] 0, .ofTexts "EXPIRE" ["k", "1"] 5,
          .cycle 3 800 fun _ => ⟨fun _ => 0, 0⟩, .ofTexts "GET" ["k"] 900,
          .cycle 3 1005 fun _ => ⟨fun _ => 0, 0⟩, .ofTexts "GET" ["k"] 1005] .empty =
        .ok (outcomes, s₂) := by
  have h₀ : Tracks .empty (fun _ => True) .empty := .empty
  obtain ⟨s₁, hset, h₁⟩ := h₀.serve_request (fun _ => trivial) (Bytes.ofText "SET")
    [Bytes.ofText "k", Bytes.ofText "v"] 0
  have horder : (([.ofTexts "SET" ["k", "v"] 0, .ofTexts "EXPIRE" ["k", "1"] 5,
      .cycle 3 800 fun _ => ⟨fun _ => 0, 0⟩, .ofTexts "GET" ["k"] 900,
      .cycle 3 1005 fun _ => ⟨fun _ => 0, 0⟩, .ofTexts "GET" ["k"] 1005] : List Event).map
        Event.time).Pairwise (· ≤ ·) := by
    decide
  -- the one `EXPIRE` comes when there is no deadline yet
  refine expiration_invisible h₀.hasTextKeys horder (.cons nofun hset ⟨?_, ?_⟩)
  · rintro key -
    rw [h₁.lapsed_iff]
    exact Bool.false_ne_true
  · intro outcomes s' hexpire
    exact ⟨nofun, fun _ _ _ => ⟨nofun, fun _ _ _ => trivial⟩⟩

end Keyspace

end KeyValueServer
