import KeyValueServer.Proofs.Reactor.Timers
import KeyValueServer.Proofs.Reactor.Turns

/-!
# Chains of turns

A turn begins where the one before it ended, and nothing but turns changes a loop. A handler is told
of what is registered for the item whose turn it is, its actions are carried out, and then the item
is settled (`Reactor.Taken`). What a turn makes of the loop is described by `Reactor.Descends`, and
so is what a chain of turns makes of it (`Reactor.Chained`).

## Main results

* `Reactor.Taken.descends`, `Reactor.Chained.descends`: what turns make of the loop.
* `Reactor.Taken.gone_of_cancel`, `Reactor.Taken.gone_of_once`: the turns after which a timer has
  gone.
* `Reactor.Chained.pairwise`: from a turn to any later one the loop descends.
-/

namespace KeyValueServer

variable {φ τ σ : Type}

/-- `event.timer?` is the number of the timer that has fired, if it is one. -/
def Fired.timer? : Fired φ τ → Option Nat
  | .timer id _ => some id
  | .descriptor .. => none

namespace Reactor

/-! ### A turn -/

/-- `t.timer?` is the number of the timer that fires in the turn, if one does. -/
def Turn.timer? (t : Turn φ τ) : Option Nat :=
  t.fired?.bind Fired.timer?

/-- `t.created` are the timers that are created in the turn. -/
def Turn.created (t : Turn φ τ) : List (Nat × TimerKind) :=
  t.before.created t.actions

/-- `timersIn turns` are the numbers of the timers that fire in the turns. -/
def timersIn (turns : List (Turn φ τ)) : List Nat :=
  turns.filterMap Turn.timer?

/-- `createdIn turns` are the timers that are created in the turns. -/
def createdIn (turns : List (Turn φ τ)) : List (Nat × TimerKind) :=
  turns.flatMap Turn.created

/-- `Taken handler t`: the turn `t` is one of a loop with that handler. -/
inductive Taken (handler : Handler φ τ σ) : Turn φ τ → Prop
  /-- The loop is asked for something from outside. -/
  | asked (r : Reactor φ τ) (action : Action φ τ) :
      Taken handler ⟨none, r, none, [action], r.act action⟩
  /-- Nothing is registered for the item. -/
  | passed {r : Reactor φ τ} {item : Item} (h : r.fires? item = none) :
      Taken handler ⟨some item, r, none, [], .ok r⟩
  /-- The handler is told of what is registered for the item, and faults. -/
  | failed {r : Reactor φ τ} {s : σ} {item : Item} {event : Fired φ τ} {fault : Fault}
      (h : r.fires? item = some event) (hhandler : handler event r s = .error fault) :
      Taken handler ⟨some item, r, some event, [], .error fault⟩
  /-- The handler is told of what is registered for the item, and what it asks for is done. -/
  | fired {r : Reactor φ τ} {s s' : σ} {item : Item} {event : Fired φ τ}
      {actions : List (Action φ τ)} (later : Nat → Nat) (h : r.fires? item = some event)
      (hhandler : handler event r s = .ok (actions, s')) :
      Taken handler ⟨some item, r, some event, actions,
        actions.foldlM act r >>= fun r' => r.settleItem later r' item⟩

variable {handler : Handler φ τ σ} {later : Nat → Nat} {r r' r₁ : Reactor φ τ} {s s' : σ}
  {t : Turn φ τ} {turns turns' : List (Turn φ τ)} {result : Checked (Reactor φ τ)} {id : Nat}
  {item : Item}

/-- What fires in a turn is what `fires?` says of its item. -/
theorem Taken.fired?_eq (h : Taken handler t) : t.fired? = t.item?.bind t.before.fires? := by
  cases h with
  | asked r action => rfl
  | passed h => exact h.symm
  | failed h hhandler => exact h.symm
  | fired later h hhandler => exact h.symm

/-- A timer fires when its turn has come and it is there. -/
theorem Taken.fired?_timer_iff (h : Taken handler t) {tag : τ} :
    t.fired? = some (.timer id tag) ↔
      t.item? = some (.timer id) ∧ ∃ timer, t.before.timer? id = some timer ∧ timer.tag = tag := by
  rw [h.fired?_eq, Option.bind_eq_some_iff]
  constructor
  · rintro ⟨item, hitem, hfires⟩
    cases item with
    | timer id' =>
        obtain ⟨timer, htimer, heq⟩ := Option.map_eq_some_iff.1 hfires
        obtain ⟨rfl, rfl⟩ := Fired.timer.inj heq
        exact ⟨hitem, timer, htimer, rfl⟩
    | descriptor fd direction =>
        obtain ⟨tag', -, heq⟩ := Option.map_eq_some_iff.1 hfires
        cases heq
  · rintro ⟨hitem, timer, htimer, rfl⟩
    exact ⟨_, hitem, Option.map_eq_some_iff.2 ⟨timer, htimer, rfl⟩⟩

/-- A descriptor fires when its turn has come and it is armed, under the tag of that moment. -/
theorem Taken.fired?_descriptor_iff (h : Taken handler t) {fd : Descriptor} {direction : Direction}
    {tag : φ} :
    t.fired? = some (.descriptor fd direction tag) ↔
      t.item? = some (.descriptor fd direction) ∧ t.before.tag? fd direction = some tag := by
  rw [h.fired?_eq, Option.bind_eq_some_iff]
  constructor
  · rintro ⟨item, hitem, hfires⟩
    cases item with
    | timer id =>
        obtain ⟨timer, -, heq⟩ := Option.map_eq_some_iff.1 hfires
        cases heq
    | descriptor fd' direction' =>
        obtain ⟨tag', htag, heq⟩ := Option.map_eq_some_iff.1 hfires
        obtain ⟨rfl, rfl, rfl⟩ := Fired.descriptor.inj heq
        exact ⟨hitem, htag⟩
  · rintro ⟨hitem, htag⟩
    exact ⟨_, hitem, Option.map_eq_some_iff.2 ⟨tag, htag, rfl⟩⟩

/-- A timer that fires has its turn and is there. -/
theorem Taken.timer?_eq_some (h : Taken handler t) (hid : t.timer? = some id) :
    t.item? = some (.timer id) ∧ ∃ timer, t.before.timer? id = some timer := by
  obtain ⟨event, hevent, hid⟩ := Option.bind_eq_some_iff.1 hid
  cases event with
  | timer id' tag =>
      obtain rfl := Option.some.inj hid
      obtain ⟨hitem, timer, htimer, -⟩ := h.fired?_timer_iff.1 hevent
      exact ⟨hitem, timer, htimer⟩
  | descriptor fd direction tag => cases hid

/-- `settleItem` creates no timer. -/
theorem descends_settleItem (h : r.settleItem later r₁ item = .ok r') : Descends r₁ [] r' := by
  cases item with
  | timer id =>
      rw [settleItem] at h
      cases htimer : r.timer? id with
      | none =>
          rw [htimer] at h
          obtain rfl := Except.ok.inj h
          exact .refl r₁
      | some timer =>
          rw [htimer] at h
          exact descends_settleTimer h
  | descriptor fd direction =>
      obtain rfl := Except.ok.inj h
      exact .refl r₁

/-- In a turn the actions are carried out, and then `settleItem`. -/
theorem Taken.performed (h : Taken handler t) (hafter : t.after = .ok r') :
    ∃ r₁, t.actions.foldlM act t.before = .ok r₁ ∧ Descends r₁ [] r' := by
  cases h with
  | asked r action =>
      refine ⟨r', ?_, .refl r'⟩
      dsimp only at hafter ⊢
      rw [List.foldlM_cons, hafter]
      rfl
  | passed h =>
      obtain rfl := Except.ok.inj hafter
      exact ⟨_, rfl, .refl _⟩
  | failed h hhandler => cases hafter
  | fired later h hhandler =>
      obtain ⟨r₁, hact, hsettle⟩ := Checked.bind_eq_ok_iff.1 hafter
      exact ⟨r₁, hact, descends_settleItem hsettle⟩

/-- **The loop `Descends` in a turn**, by the timers that are created in it. -/
theorem Taken.descends (h : Taken handler t) (hafter : t.after = .ok r') :
    Descends t.before t.created r' := by
  obtain ⟨r₁, hact, hend⟩ := h.performed hafter
  have hboth := (descends_foldlM_act hact).trans hend
  rwa [List.append_nil] at hboth

/-- A turn with a `stop` among its actions leaves the loop stopped. -/
theorem Taken.stopped (h : Taken handler t) (hafter : t.after = .ok r')
    (hstop : .stop ∈ t.actions) : r'.stopped = true := by
  obtain ⟨r₁, hact, hend⟩ := h.performed hafter
  obtain ⟨front, back, hactions⟩ := List.append_of_mem hstop
  rw [hactions, List.foldlM_append] at hact
  obtain ⟨r₂, -, hact⟩ := Checked.bind_eq_ok_iff.1 hact
  rw [List.foldlM_cons, act, Checked.ok_bind] at hact
  exact hend.stopped ((descends_foldlM_act hact).stopped rfl)

/-! ### Timers that have gone -/

/-- `r.Gone id`: the number of a timer has been given, and there is no such timer any more. -/
structure Gone (r : Reactor φ τ) (id : Nat) : Prop where
  /-- The number has been given. -/
  given : id < r.nextId
  /-- There is no such timer. -/
  notMem : ∀ kind, (id, kind) ∉ r.roster

/-- **A timer that has `Gone` stays away** where the loop `Descends`. -/
theorem Gone.descends {made : List (Nat × TimerKind)} (h : Gone r id) (hd : Descends r made r') :
    Gone r' id where
  given := by
    rw [hd.nextId_eq]
    exact Nat.lt_add_right made.length h.given
  notMem := fun kind hmem => h.notMem kind (hd.mem_roster hmem h.given)

/-- A timer that has `Gone` does not fire. -/
theorem Gone.timer?_ne (h : Gone t.before id) (ht : Taken handler t) : t.timer? ≠ some id := by
  intro hid
  obtain ⟨-, timer, htimer⟩ := ht.timer?_eq_some hid
  exact h.notMem timer.kind (mem_roster_of_timer? htimer)

/-- A timer that a `cancel` removes in a turn has `Gone` after it. -/
theorem Taken.gone_of_cancel (h : Taken handler t) (hordered : Ordered t.before)
    (hafter : t.after = .ok r') {front back : List (Action φ τ)}
    (hactions : t.actions = front ++ .cancel id :: back)
    (hfront : front.foldlM act t.before = .ok r₁) (hid : id < r₁.nextId) : Gone r' id := by
  obtain ⟨r₂, hact, hend⟩ := h.performed hafter
  rw [hactions, List.foldlM_append, hfront, Checked.ok_bind, List.foldlM_cons, act,
    Checked.ok_bind] at hact
  -- it goes in the middle of the callback, and what follows cannot bring it back
  have hgone : Gone (r₁.cancel id) id :=
    ⟨hid, (hordered.descends (descends_foldlM_act hfront)).notMem_roster_cancel id⟩
  exact (hgone.descends (descends_foldlM_act hact)).descends hend

/-- A one-shot timer that has fired has `Gone`. -/
theorem Taken.gone_of_once (h : Taken handler t) (hordered : Ordered t.before)
    (hafter : t.after = .ok r') (hid : t.timer? = some id)
    (honce : ∀ kind, (id, kind) ∈ t.before.roster → kind = .once) : Gone r' id := by
  obtain ⟨hitem, timer, htimer⟩ := h.timer?_eq_some hid
  have hmem := mem_roster_of_timer? htimer
  cases h with
  | asked r action => cases hitem
  | passed h => cases hid
  | failed h hhandler => cases hafter
  | fired later h hhandler =>
      obtain ⟨r₁, hact, hsettle⟩ := Checked.bind_eq_ok_iff.1 hafter
      obtain rfl := Option.some.inj hitem
      rw [settleItem, htimer] at hsettle
      dsimp only at hsettle
      -- the kind when the turn came decides, whatever the callback has done to the timer
      rw [honce timer.kind hmem] at hsettle
      obtain rfl := Except.ok.inj hsettle
      have hd := descends_foldlM_act hact
      refine ⟨?_, (hordered.descends hd).notMem_roster_cancel id⟩
      have hlt : id < r₁.nextId := by
        rw [hd.nextId_eq]
        exact Nat.lt_add_right _ (hordered.given _ hmem)
      exact hlt

/-! ### Turns that follow one another -/

/-- `Chained handler r turns result`: the turns of a loop, from `r` on, each beginning where the
one before it ended. After a fault there is no turn. -/
inductive Chained (handler : Handler φ τ σ) :
    Reactor φ τ → List (Turn φ τ) → Checked (Reactor φ τ) → Prop
  | nil (r : Reactor φ τ) : Chained handler r [] (.ok r)
  /-- The loop faults between two turns, where it computes how long to wait. -/
  | interrupted (r : Reactor φ τ) (fault : Fault) : Chained handler r [] (.error fault)
  | cons {r r' : Reactor φ τ} {t : Turn φ τ} {turns : List (Turn φ τ)}
      {result : Checked (Reactor φ τ)} (htaken : Taken handler t) (hbefore : t.before = r)
      (hafter : t.after = .ok r') (hrest : Chained handler r' turns result) :
      Chained handler r (t :: turns) result
  | faulted {r : Reactor φ τ} {t : Turn φ τ} {fault : Fault} (htaken : Taken handler t)
      (hbefore : t.before = r) (hafter : t.after = .error fault) :
      Chained handler r [t] (.error fault)

/-- `Chained` turns follow other turns. -/
theorem Chained.append (h : Chained handler r turns (.ok r'))
    (h' : Chained handler r' turns' result) :
    Chained handler r (turns ++ turns') result := by
  generalize hend : Except.ok r' = reached at h
  induction h with
  | nil r =>
      obtain rfl := Except.ok.inj hend
      exact h'
  | interrupted r fault => cases hend
  | cons htaken hbefore hafter _ ih => exact .cons htaken hbefore hafter (ih hend)
  | faulted htaken hbefore hafter => cases hend

/-- `Chained` turns of `andThen`. -/
theorem Chained.andThen {α : Type} {x : Record (Turn φ τ) (Reactor φ τ × σ)}
    {f : Reactor φ τ × σ → Record (Turn φ τ) (Reactor φ τ × α)}
    (h : Chained handler r x.1 (x.2.map Prod.fst))
    (hf : ∀ p, x.2 = .ok p → Chained handler p.1 (f p).1 ((f p).2.map Prod.fst)) :
    Chained handler r (x.andThen f).1 ((x.andThen f).2.map Prod.fst) := by
  obtain ⟨turns, reached⟩ := x
  cases reached with
  | error fault => exact h
  | ok p => exact h.append (hf p rfl)

/-- `Chained` turns are `Taken`. -/
theorem Chained.taken (h : Chained handler r turns result) : ∀ t ∈ turns, Taken handler t := by
  induction h with
  | nil r => exact fun t ht => absurd ht List.not_mem_nil
  | interrupted r fault => exact fun t ht => absurd ht List.not_mem_nil
  | cons htaken _ _ _ ih =>
      intro t ht
      rcases List.mem_cons.1 ht with rfl | ht
      · exact htaken
      · exact ih t ht
  | faulted htaken _ _ =>
      intro t ht
      obtain rfl := List.mem_singleton.1 ht
      exact htaken

/-- **The loop `Descends` in all turns.** -/
theorem Chained.descends (h : Chained handler r turns (.ok r')) :
    Descends r (createdIn turns) r' := by
  generalize hend : Except.ok r' = reached at h
  induction h with
  | nil r =>
      obtain rfl := Except.ok.inj hend
      exact .refl _
  | interrupted r fault => cases hend
  | cons htaken hbefore hafter _ ih =>
      obtain rfl := hbefore
      rw [createdIn, List.flatMap_cons]
      exact (htaken.descends hafter).trans (ih hend)
  | faulted htaken hbefore hafter => cases hend

/-- The loop `Descends` until a turn comes. -/
theorem Chained.descends_before {front back : List (Turn φ τ)}
    (h : Chained handler r (front ++ t :: back) result) :
    Descends r (createdIn front) t.before := by
  induction front generalizing r with
  | nil =>
      have hbefore : t.before = r := by
        cases h with
        | cons _ hbefore _ _ => exact hbefore
        | faulted _ hbefore _ => exact hbefore
      rw [hbefore]
      exact .refl r
  | cons first rest ih =>
      rw [List.cons_append] at h
      rw [createdIn, List.flatMap_cons]
      generalize hturns : rest ++ t :: back = turns at h
      cases h with
      | cons htaken hbefore hafter hrest =>
          obtain rfl := hbefore
          obtain rfl := hturns
          exact (htaken.descends hafter).trans (ih hrest)
      | faulted => simp at hturns

/-- **`createdIn` are numbered in order.** -/
theorem Chained.numbered_createdIn (h : Chained handler r turns result) :
    Numbered r.nextId (createdIn turns) := by
  induction h with
  | nil r => rfl
  | interrupted r fault => rfl
  | cons htaken hbefore hafter _ ih =>
      obtain rfl := hbefore
      have hone := htaken.descends hafter
      rw [hone.nextId_eq] at ih
      rw [createdIn, List.flatMap_cons]
      exact hone.numbered.append ih
  | faulted _ hbefore _ =>
      obtain rfl := hbefore
      rw [createdIn, List.flatMap_singleton]
      exact numbered_created _ _

/-- **From a turn to any later one the loop `Descends`.** -/
theorem Chained.pairwise (h : Chained handler r turns result) :
    turns.Pairwise fun t t' => ∃ r' made, t.after = .ok r' ∧ Descends r' made t'.before := by
  induction h with
  | nil r => exact .nil
  | interrupted r fault => exact .nil
  | cons htaken hbefore hafter hrest ih =>
      refine .cons ?_ ih
      intro t' ht'
      obtain ⟨front, back, rfl⟩ := List.append_of_mem ht'
      exact ⟨_, createdIn front, hafter, hrest.descends_before⟩
  | faulted _ _ _ => exact List.pairwise_singleton _ _

end Reactor

end KeyValueServer
