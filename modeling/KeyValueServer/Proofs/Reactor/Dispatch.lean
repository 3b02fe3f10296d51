import Mathlib.Data.List.Nodup
import KeyValueServer.Proofs.Reactor.Chain

/-!
# What an event loop dispatches

Callbacks change the very registrations that are being dispatched from: a timer may remove itself or
another one, a descriptor may be disarmed and armed again, and what `Reactor.agenda` has collected
goes stale. What fires is decided by `Reactor.fires?` when the turn of an item comes.

## Main results

* `Reactor.chained_history`: whatever is done with a loop is a chain of turns.
* `Reactor.RoundDispatched`, `Reactor.Dispatched`: what a round dispatches, and what is dispatched
  in the life of a loop.
* `Reactor.RunDispatched`: what `Reactor.run` adds to the life of a loop, and when it ends.
* `Reactor.dispatch_exact`: all of this holds, whatever the callbacks do.
-/

namespace KeyValueServer

variable {φ τ σ : Type}

/-- `readiness.shows direction`: the poll reports something for which a descriptor armed in
`direction` fires. One that is broken fires in both. -/
def Readiness.shows (readiness : Readiness) : Direction → Bool
  | .readable => readiness.readable || readiness.broken
  | .writable => readiness.writable || readiness.broken

/-- `Item.Before` is the order of an agenda: timers by their numbers, and then descriptors. -/
def Item.Before : Item → Item → Prop
  | .timer id, .timer id' => id < id'
  | .timer _, .descriptor .. => True
  | .descriptor .., .timer _ => False
  | .descriptor .., .descriptor .. => True

namespace Reactor

variable {handler : Handler φ τ σ} {later : Nat → Nat} {r r' : Reactor φ τ} {s s' : σ}
  {t : Turn φ τ} {turns : List (Turn φ τ)} {result : Checked (Reactor φ τ)} {id : Nat}

/-! ### What is done with a loop -/

variable {doings : List (Doing φ τ)} {round : Round} {stage : Stage φ τ}

/-- `takeTurn` records one turn, that of its item. -/
theorem takeTurn_fst (handler : Handler φ τ σ) (later : Nat → Nat) (item : Item) (r : Reactor φ τ)
    (s : σ) :
    ∃ t, (takeTurn handler later item r s).1 = [t] ∧ t.item? = some item := by
  rw [takeTurn]
  cases r.fires? item with
  | none => exact ⟨_, rfl, rfl⟩
  | some event =>
      dsimp only
      cases handler event r s with
      | error fault => exact ⟨_, rfl, rfl⟩
      | ok answer => exact ⟨_, rfl, rfl⟩

/-- `takeTurn` is a `Chained` turn. -/
theorem chained_takeTurn (handler : Handler φ τ σ) (later : Nat → Nat) (item : Item)
    (r : Reactor φ τ) (s : σ) :
    Chained handler r (takeTurn handler later item r s).1
      ((takeTurn handler later item r s).2.map Prod.fst) := by
  rw [takeTurn]
  cases hfires : r.fires? item with
  | none => exact .cons (.passed hfires) rfl rfl (.nil r)
  | some event =>
      dsimp only
      cases hhandler : handler event r s with
      | error fault => exact .faulted (.failed hfires hhandler) rfl rfl
      | ok answer =>
          obtain ⟨actions, s'⟩ := answer
          have htaken := Taken.fired later hfires hhandler
          dsimp only
          cases hafter : actions.foldlM act r >>= fun r' => r.settleItem later r' item with
          | error fault =>
              rw [hafter] at htaken
              exact .faulted htaken rfl rfl
          | ok r' =>
              rw [hafter] at htaken
              exact .cons htaken rfl rfl (.nil r')

/-- `takeTurns` are `Chained`. -/
theorem chained_takeTurns (handler : Handler φ τ σ) (later : Nat → Nat) (items : List Item)
    (r : Reactor φ τ) (s : σ) :
    Chained handler r (takeTurns handler later items r s).1
      ((takeTurns handler later items r s).2.map Prod.fst) := by
  induction items generalizing r s with
  | nil => exact .nil r
  | cons item rest ih =>
      exact (chained_takeTurn handler later item r s).andThen fun p _ => ih p.1 p.2

/-- `turnsOf` whatever is done are `Chained`. -/
theorem chained_turnsOf (handler : Handler φ τ σ) (r : Reactor φ τ) (s : σ) (doing : Doing φ τ) :
    Chained handler r (turnsOf handler r s doing).1
      ((turnsOf handler r s doing).2.map Prod.fst) := by
  cases doing with
  | ask action =>
      have htaken : Taken handler _ := .asked r action
      rw [turnsOf]
      cases hafter : r.act action with
      | error fault =>
          rw [hafter] at htaken
          exact .faulted htaken rfl rfl
      | ok r' =>
          rw [hafter] at htaken
          exact .cons htaken rfl rfl (.nil r')
  | round round =>
      rw [turnsOf]
      cases r.waitTimeout round.before with
      | error fault => exact .interrupted r fault
      | ok timeout => exact chained_takeTurns handler round.later _ r s

/-- **`history` of whatever is done with a loop is `Chained`.** -/
theorem chained_history (handler : Handler φ τ σ) (doings : List (Doing φ τ)) (r : Reactor φ τ)
    (s : σ) :
    Chained handler r (turnsIn (history handler doings r s)).1
      ((turnsIn (history handler doings r s)).2.map Prod.fst) := by
  induction doings generalizing r s with
  | nil => exact .nil r
  | cons doing rest ih =>
      rw [history, turnsIn_andThen, turnsIn_stageOf]
      exact (chained_turnsOf handler r s doing).andThen fun p _ => ih p.1 p.2

/-- `takeTurns` gives the items their turns in their order, and all of them unless there is a
fault. -/
theorem items_takeTurns (handler : Handler φ τ σ) (later : Nat → Nat) (items : List Item)
    (r : Reactor φ τ) (s : σ) :
    (takeTurns handler later items r s).1.map Turn.item? <+: items.map some ∧
      ∀ p, (takeTurns handler later items r s).2 = .ok p →
        (takeTurns handler later items r s).1.map Turn.item? = items.map some := by
  induction items generalizing r s with
  | nil => exact ⟨List.prefix_rfl, fun _ _ => rfl⟩
  | cons item rest ih =>
      obtain ⟨t, hturn, hitem⟩ := takeTurn_fst handler later item r s
      rw [takeTurns, Record.andThen, hturn]
      cases (takeTurn handler later item r s).2 with
      | error fault =>
          refine ⟨?_, fun p hp => ?_⟩
          · rw [List.map_singleton, hitem, List.map_cons]
            exact List.prefix_append [some item] _
          · cases hp
      | ok p =>
          obtain ⟨hfront, hwhole⟩ := ih p.1 p.2
          dsimp only
          rw [List.singleton_append, List.map_cons, hitem, List.map_cons]
          refine ⟨(List.prefix_cons_inj _).2 hfront, fun q hq => ?_⟩
          rw [hwhole q hq]

/-- A stage of `history` has the turns `turnsOf` what is done, at a loop that `Descends`. Only the
last stage may be cut short by a fault. -/
theorem exists_of_mem_history (h : stage ∈ (history handler doings r s).1) :
    ∃ s' made, Descends r made stage.start ∧
      stage.turns = (turnsOf handler stage.start s' stage.doing).1 ∧
      ((∃ p, (turnsOf handler stage.start s' stage.doing).2 = .ok p) ∨
        (∃ fault, (history handler doings r s).2 = .error fault) ∧
          (history handler doings r s).1.getLast? = some stage) := by
  induction doings generalizing r s with
  | nil => exact absurd h List.not_mem_nil
  | cons doing rest ih =>
      rw [history, stageOf, Record.andThen] at h ⊢
      cases hresult : (turnsOf handler r s doing).2 with
      | error fault =>
          rw [hresult] at h
          obtain rfl := List.mem_singleton.1 h
          exact ⟨s, [], .refl r, rfl, .inr ⟨⟨fault, rfl⟩, rfl⟩⟩
      | ok p =>
          rw [hresult] at h
          dsimp only at h ⊢
          rcases List.mem_cons.1 h with rfl | h
          · exact ⟨s, [], .refl r, rfl, .inl ⟨p, hresult⟩⟩
          · obtain ⟨s', made, hd, hturns, hend⟩ := ih h
            have hfirst := chained_turnsOf handler r s doing
            rw [hresult] at hfirst
            refine ⟨s', _, hfirst.descends.trans hd, hturns, ?_⟩
            rcases hend with hok | ⟨hfault, hlast⟩
            · exact .inl hok
            · refine .inr ⟨hfault, ?_⟩
              rw [List.singleton_append, List.getLast?_cons, hlast]
              rfl

/-! ### What a round dispatches -/

/-- `RoundDispatched handler stage round`: what a round dispatches. Its items are those of the
`agenda` at the beginning: the timers that were due, and then the descriptors that were ready. -/
structure RoundDispatched (handler : Handler φ τ σ) (stage : Stage φ τ) (round : Round) :
    Prop where
  /-- The first turn begins where the round begins, and each other one where the last one ended. -/
  chained : ∃ result, Chained handler stage.start stage.turns result
  /-- The timers that are collected are those that are due. -/
  timers_collected : ∀ id, .timer id ∈ stage.start.agenda round ↔
    ∃ timer ∈ stage.start.timers, timer.id = id ∧ timer.due ≤ round.now
  /-- The descriptors that are collected are those that are armed for what the poll reports. -/
  descriptors_collected : ∀ fd direction, .descriptor fd direction ∈ stage.start.agenda round ↔
    stage.start.isArmed fd direction = true ∧
      ∃ readiness, (fd, readiness) ∈ round.polled ∧ readiness.shows direction = true
  /-- The items have their turns in the order in which they were collected. -/
  items_in_order : stage.turns.map Turn.item? <+: (stage.start.agenda round).map some
  /-- Before a timer only timers fire. -/
  timers_first : (firedIn stage.turns).Pairwise fun event event' =>
    event'.timer?.isSome = true → event.timer?.isSome = true
  /-- Timers fire in the order of their creation, each of them once. -/
  timers_in_order : (timersIn stage.turns).Pairwise (· < ·)
  /-- A timer that is created in the round does not fire in it. -/
  no_new_timer : ∀ p ∈ createdIn stage.turns, p.1 ∉ timersIn stage.turns

/-- `due` are numbers of the `roster`, in its order. -/
theorem due_sublist (r : Reactor φ τ) (now : Nat) :
    (r.due now).Sublist (r.roster.map Prod.fst) := by
  rw [due, roster, List.map_map]
  exact List.filter_sublist.map _

/-- The timers of the `agenda` are those that are due. -/
theorem timer_mem_agenda_iff :
    .timer id ∈ r.agenda round ↔ ∃ timer ∈ r.timers, timer.id = id ∧ timer.due ≤ round.now := by
  simp [agenda, due, and_assoc, and_comm]

/-- `firing` are the directions that are armed and that the readiness `shows`. -/
theorem mem_firing_iff {interest : Interest φ} {readiness : Readiness} {direction : Direction} :
    direction ∈ firing interest readiness ↔
      (interest.get? direction).isSome = true ∧ readiness.shows direction = true := by
  cases direction <;> simp [firing, Interest.get?, Readiness.shows]

/-- `ready` are the descriptors that are armed for what the poll reports. -/
theorem mem_ready_iff {polled : List (Descriptor × Readiness)} {fd : Descriptor}
    {direction : Direction} :
    (fd, direction) ∈ r.ready polled ↔ r.isArmed fd direction = true ∧
      ∃ readiness, (fd, readiness) ∈ polled ∧ readiness.shows direction = true := by
  rw [ready, List.mem_flatMap, isArmed, tag?]
  constructor
  · rintro ⟨⟨fd', readiness⟩, hpolled, hmem⟩
    dsimp only at hmem
    cases hinterest : r.interests.get? fd' with
    | none =>
        rw [hinterest] at hmem
        exact absurd hmem List.not_mem_nil
    | some interest =>
        rw [hinterest] at hmem
        obtain ⟨direction', hfiring, heq⟩ := List.mem_map.1 hmem
        obtain ⟨rfl, rfl⟩ := Prod.mk.inj heq
        obtain ⟨harmed, hshows⟩ := mem_firing_iff.1 hfiring
        rw [hinterest]
        exact ⟨harmed, readiness, hpolled, hshows⟩
  · rintro ⟨harmed, readiness, hpolled, hshows⟩
    refine ⟨(fd, readiness), hpolled, ?_⟩
    cases hinterest : r.interests.get? fd with
    | none =>
        rw [hinterest] at harmed
        cases harmed
    | some interest =>
        rw [hinterest] at harmed
        have hfiring := mem_firing_iff.2 ⟨harmed, hshows⟩
        simpa [hinterest] using hfiring

/-- The descriptors of the `agenda` are those that are armed for what the poll reports. -/
theorem descriptor_mem_agenda_iff {fd : Descriptor} {direction : Direction} :
    .descriptor fd direction ∈ r.agenda round ↔ r.isArmed fd direction = true ∧
      ∃ readiness, (fd, readiness) ∈ round.polled ∧ readiness.shows direction = true := by
  rw [← mem_ready_iff]
  simp [agenda]

/-- The `agenda` of a loop that is `Ordered` is ordered by `Item.Before`. -/
theorem Ordered.pairwise_agenda (h : Ordered r) (round : Round) :
    (r.agenda round).Pairwise Item.Before := by
  rw [agenda, List.pairwise_append, List.pairwise_map, List.pairwise_map]
  refine ⟨h.increasing.sublist (r.due_sublist round.now), ?_, ?_⟩
  · exact List.pairwise_of_forall fun _ _ => trivial
  · intro item hitem item' hitem'
    obtain ⟨id, -, rfl⟩ := List.mem_map.1 hitem
    obtain ⟨pair, -, rfl⟩ := List.mem_map.1 hitem'
    exact trivial

/-- The timers of the `agenda` have been created. -/
theorem Ordered.lt_nextId_of_mem_agenda (h : Ordered r) (hid : .timer id ∈ r.agenda round) :
    id < r.nextId := by
  rcases List.mem_append.1 hid with hid | hid
  · obtain ⟨id', hdue, heq⟩ := List.mem_map.1 hid
    obtain rfl := Item.timer.inj heq
    obtain ⟨p, hp, rfl⟩ := List.mem_map.1 ((r.due_sublist round.now).subset hdue)
    exact h.given p hp
  · obtain ⟨pair, -, heq⟩ := List.mem_map.1 hid
    cases heq

/-- `turnsOf` a round gives the items of the `agenda` their turns in their order, and all of them
unless there is a fault. -/
theorem items_turnsOf_round (handler : Handler φ τ σ) (round : Round) (r : Reactor φ τ) (s : σ) :
    (turnsOf handler r s (.round round)).1.map Turn.item? <+: (r.agenda round).map some ∧
      ∀ p, (turnsOf handler r s (.round round)).2 = .ok p →
        (turnsOf handler r s (.round round)).1.map Turn.item? = (r.agenda round).map some := by
  rw [turnsOf]
  cases r.waitTimeout round.before with
  | error fault =>
      refine ⟨?_, fun p hp => ?_⟩
      · exact List.nil_prefix
      · cases hp
  | ok timeout => exact items_takeTurns handler round.later _ r s

/-- **`RoundDispatched` of any turns** that are `Chained` and go through the `agenda`, whatever the
callbacks do. -/
theorem roundDispatched (hordered : Ordered stage.start)
    (hitems : stage.turns.map Turn.item? <+: (stage.start.agenda round).map some)
    (hchained : Chained handler stage.start stage.turns result) :
    RoundDispatched handler stage round := by
  have htaken := hchained.taken
  -- the turns are in the order of the agenda, and what fires is in the order of the turns
  have hpairwise : stage.turns.Pairwise fun t t' =>
      ∀ item, t.item? = some item → ∀ item', t'.item? = some item' → item.Before item' := by
    have hmap : (stage.turns.map Turn.item?).Pairwise fun item? item'? =>
        ∀ item, item? = some item → ∀ item', item'? = some item' → item.Before item' := by
      refine List.Pairwise.sublist hitems.sublist (List.pairwise_map.2 ?_)
      refine (hordered.pairwise_agenda round).imp ?_
      rintro item item' hbefore _ ⟨⟩ _ ⟨⟩
      exact hbefore
    exact List.pairwise_map.1 hmap
  refine ⟨⟨result, hchained⟩, fun _ => timer_mem_agenda_iff,
    fun _ _ => descriptor_mem_agenda_iff, hitems, ?_, ?_, ?_⟩
  · refine List.pairwise_filterMap.2 (hpairwise.imp_of_mem ?_)
    intro t t' ht ht' hbefore event hevent event' hevent' hsome
    cases event' with
    | descriptor fd' direction' tag' => cases hsome
    | timer id' tag' =>
        cases event with
        | timer id tag => rfl
        | descriptor fd direction tag =>
            have hitem := ((htaken t ht).fired?_descriptor_iff.1 hevent).1
            have hitem' := ((htaken t' ht').fired?_timer_iff.1 hevent').1
            exact absurd (hbefore _ hitem _ hitem') id
  · refine List.pairwise_filterMap.2 (hpairwise.imp_of_mem ?_)
    intro t t' ht ht' hbefore id hid id' hid'
    exact hbefore _ ((htaken t ht).timer?_eq_some hid).1 _ ((htaken t' ht').timer?_eq_some hid').1
  · intro p hp hfires
    obtain ⟨t, ht, hid⟩ := List.mem_filterMap.1 hfires
    have hitem : some (Item.timer p.1) ∈ (stage.start.agenda round).map some :=
      hitems.subset (List.mem_map.2 ⟨t, ht, ((htaken t ht).timer?_eq_some hid).1⟩)
    obtain ⟨item, hitem, heq⟩ := List.mem_map.1 hitem
    obtain rfl := Option.some.inj heq
    have hold := hordered.lt_nextId_of_mem_agenda hitem
    have hnew := (hchained.numbered_createdIn.le_and_lt hp).1
    omega

/-! ### Over the life of a loop -/

/-- `Dispatched handler x`: what is dispatched in the life `x` of a loop, from `Reactor.empty`
on. -/
structure Dispatched (handler : Handler φ τ σ) (x : Record (Stage φ τ) (Reactor φ τ × σ)) :
    Prop where
  /-- Turns follow one another. -/
  chained : Chained handler .empty (turnsIn x).1 ((turnsIn x).2.map Prod.fst)
  /-- A timer fires in its turn exactly when it is there, under its tag. -/
  timer_fires : ∀ t ∈ (turnsIn x).1, ∀ id tag, t.fired? = some (.timer id tag) ↔
    t.item? = some (.timer id) ∧ ∃ timer, t.before.timer? id = some timer ∧ timer.tag = tag
  /-- A descriptor fires in its turn exactly when it is armed, under the tag of that moment. -/
  descriptor_fires : ∀ t ∈ (turnsIn x).1, ∀ fd direction tag,
    t.fired? = some (.descriptor fd direction tag) ↔
      t.item? = some (.descriptor fd direction) ∧ t.before.tag? fd direction = some tag
  /-- What each round dispatches. -/
  round : ∀ stage ∈ x.1, ∀ round, stage.doing = .round round →
    RoundDispatched handler stage round
  /-- In a round everything that was collected has its turn, unless there is a fault. -/
  whole_round : ∀ stage ∈ x.1, ∀ round, stage.doing = .round round →
    stage.turns.map Turn.item? = (stage.start.agenda round).map some ∨
      (∃ fault, x.2 = .error fault) ∧ x.1.getLast? = some stage
  /-- A timer that is there when a turn comes has been created before, with its number and kind. -/
  created : ∀ front t back, (turnsIn x).1 = front ++ t :: back →
    ∀ timer ∈ t.before.timers, (timer.id, timer.kind) ∈ createdIn front
  /-- A one-shot timer fires at most once. -/
  once : ∀ id, (id, .once) ∈ createdIn (turnsIn x).1 → (timersIn (turnsIn x).1).count id ≤ 1
  /-- A timer that has been removed does not fire any more. -/
  removed : (turnsIn x).1.Pairwise fun t t' => ∀ front id back r,
    t.actions = front ++ .cancel id :: back → front.foldlM act t.before = .ok r →
      id < r.nextId → t'.timer? ≠ some id
  /-- The numbers of timers count up from 1. -/
  numbers : (createdIn (turnsIn x).1).map Prod.fst =
    List.range' 1 (createdIn (turnsIn x).1).length

/-- `RunDispatched handler world turn count r s`: what `Reactor.run` adds to the life of a loop. -/
structure RunDispatched (handler : Handler φ τ σ) (world : Nat → Reactor φ τ → σ → Round)
    (turn count : Nat) (r : Reactor φ τ) (s : σ) : Prop where
  /-- What the run fires is what fires in the turns of its stages. -/
  run_eq : run handler world turn count r s =
    Course.ofRecord (turnsIn (runHistory handler world turn count r s))
  /-- Its stages are rounds. -/
  rounds : ∃ rounds : List Round, rounds.length ≤ count ∧
    runHistory handler world turn count r s = history handler (rounds.map Doing.round) r s ∧
    ∀ p, (runHistory handler world turn count r s).2 = .ok p →
      rounds.length = count ∨ p.1.stopped = true
  /-- No round begins when the loop is stopped. -/
  running : ∀ stage ∈ (runHistory handler world turn count r s).1, stage.start.stopped = false
  /-- A round in which a callback stops the loop is the last one. -/
  last_round : ∀ front stage back,
    (runHistory handler world turn count r s).1 = front ++ stage :: back →
      (∃ t ∈ stage.turns, .stop ∈ t.actions) → back = []
  /-- There is none when the loop is stopped before the run. -/
  no_round : r.stopped = true → (runHistory handler world turn count r s).1 = []

/-- A number that no two members of a list share occurs in it at most once. -/
theorem count_le_one {l : List Nat} (h : l.Pairwise fun i j => i = id → j ≠ id) :
    l.count id ≤ 1 := by
  induction h with
  | nil => exact Nat.zero_le 1
  | @cons i rest hfirst _ ih =>
      by_cases hi : i = id
      · have hzero : rest.count id = 0 :=
          List.count_eq_zero.2 fun hmem => hfirst id hmem hi rfl
        have hcount : (i :: rest).count id = rest.count id + 1 := by
          rw [hi, List.count_cons_self]
        omega
      · rwa [List.count_cons_of_ne hi]

/-- From `Reactor.empty` on, the loop is `Ordered` when a turn comes. -/
theorem Chained.ordered (h : Chained handler .empty turns result) (ht : t ∈ turns) :
    Ordered t.before := by
  obtain ⟨front, back, rfl⟩ := List.append_of_mem ht
  exact ordered_empty.descends h.descends_before

/-- A timer that is there when a turn comes is among `createdIn` the turns before. -/
theorem Chained.roster_subset {front back : List (Turn φ τ)}
    (h : Chained handler .empty (front ++ t :: back) result) :
    t.before.roster ⊆ createdIn front :=
  fun _ hp => h.descends_before.roster_sublist.subset hp

/-- **A one-shot timer fires at most once.** -/
theorem Chained.count_timersIn_le_one (h : Chained handler .empty turns result)
    (honce : (id, .once) ∈ createdIn turns) : (timersIn turns).count id ≤ 1 := by
  have hnodup : ((createdIn turns).map Prod.fst).Nodup := by
    rw [h.numbered_createdIn]
    exact List.nodup_range'
  -- of two turns in which the timer fires, the first would leave no such timer for the other
  refine count_le_one (List.pairwise_filterMap.2 (h.pairwise.imp_of_mem ?_))
  rintro t t' ht ht' ⟨r', made, hafter, hd⟩ i hi j hj rfl rfl
  have hkind : ∀ kind, (j, kind) ∈ t.before.roster → kind = .once := by
    intro kind hmem
    have hcreated : (j, kind) ∈ createdIn turns := by
      obtain ⟨front, back, rfl⟩ := List.append_of_mem ht
      rw [createdIn, List.flatMap_append]
      exact List.mem_append_left _ (h.roster_subset hmem)
    exact congrArg Prod.snd (List.inj_on_of_nodup_map hnodup hcreated honce rfl)
  have hgone := (h.taken t ht).gone_of_once (h.ordered ht) hafter hi hkind
  exact (hgone.descends hd).timer?_ne (h.taken t' ht') hj

/-- **A timer that has been removed by a `cancel` does not fire any more.** -/
theorem Chained.pairwise_removed (h : Chained handler .empty turns result) :
    turns.Pairwise fun t t' => ∀ front id back r,
      t.actions = front ++ .cancel id :: back → front.foldlM act t.before = .ok r →
        id < r.nextId → t'.timer? ≠ some id := by
  refine h.pairwise.imp_of_mem ?_
  rintro t t' ht ht' ⟨r', made, hafter, hd⟩ front id back r hactions hfront hid
  have hgone := (h.taken t ht).gone_of_cancel (h.ordered ht) hafter hactions hfront hid
  exact (hgone.descends hd).timer?_ne (h.taken t' ht')

/-- **`history` from `Reactor.empty` is `Dispatched`.** -/
theorem dispatched_history (handler : Handler φ τ σ) (doings : List (Doing φ τ)) (s : σ) :
    Dispatched handler (history handler doings .empty s) := by
  have hchained := chained_history handler doings .empty s
  refine ⟨hchained, ?_, ?_, ?_, ?_, ?_, ?_, hchained.pairwise_removed,
    hchained.numbered_createdIn⟩
  · exact fun t ht id tag => (hchained.taken t ht).fired?_timer_iff
  · exact fun t ht fd direction tag => (hchained.taken t ht).fired?_descriptor_iff
  · intro stage hstage round hround
    obtain ⟨s', made, hd, hturns, -⟩ := exists_of_mem_history hstage
    have hchain := chained_turnsOf handler stage.start s' stage.doing
    have hitems := (items_turnsOf_round handler round stage.start s').1
    rw [← hturns] at hchain
    rw [← hround, ← hturns] at hitems
    exact roundDispatched (ordered_empty.descends hd) hitems hchain
  · intro stage hstage round hround
    obtain ⟨s', made, -, hturns, hend⟩ := exists_of_mem_history hstage
    rcases hend with ⟨p, hp⟩ | hfault
    · rw [hround] at hp hturns
      rw [hturns]
      exact .inl ((items_turnsOf_round handler round stage.start s').2 p hp)
    · exact .inr hfault
  · intro front t back heq timer htimer
    rw [heq] at hchained
    exact hchained.roster_subset (List.mem_map_of_mem htimer)
  · exact fun id honce => hchained.count_timersIn_le_one honce

/-! ### Runs -/

variable {world : Nat → Reactor φ τ → σ → Round} {turn count : Nat}

/-- A turn with a `stop` among its actions leaves the loop stopped after all turns. -/
theorem Chained.stopped (h : Chained handler r turns (.ok r')) (ht : t ∈ turns)
    (hstop : .stop ∈ t.actions) : r'.stopped = true := by
  generalize hend : Except.ok r' = reached at h
  induction h with
  | nil r => exact absurd ht List.not_mem_nil
  | interrupted r fault => cases hend
  | cons htaken _ hafter hrest ih =>
      rcases List.mem_cons.1 ht with rfl | ht
      · rw [← hend] at hrest
        exact hrest.descends.stopped (htaken.stopped hafter hstop)
      · exact ih ht hend
  | faulted _ _ _ => cases hend

/-- `runHistory` of a loop that is stopped is empty. -/
theorem runHistory_of_stopped (h : r.stopped = true) :
    runHistory handler world turn count r s = ([], .ok (r, s)) := by
  cases count with
  | zero => rfl
  | succ count => rw [runHistory, if_pos h]

/-- `stageOf` comes to what `turnsOf` does. -/
theorem stageOf_snd (r : Reactor φ τ) (s : σ) (doing : Doing φ τ) :
    (stageOf handler r s doing).2 = (turnsOf handler r s doing).2 := rfl

/-- `runHistory` of a loop that is not stopped is one round, and then goes on unless there was a
fault. -/
theorem runHistory_succ_cases (h : ¬r.stopped = true) (turn count : Nat) (s : σ) :
    (∃ fault, runHistory handler world turn (count + 1) r s =
      ((stageOf handler r s (.round (world turn r s))).1, .error fault)) ∨
    ∃ r' s', (turnsOf handler r s (.round (world turn r s))).2 = .ok (r', s') ∧
      runHistory handler world turn (count + 1) r s =
        ((stageOf handler r s (.round (world turn r s))).1 ++
          (runHistory handler world (turn + 1) count r' s').1,
          (runHistory handler world (turn + 1) count r' s').2) := by
  rw [runHistory, if_neg h]
  cases hfirst : stageOf handler r s (.round (world turn r s)) with
  | mk stages result =>
      cases result with
      | error fault => exact .inl ⟨fault, rfl⟩
      | ok p =>
          refine .inr ⟨p.1, p.2, ?_, rfl⟩
          rw [← stageOf_snd, hfirst]

/-- `runHistory` is a `history` of rounds, and it ends when the loop is stopped. -/
theorem exists_runHistory_eq (handler : Handler φ τ σ) (world : Nat → Reactor φ τ → σ → Round)
    (turn count : Nat) (r : Reactor φ τ) (s : σ) :
    ∃ rounds : List Round, rounds.length ≤ count ∧
      runHistory handler world turn count r s = history handler (rounds.map Doing.round) r s ∧
      ∀ p, (runHistory handler world turn count r s).2 = .ok p →
        rounds.length = count ∨ p.1.stopped = true := by
  induction count generalizing turn r s with
  | zero => exact ⟨[], Nat.le_refl 0, rfl, fun _ _ => .inl rfl⟩
  | succ count ih =>
      by_cases hstopped : r.stopped = true
      · rw [runHistory_of_stopped hstopped]
        refine ⟨[], Nat.zero_le _, rfl, fun p hp => ?_⟩
        obtain rfl := Except.ok.inj hp
        exact .inr hstopped
      · rw [runHistory, if_neg hstopped]
        cases hfirst : stageOf handler r s (.round (world turn r s)) with
        | mk stages result =>
            cases result with
            | error fault =>
                refine ⟨[world turn r s], Nat.le_add_left 1 count, ?_, fun p hp => ?_⟩
                · rw [List.map_singleton, history, hfirst]
                  rfl
                · cases hp
            | ok p =>
                obtain ⟨r', s'⟩ := p
                obtain ⟨rounds, hlength, heq, hend⟩ := ih (turn + 1) r' s'
                refine ⟨world turn r s :: rounds, Nat.succ_le_succ hlength, ?_, ?_⟩
                · rw [List.map_cons, history, hfirst, Record.ok_andThen, Record.ok_andThen]
                  dsimp only
                  rw [heq]
                · intro q hq
                  rcases hend q hq with hcount | hq
                  · exact .inl (congrArg Nat.succ hcount)
                  · exact .inr hq

/-- No round of `runHistory` begins when the loop is stopped. -/
theorem stopped_of_mem_runHistory (h : stage ∈ (runHistory handler world turn count r s).1) :
    stage.start.stopped = false := by
  induction count generalizing turn r s with
  | zero => exact absurd h List.not_mem_nil
  | succ count ih =>
      by_cases hstopped : r.stopped = true
      · rw [runHistory_of_stopped hstopped] at h
        exact absurd h List.not_mem_nil
      · have hrunning : r.stopped = false := Bool.eq_false_iff.2 hstopped
        rcases runHistory_succ_cases hstopped turn count s with ⟨fault, heq⟩ | ⟨r', s', -, heq⟩
        · rw [heq] at h
          obtain rfl := List.mem_singleton.1 h
          exact hrunning
        · rw [heq] at h
          rcases List.mem_append.1 h with h | h
          · obtain rfl := List.mem_singleton.1 h
            exact hrunning
          · exact ih h

/-- **A round of `runHistory` in which a callback stops the loop is the last one.** -/
theorem eq_nil_of_runHistory_stop {front back : List (Stage φ τ)}
    (h : (runHistory handler world turn count r s).1 = front ++ stage :: back)
    (ht : t ∈ stage.turns) (hstop : .stop ∈ t.actions) : back = [] := by
  induction count generalizing turn r s front with
  | zero => simp [runHistory] at h
  | succ count ih =>
      by_cases hstopped : r.stopped = true
      · rw [runHistory_of_stopped hstopped] at h
        simp at h
      · rcases runHistory_succ_cases hstopped turn count s with ⟨fault, heq⟩ | ⟨r', s', hok, heq⟩
        · rw [heq, stageOf] at h
          cases front with
          | nil => exact (List.cons.inj h).2.symm
          | cons stage' front => simp at h
        · have hfirst := chained_turnsOf handler r s (.round (world turn r s))
          rw [hok] at hfirst
          rw [heq, stageOf] at h
          cases front with
          | nil =>
              obtain ⟨rfl, rfl⟩ := List.cons.inj h
              dsimp only at ht
              rw [runHistory_of_stopped (hfirst.stopped ht hstop)]
              rfl
          | cons stage' front => exact ih (List.cons.inj h).2

/-- A `history` and then a `runHistory` are a `history`. -/
theorem exists_history_eq (handler : Handler φ τ σ) (doings : List (Doing φ τ)) (r : Reactor φ τ)
    (s : σ) (world : Nat → Reactor φ τ → σ → Round) (turn count : Nat) :
    ∃ doings', ((history handler doings r s).andThen fun p =>
      runHistory handler world turn count p.1 p.2) = history handler doings' r s := by
  cases hhistory : history handler doings r s with
  | mk stages result =>
      cases result with
      | error fault => exact ⟨doings, by rw [hhistory, Record.error_andThen]⟩
      | ok p =>
          obtain ⟨rounds, -, heq, -⟩ :=
            exists_runHistory_eq handler world turn count p.1 p.2
          refine ⟨doings ++ rounds.map Doing.round, ?_⟩
          rw [history_append, hhistory, Record.ok_andThen, Record.ok_andThen, heq]

/-- **The event loop dispatches exactly this**, whatever its callbacks do: all that is done with a
loop from outside and in rounds is `Dispatched`, so is a run of it after that, and every run is
`RunDispatched`. -/
theorem dispatch_exact (handler : Handler φ τ σ) (doings : List (Doing φ τ)) (s : σ)
    (world : Nat → Reactor φ τ → σ → Round) (turn count : Nat) :
    Dispatched handler (history handler doings .empty s) ∧
      Dispatched handler ((history handler doings .empty s).andThen fun p =>
        runHistory handler world turn count p.1 p.2) ∧
      (∀ round r s', process handler round r s' =
        Course.ofRecord (turnsOf handler r s' (.round round))) ∧
      ∀ r s', RunDispatched handler world turn count r s' := by
  refine ⟨dispatched_history handler doings s, ?_, process_eq, fun r s' => ?_⟩
  · obtain ⟨doings', heq⟩ :=
      exists_history_eq handler doings .empty s world turn count
    rw [heq]
    exact dispatched_history handler doings' s
  · exact {
      run_eq := run_eq world turn count r s'
      rounds := exists_runHistory_eq handler world turn count r s'
      running := fun _ hstage => stopped_of_mem_runHistory hstage
      last_round := by
        rintro front stage back heq ⟨t, ht, hstop⟩
        exact eq_nil_of_runHistory_stop heq ht hstop
      no_round := fun hstopped => by rw [runHistory_of_stopped hstopped] }

/-- Three timers are due. The first removes the second, starts one that is due at once, and stops
the loop: the third still fires, and nothing after it. -/
example :
    let handler : Handler Unit Unit Unit := fun event _ s =>
      match event with
      | .timer 1 _ => .ok ([.cancel 2, .start .once 0 () 0, .stop], s)
      | _ => .ok ([], s)
    let loop : Reactor Unit Unit :=
      ⟨[], [⟨1, .once, 0, 0, ()⟩, ⟨2, .once, 0, 0, ()⟩, ⟨3, .recurring, 0, 0, ()⟩], 4, false⟩
    (run handler (fun _ _ _ => ⟨0, [], 0, fun _ => 0⟩) 0 5 loop ()).map (·.fired) =
      .ok [.timer 1 (), .timer 3 ()] := by decide

end Reactor

end KeyValueServer
