import KeyValueServer.Proofs.Reactor.Callbacks

/-!
# The turns of an event loop

What a round has collected is its `Reactor.agenda`: the timers that were due, then the descriptors
that were ready. Each `Item` of the agenda has its turn (`Reactor.takeTurn`). What `Reactor.fires?`
says of it at that moment, if anything, fires; the actions that the handler asks for are carried
out, and a timer is settled. A `Reactor.Turn` is recorded with the loop before and after it, so that
it can be told what fired and what could have.

The record goes as far as the loop does. Where a handler or an action faults, the turn at which it
does is the last.

## Main results

* `Reactor.Turn`, `Reactor.takeTurns`: the turns for some items.
* `Reactor.history`, `Reactor.runHistory`: the stages of whatever is done with a loop, and of a run.
* `Reactor.process_eq`, `Reactor.run_eq`: their turns are those of `Reactor.process` and
  `Reactor.run`.
-/

namespace KeyValueServer

/-- An `Item` is what a round has collected. -/
inductive Item
  /-- A timer that was due. -/
  | timer (id : Nat)
  /-- A descriptor that was ready. -/
  | descriptor (fd : Descriptor) (direction : Direction)
  deriving DecidableEq

/-- A `Record` is what is done, and what comes of it unless there is a fault. -/
abbrev Record (α β : Type) := List α × Checked β

namespace Record

variable {α β γ δ : Type}

/-- `x.andThen f` is a record, and then another that depends on what came of the first. -/
def andThen (x : Record α β) (f : β → Record α γ) : Record α γ :=
  match x.2 with
  | .ok b => (x.1 ++ (f b).1, (f b).2)
  | .error fault => (x.1, .error fault)

/-- `andThen` is associative. -/
theorem andThen_assoc (x : Record α β) (f : β → Record α γ) (g : γ → Record α δ) :
    (x.andThen f).andThen g = x.andThen fun b => (f b).andThen g := by
  obtain ⟨done, result⟩ := x
  cases result with
  | error fault => rfl
  | ok b =>
      simp only [andThen]
      cases (f b).2 with
      | error fault => rfl
      | ok c =>
          dsimp only
          rw [List.append_assoc]

/-- `andThen` where nothing is done first. -/
@[simp] theorem nil_andThen (b : β) (f : β → Record α γ) : andThen ([], .ok b) f = f b := rfl

/-- `andThen` after a fault. -/
@[simp] theorem error_andThen (done : List α) (fault : Fault) (f : β → Record α γ) :
    andThen (done, .error fault) f = (done, .error fault) := rfl

/-- `andThen` after a success. -/
theorem ok_andThen (done : List α) (b : β) (f : β → Record α γ) :
    andThen (done, .ok b) f = (done ++ (f b).1, (f b).2) := rfl

end Record

namespace Reactor

variable {φ τ σ : Type}

/-! ### One turn -/

/-- `r.fires? item` is what fires when the item has its turn: what is registered for it then. -/
def fires? (r : Reactor φ τ) : Item → Option (Fired φ τ)
  | .timer id => (r.timer? id).map fun timer => .timer id timer.tag
  | .descriptor fd direction => (r.tag? fd direction).map fun tag => .descriptor fd direction tag

/-- `r.settleItem later r' item` is what becomes of a timer after its turn, by the kind that it had
at the beginning. -/
def settleItem (r : Reactor φ τ) (later : Nat → Nat) (r' : Reactor φ τ) :
    Item → Checked (Reactor φ τ)
  | .timer id =>
    match r.timer? id with
    | some timer => r'.settleTimer timer.kind id (later id)
    | none => .ok r'
  | .descriptor .. => .ok r'

/-- A `Turn` of the loop. What is asked from outside, between rounds, is a turn without an item. -/
structure Turn (φ τ : Type) where
  /-- The item whose turn it is. -/
  item? : Option Item
  /-- The loop when the turn comes. -/
  before : Reactor φ τ
  /-- What fires. -/
  fired? : Option (Fired φ τ)
  /-- What the loop is asked for. -/
  actions : List (Action φ τ)
  /-- The loop after the turn. -/
  after : Checked (Reactor φ τ)

/-- `takeTurn` is the turn of one item: `fires?`, the handler's actions, and `settleItem`. -/
def takeTurn (handler : Handler φ τ σ) (later : Nat → Nat) (item : Item) (r : Reactor φ τ) (s : σ) :
    Record (Turn φ τ) (Reactor φ τ × σ) :=
  match r.fires? item with
  | none => ([⟨some item, r, none, [], .ok r⟩], .ok (r, s))
  | some event =>
    match handler event r s with
    | .error fault => ([⟨some item, r, some event, [], .error fault⟩], .error fault)
    | .ok (actions, s) =>
      let after := do
        let r' ← actions.foldlM act r
        r.settleItem later r' item
      ([⟨some item, r, some event, actions, after⟩], after.map (·, s))

/-- `takeTurns` are the turns of items, one after the other. -/
def takeTurns (handler : Handler φ τ σ) (later : Nat → Nat) :
    List Item → Reactor φ τ → σ → Record (Turn φ τ) (Reactor φ τ × σ)
  | [], r, s => ([], .ok (r, s))
  | item :: rest, r, s =>
    (takeTurn handler later item r s).andThen fun (r, s) => takeTurns handler later rest r s

/-- `firedIn turns` is what has fired in the turns. -/
def firedIn (turns : List (Turn φ τ)) : List (Fired φ τ) :=
  turns.filterMap Turn.fired?

/-- `Course.ofRecord x` is the `Course` that a record of turns amounts to. -/
def Course.ofRecord (x : Record (Turn φ τ) (Reactor φ τ × σ)) : Checked (Course φ τ σ) :=
  x.2.map fun p => ⟨firedIn x.1, p.1, p.2⟩

variable {handler : Handler φ τ σ} {later : Nat → Nat} {r : Reactor φ τ} {s : σ}

/-- `takeTurns` of `front` and then of `back`. -/
theorem takeTurns_append (front back : List Item) (r : Reactor φ τ) (s : σ) :
    takeTurns handler later (front ++ back) r s =
      (takeTurns handler later front r s).andThen fun (r, s) =>
        takeTurns handler later back r s := by
  induction front generalizing r s with
  | nil => rfl
  | cons item rest ih =>
      simp only [List.cons_append, takeTurns, ih, Record.andThen_assoc]

/-- `takeTurns` pass over an item for which nothing is registered. -/
theorem ofRecord_takeTurns_of_none {item : Item} (h : r.fires? item = none) (rest : List Item) :
    Course.ofRecord (takeTurns handler later (item :: rest) r s) =
      Course.ofRecord (takeTurns handler later rest r s) := by
  rw [takeTurns, takeTurn, h]
  dsimp only
  rw [Record.ok_andThen]
  rfl

/-- `takeTurns` make an item fire for which something is registered. -/
theorem ofRecord_takeTurns_of_some {item : Item} {event : Fired φ τ}
    (h : r.fires? item = some event) (rest : List Item) :
    Course.ofRecord (takeTurns handler later (item :: rest) r s) = (do
      let (actions, s) ← handler event r s
      let r₁ ← actions.foldlM act r
      let r₂ ← r.settleItem later r₁ item
      let course ← Course.ofRecord (takeTurns handler later rest r₂ s)
      .ok (course.after event)) := by
  rw [takeTurns, takeTurn, h]
  dsimp only
  cases handler event r s with
  | error fault => rfl
  | ok answer =>
      obtain ⟨actions, s₁⟩ := answer
      simp only [Checked.ok_bind]
      cases actions.foldlM act r with
      | error fault => rfl
      | ok r₁ =>
          simp only [Checked.ok_bind]
          cases r.settleItem later r₁ item with
          | error fault => rfl
          | ok r₂ =>
              simp only [Except.map, Record.ok_andThen, Checked.ok_bind, Course.ofRecord]
              cases (takeTurns handler later rest r₂ s₁).2 with
              | error fault => rfl
              | ok p => rfl

/-- `fireTimers` is `takeTurns` of the timers. -/
theorem fireTimers_eq (ids : List Nat) (r : Reactor φ τ) (s : σ) :
    fireTimers handler later ids r s =
      Course.ofRecord (takeTurns handler later (ids.map Item.timer) r s) := by
  induction ids generalizing r s with
  | nil => rfl
  | cons id rest ih =>
      rw [List.map_cons, fireTimers]
      cases htimer : r.timer? id with
      | none =>
          have hnone : r.fires? (.timer id) = none := by rw [fires?, htimer]; rfl
          rw [ofRecord_takeTurns_of_none hnone, ih]
      | some timer =>
          have hsome : r.fires? (.timer id) = some (.timer id timer.tag) := by
            rw [fires?, htimer]; rfl
          rw [ofRecord_takeTurns_of_some hsome]
          simp only [settleItem, htimer, ih]

/-- `fireDescriptors` is `takeTurns` of the descriptors. -/
theorem fireDescriptors_eq (later : Nat → Nat) (pending : List (Descriptor × Direction))
    (r : Reactor φ τ) (s : σ) :
    fireDescriptors handler pending r s =
      Course.ofRecord
        (takeTurns handler later (pending.map fun p => Item.descriptor p.1 p.2) r s) := by
  induction pending generalizing r s with
  | nil => rfl
  | cons pair rest ih =>
      obtain ⟨fd, direction⟩ := pair
      rw [List.map_cons, fireDescriptors]
      cases htag : r.tag? fd direction with
      | none =>
          have hnone : r.fires? (.descriptor fd direction) = none := by rw [fires?, htag]; rfl
          rw [ofRecord_takeTurns_of_none hnone, ih]
      | some tag =>
          have hsome :
              r.fires? (.descriptor fd direction) = some (.descriptor fd direction tag) := by
            rw [fires?, htag]; rfl
          rw [ofRecord_takeTurns_of_some hsome]
          simp only [settleItem, ih, Checked.ok_bind]

/-! ### Rounds -/

/-- `r.agenda round` is what the round has collected, in its order: the timers that were due, and
then the descriptors that were ready. -/
def agenda (r : Reactor φ τ) (round : Round) : List Item :=
  (r.due round.now).map Item.timer ++
    (r.ready round.polled).map fun p => Item.descriptor p.1 p.2

/-- A `Doing` is something that is done with a loop. -/
inductive Doing (φ τ : Type)
  /-- It is asked for something from outside. -/
  | ask (action : Action φ τ)
  /-- It goes through a round. -/
  | round (round : Round)

/-- `turnsOf handler r s doing` are the turns of what is done: one for an action, those of the
`agenda` for a round. -/
def turnsOf (handler : Handler φ τ σ) (r : Reactor φ τ) (s : σ) :
    Doing φ τ → Record (Turn φ τ) (Reactor φ τ × σ)
  | .ask action =>
    ([⟨none, r, none, [action], r.act action⟩], (r.act action).map (·, s))
  | .round round =>
    -- the wait may fault, before anything has its turn
    Record.andThen ([], r.waitTimeout round.before) fun _ =>
      takeTurns handler round.later (r.agenda round) r s

/-- A `Stage` is something that is done, with its turns. -/
structure Stage (φ τ : Type) where
  /-- What is done. -/
  doing : Doing φ τ
  /-- The loop at the beginning. -/
  start : Reactor φ τ
  /-- The turns. -/
  turns : List (Turn φ τ)

/-- `stageOf handler r s doing` is the stage of what is done. -/
def stageOf (handler : Handler φ τ σ) (r : Reactor φ τ) (s : σ) (doing : Doing φ τ) :
    Record (Stage φ τ) (Reactor φ τ × σ) :=
  ([⟨doing, r, (turnsOf handler r s doing).1⟩], (turnsOf handler r s doing).2)

/-- `history handler doings r s` are the stages of what is done with a loop, one after the other. -/
def history (handler : Handler φ τ σ) :
    List (Doing φ τ) → Reactor φ τ → σ → Record (Stage φ τ) (Reactor φ τ × σ)
  | [], r, s => ([], .ok (r, s))
  | doing :: rest, r, s =>
    (stageOf handler r s doing).andThen fun (r, s) => history handler rest r s

/-- `runHistory` are the stages of `Reactor.run`. -/
def runHistory (handler : Handler φ τ σ) (world : Nat → Reactor φ τ → σ → Round) (turn : Nat) :
    Nat → Reactor φ τ → σ → Record (Stage φ τ) (Reactor φ τ × σ)
  | 0, r, s => ([], .ok (r, s))
  | count + 1, r, s =>
    if r.stopped then ([], .ok (r, s))
    else
      (stageOf handler r s (.round (world turn r s))).andThen fun (r, s) =>
        runHistory handler world (turn + 1) count r s

/-- `turnsIn x` are the turns of all stages. -/
def turnsIn (x : Record (Stage φ τ) (Reactor φ τ × σ)) : Record (Turn φ τ) (Reactor φ τ × σ) :=
  (x.1.flatMap Stage.turns, x.2)

/-- `history` of `front` and then of `back`. -/
theorem history_append (front back : List (Doing φ τ)) (r : Reactor φ τ) (s : σ) :
    history handler (front ++ back) r s =
      (history handler front r s).andThen fun (r, s) => history handler back r s := by
  induction front generalizing r s with
  | nil => rfl
  | cons doing rest ih =>
      simp only [List.cons_append, history, ih, Record.andThen_assoc]

/-- `Course.ofRecord` of `andThen`. -/
theorem Course.ofRecord_andThen (x : Record (Turn φ τ) (Reactor φ τ × σ))
    (f : Reactor φ τ × σ → Record (Turn φ τ) (Reactor φ τ × σ)) :
    Course.ofRecord (x.andThen f) =
      Except.bind (Course.ofRecord x) fun first =>
        (Course.ofRecord (f (first.reactor, first.state))).map fun rest =>
          { rest with fired := first.fired ++ rest.fired } := by
  obtain ⟨turns, result⟩ := x
  cases result with
  | error fault => rfl
  | ok p =>
      simp only [Record.andThen, Course.ofRecord, Except.bind, Except.map]
      cases (f p).2 with
      | error fault => rfl
      | ok q =>
          rw [firedIn, List.filterMap_append]
          rfl

/-- **`Reactor.process` is `turnsOf` the round.** -/
theorem process_eq (round : Round) (r : Reactor φ τ) (s : σ) :
    process handler round r s = Course.ofRecord (turnsOf handler r s (.round round)) := by
  rw [process, turnsOf]
  cases r.waitTimeout round.before with
  | error fault => rfl
  | ok timeout =>
      rw [Record.nil_andThen, agenda, takeTurns_append, Course.ofRecord_andThen, Checked.ok_bind,
        fireTimers_eq]
      cases Course.ofRecord
          (takeTurns handler round.later ((r.due round.now).map Item.timer) r s) with
      | error fault => rfl
      | ok timers =>
          simp only [Checked.ok_bind, Except.bind]
          rw [fireDescriptors_eq round.later]
          rfl

/-! ### Runs -/

/-- `turnsIn` of `andThen`. -/
theorem turnsIn_andThen (x : Record (Stage φ τ) (Reactor φ τ × σ))
    (f : Reactor φ τ × σ → Record (Stage φ τ) (Reactor φ τ × σ)) :
    turnsIn (x.andThen f) = (turnsIn x).andThen fun p => turnsIn (f p) := by
  obtain ⟨stages, result⟩ := x
  cases result with
  | error fault => rfl
  | ok p => simp only [turnsIn, Record.ok_andThen, List.flatMap_append]

/-- `turnsIn` one stage are `turnsOf` what is done. -/
theorem turnsIn_stageOf (r : Reactor φ τ) (s : σ) (doing : Doing φ τ) :
    turnsIn (stageOf handler r s doing) = turnsOf handler r s doing := by
  rw [turnsIn, stageOf, List.flatMap_singleton]

/-- **`Reactor.run` is `turnsIn` the `runHistory`.** -/
theorem run_eq (world : Nat → Reactor φ τ → σ → Round) (turn count : Nat) (r : Reactor φ τ)
    (s : σ) :
    run handler world turn count r s =
      Course.ofRecord (turnsIn (runHistory handler world turn count r s)) := by
  induction count generalizing turn r s with
  | zero => rfl
  | succ count ih =>
      rw [run, runHistory]
      by_cases hstopped : r.stopped = true
      · rw [if_pos hstopped, if_pos hstopped]
        rfl
      · rw [if_neg hstopped, if_neg hstopped, process_eq, turnsIn_andThen, turnsIn_stageOf,
          Course.ofRecord_andThen]
        cases Course.ofRecord (turnsOf handler r s (.round (world turn r s))) with
        | error fault => rfl
        | ok first =>
            simp only [Checked.ok_bind, Except.bind, ih]
            rfl

end Reactor

end KeyValueServer
