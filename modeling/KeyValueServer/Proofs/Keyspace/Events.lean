import Mathlib.Data.List.AList
import KeyValueServer.Proofs.Keyspace.Refinement
import KeyValueServer.Proofs.Table.FiniteMap

/-!
# Requests and cycles over time

Clients send requests, and cycles of expiration happen between them, each at a reading of the clock
(`Keyspace.Event`). What clients see of `Keyspace.serve` are the outcomes of their requests.

A request is read before it is carried out: its name and arguments say, whatever the keyspace holds,
what it demands of the keyspace (`Keyspace.demand`). There are few such demands, and two maps meet
each of them (`Maps.meet`).

## Main results

* `Keyspace.Tracks.perform_demand`: a request is met as the maps meet its demand.
* `Keyspace.Tracks.serve_request`, `serve_cycle`: one event and then others.
* `Keyspace.Tracks.lapsed_iff`, `stores_iff`: what a keyspace knows of a key, in terms of its maps.
-/

namespace KeyValueServer

namespace Keyspace

/-! ### What a request demands -/

/-- A `Demand` is what a request demands of a keyspace. -/
inductive Demand
  /-- Nothing: the outcome is known without a look at any key. -/
  | nothing (outcome : Outcome)
  /-- The value of a key. -/
  | get (key : Bytes)
  /-- A value under a key. -/
  | store (key bytes : Bytes)
  /-- A deadline for a key. -/
  | setDeadline (key : Bytes) (deadline : Int64)

/-- `deadlineOf? seconds now` is the deadline that an argument asks for, if it denotes seconds that
lead to one. -/
def deadlineOf? (seconds : Bytes) (now : Int64) : Option Int64 :=
  (Numeral.int64? seconds).bind (deadlineAfter? · now)

/-- `demand name args now` is what a request demands at a time. -/
def demand (name : Bytes) (args : List Bytes) (now : Int64) : Demand :=
  if Command.isQuit name then .nothing .quit
  else
    match Command.lookup? name, args with
    | none, _ => .nothing (.reply (.refused (.unknownCommand (Utf8.lossy name))))
    | some .get, [key] => .get key
    | some .set, [key, bytes] => .store key bytes
    | some .expire, [key, seconds] =>
      match deadlineOf? seconds now with
      | some deadline => .setDeadline key deadline
      | none => .nothing (.reply (.refused .notInteger))
    | some _, _ => .nothing (.reply (.refused (.wrongArity (Utf8.lossy name))))

/-- `Command.lookup?` finds a command by its letters in any case. -/
theorem map_lower_of_lookup? {name : Bytes} {command : Command}
    (h : Command.lookup? name = some command) :
    name.map Bytes.lower = (Bytes.ofText command.name).map Bytes.lower := by
  rw [Command.lookup?] at h
  have hsame : Bytes.sameLetters (Bytes.ofText command.name) name = true := by
    simpa using List.find?_some h
  exact (eq_of_beq hsame).symm

/-- The name of a command is not `quit`. -/
theorem isQuit_eq_false {name : Bytes} {command : Command}
    (h : Command.lookup? name = some command) : Command.isQuit name = false := by
  rw [Command.isQuit, Bytes.sameLetters, map_lower_of_lookup? h]
  cases command <;> decide

section

variable {name key bytes seconds : Bytes} {args : List Bytes} {now : Int64}

/-- What `GET` demands. -/
theorem demand_get (h : Command.lookup? name = some .get) : demand name [key] now = .get key := by
  simp [demand, isQuit_eq_false h, h]

/-- What `SET` demands. -/
theorem demand_set (h : Command.lookup? name = some .set) :
    demand name [key, bytes] now = .store key bytes := by
  simp [demand, isQuit_eq_false h, h]

/-- What `EXPIRE` demands. -/
theorem demand_expire (h : Command.lookup? name = some .expire) :
    demand name [key, seconds] now =
      match deadlineOf? seconds now with
      | some deadline => .setDeadline key deadline
      | none => .nothing (.reply (.refused .notInteger)) := by
  simp [demand, isQuit_eq_false h, h]

/-- What a command with arguments that it does not take demands. -/
theorem demand_wrongArity {command : Command} (h : Command.lookup? name = some command)
    (hne : command.arity ≠ args.length + 1) :
    demand name args now = .nothing (.reply (.refused (.wrongArity (Utf8.lossy name)))) := by
  simp only [demand, isQuit_eq_false h, h]
  cases command with
  | get =>
      match args, hne with
      | [], _ => rfl
      | [_], hne => exact absurd rfl hne
      | _ :: _ :: _, _ => rfl
  | set =>
      match args, hne with
      | [], _ => rfl
      | [_], _ => rfl
      | [_, _], hne => exact absurd rfl hne
      | _ :: _ :: _ :: _, _ => rfl
  | expire =>
      match args, hne with
      | [], _ => rfl
      | [_], _ => rfl
      | [_, _], hne => exact absurd rfl hne
      | _ :: _ :: _ :: _, _ => rfl

/-- Only `SET` has a `Demand.store`. -/
theorem exists_set_of_demand (h : demand name args now = .store key bytes) :
    Command.lookup? name = some .set ∧ args = [key, bytes] := by
  unfold demand at h
  split at h
  · cases h
  · split at h
    · cases h
    · cases h
    · rename_i hname
      cases h
      exact ⟨hname, rfl⟩
    · split at h <;> cases h
    · cases h

/-- Only `EXPIRE` has a `Demand.setDeadline`. -/
theorem exists_expire_of_demand {deadline : Int64}
    (h : demand name args now = .setDeadline key deadline) :
    Command.lookup? name = some .expire ∧
      ∃ seconds, args = [key, seconds] ∧ deadlineOf? seconds now = some deadline := by
  unfold demand at h
  split at h
  · cases h
  · split at h
    · cases h
    · cases h
    · cases h
    · rename_i hname
      split at h
      · rename_i hdeadline
        cases h
        exact ⟨hname, _, rfl, hdeadline⟩
      · cases h
    · cases h

end

/-- `replyOf value?` is the reply to `GET`. -/
def replyOf : Option Value → Reply
  | none => .nil
  | some (.str bytes) => .bulk (.str bytes)
  | some (.int _) => .refused .wrongType

namespace Maps

/-- `m.meet now d` is the outcome of a demand at a time, and the maps when it is met. -/
def meet (m : Maps) (now : Int64) : Demand → Outcome × Maps
  | .nothing outcome => (outcome, m)
  | .get key => (.reply (replyOf ((m.upTo key now).values.lookup key)), m.upTo key now)
  | .store key bytes => (.reply .done, m.store key (.str bytes))
  | .setDeadline key deadline => (.reply .done, m.setDeadline key deadline)

/-- **`Maps.Answers` a request in one way**: it meets its `demand`. -/
theorem Answers.eq_meet {m m' : Maps} {name : Bytes} {args : List Bytes} {now : Int64}
    {outcome : Outcome} (h : m.Answers (.request name args now) (.outcome outcome) m') :
    m.meet now (demand name args now) = (outcome, m') := by
  cases h with
  | quit hquit => simp [demand, hquit, meet]
  | unknown hquit hname => simp [demand, hquit, hname, meet]
  | wrongArity hname hne => rw [demand_wrongArity hname hne, meet]
  | getNone hname hvalue => rw [demand_get hname, meet, hvalue, replyOf]
  | getText hname hvalue => rw [demand_get hname, meet, hvalue, replyOf]
  | getInteger hname hvalue => rw [demand_get hname, meet, hvalue, replyOf]
  | set hname => rw [demand_set hname, meet]
  | expireAccepted hname hdeadline =>
      rw [demand_expire hname]
      simp only [deadlineOf?, hdeadline, meet]
  | expireRejected hname hdeadline =>
      rw [demand_expire hname]
      simp only [deadlineOf?, hdeadline, meet]

end Maps

/-- **`Keyspace.perform` meets a request as the maps meet its `demand`**, and never faults. -/
theorem Tracks.perform_demand {s : Keyspace} {fit : Value → Prop} {m : Maps} (h : s.Tracks fit m)
    (hfit : ∀ n, fit (.int n)) (name : Bytes) (args : List Bytes) (now : Int64) :
    ∃ s', s.perform now ((name :: args).map .str) =
        .ok ((m.meet now (demand name args now)).1, s') ∧
      s'.Tracks fit (m.meet now (demand name args now)).2 := by
  obtain ⟨outcome, s', m', hperform, hanswer, h', -⟩ := h.perform hfit name args now
  refine ⟨s', ?_, ?_⟩
  · rw [hanswer.eq_meet]
    exact hperform
  · rw [hanswer.eq_meet]
    exact h'

/-! ### Events -/

/-- An `Event` is what happens on a keyspace at a time: a request of a client, or a cycle of
expiration. -/
inductive Event
  /-- A request with at least a name. -/
  | request (name : Bytes) (args : List Bytes) (now : Int64)
  /-- A cycle of up to `count` samples, with their random choices. -/
  | cycle (count : Nat) (now : Int64) (draws : Nat → Draws)

namespace Event

/-- `ofTexts` is a request that is written as texts. -/
def ofTexts (name : String) (args : List String) (now : Int64) : Event :=
  .request (Bytes.ofText name) (args.map Bytes.ofText) now

/-- `e.time` is the reading of the clock at the event. -/
def time : Event → Int64
  | request _ _ now => now
  | cycle _ now _ => now

/-- `e.isRequest`: the event is a request. -/
def isRequest : Event → Bool
  | request .. => true
  | cycle .. => false

/-- `e.isSetOf key`: the event is a `SET` of the key. -/
def isSetOf (key : Bytes) : Event → Bool
  | request name [key', _] _ => Command.lookup? name == some .set && key' == key
  | _ => false

/-- `e.isExpireOf key`: the event is an `EXPIRE` of the key that is carried out, its seconds leading
to a deadline. -/
def isExpireOf (key : Bytes) : Event → Bool
  | request name [key', seconds] now =>
    Command.lookup? name == some .expire && key' == key && (deadlineOf? seconds now).isSome
  | _ => false

/-- A request with a `Demand.store` is a `SET`. -/
theorem isSetOf_of_demand {name key bytes : Bytes} {args : List Bytes} {now : Int64}
    (h : demand name args now = .store key bytes) : (request name args now).isSetOf key = true := by
  obtain ⟨hname, rfl⟩ := exists_set_of_demand h
  simp [isSetOf, hname]

/-- A request with a `Demand.setDeadline` is an `EXPIRE` that is carried out. -/
theorem isExpireOf_of_demand {name key : Bytes} {args : List Bytes} {now deadline : Int64}
    (h : demand name args now = .setDeadline key deadline) :
    (request name args now).isExpireOf key = true := by
  obtain ⟨hname, seconds, rfl, hdeadline⟩ := exists_expire_of_demand h
  simp [isExpireOf, hname, hdeadline]

end Event

/-- `serve events s` lets events happen one after the other. The outcomes are those of the
requests. -/
def serve : List Event → Keyspace → Checked (List Outcome × Keyspace)
  | [], s => .ok ([], s)
  | .request name args now :: rest, s => do
    let (outcome, s) ← s.perform now ((name :: args).map .str)
    let (outcomes, s) ← serve rest s
    .ok (outcome :: outcomes, s)
  | .cycle count now draws :: rest, s => do
    let (_, s) ← s.expireCycle count now draws
    serve rest s

/-- `serve` of events after events. -/
theorem serve_append {front back : List Event} {s s₁ s₂ : Keyspace}
    {outcomes outcomes' : List Outcome} (h : serve front s = .ok (outcomes, s₁))
    (h' : serve back s₁ = .ok (outcomes', s₂)) :
    serve (front ++ back) s = .ok (outcomes ++ outcomes', s₂) := by
  induction front generalizing s outcomes with
  | nil =>
      cases h
      exact h'
  | cons e rest ih =>
      cases e with
      | request name args now =>
          simp only [serve, Checked.bind_eq_ok_iff] at h
          obtain ⟨⟨outcome, s₀⟩, hperform, ⟨later, s₀'⟩, hserve, heq⟩ := h
          cases heq
          have hrest := ih hserve
          simp only [List.cons_append, serve, hperform, hrest, Checked.ok_bind]
      | cycle count now draws =>
          simp only [serve, Checked.bind_eq_ok_iff] at h
          obtain ⟨⟨n, s₀⟩, hcycle, hserve⟩ := h
          have hrest := ih hserve
          simp only [List.cons_append, serve, hcycle, hrest, Checked.ok_bind]

/-! ### What a keyspace knows of a key -/

/-- `s.Lapsed key now`: the stored deadline of the key is at or before `now`. -/
def Lapsed (s : Keyspace) (key : Bytes) (now : Int64) : Prop :=
  ∃ deadline deadlines, s.deadlines.get (.str key) = .ok (some deadline, deadlines) ∧
    isDue deadline now = true

/-- `s.Stores key`: a value is stored under the key. -/
def Stores (s : Keyspace) (key : Bytes) : Prop :=
  ∃ value values, s.values.get (.str key) = .ok (some value, values)

/-- `s.HasTextKeys`: the tables are maps on byte strings. -/
def HasTextKeys (s : Keyspace) : Prop :=
  (∃ m, s.values.IsMap m) ∧ ∃ m, s.deadlines.IsMap m

/-- `HasTextKeys` of tables that operations with strings as keys have led to. -/
theorem hasTextKeys_of_runs {ops ops' : List (Table.Operation Value.keying Value)}
    (hword : ∀ target, .expand target ∈ ops → Table.nextPower target < wordLimit)
    (hword' : ∀ target, .expand target ∈ ops' → Table.nextPower target < wordLimit)
    {s : Keyspace} (h : (Table.run ops .empty).2 = .ok s.values)
    (h' : (Table.run ops' .empty).2 = .ok s.deadlines) : s.HasTextKeys :=
  ⟨Table.exists_isMap_of_run hword h, Table.exists_isMap_of_run hword' h'⟩

/-- What the values of a map are sent to, where they are sent anywhere, is a map. -/
theorem exists_lookup_eq_bind {α β γ : Type} [DecidableEq α] (f : β → Option γ)
    (m : Finmap fun _ : α => β) :
    ∃ m' : Finmap fun _ : α => γ, ∀ a, (m.lookup a).bind f = m'.lookup a := by
  induction m using Finmap.induction_on with
  | _ entries =>
    induction entries using AList.insertRec with
    | H0 => exact ⟨∅, fun a => rfl⟩
    | IH a b entries hnot ih =>
        obtain ⟨m', hm'⟩ := ih
        have hlookup : ∀ x, ((AList.insert a b entries).toFinmap.lookup x) =
            if x = a then some b else entries.toFinmap.lookup x := by
          intro x
          rw [← Finmap.insert_toFinmap]
          by_cases hx : x = a
          · subst hx
            rw [Finmap.lookup_insert, if_pos rfl]
          · rw [Finmap.lookup_insert_of_ne _ hx, if_neg hx]
        cases hb : f b with
        | none =>
            refine ⟨m'.erase a, fun x => ?_⟩
            rw [hlookup]
            by_cases hx : x = a
            · subst hx
              rw [if_pos rfl, Finmap.lookup_erase]
              exact hb
            · rw [if_neg hx, Finmap.lookup_erase_ne hx]
              exact hm' x
        | some c =>
            refine ⟨m'.insert a c, fun x => ?_⟩
            rw [hlookup]
            by_cases hx : x = a
            · subst hx
              rw [if_pos rfl, Finmap.lookup_insert]
              exact hb
            · rw [if_neg hx, Finmap.lookup_insert_of_ne _ hx]
              exact hm' x

/-- `HasTextKeys` keyspaces track a pair of maps, whatever their deadlines are. -/
theorem HasTextKeys.exists_tracks {s : Keyspace} (h : s.HasTextKeys) :
    ∃ m, s.Tracks (fun _ => True) m := by
  obtain ⟨⟨values, hvalues⟩, held, hheld⟩ := h
  obtain ⟨deadlines, hdeadlines⟩ := exists_lookup_eq_bind Value.integer? held
  exact ⟨⟨values, deadlines⟩, hvalues, held, hheld, fun _ _ _ => trivial, hdeadlines⟩

namespace Tracks

variable {s : Keyspace} {fit : Value → Prop} {m : Maps}

/-- `HasTextKeys` of a keyspace that tracks a pair of maps. -/
theorem hasTextKeys (h : s.Tracks fit m) : s.HasTextKeys := by
  obtain ⟨hvalues, held, hheld, -, -⟩ := h
  exact ⟨⟨m.values, hvalues⟩, held, hheld⟩

/-- `Lapsed` is `isDue` in the maps. -/
theorem lapsed_iff (h : s.Tracks fit m) (key : Bytes) (now : Int64) :
    s.Lapsed key now ↔ m.isDue key now = true := by
  obtain ⟨val?, deadlines, hget, hval, -⟩ := h.deadlines.get key
  rw [Maps.isDue, ← hval]
  constructor
  · rintro ⟨deadline, _, hget', hdue⟩
    rw [hget] at hget'
    cases hget'
    rw [isDue_eq] at hdue
    exact hdue
  · intro hdue
    cases val? with
    | none => cases hdue
    | some deadline => exact ⟨deadline, deadlines, hget, by rw [isDue_eq]; exact hdue⟩

/-- `Stores` is having a value in the maps. -/
theorem stores_iff (h : s.Tracks fit m) (key : Bytes) :
    s.Stores key ↔ m.values.lookup key ≠ none := by
  obtain ⟨values, hget, -⟩ := h.values.get key
  constructor
  · rintro ⟨value, _, hget'⟩ hnone
    rw [hget, hnone] at hget'
    cases hget'
  · intro hne
    obtain ⟨value, hvalue⟩ := Option.ne_none_iff_exists'.1 hne
    rw [hvalue] at hget
    exact ⟨value, values, hget⟩

/-! ### One event and then others -/

/-- `serve` of a request leads to maps that meet its demand. -/
theorem serve_request (h : s.Tracks fit m) (hfit : ∀ n, fit (.int n)) (name : Bytes)
    (args : List Bytes) (now : Int64) :
    ∃ s', serve [.request name args now] s =
        .ok ([(m.meet now (demand name args now)).1], s') ∧
      s'.Tracks fit (m.meet now (demand name args now)).2 := by
  obtain ⟨s', hperform, h'⟩ := h.perform_demand hfit name args now
  refine ⟨s', ?_, h'⟩
  simp only [serve, hperform, Checked.ok_bind]

/-- `serve` of a cycle leads to maps from which keys expire. -/
theorem serve_cycle (h : s.Tracks fit m) (count : Nat) (now : Int64) (draws : Nat → Draws) :
    ∃ n s' m', serve [.cycle count now draws] s = .ok ([], s') ∧ m.Expires now n m' ∧
      s'.Tracks fit m' := by
  obtain ⟨n, s', m', hcycle, -, hexpires, h'⟩ := h.expireFrom now draws 0 count
  refine ⟨n, s', m', ?_, hexpires, h'⟩
  simp only [serve, expireCycle, hcycle, Checked.ok_bind]

end Tracks

end Keyspace

end KeyValueServer
