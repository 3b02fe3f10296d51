import KeyValueServer.Proofs.Server.Delivery

/-!
# Sequential consistency

Whatever connections come and go, whatever pieces of their streams arrive in whatever order,
whatever their sockets take and whenever cycles of expiration run, no callback faults, and what the
server does is one sequential execution: its keyspace is what `Happening.replay` makes of the empty
keyspace one event at a time, each connection has had performed what `Decoder.receive` reads from
its own stream, and has had queued and written the answers of that execution to its own requests.

`Server.Accounts` is the invariant between callbacks. Its parts about single connections are
`Server.Accounted`; what it leaves out, the queues, is in `Server.Relays` and `Server.Delivered`.

## Main results

* `Server.moments_ok`: the moments of a callback are `Server.Sequential` and keep `Server.Accounts`.
* `Server.Consistent`: what sequential consistency says of a history.
* `Server.history_consistent`: every `Server.history` is `Server.Consistent`.
-/

namespace KeyValueServer

namespace Server

variable {s s' : Server} {fd : Descriptor} {past moments : List Moment} {m : Moment}

/-! ### What holds between callbacks -/

/-- `Ended fd past`: each connection that has been replaced on `fd` was `Accounted` for when it
was. -/
def Ended (fd : Descriptor) (past : List Moment) : Prop :=
  ∀ front m back, past = front ++ m :: back → m.accepts fd = true → ∃ s, Accounted fd front s

/-- `Ended` goes on where no moment `accepts fd`. -/
theorem Ended.append (h : Ended fd past) (haccepts : ∀ m ∈ moments, m.accepts fd = false) :
    Ended fd (past ++ moments) := by
  intro front m back happend hm
  have hnew : m ∉ moments := by
    intro hmem
    rw [haccepts m hmem] at hm
    cases hm
  rcases List.append_eq_append_iff.1 happend with ⟨middle, -, hmoments⟩ | ⟨middle, hpast, hback⟩
  · rw [hmoments] at hnew
    exact absurd (List.mem_append_right middle List.mem_cons_self) hnew
  · cases middle with
    | nil =>
        rw [List.nil_append] at hback
        rw [← hback] at hnew
        exact absurd List.mem_cons_self hnew
    | cons first rest =>
        cases hback
        exact h front m rest hpast hm

/-- `Ended` goes on where a moment `accepts fd` and the connection before it is `Accounted` for. -/
theorem Ended.accepted (h : Ended fd past) (hnow : Accounted fd past s) :
    Ended fd (past ++ [m]) := by
  intro front m' back happend hm
  rcases List.append_eq_append_iff.1 happend with
    ⟨middle, hfront, hmoments⟩ | ⟨middle, hpast, hback⟩
  · cases middle with
    | nil =>
        rw [List.append_nil] at hfront
        rw [hfront]
        exact ⟨s, hnow⟩
    | cons first rest =>
        have hlength := congrArg List.length hmoments
        rw [List.length_append, List.length_cons, List.length_cons, List.length_cons] at hlength
        exact absurd hlength (by rw [List.length_nil]; omega)
  · cases middle with
    | nil =>
        rw [List.append_nil] at hpast
        rw [← hpast]
        exact ⟨s, hnow⟩
    | cons first rest =>
        cases hback
        exact h front m' rest hpast hm

/-- `Accounts past s`: the history `past` accounts for the server `s` and all its connections. This
is the invariant that each callback keeps. -/
structure Accounts (past : List Moment) (s : Server) : Prop where
  sound : s.keyspace.IsSound
  now : ∀ fd, Accounted fd past s
  ended : ∀ fd, Ended fd past

/-- `Server.fresh` is accounted for by the empty history. -/
theorem accounts_fresh (settings : Settings) (listener : Descriptor) :
    Accounts [] (fresh settings listener) where
  sound := ⟨.empty, .empty⟩
  now _ := .never rfl rfl rfl
  ended fd front m back h := absurd h (by simp)

/-! ### One callback -/

/-- `Accounts` goes on at a moment with `Moment.IsQuiet` after which the server `Recedes`. -/
theorem Accounts.recede (h : Accounts past s) (hquiet : m.IsQuiet)
    (hreplay : m.event.replay s.keyspace = .ok m.server.keyspace)
    (hsound : m.server.keyspace.IsSound) (hrecedes : s.Recedes m.server) :
    Sequential s [m] ∧ Accounts (past ++ [m]) m.server := by
  have haccepts : ∀ fd, ∀ m' ∈ [m], m'.accepts fd = false := by
    intro fd m' hm'
    rw [List.mem_singleton.1 hm']
    exact hquiet.accepts_eq fd
  refine ⟨.cons hreplay .nil, hsound, fun fd => ?_, fun fd => ?_⟩
  · refine (h.now fd).untouched (haccepts fd) ?_ ?_ (hrecedes fd)
    · rw [List.filterMap_cons_none (hquiet.piece?_eq fd), List.filterMap_nil]
    · rw [List.filterMap_cons_none (hquiet.request?_eq fd), List.filterMap_nil]
  · exact (h.ended fd).append (haccepts fd)

/-- `Accounts` goes on at an `accepted` moment. -/
theorem Accounts.accepted (h : Accounts past s) (fd : Descriptor)
    (hs' : s' = { s with clients := s.clients.put fd Client.fresh }) :
    Accounts (past ++ [⟨.accepted fd, s'⟩]) s' := by
  subst hs'
  refine ⟨h.sound, fun other => ?_, fun other => (h.ended other).accepted (h.now other)⟩
  · by_cases hother : other = fd
    · subst hother
      refine accounted_accepted past other ?_
      rw [Registry.get?_put_self]
    · refine (h.now other).untouched ?_ rfl rfl fun client' hclient' => ?_
      · intro m hm
        rw [List.mem_singleton.1 hm]
        exact beq_false_of_ne (Ne.symm hother)
      · rw [Registry.get?_put_of_ne hother] at hclient'
        exact ⟨client', hclient', .refl client'⟩

/-- **`acceptMoments`** are `Sequential`, and `Accounts` goes on. -/
theorem acceptMoments_ok (outcomes : List AcceptOutcome) (h : Accounts past s) :
    Sequential s (acceptMoments outcomes s) ∧
      Accounts (past ++ acceptMoments outcomes s) (s.after (acceptMoments outcomes s)) := by
  induction outcomes generalizing past s with
  | nil =>
      rw [acceptMoments, List.append_nil]
      exact ⟨.nil, h⟩
  | cons outcome rest ih =>
      cases outcome with
      | accepted fd =>
          obtain ⟨hsequential, hrest⟩ := ih (h.accepted fd rfl)
          rw [List.append_assoc] at hrest
          exact ⟨.cons rfl hsequential, hrest⟩
      | unusable => exact ih h
      | interrupted => exact ih h
      | wouldBlock =>
          rw [acceptMoments, List.append_nil]
          exact ⟨.nil, h⟩
      | failed =>
          rw [acceptMoments, List.append_nil]
          exact ⟨.nil, h⟩

/-- `Accounts` goes on at a `closedMoment`. -/
theorem Accounts.closed (h : Accounts past s) (fd : Descriptor) :
    Sequential s [s.closedMoment fd] ∧
      Accounts (past ++ [s.closedMoment fd]) (s.closedMoment fd).server :=
  h.recede ⟨rfl, fun _ => rfl, fun _ => rfl⟩ rfl h.sound (recedes_free s fd)

/-- **Serving a connection** that has sent `bytes` does not fault, and `Accounts` goes on. -/
theorem Accounts.received {client : Client} (h : Accounts past s)
    (hclient : s.clients.get? fd = some client) (bytes : Bytes) (clock : Nat → Int64) :
    ∃ moments, attemptMoments fd clock 0 (client.decoder.feed bytes).attempts
        (s.fed fd client bytes) = .ok moments ∧
      Sequential s (⟨.received fd bytes, s.fed fd client bytes⟩ :: moments) ∧
      Accounts (past ++ ⟨.received fd bytes, s.fed fd client bytes⟩ :: moments)
        ((s.fed fd client bytes).after moments) := by
  have hidle := (h.now fd).idle hclient
  obtain ⟨drained, hdrain, -⟩ := Decoder.drain_ok (hidle.sound_feed bytes)
  obtain ⟨moments, hmoments, hserved⟩ :=
    attemptMoments_ok clock 0 (get?_fed s fd client bytes) (s := s.fed fd client bytes) h.sound
      hdrain
  refine ⟨moments, hmoments, .cons rfl hserved.sequential,
    hserved.sound, fun other => ?_,
    fun other => (h.ended other).append (hserved.accepts_eq bytes other)⟩
  by_cases hother : other = fd
  · subst hother
    exact (h.now other).served hclient hdrain hserved
  · exact (h.now other).served_other hother hserved

/-- **`readMoments`** do not fault and are `Sequential`, and `Accounts` goes on. -/
theorem readMoments_ok (h : Accounts past s) (fd : Descriptor) (outcome : ReadOutcome)
    (clock : Nat → Int64) :
    ∃ moments, s.readMoments fd outcome clock = .ok moments ∧ Sequential s moments ∧
      Accounts (past ++ moments) (s.after moments) := by
  have hnothing : Sequential s [] ∧ Accounts (past ++ []) (s.after []) := by
    rw [List.append_nil]
    exact ⟨.nil, h⟩
  rw [readMoments]
  cases hclient : s.clients.get? fd with
  | none => exact ⟨[], rfl, hnothing⟩
  | some client =>
      cases outcome with
      | wouldBlock => exact ⟨[], rfl, hnothing⟩
      | interrupted => exact ⟨[], rfl, hnothing⟩
      | failed => exact ⟨_, rfl, h.closed fd⟩
      | received bytes =>
          cases hempty : bytes.isEmpty with
          | true => exact ⟨_, by simp only [hempty, if_true], h.closed fd⟩
          | false =>
              obtain ⟨moments, hmoments, hsequential, haccounts⟩ := h.received hclient bytes clock
              refine ⟨_, ?_, hsequential, haccounts⟩
              simp only [hempty, Bool.false_eq_true, if_false, hmoments, Checked.ok_bind]

/-- **`Server.cron`** does not fault, its moment is `Sequential`, and `Accounts` goes on. -/
theorem cronMoments_ok (h : Accounts past s) (now : Int64) (draws : Nat → Draws) :
    ∃ e, s.cron now draws = .ok e ∧
      Sequential s [⟨.cycled s.settings.expireCheckCount.toNat now draws, e.server⟩] ∧
      Accounts (past ++ [⟨.cycled s.settings.expireCheckCount.toNat now draws, e.server⟩])
        e.server := by
  obtain ⟨m, hm⟩ := h.sound
  obtain ⟨n, keyspace, m', hcycle, -, -, hm'⟩ :=
    hm.expireFrom now draws 0 s.settings.expireCheckCount.toNat
  have hcron : s.cron now draws = .ok (.quiet { s with keyspace := keyspace }) := by
    rw [cron, Keyspace.expireCycle, hcycle, Checked.ok_bind]
  refine ⟨_, hcron, h.recede ⟨rfl, fun _ => rfl, fun _ => rfl⟩ ?_ ⟨m', hm'⟩ ?_⟩
  · rw [Happening.replay, Keyspace.expireCycle, hcycle, Checked.ok_bind]
    rfl
  · exact recedes_of_clients_eq rfl

/-- **`Server.moments`** of one callback never fault and are `Sequential`, and `Accounts` goes
on. -/
theorem moments_ok (h : Accounts past s) (host : Host) (fired : Fired Task Chore) :
    ∃ moments, s.moments host fired = .ok moments ∧ Sequential s moments ∧
      Accounts (past ++ moments) (s.after moments) := by
  cases fired with
  | timer id chore =>
      cases chore with
      | expiration =>
          obtain ⟨e, hcron, hconsistent⟩ := cronMoments_ok h (host.clock 0) host.draws
          exact ⟨_, by rw [Server.moments, hcron, Checked.ok_bind], hconsistent⟩
  | descriptor fd direction task =>
      cases task with
      | accept => exact ⟨_, rfl, acceptMoments_ok host.accepts h⟩
      | readRequests => exact readMoments_ok h fd host.read host.clock
      | sendReplies =>
          have hkeyspace : (s.wroteMoment fd host.writes).server.keyspace = s.keyspace :=
            (send_recedes s fd host.writes).1
          have hrecedes := (send_recedes s fd host.writes).2
          refine ⟨_, rfl, h.recede ⟨rfl, fun _ => rfl, fun _ => rfl⟩ ?_ ?_ hrecedes⟩
          · rw [hkeyspace]
            rfl
          · rw [hkeyspace]
            exact h.sound

/-! ### Any number of callbacks -/

/-- **`Server.history`** never faults and is `Sequential`, and `Accounts` goes on. -/
theorem history_ok (callbacks : List Callback) (h : Accounts past s) :
    ∃ moments, history callbacks s = .ok moments ∧ Sequential s moments ∧
      Accounts (past ++ moments) (s.after moments) := by
  induction callbacks generalizing past s with
  | nil =>
      refine ⟨[], rfl, .nil, ?_⟩
      rw [List.append_nil]
      exact h
  | cons callback rest ih =>
      obtain ⟨fired, host⟩ := callback
      obtain ⟨first, hfirst, hsequential, haccounts⟩ := moments_ok h host fired
      obtain ⟨later, hlater, hsequential', haccounts'⟩ := ih haccounts
      refine ⟨first ++ later, ?_, hsequential.append hsequential', ?_⟩
      · rw [history, hfirst, Checked.ok_bind, hlater, Checked.ok_bind]
      · rw [after_append, ← List.append_assoc]
        exact haccounts'

/-! ### Sequential consistency -/

/-- `Consistent s past`: a history `past` that begins at the server `s`, with no keys, is
sequentially consistent. -/
structure Consistent (s : Server) (past : List Moment) : Prop where
  /-- At all times the keyspace is what `Happening.replay` makes of the empty keyspace: all requests
  so far are performed one at a time in their order, with the cycles of expiration between them. -/
  keyspace_eq : ∀ front back, past = front ++ back →
    (front.map (·.event)).foldlM Happening.replay .empty = .ok (s.after front).keyspace
  /-- Nothing is performed on a descriptor before a connection is accepted on it. -/
  requests_eq_nil : ∀ fd front back, past = front ++ back → (∀ m ∈ front, m.accepts fd = false) →
    front.filterMap (Moment.request? fd) = []
  /-- The requests that are performed for a connection are the `performable` ones of those that
  `Decoder.receive` reads from the pieces of its own stream. -/
  requests_eq : ∀ fd s₀ life, IsLife fd past s₀ life →
    ∃ drained, Decoder.receive (life.filterMap (Moment.piece? fd)) Decoder.fresh = .ok drained ∧
      life.filterMap (Moment.request? fd) = performable drained.requests
  /-- Each request that is performed has arguments, and it has an answer unless it
  `endsConnection`. -/
  answer?_eq_none_iff : ∀ m ∈ past, ∀ p, m.performed? = some p →
    p.args ≠ [] ∧ (p.answer? = none ↔ endsConnection p.args = true)
  /-- At each moment `Relays` holds: each queue is a suffix of what it was followed by the answer of
  that moment to its own connection, and replies leave it only by being written or with their
  connection. -/
  relays : ∀ fd front m back, past = front ++ m :: back → Relays fd (s.after front) m
  /-- A connection begins without replies. At each moment of its life `Delivered` holds: what its
  socket has taken and what waits are the answers so far to its own requests. -/
  delivered : ∀ fd s₀ life, IsLife fd past s₀ life → ∀ front back, life = front ++ back →
    s₀.queue fd = [] ∧ Delivered fd s₀ front

/-- A front part of the history that ends where another connection is accepted on `fd`, or with the
history, has the last connection on `fd` `Accounted` for. -/
theorem Accounts.accounted {front back : List Moment} (h : Accounts past s)
    (happend : past = front ++ back) (hback : ∀ m ∈ back.head?, m.accepts fd = true) :
    ∃ s', Accounted fd front s' := by
  cases back with
  | nil =>
      rw [List.append_nil] at happend
      rw [← happend]
      exact ⟨s, h.now fd⟩
  | cons m rest => exact h.ended fd front m rest happend (hback m rfl)

/-- `Moment.request?` is `none` on a descriptor before a connection is accepted on it. -/
theorem Accounts.requests_eq_nil {front back : List Moment} (h : Accounts past s)
    (happend : past = front ++ back) (hfront : ∀ m ∈ front, m.accepts fd = false) :
    front.filterMap (Moment.request? fd) = [] := by
  -- up to the first connection on the descriptor, or to the end
  let before := back.takeWhile fun m => !m.accepts fd
  let later := back.dropWhile fun m => !m.accepts fd
  have hpast : past = (front ++ before) ++ later := by
    rw [happend, List.append_assoc, List.takeWhile_append_dropWhile]
  have hlater : ∀ m ∈ later.head?, m.accepts fd = true := by
    intro m hm
    have hhead := List.head?_dropWhile_not (fun m : Moment => !m.accepts fd) back
    rw [hm] at hhead
    simpa using hhead
  have hbefore : ∀ m ∈ front ++ before, m.accepts fd = false := by
    intro m hm
    rcases List.mem_append.1 hm with hm | hm
    · exact hfront m hm
    · simpa using List.all_eq_true.1 List.all_takeWhile m hm
  obtain ⟨s', haccounted⟩ := h.accounted hpast hlater
  cases haccounted with
  | never hlife hclient hrequests =>
      rw [List.filterMap_append] at hrequests
      exact (List.append_eq_nil_iff.1 hrequests).1
  | life drained hlife hreceive hrequests hstanding =>
      rw [life?_eq_none hbefore] at hlife
      cases hlife

/-- The requests of a life are those that `Decoder.receive` reads from its pieces. -/
theorem Accounts.of_isLife {s₀ : Server} {life : List Moment} (h : Accounts past s)
    (hlife : IsLife fd past s₀ life) :
    ∃ drained, Decoder.receive (life.filterMap (Moment.piece? fd)) Decoder.fresh = .ok drained ∧
      life.filterMap (Moment.request? fd) = performable drained.requests := by
  obtain ⟨front, back, hpast, haccepts, hback⟩ := hlife
  rw [← List.cons_append, ← List.append_assoc] at hpast
  have hlast := life?_of_no_accepts (s := s₀) front haccepts
  obtain ⟨s', haccounted⟩ := h.accounted hpast hback
  cases haccounted with
  | never hnone hclient hrequests =>
      rw [hnone] at hlast
      cases hlast
  | life drained hsome hreceive hrequests hstanding =>
      rw [hsome] at hlast
      cases hlast
      exact ⟨drained, hreceive, hrequests⟩

/-- A request that was performed has arguments, and `Performed.answer?` is `none` exactly where it
`endsConnection`. -/
theorem Sequential.answer?_eq_none_iff (h : Sequential s past) (hm : m ∈ past) {p : Performed}
    (hp : m.performed? = some p) :
    p.args ≠ [] ∧ (p.answer? = none ↔ endsConnection p.args = true) := by
  obtain ⟨front, back, rfl⟩ := List.append_of_mem hm
  have hreplay := h.replay_event
  obtain ⟨event, server⟩ := m
  cases event with
  | attempted fd performed? =>
      obtain rfl : performed? = some p := hp
      obtain ⟨⟨outcome, keyspace⟩, hperform, hreplay⟩ := Checked.bind_eq_ok_iff.1 hreplay
      dsimp only at hreplay
      split at hreplay
      · rename_i houtcome
        subst houtcome
        refine ⟨?_, Iff.trans ?_ (perform_quit_iff hperform).1⟩
        · intro hnil
          rw [hnil] at hperform
          cases hperform
        · rw [Performed.answer?]
          cases p.outcome <;> simp
      · cases hreplay
  | accepted | received | closed | wrote | cycled => cases hp

/-- `Happen.delivered` for each front part of a life, whose first server has an empty queue. -/
theorem Happen.delivered_of_isLife {s₀ : Server} {life front back : List Moment}
    (h : Happen s past) (hs : s.Counted) (hlife : IsLife fd past s₀ life)
    (happend : life = front ++ back) : s₀.queue fd = [] ∧ Delivered fd s₀ front := by
  obtain ⟨before, later, rfl, haccepts, -⟩ := hlife
  subst happend
  have hbefore := h.of_append_left.counted hs
  have hfirst := h.happens
  have hrest : Happen s₀ (front ++ back ++ later) := by
    cases h.of_append with
    | cons _ hrest => exact hrest
  have hqueue : s₀.queue fd = [] := (hfirst.relays hbefore fd).accepted (beq_self_eq_true fd)
  refine ⟨hqueue, hrest.of_append_left.of_append_left.delivered (hfirst.counted hbefore) hqueue ?_⟩
  exact fun m hm => haccepts m (List.mem_append_left back hm)

/-- **Sequential consistency.** Whatever fires, in whatever order, and whatever each `Host` answers:
`Server.history` does not fault, it leads to the server of `Server.run` and holds the requests
performed, and it is `Consistent`. -/
theorem history_consistent (settings : Settings) (listener : Descriptor)
    (callbacks : List Callback) :
    ∃ past, history callbacks (fresh settings listener) = .ok past ∧
      run callbacks (fresh settings listener) =
        .ok ((fresh settings listener).after past, past.filterMap Moment.performed?) ∧
      Consistent (fresh settings listener) past := by
  obtain ⟨past, hhistory, hsequential, haccounts⟩ :=
    history_ok callbacks (accounts_fresh settings listener)
  have hhappen := happen_history hhistory
  have hcounted := counted_fresh settings listener
  refine ⟨past, hhistory, run_eq_of_history hhistory, ?_, ?_, ?_, ?_, ?_, ?_⟩
  · intro front back happend
    rw [happend] at hsequential
    exact hsequential.of_append_left.replay_eq
  · intro fd front back happend hfront
    exact haccounts.requests_eq_nil happend hfront
  · intro fd s₀ life hlife
    exact haccounts.of_isLife hlife
  · intro m hm p hp
    exact hsequential.answer?_eq_none_iff hm hp
  · intro fd front m back happend
    rw [happend] at hhappen
    exact hhappen.happens.relays (hhappen.of_append_left.counted hcounted) fd
  · intro fd s₀ life hlife front back happend
    exact hhappen.delivered_of_isLife hcounted hlife happend

end Server

end KeyValueServer
