import KeyValueServer.Proofs.Reactor.Callbacks
import KeyValueServer.Proofs.Server.Client
import KeyValueServer.Server.Basic

/-!
# Registrations match the connections

The server keeps its connections in `Server.clients` and what it is armed for in the `Reactor`, and
each callback changes both. Between two callbacks they agree (`Server.Matched`): the loop watches
the listener and the connections and nothing else, each connection for `readRequests`, and for
`sendReplies` exactly while replies wait for it. So no callback is made for a connection that is
gone, none that waits for a reply is forgotten, and none is woken to write nothing.

Of the operating system one thing is assumed (`Server.AcceptsClosed`): a connection is accepted on a
descriptor that is closed at that moment. What reads and writes come to is arbitrary.

## Main results

* `Server.Matched`: the registrations that match a server.
* `Server.keeps_handle`: `Server.handle` of any callback keeps them matched.
* `Server.Reaches.registrations_match`: they match in every state that callbacks lead to.
* `Server.Reaches.run`: all states that `Reactor.run` goes through are among those.
-/

namespace KeyValueServer

/-- `c.interest` is what a connection is armed for: `readRequests`, and `sendReplies` while replies
wait. -/
def Client.interest (c : Client) : Interest Task :=
  ⟨some .readRequests, if c.replies.items = [] then none else some .sendReplies⟩

namespace Server

/-! ### Registrations that match a server -/

/-- `s.interest? fd` is what `fd` is to be armed for, if anything: the listener for `accept`, and a
client for its `interest`. -/
def interest? (s : Server) (fd : Descriptor) : Option (Interest Task) :=
  if fd = s.listener then some ⟨some .accept, none⟩ else (s.clients.get? fd).map Client.interest

/-- `s.Matched r`: the registrations of the loop `r` match the server `s`, as they do between two
callbacks. -/
structure Matched (s : Server) (r : Reactor Task Chore) : Prop where
  /-- Each descriptor is armed for its `interest?`. -/
  interests_eq : ∀ fd, r.interests.get? fd = s.interest? fd
  /-- The listener is no connection. -/
  listener_free : s.clients.get? s.listener = none
  /-- No connection has written all of its first reply. -/
  steady : ∀ fd client, s.clients.get? fd = some client → client.Steady
  /-- The one timer is that of the expiration cycles. -/
  timers_eq : ∃ id due, s.cron? = some id ∧
    r.timers = [⟨id, .recurring, due, s.settings.cronInterval.toNat, .expiration⟩]

/-- `SameSetup s s'`: the servers agree in what is given once and for all, the listener, the
settings and the timer. -/
structure SameSetup (s s' : Server) : Prop where
  listener_eq : s'.listener = s.listener
  settings_eq : s'.settings = s.settings
  cron_eq : s'.cron? = s.cron?

/-- `SameSetup` is transitive. -/
theorem SameSetup.trans {s s₁ s₂ : Server} (h : SameSetup s s₁) (h' : SameSetup s₁ s₂) :
    SameSetup s s₂ :=
  ⟨h'.listener_eq.trans h.listener_eq, h'.settings_eq.trans h.settings_eq,
    h'.cron_eq.trans h.cron_eq⟩

namespace Matched

variable {s : Server} {r r' : Reactor Task Chore} {fd : Descriptor} {client : Client}

/-- A client of a `Matched` server is not on the listener. -/
theorem ne_listener (h : s.Matched r) (hclient : s.clients.get? fd = some client) :
    fd ≠ s.listener := by
  rintro rfl
  rw [h.listener_free] at hclient
  cases hclient

/-- A client is armed for its `interest`. -/
theorem get?_interests_client (h : s.Matched r) (hclient : s.clients.get? fd = some client) :
    r.interests.get? fd = some client.interest := by
  rw [h.interests_eq, interest?, if_neg (h.ne_listener hclient), hclient, Option.map_some]

/-- `Matched` is kept where the client on `fd` becomes `client?`, and `fd` is armed accordingly. -/
theorem place {s' : Server} (h : s.Matched r) (hsetup : SameSetup s s') (client? : Option Client)
    (hfd : fd ≠ s.listener) (hsteady : ∀ client, client? = some client → client.Steady)
    (hclients : ∀ other, s'.clients.get? other =
      if other = fd then client? else s.clients.get? other)
    (hinterests : ∀ other, r'.interests.get? other =
      if other = fd then client?.map Client.interest else r.interests.get? other)
    (htimers : r'.timers = r.timers) : s'.Matched r' where
  interests_eq := by
    intro other
    rw [hinterests, h.interests_eq, interest?, interest?, hsetup.listener_eq, hclients]
    by_cases hother : other = fd
    · rw [if_pos hother, if_pos hother, if_neg (hother ▸ hfd)]
    · rw [if_neg hother, if_neg hother]
  listener_free := by
    rw [hsetup.listener_eq, hclients, if_neg hfd.symm]
    exact h.listener_free
  steady := by
    intro other client hclient
    rw [hclients] at hclient
    split at hclient
    · exact hsteady client hclient
    · exact h.steady other client hclient
  timers_eq := by
    rw [hsetup.cron_eq, hsetup.settings_eq, htimers]
    exact h.timers_eq

/-- `Matched.place` for a client that is put in place. -/
theorem put (h : s.Matched r) (keyspace : Keyspace) (hfd : fd ≠ s.listener)
    (hsteady : client.Steady)
    (hinterests : ∀ other, r'.interests.get? other =
      if other = fd then some client.interest else r.interests.get? other)
    (htimers : r'.timers = r.timers) :
    ({ s with keyspace := keyspace, clients := s.clients.put fd client } : Server).Matched r' := by
  refine h.place ⟨rfl, rfl, rfl⟩ (some client) hfd ?_ (fun other => ?_) hinterests htimers
  · rintro client' ⟨⟩
    exact hsteady
  · exact Registry.get?_put ..

/-- `Matched.place` for a client that is there and is changed. -/
theorem change {client' : Client} (h : s.Matched r) (keyspace : Keyspace)
    (hclient : s.clients.get? fd = some client) (hsteady : client.Steady → client'.Steady)
    (hinterests : ∀ other, r'.interests.get? other =
      if other = fd then some client'.interest else r.interests.get? other)
    (htimers : r'.timers = r.timers) :
    ({ s with keyspace := keyspace, clients := s.clients.put fd client' } : Server).Matched r' :=
  h.put keyspace (h.ne_listener hclient) (hsteady (h.steady fd client hclient)) hinterests htimers

/-- `Matched.place` for a client that is erased. -/
theorem erase (h : s.Matched r) (keyspace : Keyspace) (hfd : fd ≠ s.listener)
    (hinterests : ∀ other, r'.interests.get? other =
      if other = fd then none else r.interests.get? other)
    (htimers : r'.timers = r.timers) :
    ({ s with keyspace := keyspace, clients := s.clients.erase fd } : Server).Matched r' := by
  refine h.place ⟨rfl, rfl, rfl⟩ none hfd ?_ (fun other => ?_) hinterests htimers
  · rintro client ⟨⟩
  · exact Registry.get?_erase ..

end Matched

/-! ### What keeps registrations matched -/

/-- `Keeps s s' actions`: from the server `s` to `s'`, the `actions` keep the registrations
`Matched`. -/
structure Keeps (s s' : Server) (actions : List LoopAction) : Prop where
  setup : SameSetup s s'
  matched : ∀ r, s.Matched r → ∃ r', actions.foldlM Reactor.act r = .ok r' ∧ s'.Matched r'

variable {s s' s₁ s₂ : Server} {fd : Descriptor} {client client' : Client}
  {actions actions' : List LoopAction}

/-- `Keeps` without a change and without actions. -/
theorem Keeps.refl (s : Server) : Keeps s s [] :=
  ⟨⟨rfl, rfl, rfl⟩, fun r h => ⟨r, rfl, h⟩⟩

/-- `Keeps` for actions after actions. -/
theorem Keeps.append (h : Keeps s s₁ actions) (h' : Keeps s₁ s₂ actions') :
    Keeps s s₂ (actions ++ actions') := by
  refine ⟨h.setup.trans h'.setup, fun r hr => ?_⟩
  obtain ⟨r₁, hact, hr₁⟩ := h.matched r hr
  obtain ⟨r₂, hact', hr₂⟩ := h'.matched r₁ hr₁
  exact ⟨r₂, by rw [List.foldlM_append, hact]; exact hact', hr₂⟩

/-- `Keeps` for a change of the keyspace, which has no registrations. -/
theorem keeps_keyspace (s : Server) (keyspace : Keyspace) :
    Keeps s { s with keyspace := keyspace } [] :=
  ⟨⟨rfl, rfl, rfl⟩,
    fun r h => ⟨r, rfl, h.interests_eq, h.listener_free, h.steady, h.timers_eq⟩⟩

/-- `Keeps` without actions for a client whose queue is empty exactly where it was before. -/
theorem keeps_put (hclient : s.clients.get? fd = some client)
    (hsteady : client.Steady → client'.Steady)
    (hempty : client.Steady → (client'.replies.items = [] ↔ client.replies.items = [])) :
    Keeps s { s with clients := s.clients.put fd client' } [] := by
  refine ⟨⟨rfl, rfl, rfl⟩, fun r h => ?_⟩
  refine ⟨r, rfl, h.change s.keyspace hclient hsteady (fun other => ?_) rfl⟩
  have hinterest : client'.interest = client.interest := by
    rw [Client.interest, Client.interest]
    simp only [hempty (h.steady fd client hclient)]
  split
  · rename_i hother
    rw [hother, h.get?_interests_client hclient, hinterest]
  · rfl

/-- `Keeps` for a client that has just been accepted and is armed for `readRequests`. -/
theorem keeps_accepted (hlistener : fd ≠ s.listener) (hfree : s.clients.get? fd = none) :
    Keeps s { s with clients := s.clients.put fd Client.fresh }
      [.arm fd .readable .readRequests] := by
  refine ⟨⟨rfl, rfl, rfl⟩, fun r h => ?_⟩
  refine ⟨r.arm fd .readable .readRequests, rfl, ?_⟩
  refine h.put s.keyspace hlistener Client.steady_fresh (fun other => ?_) (r.timers_arm ..)
  have hnone : r.interests.get? fd = none := by
    rw [h.interests_eq, interest?, if_neg hlistener, hfree, Option.map_none]
  rw [r.get?_interests_arm, hnone]
  rfl

/-- `Keeps` for a client that has been answered and is armed for `sendReplies`. -/
theorem keeps_answered (hclient : s.clients.get? fd = some client) (keyspace : Keyspace)
    (hsteady : client.Steady → client'.Steady) (hqueue : client'.replies.items ≠ []) :
    Keeps s { s with keyspace := keyspace, clients := s.clients.put fd client' }
      [.arm fd .writable .sendReplies] := by
  refine ⟨⟨rfl, rfl, rfl⟩, fun r h => ?_⟩
  refine ⟨r.arm fd .writable .sendReplies, rfl, ?_⟩
  refine h.change keyspace hclient hsteady (fun other => ?_) (r.timers_arm ..)
  have harmed : Interest.armed (some client.interest) .writable .sendReplies =
      client'.interest := by
    rw [Client.interest, Client.interest, if_neg hqueue]
    split <;> rfl
  rw [r.get?_interests_arm, h.get?_interests_client hclient, harmed]

/-- `Keeps` for a client that has nothing left to write and is disarmed for writing. -/
theorem keeps_written (hclient : s.clients.get? fd = some client)
    (hsteady : client.Steady → client'.Steady)
    (hqueue : client.Steady → client'.replies.items = []) :
    Keeps s { s with clients := s.clients.put fd client' } [.disarm fd .writable] := by
  refine ⟨⟨rfl, rfl, rfl⟩, fun r h => ?_⟩
  refine ⟨r.disarm fd .writable, rfl, ?_⟩
  refine h.change s.keyspace hclient hsteady (fun other => ?_) (r.timers_disarm ..)
  have hdisarmed : Interest.disarmed (some client.interest) .writable = some client'.interest := by
    rw [Client.interest, Client.interest, if_pos (hqueue (h.steady fd client hclient))]
    rfl
  rw [r.get?_interests_disarm, h.get?_interests_client hclient, hdisarmed]

/-- `Keeps` for `Server.free`, which disarms both directions. -/
theorem keeps_free (hclient : s.clients.get? fd = some client) (keyspace : Keyspace) :
    Keeps s { s with keyspace := keyspace, clients := s.clients.erase fd } (s.free fd).actions := by
  refine ⟨⟨rfl, rfl, rfl⟩, fun r h => ?_⟩
  refine ⟨(r.disarm fd .readable).disarm fd .writable, rfl, ?_⟩
  refine h.erase keyspace (h.ne_listener hclient) (fun other => ?_) (by simp)
  have hdisarmed :
      Interest.disarmed (Interest.disarmed (some client.interest) .readable) .writable = none := by
    rw [Client.interest]
    split <;> rfl
  rw [Reactor.get?_interests_disarm, r.get?_interests_disarm, if_pos rfl,
    h.get?_interests_client hclient, hdisarmed]
  split
  · rfl
  · rename_i hother
    rw [r.get?_interests_disarm, if_neg hother]

/-! ### Callbacks -/

/-- `AcceptsClosed outcomes s`: each connection is accepted on a descriptor that is neither the
listener nor that of another connection. -/
def AcceptsClosed : List AcceptOutcome → Server → Prop
  | [], _ => True
  | .accepted fd :: rest, s =>
    fd ≠ s.listener ∧ s.clients.get? fd = none ∧
      AcceptsClosed rest { s with clients := s.clients.put fd Client.fresh }
  | .unusable :: rest, s => AcceptsClosed rest s
  | .interrupted :: rest, s => AcceptsClosed rest s
  | .wouldBlock :: _, _ => True
  | .failed :: _, _ => True

/-- `Server.accept` of connections on closed descriptors `Keeps` the registrations. -/
theorem keeps_accept {outcomes : List AcceptOutcome} (h : AcceptsClosed outcomes s) :
    Keeps s (accept outcomes s).server (accept outcomes s).actions := by
  induction outcomes generalizing s with
  | nil => exact .refl s
  | cons outcome rest ih =>
      cases outcome with
      | accepted fd =>
          obtain ⟨hlistener, hfree, hrest⟩ := h
          exact (keeps_accepted hlistener hfree).append (ih hrest)
      | unusable => exact ih h
      | interrupted => exact ih h
      | wouldBlock => exact .refl s
      | failed => exact .refl s

/-- `Client.Steady` does not depend on the decoder. -/
theorem steady_decoder (decoder : Decoder) (h : client.Steady) :
    ({ client with decoder := decoder } : Client).Steady :=
  ⟨⟨h.count_eq, h.sent_eq⟩, h.sent_lt⟩

/-- `Server.dispatch` `Keeps` the registrations. -/
theorem keeps_dispatch {decoder : Decoder} {args : List Bytes} {now : Int64} {a : Attempt}
    (hclient : s.clients.get? fd = some client)
    (h : s.dispatch fd { client with decoder := decoder } args now = .ok a) :
    Keeps s a.server a.actions := by
  rw [dispatch] at h
  split at h
  · obtain rfl := Except.ok.inj h
    exact keeps_put hclient (steady_decoder decoder) fun _ => Iff.rfl
  · obtain ⟨⟨outcome, keyspace⟩, -, h⟩ := Checked.bind_eq_ok_iff.1 h
    cases outcome with
    | quit =>
        obtain rfl := Except.ok.inj h
        exact keeps_free hclient keyspace
    | reply reply =>
        obtain rfl := Except.ok.inj h
        have hqueue : (({ client with decoder := decoder } : Client).addReply
            (.str reply.encode)).replies.items ≠ [] := by
          simp [Client.addReply, Sequence.append]
        refine keeps_answered hclient keyspace (fun hsteady => ?_) hqueue
        exact Client.steady_addReply (steady_decoder decoder hsteady) reply.encode_ne_nil

/-- `Server.attempt` `Keeps` the registrations. -/
theorem keeps_attempt {now : Int64} {a : Attempt} (h : s.attempt fd now = .ok a) :
    Keeps s a.server a.actions := by
  rw [attempt] at h
  split at h
  · obtain rfl := Except.ok.inj h
    exact .refl s
  · rename_i client hclient
    obtain ⟨⟨progress, decoder⟩, -, h⟩ := Checked.bind_eq_ok_iff.1 h
    cases progress with
    | needMore =>
        obtain rfl := Except.ok.inj h
        exact keeps_put hclient (steady_decoder decoder) fun _ => Iff.rfl
    | malformed error =>
        obtain rfl := Except.ok.inj h
        exact keeps_free hclient s.keyspace
    | ready => exact keeps_dispatch hclient h

/-- `Server.serve` `Keeps` the registrations. -/
theorem keeps_serve {clock : Nat → Int64} {turn attempts : Nat} {e : Effect}
    (h : serve fd clock turn attempts s = .ok e) : Keeps s e.server e.actions := by
  induction attempts generalizing turn s e with
  | zero => cases h
  | succ attempts ih =>
      rw [serve] at h
      obtain ⟨a, hattempt, h⟩ := Checked.bind_eq_ok_iff.1 h
      have hfirst := keeps_attempt hattempt
      split at h
      · obtain ⟨e', hserve, h⟩ := Checked.bind_eq_ok_iff.1 h
        obtain rfl := Except.ok.inj h
        exact hfirst.append (ih hserve)
      · obtain rfl := Except.ok.inj h
        exact hfirst.append (.refl a.server)

/-- `Server.receive` `Keeps` the registrations. -/
theorem keeps_receive {outcome : ReadOutcome} {clock : Nat → Int64} {e : Effect}
    (h : s.receive fd outcome clock = .ok e) : Keeps s e.server e.actions := by
  rw [receive] at h
  split at h
  · obtain rfl := Except.ok.inj h
    exact .refl s
  · rename_i client hclient
    cases outcome with
    | received bytes =>
      dsimp only at h
      split at h
      · obtain rfl := Except.ok.inj h
        exact keeps_free hclient s.keyspace
      · have hfed := keeps_put hclient (steady_decoder (client.decoder.feed bytes)) fun _ => Iff.rfl
        exact hfed.append (keeps_serve h)
    | wouldBlock | interrupted =>
      obtain rfl := Except.ok.inj h
      exact .refl s
    | failed =>
      obtain rfl := Except.ok.inj h
      exact keeps_free hclient s.keyspace

/-- `Server.send` `Keeps` the registrations. -/
theorem keeps_send (s : Server) (fd : Descriptor) (outcomes : List WriteOutcome) :
    Keeps s (s.send fd outcomes).server (s.send fd outcomes).actions := by
  rw [send]
  cases hclient : s.clients.get? fd with
  | none => exact .refl s
  | some client =>
      have hsteady (h : client.Steady) : (client.flush outcomes).client.Steady :=
        Client.steady_flush outcomes h.toCounted
      have hempty (h : client.Steady) : (client.flush outcomes).client.replies.isEmpty = true ↔
          (client.flush outcomes).client.replies.items = [] := by
        rw [Sequence.isEmpty, beq_iff_eq, (hsteady h).count_eq, List.length_eq_zero_iff]
      dsimp only
      split
      · split
        · rename_i hnone
          have hnil (h : client.Steady) := (hempty h).1 hnone
          refine keeps_written hclient (fun h => ⟨⟨(hsteady h).count_eq, fun _ => rfl⟩, ?_⟩) hnil
          intro head hhead
          rw [Sequence.first?, hnil h] at hhead
          cases hhead
        · rename_i hsome
          refine keeps_put hclient hsteady fun h => ?_
          have hleft := mt (hempty h).2 hsome
          refine iff_of_false hleft fun hnil => hleft ?_
          have hsuffix := (client.wrote_flush outcomes).suffix
          rw [hnil] at hsuffix
          exact List.suffix_nil.1 hsuffix
      · exact keeps_free hclient s.keyspace

/-- **`Server.handle` `Keeps` the registrations**, whatever fires. -/
theorem keeps_handle {host : Host} {event : Fired Task Chore} {e : Effect}
    (haccepts : ∀ fd direction, event = .descriptor fd direction .accept →
      AcceptsClosed host.accepts s)
    (h : s.handle host event = .ok e) : Keeps s e.server e.actions := by
  cases event with
  | timer id chore =>
      cases chore
      obtain ⟨⟨outcome, keyspace⟩, -, h⟩ := Checked.bind_eq_ok_iff.1 h
      obtain rfl := Except.ok.inj h
      exact keeps_keyspace s keyspace
  | descriptor fd direction task =>
      cases task with
      | accept =>
          obtain rfl := Except.ok.inj h
          exact keeps_accept (haccepts fd direction rfl)
      | readRequests => exact keeps_receive h
      | sendReplies =>
          obtain rfl := Except.ok.inj h
          exact keeps_send s fd host.writes

/-! ### The event loop -/

/-- `Matched` is kept where `Reactor.reschedule` lets a timer fall due later. -/
theorem Matched.reschedule {r r' : Reactor Task Chore} {id later : Nat} (h : s.Matched r)
    (hreschedule : r.reschedule id later = .ok r') : s.Matched r' := by
  rw [Reactor.reschedule] at hreschedule
  split at hreschedule
  · obtain rfl := Except.ok.inj hreschedule
    exact h
  · obtain ⟨due, -, hreschedule⟩ := Checked.bind_eq_ok_iff.1 hreschedule
    obtain rfl := Except.ok.inj hreschedule
    obtain ⟨cron, due', hcron, htimers⟩ := h.timers_eq
    refine ⟨h.interests_eq, h.listener_free, h.steady, cron, if cron = id then due else due',
      hcron, ?_⟩
    dsimp only
    rw [htimers, List.map_singleton]
    split <;> rfl

/-- **One callback of the loop**, as `Reactor.Fires` says, keeps `Matched`. -/
theorem Matched.fires {hosts : Nat → Fired Task Chore → Host} {r r' : Reactor Task Chore}
    {session session' : Session} {event : Fired Task Chore} (h : session.server.Matched r)
    (haccepts : ∀ fd direction, event = .descriptor fd direction .accept →
      AcceptsClosed (hosts session.turn event).accepts session.server)
    (hfires : Reactor.Fires (handler hosts) r session event r' session') :
    SameSetup session.server session'.server ∧ session'.server.Matched r' := by
  have hkeeps : ∀ {actions session' r₁}, handler hosts event r session = .ok (actions, session') →
      actions.foldlM Reactor.act r = .ok r₁ →
      SameSetup session.server session'.server ∧ session'.server.Matched r₁ := by
    intro actions session' r₁ hhandler hact
    obtain ⟨e, hhandle, hhandler⟩ := Checked.bind_eq_ok_iff.1 hhandler
    obtain ⟨rfl, rfl⟩ := Prod.mk.inj (Except.ok.inj hhandler)
    have hevent := keeps_handle haccepts hhandle
    obtain ⟨r₂, hact', hmatched⟩ := hevent.matched r h
    rw [hact] at hact'
    obtain rfl := Except.ok.inj hact'
    exact ⟨hevent.setup, hmatched⟩
  cases hfires with
  | @timer id later timer actions _ r₁ _ htimer hhandler hact hsettle =>
      -- the timer that fires is the one there is, and it recurs
      obtain ⟨cron, due, -, htimers⟩ := h.timers_eq
      have hmem := List.mem_of_find?_eq_some htimer
      rw [htimers, List.mem_singleton] at hmem
      rw [hmem] at hsettle
      obtain ⟨hsetup, hmatched⟩ := hkeeps hhandler hact
      exact ⟨hsetup, hmatched.reschedule hsettle⟩
  | descriptor htag hhandler hact => exact hkeeps hhandler hact

/-- `Reaches settings listener hosts r session`: from the registrations of a fresh server, callbacks
lead to the loop `r` and the session `session`. What fires is whatever is registered at that
moment, and the operating system answers as `hosts` says, but for connections that it accepts: their
descriptors are closed at that moment. -/
inductive Reaches (settings : Settings) (listener : Descriptor)
    (hosts : Nat → Fired Task Chore → Host) : Reactor Task Chore → Session → Prop
  | registered {now : Nat} {s : Server} {r : Reactor Task Chore}
      (h : (fresh settings listener).register .empty now = .ok (s, r)) :
      Reaches settings listener hosts r ⟨s, 0, []⟩
  | fires {r r' : Reactor Task Chore} {session session' : Session} {event : Fired Task Chore}
      (h : Reaches settings listener hosts r session)
      (haccepts : ∀ fd direction, event = .descriptor fd direction .accept →
        AcceptsClosed (hosts session.turn event).accepts session.server)
      (hfires : Reactor.Fires (handler hosts) r session event r' session') :
      Reaches settings listener hosts r' session'

/-- After `Server.register` the registrations are `Matched`. -/
theorem matched_register {settings : Settings} {listener : Descriptor} {now : Nat}
    {r : Reactor Task Chore} (h : (fresh settings listener).register .empty now = .ok (s, r)) :
    (s.listener = listener ∧ s.settings = settings) ∧ s.Matched r := by
  obtain ⟨⟨id, r₁⟩, hstart, h⟩ := Checked.bind_eq_ok_iff.1 h
  obtain ⟨due, -, hstart⟩ := Checked.bind_eq_ok_iff.1 hstart
  obtain ⟨rfl, rfl⟩ := Prod.mk.inj (Except.ok.inj hstart)
  obtain ⟨rfl, rfl⟩ := Prod.mk.inj (Except.ok.inj h)
  refine ⟨⟨rfl, rfl⟩, fun fd => ?_, rfl, ?_, _, due, rfl, rfl⟩
  · exact Reactor.get?_interests_arm ..
  · intro fd client hclient
    cases hclient

namespace Reaches

variable {settings : Settings} {listener : Descriptor} {hosts : Nat → Fired Task Chore → Host}
  {r r' : Reactor Task Chore} {session session' : Session}

/-- `Reaches` leads to `Matched` registrations only, and the listener and the settings stay. -/
theorem matched (h : Reaches settings listener hosts r session) :
    (session.server.listener = listener ∧ session.server.settings = settings) ∧
      session.server.Matched r := by
  induction h with
  | registered h => exact matched_register h
  | fires _ haccepts hfires ih =>
      obtain ⟨⟨hlistener, hsettings⟩, hmatched⟩ := ih
      obtain ⟨hsetup, hmatched'⟩ := hmatched.fires haccepts hfires
      exact ⟨⟨hsetup.listener_eq.trans hlistener, hsetup.settings_eq.trans hsettings⟩, hmatched'⟩

/-- **Registrations match the connections** in every state that `Reaches` leads to, by callbacks in
any order and with any outcomes. The loop watches the listener and the connections. The listener is
armed for `accept` and nothing else. A connection is armed for `readRequests`, and for `sendReplies`
if and only if its queue of replies is not empty; nothing has been written of a first reply that is
not there, and less than all of one that is. The timer of the expiration cycles is the only one and
runs. -/
theorem registrations_match (h : Reaches settings listener hosts r session) :
    (∀ fd, fd ∈ r.interests.descriptors ↔
        fd = listener ∨ fd ∈ session.server.clients.descriptors) ∧
      (listener ∉ session.server.clients.descriptors ∧ r.tag? listener .readable = some .accept ∧
        r.tag? listener .writable = none) ∧
      (∀ fd client, session.server.clients.get? fd = some client →
        r.tag? fd .readable = some .readRequests ∧
        r.tag? fd .writable = (if client.replies.items = [] then none else some .sendReplies) ∧
        (client.replies.items = [] → client.sent = 0) ∧
        ∀ head, client.replies.first? = some head → client.sent < head.bytes.length) ∧
      ∃ id due, session.server.cron? = some id ∧
        r.timers = [⟨id, .recurring, due, settings.cronInterval.toNat, .expiration⟩] := by
  obtain ⟨⟨rfl, rfl⟩, hmatched⟩ := h.matched
  have hinterests := hmatched.interests_eq
  have hlistener : r.interests.get? session.server.listener = some ⟨some .accept, none⟩ := by
    rw [hinterests, interest?, if_pos rfl]
  refine ⟨fun fd => ?_, ⟨?_, ?_, ?_⟩, fun fd client hclient => ?_, hmatched.timers_eq⟩
  · rw [Registry.mem_descriptors_iff, Registry.mem_descriptors_iff, hinterests, interest?]
    by_cases hfd : fd = session.server.listener
    · simp [hfd]
    · simp [hfd]
  · rw [Registry.mem_descriptors_iff, hmatched.listener_free]
    exact fun hne => hne rfl
  · rw [Reactor.tag?, hlistener]
    rfl
  · rw [Reactor.tag?, hlistener]
    rfl
  · have hsteady := hmatched.steady fd client hclient
    have harmed := hmatched.get?_interests_client hclient
    refine ⟨?_, ?_, hsteady.sent_eq, hsteady.sent_lt⟩
    · rw [Reactor.tag?, harmed]
      rfl
    · rw [Reactor.tag?, harmed]
      rfl

/-- Two connections wait to be accepted, and whoever is read from has closed the connection. -/
def departingHost : Host where
  accepts := [.accepted 5, .accepted 6]
  read := .received []
  writes := []
  clock := fun _ => 0
  draws := fun _ => ⟨fun _ => 0, 0⟩

/-- Of two connections that are accepted at once, one is closed by its peer, and then a cycle of
expiration runs. The loop goes on watching the listener and the other connection, for reading
only. -/
theorem registrations_match_of_departed :
    ∃ r session, Reaches .initial 3 (fun _ _ => departingHost) r session ∧
      (∀ fd, fd ∈ r.interests.descriptors ↔ fd = 3 ∨ fd = 5) ∧
      r.tag? 5 .readable = some .readRequests ∧ r.tag? 5 .writable = none := by
  have hregistered : Reaches .initial 3 (fun _ _ => departingHost) _ _ :=
    @registered _ _ _ 0 _ _ rfl
  have haccepted := @fires _ _ _ _ _ _ _ (.descriptor 3 .readable .accept) hregistered
    (fun _ _ _ => ⟨by decide, rfl, by decide, rfl, trivial⟩) (.descriptor rfl rfl rfl)
  have hdeparted := @fires _ _ _ _ _ _ _ (.descriptor 6 .readable .readRequests) haccepted
    (fun _ _ h => by cases h) (.descriptor rfl rfl rfl)
  have hcycled := @fires _ _ _ _ _ _ _ (.timer 1 .expiration) hdeparted
    (fun _ _ h => by cases h) (@Reactor.Fires.timer _ _ _ _ _ _ 1 0 _ _ _ _ _ rfl rfl rfl rfl)
  obtain ⟨hwatched, -, hclients, -⟩ := registrations_match hcycled
  obtain ⟨hread, hwrite, -, -⟩ := hclients 5 _ rfl
  refine ⟨_, _, hcycled, fun fd => (hwatched fd).trans ?_, hread, hwrite⟩
  change fd = 3 ∨ fd ∈ [5] ↔ _
  rw [List.mem_singleton]

/-- `Reaches` goes on with any chain `Reactor.FiresAll`, when all connections are accepted on closed
descriptors. -/
theorem firesAll (hclosed : ∀ {r session fd direction},
      Reaches settings listener hosts r session →
      AcceptsClosed (hosts session.turn (.descriptor fd direction .accept)).accepts session.server)
    (h : Reaches settings listener hosts r session) {events : List (Fired Task Chore)}
    (hfires : Reactor.FiresAll (handler hosts) r session events r' session') :
    Reaches settings listener hosts r' session' := by
  induction hfires with
  | nil => exact h
  | cons hfirst _ ih =>
      refine ih (h.fires (fun fd direction hevent => ?_) hfirst)
      subst hevent
      exact hclosed h

/-- **`Reactor.run` goes through states with `Reaches` only.** -/
theorem run (hclosed : ∀ {r session fd direction},
      Reaches settings listener hosts r session →
      AcceptsClosed (hosts session.turn (.descriptor fd direction .accept)).accepts session.server)
    (h : Reaches settings listener hosts r session)
    {world : Nat → Reactor Task Chore → Session → Round} {turn count : Nat}
    {course : Reactor.Course Task Chore Session}
    (hrun : Reactor.run (handler hosts) world turn count r session = .ok course) :
    Reaches settings listener hosts course.reactor course.state :=
  h.firesAll hclosed (Reactor.firesAll_run hrun)

end Reaches

end Server

end KeyValueServer
