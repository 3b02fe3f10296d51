import KeyValueServer.Proofs.Server.Attempts
import KeyValueServer.Proofs.Server.Replies

/-!
# The replies of a connection, moment by moment

`Server.queue` holds the replies that wait to be written to a connection, and `Server.unsent` is
what they still come to in bytes. A moment changes both in few ways, and `Server.Relays` says which:
the new queue is a suffix of the old one followed by `Moment.answer?`, the encoded answer to the
request of that connection that has just been performed; and while the connection stands, the bytes
`Moment.taken` that its socket takes, followed by those that are unsent afterwards, are those that
were unsent before, followed by the answer. So no moment can bring a reply into a queue but the
answer that is due there, and none can take one out but by writing it or by ending the connection.

Over the life of a connection this adds up to `Server.Delivered`: what its socket has taken and what
waits are the answers to its own requests so far.

## Main results

* `Server.Happens.relays`: each moment that comes about has `Server.Relays` for every descriptor.
* `Server.Happen.delivered`: the life of a connection has `Server.Delivered` at each moment.
-/

namespace KeyValueServer

/-- `p.answer?` is the encoded reply that a request was answered with. One that is answered `.quit`
has none. -/
def Performed.answer? (p : Performed) : Option Value :=
  match p.outcome with
  | .reply reply => some (.str reply.encode)
  | .quit => none

namespace Moment

/-- The answer to the request of the connection on `fd` that is performed at a moment, if any. -/
def answer? (fd : Descriptor) (m : Moment) : Option Value :=
  m.performed?.bind fun p => if p.fd = fd then p.answer? else none

/-- The bytes that the socket of the connection on `fd` takes at a moment. -/
def taken (fd : Descriptor) (m : Moment) : Bytes :=
  match m.event with
  | .wrote fd' taken => if fd' = fd then taken else []
  | _ => []

/-- Whether the replies of the connection on `fd` are `wrote` at a moment. -/
def writes (fd : Descriptor) (m : Moment) : Bool :=
  match m.event with
  | .wrote fd' _ => fd' == fd
  | _ => false

/-- An attempt that performs no request but one that is answered `.quit` has no `answer?`. -/
theorem answer?_of_quit {fd : Descriptor} {performed? : Option Performed} {server : Server}
    (other : Descriptor) (h : ∀ p ∈ performed?, p.outcome = .quit) :
    answer? other ⟨.attempted fd performed?, server⟩ = none := by
  cases performed? with
  | none => rfl
  | some p =>
      have hanswer : p.answer? = none := by rw [Performed.answer?, h p rfl]
      simp [answer?, performed?, hanswer]

end Moment

namespace Server

variable {s : Server} {fd : Descriptor} {client client' : Client} {m : Moment}
  {front back life : List Moment}

/-! ### Queues -/

/-- `s.queue fd` are the replies that wait to be written to the connection on `fd`, if there is
one. -/
def queue (s : Server) (fd : Descriptor) : List Value :=
  (s.clients.get? fd).elim [] (·.replies.items)

/-- `s.unsent fd` are the bytes that wait to be written to the connection on `fd`, if there is
one. -/
def unsent (s : Server) (fd : Descriptor) : Bytes :=
  (s.clients.get? fd).elim [] Client.unsent

/-- `queue` of a connection that stands is the queue of its client. -/
theorem queue_of_get? (h : s.clients.get? fd = some client) :
    s.queue fd = client.replies.items := by
  rw [queue, h]
  rfl

/-- `unsent` of a connection that stands is `Client.unsent`. -/
theorem unsent_of_get? (h : s.clients.get? fd = some client) : s.unsent fd = client.unsent := by
  rw [unsent, h]
  rfl

/-- `queue` is empty without a connection. -/
theorem queue_of_none (h : s.clients.get? fd = none) : s.queue fd = [] := by
  rw [queue, h]
  rfl

/-- `unsent` is empty without a connection. -/
theorem unsent_of_none (h : s.clients.get? fd = none) : s.unsent fd = [] := by
  rw [unsent, h]
  rfl

/-- `unsent` is empty where `queue` is. -/
theorem unsent_of_queue_eq_nil (h : s.queue fd = []) : s.unsent fd = [] := by
  cases hclient : s.clients.get? fd with
  | none => exact unsent_of_none hclient
  | some client =>
      rw [queue_of_get? hclient] at h
      rw [unsent_of_get? hclient, Client.unsent, h]

/-! ### Counts -/

/-- `s.Counted`: each client is `Client.Counted`. -/
def Counted (s : Server) : Prop :=
  ∀ fd client, s.clients.get? fd = some client → client.Counted

/-- `Client.Counted` does not depend on the decoder. -/
theorem counted_decoder (h : client.Counted) (decoder : Decoder) :
    ({ client with decoder := decoder } : Client).Counted :=
  ⟨h.count_eq, h.sent_eq⟩

/-- `Counted` is kept where a client that is `Client.Counted` is put in place. -/
theorem Counted.put (h : s.Counted) (fd : Descriptor) (hclient : client.Counted)
    (keyspace : Keyspace) :
    ({ s with keyspace := keyspace, clients := s.clients.put fd client } : Server).Counted := by
  intro other client' hget
  rw [Registry.get?_put] at hget
  split at hget
  · obtain rfl := Option.some.inj hget
    exact hclient
  · exact h other client' hget

/-- `Counted` is kept where a client is erased. -/
theorem Counted.erase (h : s.Counted) (fd : Descriptor) :
    ({ s with clients := s.clients.erase fd } : Server).Counted := by
  intro other client hget
  rw [Registry.get?_erase] at hget
  split at hget
  · cases hget
  · exact h other client hget

/-- `Server.send` erases the client, or puts it back with some replies written. Nothing is lost
either way: the socket has taken the first of the bytes that were unsent, and a client that is put
back has the others. -/
theorem send_cases (hclient : s.clients.get? fd = some client) (hcounted : client.Counted)
    (outcomes : List WriteOutcome) :
    (∃ client', client.Wrote client' ∧ client'.Counted ∧
        s.taken fd outcomes ++ client'.unsent = client.unsent ∧
        (s.send fd outcomes).server = { s with clients := s.clients.put fd client' }) ∨
      s.taken fd outcomes <+: client.unsent ∧
        (s.send fd outcomes).server = { s with clients := s.clients.erase fd } := by
  have htaken : s.taken fd outcomes = (client.flush outcomes).taken := by
    rw [taken, hclient]
    rfl
  have hsplit : s.taken fd outcomes ++ (client.flush outcomes).client.unsent = client.unsent := by
    rw [htaken]
    exact (Client.call_flush outcomes client).taken_append_unsent
  have hwrote := client.wrote_flush outcomes
  have hcounted' := (Client.steady_flush outcomes hcounted).toCounted
  rw [send, hclient]
  dsimp only
  split
  · split
    · rename_i hempty
      have hnil : (client.flush outcomes).client.replies.items = [] := by
        rw [Sequence.isEmpty, hcounted'.count_eq, beq_iff_eq] at hempty
        exact List.length_eq_zero_iff.1 hempty
      refine .inl ⟨{ (client.flush outcomes).client with sent := 0 },
        ⟨hwrote.decoder_eq, hwrote.suffix⟩, ⟨hcounted'.count_eq, fun _ => rfl⟩, ?_, rfl⟩
      -- without replies, what counts as written of the first does not matter
      rw [Client.unsent, hnil] at hsplit
      rw [Client.unsent, hnil]
      exact hsplit
    · exact .inl ⟨_, hwrote, hcounted', hsplit, rfl⟩
  · exact .inr ⟨⟨_, hsplit⟩, rfl⟩

/-- `Server.attempt` keeps `Counted`. -/
theorem Tries.counted {now : Int64} {a : Attempt} (h : Tries s fd client now a)
    (hclient : s.clients.get? fd = some client) (hs : s.Counted) : a.server.Counted := by
  have hcounted := hs fd client hclient
  cases h with
  | cut => exact hs.erase fd
  | @passed decoder => exact hs.put fd (counted_decoder hcounted decoder) s.keyspace
  | @answered decoder keyspace args reply =>
      have hadded := Client.counted_addReply (counted_decoder hcounted decoder) (.str reply.encode)
      exact hs.put fd hadded keyspace

/-- **Every moment keeps `Counted`.** -/
theorem Happens.counted (h : Happens s m) (hs : s.Counted) : m.server.Counted := by
  cases h with
  | @accepted fd => exact hs.put fd Client.steady_fresh.toCounted s.keyspace
  | received hclient => exact hs.put _ (counted_decoder (hs _ _ hclient) _) s.keyspace
  | attempted hclient hattempt => exact (tries_attempt hclient hattempt).counted hclient hs
  | @closed fd => exact hs.erase fd
  | @wrote fd outcomes =>
      change (s.send fd outcomes).server.Counted
      cases hclient : s.clients.get? fd with
      | none =>
          rw [send, hclient]
          exact hs
      | some client =>
          rcases send_cases hclient (hs fd client hclient) outcomes with
            ⟨client', -, hcounted, -, hserver⟩ | ⟨-, hserver⟩
          · rw [hserver]
            exact hs.put fd hcounted s.keyspace
          · rw [hserver]
            exact hs.erase fd
  | cycled => exact hs

/-- `Server.fresh` has no clients. -/
theorem counted_fresh (settings : Settings) (listener : Descriptor) :
    (fresh settings listener).Counted := nofun

/-- `Counted` after all moments of `Happen`. -/
theorem Happen.counted {moments : List Moment} (h : Happen s moments) (hs : s.Counted) :
    (s.after moments).Counted := by
  induction h with
  | nil => exact hs
  | cons hfirst _ ih => exact ih (hfirst.counted hs)

/-! ### One moment -/

/-- `Relays fd s m`: what the moment `m` does at the server `s` to the replies of the connection on
`fd`. -/
structure Relays (fd : Descriptor) (s : Server) (m : Moment) : Prop where
  /-- A connection that is accepted begins without replies. -/
  accepted : m.accepts fd = true → m.server.queue fd = []
  /-- A connection that stands and was not accepted just now stood before. -/
  stood : m.accepts fd = false → (m.server.clients.get? fd).isSome → (s.clients.get? fd).isSome
  /-- The new queue is a suffix of the old one followed by the answer. -/
  queue_suffix : m.server.queue fd <:+ s.queue fd ++ (m.answer? fd).toList
  /-- An answer joins the queue, and nothing leaves it at that moment. -/
  answered : ∀ reply, m.answer? fd = some reply → m.server.queue fd = s.queue fd ++ [reply]
  /-- Replies leave the queue only by being written, or with their connection. -/
  queue_eq : m.accepts fd = false → m.writes fd = false → (m.server.clients.get? fd).isSome →
    m.server.queue fd = s.queue fd ++ (m.answer? fd).toList
  /-- Of a connection that stands, the bytes that its socket takes and those that are unsent then
  are those that were unsent before and those of the answer. -/
  unsent_eq : m.accepts fd = false → (m.server.clients.get? fd).isSome →
    m.taken fd ++ m.server.unsent fd =
      s.unsent fd ++ (m.answer? fd).toList.flatMap Value.bytes
  /-- A socket takes the first of the bytes that were unsent, also when its connection ends. -/
  taken_prefix : m.taken fd <+: s.unsent fd

namespace Relays

/-- `Relays` for a connection that is accepted. -/
theorem of_accepted (haccepts : m.accepts fd = true) (hanswer : m.answer? fd = none)
    (htaken : m.taken fd = []) (hclient : m.server.clients.get? fd = some .fresh) :
    Relays fd s m where
  accepted _ := queue_of_get? hclient
  stood hnot := absurd (haccepts.symm.trans hnot) nofun
  queue_suffix := by
    rw [queue_of_get? hclient]
    exact List.nil_suffix
  answered reply hreply := absurd (hanswer.symm.trans hreply) nofun
  queue_eq hnot := absurd (haccepts.symm.trans hnot) nofun
  unsent_eq hnot := absurd (haccepts.symm.trans hnot) nofun
  taken_prefix := by
    rw [htaken]
    exact List.nil_prefix

/-- `Relays` where there is no connection afterwards. -/
theorem of_none (haccepts : m.accepts fd = false) (hanswer : m.answer? fd = none)
    (htaken : m.taken fd <+: s.unsent fd) (hgone : m.server.clients.get? fd = none) :
    Relays fd s m where
  accepted hyes := absurd (haccepts.symm.trans hyes) nofun
  stood _ hsome := absurd hsome (by simp [hgone])
  queue_suffix := by
    rw [queue_of_none hgone]
    exact List.nil_suffix
  answered reply hreply := absurd (hanswer.symm.trans hreply) nofun
  queue_eq _ _ hsome := absurd hsome (by simp [hgone])
  unsent_eq _ hsome := absurd hsome (by simp [hgone])
  taken_prefix := htaken

/-- `Relays` where the connection keeps its replies, with the answer behind them, and its socket
takes nothing. -/
theorem of_some (haccepts : m.accepts fd = false) (htaken : m.taken fd = [])
    (hclient : s.clients.get? fd = some client)
    (hclient' : m.server.clients.get? fd = some client')
    (hitems : client'.replies.items = client.replies.items ++ (m.answer? fd).toList)
    (hunsent : client'.unsent = client.unsent ++ (m.answer? fd).toList.flatMap Value.bytes) :
    Relays fd s m := by
  have hqueue : m.server.queue fd = s.queue fd ++ (m.answer? fd).toList := by
    rw [queue_of_get? hclient, queue_of_get? hclient', hitems]
  exact {
    accepted := fun hyes => absurd (haccepts.symm.trans hyes) nofun
    stood := fun _ _ => by rw [hclient]; rfl
    queue_suffix := by rw [hqueue]
    answered := fun reply hreply => by rw [hqueue, hreply]; rfl
    queue_eq := fun _ _ _ => hqueue
    unsent_eq := fun _ _ => by
      rw [htaken, List.nil_append, unsent_of_get? hclient, unsent_of_get? hclient', hunsent]
    taken_prefix := by
      rw [htaken]
      exact List.nil_prefix }

/-- `Relays` where the connection is left as it is. -/
theorem of_get?_eq (haccepts : m.accepts fd = false) (hanswer : m.answer? fd = none)
    (htaken : m.taken fd = []) (hget : m.server.clients.get? fd = s.clients.get? fd) :
    Relays fd s m := by
  cases hclient : s.clients.get? fd with
  | none =>
      refine .of_none haccepts hanswer ?_ (hget.trans hclient)
      rw [htaken]
      exact List.nil_prefix
  | some client =>
      refine .of_some haccepts htaken hclient (hget.trans hclient) ?_ ?_ <;> simp [hanswer]

/-- `Relays` where replies of the connection are written. -/
theorem of_wrote (haccepts : m.accepts fd = false) (hwrites : m.writes fd = true)
    (hanswer : m.answer? fd = none) (hclient : s.clients.get? fd = some client)
    (hclient' : m.server.clients.get? fd = some client') (hwrote : client.Wrote client')
    (hunsent : m.taken fd ++ client'.unsent = client.unsent) : Relays fd s m where
  accepted hyes := absurd (haccepts.symm.trans hyes) nofun
  stood _ _ := by rw [hclient]; rfl
  queue_suffix := by
    rw [queue_of_get? hclient, queue_of_get? hclient', hanswer]
    simpa using hwrote.suffix
  answered reply hreply := absurd (hanswer.symm.trans hreply) nofun
  queue_eq _ hnot := absurd (hwrites.symm.trans hnot) nofun
  unsent_eq _ _ := by
    rw [unsent_of_get? hclient, unsent_of_get? hclient', hanswer, hunsent]
    simp
  taken_prefix := by
    rw [unsent_of_get? hclient]
    exact ⟨_, hunsent⟩

end Relays

/-- **`Server.attempt`** queues the answer for its own connection. -/
theorem Tries.relays {now : Int64} {a : Attempt} (h : Tries s fd client now a)
    (hclient : s.clients.get? fd = some client) (hcounted : client.Counted) :
    Relays fd s ⟨.attempted fd a.performed?, a.server⟩ := by
  cases h with
  | cut _ hquit =>
      exact .of_none rfl (Moment.answer?_of_quit fd hquit) List.nil_prefix
        (Registry.get?_erase_self fd s.clients)
  | @passed decoder goesOn _ =>
      refine .of_some rfl rfl hclient (Registry.get?_put_self fd _ s.clients) ?_ ?_
      · simp [Moment.answer?, Moment.performed?]
      · simp [Moment.answer?, Moment.performed?, Client.unsent]
  | @answered decoder keyspace args reply _ =>
      have hanswer (server : Server) : Moment.answer? fd
          ⟨.attempted fd (some ⟨fd, args, now, .reply reply⟩), server⟩ =
            some (.str reply.encode) := if_pos rfl
      refine .of_some rfl rfl hclient (Registry.get?_put_self fd _ s.clients) ?_ ?_
      · rw [hanswer]
        rfl
      · rw [hanswer, Client.unsent_addReply (counted_decoder hcounted decoder)]
        simp [Client.unsent]

/-- An attempt has no `answer?` for another connection. -/
theorem Tries.answer?_of_ne {now : Int64} {a : Attempt} (h : Tries s fd client now a)
    {other : Descriptor} (hother : other ≠ fd) :
    Moment.answer? other ⟨.attempted fd a.performed?, a.server⟩ = none := by
  cases h with
  | cut _ hquit => exact Moment.answer?_of_quit other hquit
  | passed => rfl
  | answered => exact if_neg (Ne.symm hother)

/-- `Relays` for `wroteMoment`: replies of a connection are written, or it ends. -/
theorem Relays.of_send (hs : s.Counted) (fd fd' : Descriptor) (outcomes : List WriteOutcome) :
    Relays fd s (s.wroteMoment fd' outcomes) := by
  cases hclient : s.clients.get? fd' with
  | none =>
      have hserver : (s.wroteMoment fd' outcomes).server = s := by
        rw [wroteMoment, send, hclient]
        rfl
      have htaken : s.taken fd' outcomes = [] := by
        rw [taken, hclient]
        rfl
      refine .of_get?_eq rfl rfl ?_ (by rw [hserver])
      rw [wroteMoment, htaken]
      exact ite_self []
  | some client =>
      by_cases hfd : fd' = fd
      · subst hfd
        have htaken : (s.wroteMoment fd' outcomes).taken fd' = s.taken fd' outcomes := if_pos rfl
        rcases send_cases hclient (hs fd' client hclient) outcomes with
          ⟨client', hwrote, -, hunsent, hserver⟩ | ⟨hfirst, hserver⟩
        · have hclient' : (s.wroteMoment fd' outcomes).server.clients.get? fd' = some client' := by
            rw [wroteMoment, hserver, Registry.get?_put_self]
          refine .of_wrote rfl (beq_self_eq_true fd') rfl hclient hclient' hwrote ?_
          rw [htaken, hunsent]
        · refine .of_none rfl rfl ?_ ?_
          · rw [htaken, unsent_of_get? hclient]
            exact hfirst
          · rw [wroteMoment, hserver, Registry.get?_erase_self]
      · refine .of_get?_eq rfl rfl (if_neg hfd) ?_
        rcases send_cases hclient (hs fd' client hclient) outcomes with
          ⟨client', -, -, -, hserver⟩ | ⟨-, hserver⟩
        · rw [wroteMoment, hserver, Registry.get?_put_of_ne (Ne.symm hfd)]
        · rw [wroteMoment, hserver, Registry.get?_erase_of_ne (Ne.symm hfd)]

/-- **Each moment has `Relays`**: it brings no reply into a queue but the answer that is due there,
and takes none out but by writing it or by ending the connection. -/
theorem Happens.relays (h : Happens s m) (hs : s.Counted) (fd : Descriptor) : Relays fd s m := by
  cases h with
  | @accepted fd' =>
      by_cases hfd : fd = fd'
      · subst hfd
        exact .of_accepted (beq_self_eq_true fd) rfl rfl (Registry.get?_put_self fd _ s.clients)
      · exact .of_get?_eq (beq_false_of_ne (Ne.symm hfd)) rfl rfl
          (Registry.get?_put_of_ne hfd s.clients _)
  | @received fd' client bytes hclient =>
      by_cases hfd : fd = fd'
      · subst hfd
        exact .of_some rfl rfl hclient (get?_fed s fd client bytes) (List.append_nil _).symm
          (List.append_nil _).symm
      · exact .of_get?_eq rfl rfl rfl (Registry.get?_put_of_ne hfd s.clients _)
  | @attempted fd' client now a hclient hattempt =>
      have htries := tries_attempt hclient hattempt
      by_cases hfd : fd = fd'
      · subst hfd
        exact htries.relays hclient (hs fd client hclient)
      · exact .of_get?_eq rfl (htries.answer?_of_ne hfd) rfl (htries.get?_of_ne hfd)
  | @closed fd' =>
      by_cases hfd : fd = fd'
      · subst hfd
        exact .of_none rfl rfl List.nil_prefix (Registry.get?_erase_self fd s.clients)
      · exact .of_get?_eq rfl rfl rfl (Registry.get?_erase_of_ne hfd s.clients)
  | @wrote fd' outcomes => exact .of_send hs fd fd' outcomes
  | cycled => exact .of_get?_eq rfl rfl rfl rfl

/-! ### The life of a connection -/

/-- `Delivered fd s₀ life`: of the connection that the server `s₀` has just accepted on `fd`, what
its socket has taken in the moments `life` and what waits after them are the answers among them. -/
structure Delivered (fd : Descriptor) (s₀ : Server) (life : List Moment) : Prop where
  /-- The replies that wait are the last of the answers. -/
  queue_suffix : (s₀.after life).queue fd <:+ life.filterMap (Moment.answer? fd)
  /-- While the connection stands, the bytes that its socket has taken, followed by those that are
  unsent, are those of the answers. -/
  unsent_eq : ((s₀.after life).clients.get? fd).isSome →
    life.flatMap (Moment.taken fd) ++ (s₀.after life).unsent fd =
      (life.filterMap (Moment.answer? fd)).flatMap Value.bytes
  /-- The bytes that its socket has taken are the first of those of the answers, also when the
  connection has ended. -/
  taken_prefix : life.flatMap (Moment.taken fd) <+:
    (life.filterMap (Moment.answer? fd)).flatMap Value.bytes

namespace Delivered

/-- `Delivered` of no moments, where the queue is empty. -/
theorem nil (h : s.queue fd = []) : Delivered fd s [] where
  queue_suffix := by
    rw [after, h]
    exact List.suffix_rfl
  unsent_eq _ := unsent_of_queue_eq_nil h
  taken_prefix := List.prefix_rfl

/-- What the socket has taken and what is `unsent` are the first of the answers, whether or not the
connection stands. -/
theorem unsent_prefix (h : Delivered fd s life) :
    life.flatMap (Moment.taken fd) ++ (s.after life).unsent fd <+:
      (life.filterMap (Moment.answer? fd)).flatMap Value.bytes := by
  cases hclient : (s.after life).clients.get? fd with
  | none =>
      rw [unsent_of_none hclient, List.append_nil]
      exact h.taken_prefix
  | some client =>
      rw [h.unsent_eq (by rw [hclient]; rfl)]

/-- **`Delivered` goes on** with one more moment that `Relays`. -/
theorem snoc (h : Delivered fd s life) (haccepts : m.accepts fd = false)
    (hrelays : Relays fd (s.after life) m) : Delivered fd s (life ++ [m]) := by
  have hanswers : (life ++ [m]).filterMap (Moment.answer? fd) =
      life.filterMap (Moment.answer? fd) ++ (m.answer? fd).toList := by
    cases hanswer : m.answer? fd <;> simp [hanswer]
  have htaken : (life ++ [m]).flatMap (Moment.taken fd) =
      life.flatMap (Moment.taken fd) ++ m.taken fd := by simp
  have hafter : s.after (life ++ [m]) = m.server := after_append s life [m]
  refine ⟨?_, fun hstands => ?_, ?_⟩
  · rw [hafter, hanswers]
    obtain ⟨written, hwritten⟩ := h.queue_suffix
    refine hrelays.queue_suffix.trans ⟨written, ?_⟩
    rw [← List.append_assoc, hwritten]
  · rw [hafter] at hstands
    rw [hafter, hanswers, htaken, List.append_assoc, hrelays.unsent_eq haccepts hstands,
      ← List.append_assoc, h.unsent_eq (hrelays.stood haccepts hstands), List.flatMap_append]
  · rw [hanswers, htaken, List.flatMap_append]
    have hnow := (List.prefix_append_right_inj (life.flatMap (Moment.taken fd))).2
      hrelays.taken_prefix
    exact (hnow.trans h.unsent_prefix).trans (List.prefix_append _ _)

end Delivered

/-- **The life of a connection**, from the server that has just accepted it, has `Delivered`. -/
theorem Happen.delivered (h : Happen s life) (hs : s.Counted) (hqueue : s.queue fd = [])
    (haccepts : ∀ m ∈ life, m.accepts fd = false) : Delivered fd s life := by
  induction life using List.reverseRecOn with
  | nil => exact .nil hqueue
  | append_singleton front m ih =>
      have hfront := h.of_append_left
      have hrelays := h.happens.relays (hfront.counted hs) fd
      refine (ih hfront fun m' hm' => haccepts m' ?_).snoc (haccepts m ?_) hrelays
      · exact List.mem_append_left [m] hm'
      · exact List.mem_append_right front (List.mem_singleton_self m)

end Server

end KeyValueServer
