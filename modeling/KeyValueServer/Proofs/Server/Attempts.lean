import KeyValueServer.Proofs.Server.Connections

/-!
# Moments, from the server before them

What a `Moment` may be is known from the server before it: whether a connection is there, what
`Decoder.parse` comes to next, and whether that cuts the connection off (`Decoder.CutsOff`), as
`.malformed` does and a request that `endsConnection`. Then nothing changes but that the client is
erased; and a connection that is gone has no further moment until another is accepted on its
descriptor.

None of this depends on how the server has come to be what it is.

## Main results

* `Server.Tries`, `Server.tries_attempt`: what one `Server.attempt` comes to.
* `Server.Happens`, `Server.happen_history`: each moment of a history comes about at the server
  before it.
* `Server.Happen.gone`: a connection that is gone has no part in what happens.
-/

namespace KeyValueServer

/-- `d.CutsOff`: what `Decoder.parse` comes to next cuts the connection off, `.malformed` or a
request that `endsConnection`. -/
def Decoder.CutsOff (d : Decoder) : Prop :=
  ∃ progress d', d.parse = .ok (progress, d') ∧
    ((∃ e, progress = .malformed e) ∨ progress = .ready ∧ endsConnection d'.args = true)

namespace Server

variable {s : Server} {fd : Descriptor} {client : Client} {now : Int64}

/-! ### One attempt -/

/-- `Tries s fd client now a`: `Server.attempt` for the connection `client` on `fd` comes to `a`. -/
inductive Tries (s : Server) (fd : Descriptor) (client : Client) (now : Int64) : Attempt → Prop
  /-- The connection is cut off. -/
  | cut {performed? : Option Performed} (hcut : client.decoder.CutsOff)
      (hquit : ∀ p ∈ performed?, p.outcome = .quit) :
      Tries s fd client now
        ⟨{ s with clients := s.clients.erase fd }, [.disarm fd .readable, .disarm fd .writable],
          performed?, false⟩
  /-- The bytes complete no request, or one without arguments. -/
  | passed {decoder : Decoder} {goesOn : Bool} (hcut : ¬ client.decoder.CutsOff) :
      Tries s fd client now
        ⟨{ s with clients := s.clients.put fd { client with decoder := decoder } }, [], none,
          goesOn⟩
  /-- A request is performed and answered. -/
  | answered {decoder : Decoder} {keyspace : Keyspace} {args : List Bytes} {reply : Reply}
      (hcut : ¬ client.decoder.CutsOff) :
      Tries s fd client now
        ⟨{ s with
            keyspace := keyspace
            clients := s.clients.put fd
              (({ client with decoder := decoder } : Client).addReply (.str reply.encode)) },
          [.arm fd .writable .sendReplies], some ⟨fd, args, now, .reply reply⟩, true⟩

/-- `Keyspace.perform` answers `.quit` exactly to a request that `endsConnection`, and then leaves
the keyspace as it is. -/
theorem perform_quit_iff {keyspace keyspace' : Keyspace} {args : List Bytes} {outcome : Outcome}
    (h : keyspace.perform now (args.map .str) = .ok (outcome, keyspace')) :
    (outcome = .quit ↔ endsConnection args = true) ∧ (outcome = .quit → keyspace' = keyspace) := by
  cases args with
  | nil => cases h
  | cons name args =>
      rw [List.map_cons, Keyspace.perform] at h
      change (if Command.isQuit name then _ else _) = _ at h
      rw [endsConnection]
      split at h
      · rename_i hname
        cases h
        exact ⟨iff_of_true rfl hname, fun _ => rfl⟩
      · rename_i hname
        have hreply : outcome ≠ .quit := by
          rintro rfl
          split at h
          · cases h
          · split at h
            · cases h
            · obtain ⟨_, -, h⟩ := Checked.bind_eq_ok_iff.1 h
              cases h
        exact ⟨iff_of_false hreply hname, fun hquit => absurd hquit hreply⟩

/-- **`Server.attempt`** on a connection that stands is as `Tries` says. -/
theorem tries_attempt {a : Attempt} (hclient : s.clients.get? fd = some client)
    (h : s.attempt fd now = .ok a) : Tries s fd client now a := by
  rw [attempt, hclient] at h
  obtain ⟨⟨progress, decoder⟩, hparse, h⟩ := Checked.bind_eq_ok_iff.1 h
  have hnot : (∀ e, progress ≠ .malformed e) →
      (progress = .ready → endsConnection decoder.args = false) → ¬ client.decoder.CutsOff := by
    rintro herror hready ⟨progress', decoder', hparse', hcut⟩
    rw [hparse] at hparse'
    cases hparse'
    rcases hcut with ⟨e, rfl⟩ | ⟨rfl, hends⟩
    · exact herror e rfl
    · rw [hready rfl] at hends
      cases hends
  cases progress with
  | needMore =>
      cases h
      refine .passed (hnot (fun e he => ?_) fun he => ?_)
      · cases he
      · cases he
  | malformed e =>
      cases h
      refine .cut ⟨_, decoder, hparse, .inl ⟨e, rfl⟩⟩ fun p hp => ?_
      cases hp
  | ready =>
      have herror : ∀ e, Progress.ready ≠ .malformed e := by
        intro e he
        cases he
      dsimp only [Decoder.take] at h
      rw [dispatch] at h
      split at h
      · rename_i hempty
        cases h
        refine .passed (hnot herror fun _ => ?_)
        rw [List.isEmpty_iff.1 hempty]
        rfl
      · obtain ⟨⟨outcome, keyspace⟩, hperform, h⟩ := Checked.bind_eq_ok_iff.1 h
        obtain ⟨hquit, hsame⟩ := perform_quit_iff hperform
        cases outcome with
        | quit =>
            cases h
            obtain rfl := hsame rfl
            refine .cut ⟨_, decoder, hparse, .inr ⟨rfl, hquit.1 rfl⟩⟩ ?_
            rintro p ⟨⟩
            rfl
        | reply reply =>
            cases h
            refine .answered (hnot herror fun _ => Bool.eq_false_iff.2 fun hends => ?_)
            cases hquit.2 hends

/-- `Kept client client'`: `client'` has the replies of `client`, with one more at most. -/
structure Kept (client client' : Client) : Prop where
  sent_eq : client'.sent = client.sent
  replies : client.replies.items <+: client'.replies.items

namespace Tries

variable {a : Attempt}

/-- `Tries` leaves the clients on other descriptors alone. -/
theorem get?_of_ne (h : Tries s fd client now a) {other : Descriptor} (hother : other ≠ fd) :
    a.server.clients.get? other = s.clients.get? other := by
  cases h with
  | cut => exact Registry.get?_erase_of_ne hother _
  | passed => exact Registry.get?_put_of_ne hother _ _
  | answered => exact Registry.get?_put_of_ne hother _ _

/-- A connection whose decoder does not cut it off is `Kept`. -/
theorem kept (h : Tries s fd client now a) (hcut : ¬ client.decoder.CutsOff) :
    ∃ client', a.server.clients.get? fd = some client' ∧ Kept client client' := by
  cases h with
  | cut hcut' => exact absurd hcut' hcut
  | @passed decoder goesOn _ =>
      refine ⟨{ client with decoder := decoder }, ?_, rfl, List.prefix_rfl⟩
      rw [Registry.get?_put_self]
  | @answered decoder keyspace args reply _ =>
      refine ⟨({ client with decoder := decoder } : Client).addReply (.str reply.encode), ?_, rfl,
        List.prefix_append _ _⟩
      rw [Registry.get?_put_self]

/-- Where the decoder `CutsOff`, the client is erased, and nothing else of the server changes. -/
theorem eq_of_cutsOff (h : Tries s fd client now a) (hcut : client.decoder.CutsOff) :
    a.server = { s with clients := s.clients.erase fd } ∧
      a.actions = [.disarm fd .readable, .disarm fd .writable] ∧ a.goesOn = false ∧
      ∀ p ∈ a.performed?, p.outcome = .quit := by
  cases h with
  | cut _ hquit => exact ⟨rfl, rfl, rfl, hquit⟩
  | passed hcut' => exact absurd hcut hcut'
  | answered hcut' => exact absurd hcut hcut'

/-- Where the attempt `goesOn`, the client stands. -/
theorem exists_of_goesOn (h : Tries s fd client now a) (hgoes : a.goesOn = true) :
    ∃ client', a.server.clients.get? fd = some client' := by
  cases h with
  | cut => cases hgoes
  | passed => exact ⟨_, by rw [Registry.get?_put_self]⟩
  | answered => exact ⟨_, by rw [Registry.get?_put_self]⟩

/-- `Tries` changes the keyspace only where a request is performed that is not answered `.quit`. -/
theorem keyspace_eq (h : Tries s fd client now a) (hquit : ∀ p ∈ a.performed?, p.outcome = .quit) :
    a.server.keyspace = s.keyspace := by
  cases h with
  | cut => rfl
  | passed => rfl
  | answered => cases hquit _ rfl

end Tries

/-! ### Moments, from the server before them -/

/-- `Happens s m`: the moment `m` comes about at the server `s`. There is one constructor for each
`Happening`. -/
inductive Happens (s : Server) : Moment → Prop
  | accepted {fd : Descriptor} :
      Happens s ⟨.accepted fd, { s with clients := s.clients.put fd Client.fresh }⟩
  | received {fd : Descriptor} {client : Client} {bytes : Bytes}
      (hclient : s.clients.get? fd = some client) :
      Happens s ⟨.received fd bytes, s.fed fd client bytes⟩
  | attempted {fd : Descriptor} {client : Client} {now : Int64} {a : Attempt}
      (hclient : s.clients.get? fd = some client) (hattempt : s.attempt fd now = .ok a) :
      Happens s ⟨.attempted fd a.performed?, a.server⟩
  | closed {fd : Descriptor} : Happens s (s.closedMoment fd)
  | wrote {fd : Descriptor} {outcomes : List WriteOutcome} : Happens s (s.wroteMoment fd outcomes)
  | cycled {count : Nat} {now : Int64} {draws : Nat → Draws} {keyspace : Keyspace} :
      Happens s ⟨.cycled count now draws, { s with keyspace := keyspace }⟩

/-- `Happen s moments`: each of `moments` comes about at the server that those before it lead to. -/
inductive Happen : Server → List Moment → Prop
  | nil {s : Server} : Happen s []
  | cons {s : Server} {m : Moment} {rest : List Moment} (h : Happens s m)
      (hs : Happen m.server rest) : Happen s (m :: rest)

namespace Happen

variable {m : Moment} {front back : List Moment}

/-- `Happen` of one list of moments and of another that goes on from it. -/
theorem append (h : Happen s front) (h' : Happen (s.after front) back) :
    Happen s (front ++ back) := by
  induction h with
  | nil => exact h'
  | cons hfirst _ ih => exact .cons hfirst (ih h')

/-- `Happen` of the moments behind others. -/
theorem of_append (h : Happen s (front ++ back)) : Happen (s.after front) back := by
  induction front generalizing s with
  | nil => exact h
  | cons m rest ih =>
      cases h with
      | cons _ hs => exact ih hs

/-- `Happen` of the moments before others. -/
theorem of_append_left (h : Happen s (front ++ back)) : Happen s front := by
  induction front generalizing s with
  | nil => exact .nil
  | cons m rest ih =>
      cases h with
      | cons hfirst hs => exact .cons hfirst (ih hs)

/-- `Happens` for each moment of `Happen`, at the server before it. -/
theorem happens (h : Happen s (front ++ m :: back)) : Happens (s.after front) m := by
  cases h.of_append with
  | cons hfirst _ => exact hfirst

end Happen

/-- `Happen` for `acceptMoments`. -/
theorem happen_acceptMoments (outcomes : List AcceptOutcome) (s : Server) :
    Happen s (acceptMoments outcomes s) := by
  induction outcomes generalizing s with
  | nil => exact .nil
  | cons outcome rest ih =>
      cases outcome with
      | accepted fd => exact .cons .accepted (ih _)
      | unusable => exact ih s
      | interrupted => exact ih s
      | wouldBlock => exact .nil
      | failed => exact .nil

/-- `Happen` for `attemptMoments`. -/
theorem happen_attemptMoments {clock : Nat → Int64} {turn attempts : Nat} {moments : List Moment}
    (hclient : s.clients.get? fd = some client)
    (h : attemptMoments fd clock turn attempts s = .ok moments) : Happen s moments := by
  induction attempts generalizing turn s client moments with
  | zero => cases h
  | succ attempts ih =>
      rw [attemptMoments] at h
      obtain ⟨a, hattempt, h⟩ := Checked.bind_eq_ok_iff.1 h
      have hfirst : Happens s ⟨.attempted fd a.performed?, a.server⟩ := .attempted hclient hattempt
      split at h
      · rename_i hgoes
        obtain ⟨client', hclient'⟩ := (tries_attempt hclient hattempt).exists_of_goesOn hgoes
        obtain ⟨rest, hrest, h⟩ := Checked.bind_eq_ok_iff.1 h
        cases h
        exact .cons hfirst (ih hclient' hrest)
      · cases h
        exact .cons hfirst .nil

/-- `Happen` for `readMoments`. -/
theorem happen_readMoments {outcome : ReadOutcome} {clock : Nat → Int64} {moments : List Moment}
    (h : s.readMoments fd outcome clock = .ok moments) : Happen s moments := by
  rw [readMoments] at h
  split at h
  · cases h
    exact .nil
  · rename_i client hclient
    cases outcome with
    | received bytes =>
        dsimp only at h
        split at h
        · cases h
          exact .cons .closed .nil
        · obtain ⟨attempts, hattempts, h⟩ := Checked.bind_eq_ok_iff.1 h
          cases h
          have hrest := happen_attemptMoments (get?_fed s fd client bytes) hattempts
          exact .cons (.received hclient) hrest
    | wouldBlock | interrupted =>
        cases h
        exact .nil
    | failed =>
        cases h
        exact .cons .closed .nil

/-- **`Happen` for a whole `history`.** -/
theorem happen_history {callbacks : List Callback} {past : List Moment}
    (h : history callbacks s = .ok past) : Happen s past := by
  induction callbacks generalizing s past with
  | nil =>
      cases h
      exact .nil
  | cons callback rest ih =>
      obtain ⟨fired, host⟩ := callback
      obtain ⟨first, hfirst, h⟩ := Checked.bind_eq_ok_iff.1 h
      obtain ⟨later, hlater, h⟩ := Checked.bind_eq_ok_iff.1 h
      cases h
      refine .append ?_ (ih hlater)
      cases fired with
      | timer id chore =>
          cases chore
          obtain ⟨e, hcron, hfirst⟩ := Checked.bind_eq_ok_iff.1 hfirst
          obtain ⟨⟨n, keyspace⟩, -, hcron⟩ := Checked.bind_eq_ok_iff.1 hcron
          cases hcron
          cases hfirst
          exact .cons .cycled .nil
      | descriptor fd direction task =>
          cases task with
          | accept =>
              cases hfirst
              exact happen_acceptMoments host.accepts s
          | readRequests => exact happen_readMoments hfirst
          | sendReplies =>
              cases hfirst
              exact .cons .wrote .nil

/-! ### After the cut -/

variable {m : Moment}

/-- A connection that is gone stays so until a moment `accepts fd`: no piece of its stream arrives,
and no attempt is made for it. -/
theorem Happens.gone (h : Happens s m) (hgone : s.clients.get? fd = none)
    (haccepts : m.accepts fd = false) :
    m.server.clients.get? fd = none ∧ m.piece? fd = none ∧
      ∀ performed?, m.event ≠ .attempted fd performed? := by
  have hne : ∀ {fd' client}, s.clients.get? fd' = some client → fd ≠ fd' := by
    rintro _ client hclient rfl
    rw [hgone] at hclient
    cases hclient
  cases h with
  | @accepted fd' =>
      have hother : fd ≠ fd' := (ne_of_beq_false haccepts).symm
      exact ⟨(Registry.get?_put_of_ne hother _ _).trans hgone, rfl, nofun⟩
  | received hclient =>
      have hother := hne hclient
      exact ⟨(Registry.get?_put_of_ne hother _ _).trans hgone, if_neg hother.symm, nofun⟩
  | attempted hclient hattempt =>
      have hother := hne hclient
      refine ⟨((tries_attempt hclient hattempt).get?_of_ne hother).trans hgone, rfl, ?_⟩
      rintro performed? ⟨⟩
      exact hother rfl
  | @closed fd' =>
      refine ⟨?_, rfl, nofun⟩
      change (s.clients.erase fd').get? fd = none
      rw [Registry.get?_erase, hgone, ite_self]
  | @wrote fd' outcomes =>
      refine ⟨?_, rfl, nofun⟩
      change (s.send fd' outcomes).server.clients.get? fd = none
      cases hclient : (s.send fd' outcomes).server.clients.get? fd with
      | none => rfl
      | some client' =>
          obtain ⟨client, hclient', -⟩ := (send_recedes s fd' outcomes).2 fd client' hclient
          exact absurd rfl (hne hclient')
  | cycled => exact ⟨hgone, rfl, nofun⟩

/-- `Happens.gone` for all moments after a connection has gone. -/
theorem Happen.gone {moments : List Moment} (h : Happen s moments)
    (hgone : s.clients.get? fd = none) (haccepts : ∀ m ∈ moments, m.accepts fd = false) :
    (s.after moments).clients.get? fd = none ∧
      ∀ m ∈ moments, m.piece? fd = none ∧ ∀ performed?, m.event ≠ .attempted fd performed? := by
  induction h with
  | nil => exact ⟨hgone, fun m' hm' => absurd hm' List.not_mem_nil⟩
  | @cons s m rest hfirst _ ih =>
      obtain ⟨hgone', hmoment⟩ := hfirst.gone hgone (haccepts m List.mem_cons_self)
      obtain ⟨hafter, hrest⟩ := ih hgone' fun m' hm' => haccepts m' (List.mem_cons_of_mem m hm')
      refine ⟨hafter, fun m' hm' => ?_⟩
      rcases List.mem_cons.1 hm' with rfl | hm'
      · exact hmoment
      · exact hrest m' hm'

/-- The keyspace changes only at a `cycled` moment, or where a request is performed that is not
answered `.quit`. -/
theorem Happens.keyspace_eq (h : Happens s m) (hquit : ∀ p ∈ m.performed?, p.outcome = .quit)
    (hcycle : ∀ count now draws, m.event ≠ .cycled count now draws) :
    m.server.keyspace = s.keyspace := by
  cases h with
  | accepted => rfl
  | received => rfl
  | attempted hclient hattempt => exact (tries_attempt hclient hattempt).keyspace_eq hquit
  | closed => rfl
  | @wrote fd outcomes => exact (send_recedes s fd outcomes).1
  | cycled => exact absurd rfl (hcycle _ _ _)

end Server

end KeyValueServer
