import KeyValueServer.Proofs.Request.Progress
import KeyValueServer.Proofs.Request.Session
import KeyValueServer.Proofs.Server.Consistency

/-!
# Serving a connection ends

`Server.serve` makes one `Server.attempt` after the other, until the connection is gone or more
bytes are needed; its `attempts` are only there to bound the recursion, and `Server.Serves` is the
same without them. The attempts end because each of them but the last completes a request, perhaps
one without arguments that is passed over, and so consumes two of the bytes that wait
(`Decoder.Parses.exists_consumed`). The server makes no more attempts than that allows, and never
comes to the end of them with requests left.

## Main results

* `Server.Serves`: serving, with the number of attempts that it takes.
* `Server.serves_ok`: serving ends, after so many attempts at most.
* `Session.serving_ends`: the same for every state of a decoder, in every state of a server.
-/

namespace KeyValueServer

namespace Server

variable {s : Server} {fd : Descriptor} {client : Client} {clock : Nat → Int64} {turn n : Nat}
  {e : Effect}

/-- `Serves fd clock turn s n e`: the connection on `fd` is served by `n` calls of `Server.attempt`,
at the clock's readings from `turn` on, up to the first that does not go on; they come to the effect
`e`. -/
inductive Serves (fd : Descriptor) (clock : Nat → Int64) : Nat → Server → Nat → Effect → Prop
  | last {turn : Nat} {s : Server} {a : Attempt} (h : s.attempt fd (clock turn) = .ok a)
      (hends : a.goesOn = false) : Serves fd clock turn s 1 (Effect.after a (.quiet a.server))
  | more {turn n : Nat} {s : Server} {a : Attempt} {e : Effect}
      (h : s.attempt fd (clock turn) = .ok a) (hgoes : a.goesOn = true)
      (hs : Serves fd clock (turn + 1) a.server n e) : Serves fd clock turn s (n + 1) (e.after a)

/-- `Server.serve` comes to what `Serves` says when it allows for as many attempts or more. -/
theorem Serves.serve_eq (h : Serves fd clock turn s n e) {attempts : Nat} (hle : n ≤ attempts) :
    serve fd clock turn attempts s = .ok e := by
  induction h generalizing attempts with
  | @last turn s a h hends =>
      obtain ⟨attempts, rfl⟩ := Nat.exists_eq_add_of_le' hle
      rw [serve, h, Checked.ok_bind, hends]
      rfl
  | @more turn n s a e h hgoes _ ih =>
      obtain ⟨attempts, rfl⟩ := Nat.exists_eq_add_of_le' (Nat.le_of_add_left_le hle)
      rw [serve, h, Checked.ok_bind, if_pos hgoes, ih (Nat.le_of_add_le_add_right hle),
        Checked.ok_bind]

/-- `s.AtRest fd`: the connection is gone, or its decoder `Waits` for more bytes. -/
def AtRest (s : Server) (fd : Descriptor) : Prop :=
  s.clients.get? fd = none ∨ ∃ client, s.clients.get? fd = some client ∧ client.decoder.Waits

/-- **Serving a connection ends**, after one attempt and one more for every two bytes of
`pending.live`, and leaves it `AtRest`. -/
theorem serves_ok (clock : Nat → Int64) (turn : Nat) (hclient : s.clients.get? fd = some client)
    (hkeyspace : s.keyspace.IsSound) (hsound : client.decoder.reading.Sound) :
    ∃ n e, Serves fd clock turn s n e ∧ 2 * n ≤ client.decoder.pending.live.length + 2 ∧
      e.server.AtRest fd := by
  induction hlength : client.decoder.pending.live.length using Nat.strongRecOn
    generalizing s client turn with
  | _ length ih =>
    obtain ⟨progress, decoder, hparse, hparses⟩ := Decoder.parse_ok hsound
    have hattempt := attempt.eq_def s fd (clock turn)
    simp only [hclient, hparse, Checked.ok_bind] at hattempt
    cases progress with
    | needMore =>
        refine ⟨1, _, .last hattempt rfl, Nat.le_add_left 2 length, .inr ?_⟩
        exact ⟨{ client with decoder := decoder }, Registry.get?_put_self fd _ s.clients,
          hparses.waits⟩
    | malformed error =>
        refine ⟨1, _, .last hattempt rfl, Nat.le_add_left 2 length, .inl ?_⟩
        exact Registry.get?_erase_self fd s.clients
    | ready =>
        obtain ⟨consumed, hconsumed, htwo⟩ := hparses.exists_consumed
        obtain ⟨a, hdispatch, hdispatches⟩ := dispatch_ok hkeyspace fd
          { client with decoder := decoder.reset } decoder.args (clock turn)
        simp only [Decoder.take, hdispatch] at hattempt
        rcases hdispatches.goesOn_cases with ⟨hgoes, -, client', hclient', hdecoder⟩ |
          ⟨hends, -, hgone⟩
        · have hless : decoder.pending.live.length + 2 ≤ length := by
            change client.decoder.pending.live = _ at hconsumed
            rw [← hlength, hconsumed, List.length_append]
            omega
          have hdecoder : client'.decoder = decoder.reset := hdecoder
          have hsound' : client'.decoder.reading.Sound := by
            rw [hdecoder]
            exact Reading.sound_before _
          have hlength' : client'.decoder.pending.live.length = decoder.pending.live.length := by
            rw [hdecoder]
            rfl
          obtain ⟨n, e, hserves, hle, hrest⟩ := ih decoder.pending.live.length (by omega)
            (turn + 1) hclient' (hdispatches.sound hkeyspace) hsound' hlength'
          exact ⟨n + 1, _, .more hattempt hgoes hserves, by omega, hrest⟩
        · exact ⟨1, _, .last hattempt hends, Nat.le_add_left 2 length, .inl hgone⟩

/-- A server that `Server.run` leads to has a keyspace that `IsSound`. -/
theorem isSound_of_run {settings : Settings} {listener : Descriptor} {callbacks : List Callback}
    {performed : List Performed}
    (h : run callbacks (fresh settings listener) = .ok (s, performed)) : s.keyspace.IsSound := by
  obtain ⟨past, hhistory, -, haccounts⟩ := history_ok callbacks (accounts_fresh settings listener)
  rw [run_eq_of_history hhistory] at h
  cases h
  exact haccounts.sound

end Server

namespace Session

/-- **Serving a connection ends, whatever state its decoder is in.** After any calls that are
`Permitted`, with no request that is complete left to take: an attempt that is `.ready` consumes two
bytes or more of `pending.live`; an attempt that is `.needMore` leaves a decoder that `Waits`, so
that another attempt needs more bytes and changes nothing; and wherever callbacks have led a server,
serving a connection with such a decoder takes half as many attempts as there are bytes that wait,
and one more, at most. The server allows for so many, and in the end the connection is `AtRest`: it
is gone or its decoder waits. -/
theorem serving_ends {calls : List Call} {session : Session} (hpermitted : Permitted calls fresh)
    (hrun : run calls fresh = .ok session) (hfetched : session.unfetched = false) :
    (∃ progress d', session.decoder.parse = .ok (progress, d') ∧
      (progress = .ready → ∃ consumed,
        session.decoder.pending.live = consumed ++ d'.pending.live ∧ 2 ≤ consumed.length) ∧
      (progress = .needMore → d'.Waits)) ∧
    ∀ (settings : Settings) (listener : Descriptor) (callbacks : List Server.Callback)
      (s : Server) (performed : List Performed),
      Server.run callbacks (Server.fresh settings listener) = .ok (s, performed) →
      ∀ (fd : Descriptor) (client : Client) (clock : Nat → Int64),
        client.decoder = session.decoder →
        ∃ n e, Server.Serves fd clock 0 { s with clients := s.clients.put fd client } n e ∧
          n ≤ session.decoder.pending.live.length / 2 + 1 ∧
          Server.serve fd clock 0 client.decoder.attempts
            { s with clients := s.clients.put fd client } = .ok e ∧
          e.server.AtRest fd := by
  obtain ⟨session', hrun', htracks⟩ :=
    (@Tracks.holding Decoder.fresh [] [] Decoder.holding_fresh).run hpermitted List.prefix_rfl
  have hsame : session' = session := Except.ok.inj (hrun'.symm.trans hrun)
  subst hsame
  have hsound : session'.decoder.reading.Sound := by
    cases htracks with
    | holding h => exact h.sound
    | complete h => cases hfetched
  refine ⟨?_, ?_⟩
  · obtain ⟨progress, d', hparse, hparses⟩ := Decoder.parse_ok hsound
    refine ⟨progress, d', hparse, ?_, ?_⟩
    · rintro rfl
      exact hparses.exists_consumed
    · rintro rfl
      exact hparses.waits
  · intro settings listener callbacks s performed hcallbacks fd client clock hdecoder
    have hkeyspace := Server.isSound_of_run hcallbacks
    obtain ⟨n, e, hserves, hle, hrest⟩ :=
      @Server.serves_ok { s with clients := s.clients.put fd client } fd client clock 0
        (Registry.get?_put_self fd client s.clients) hkeyspace (hdecoder ▸ hsound)
    rw [hdecoder] at hle
    have hhalf : n ≤ session'.decoder.pending.live.length / 2 + 1 := by omega
    refine ⟨n, e, hserves, hhalf, hserves.serve_eq ?_, hrest⟩
    rw [Decoder.attempts, hdecoder, ← ByteQueue.length_live]
    exact hhalf

/-- Three requests, one without arguments, and the beginning of a fourth. -/
def pipelined : Bytes := [97, 13, 10, 13, 10, 42, 48, 13, 10, 98, 99]

/-- Of eleven bytes, the last two wait after six attempts at most. -/
theorem serving_ends_of_pipelined :
    Permitted [.feed pipelined] fresh ∧
      ∃ n e, Server.Serves 5 (fun _ => 0) 0
          { Server.fresh .initial 3 with
            clients := Registry.put 5
              { Client.fresh with decoder := Decoder.fresh.feed pipelined } [] } n e ∧
        n ≤ 6 ∧ e.server.AtRest 5 := by
  have hpermitted : Permitted [.feed pipelined] fresh := permitted_cons rfl nofun trivial
  have hrun : run [.feed pipelined] fresh =
      .ok ⟨Decoder.fresh.feed pipelined, false, pipelined⟩ := by
    rw [run, call, Checked.ok_bind]
    rfl
  obtain ⟨-, hserving⟩ := serving_ends hpermitted hrun rfl
  obtain ⟨n, e, hserves, hle, -, hrest⟩ := hserving .initial 3 [] _ _ rfl 5
    { Client.fresh with decoder := Decoder.fresh.feed pipelined } (fun _ => 0) rfl
  have hlive : (Decoder.fresh.feed pipelined).pending.live = pipelined := by
    rw [Decoder.feed, ByteQueue.live_append, Decoder.fresh, ByteQueue.live_ofCapacity]
    rfl
  dsimp only at hle
  rw [hlive] at hle
  exact ⟨hpermitted, n, e, hserves, hle, hrest⟩

end Session

end KeyValueServer
