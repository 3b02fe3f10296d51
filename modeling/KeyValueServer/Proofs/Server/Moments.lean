import KeyValueServer.Proofs.Checked
import KeyValueServer.Server.Basic

/-!
# The moments of a server

One callback may change the server several times: `Server.accept` takes one connection after
another, and `Server.receive` feeds a decoder and then performs one request after another. Each
change is a `Moment`: a `Happening`, and the server after it. `Server.moments` lists those of a
callback along the recursions of `Server.handle`, and `Server.history` those of any number of
callbacks.

## Main results

* `Server.moments`, `Server.history`: the moments of one callback and of any number of them.
* `Server.leadTo_handle`: the moments of a callback lead to the server that `Server.handle` leaves
  and hold the requests that it performs.
* `Server.run_eq_of_history`: the same of `Server.history` and `Server.run`.
-/

namespace KeyValueServer

/-- A `Happening` is one thing that happens to a server, with what it brought. -/
inductive Happening
  /-- A connection is accepted on a descriptor. -/
  | accepted (fd : Descriptor)
  /-- A piece of a connection's stream is fed to its decoder. -/
  | received (fd : Descriptor) (bytes : Bytes)
  /-- An attempt to complete a request of a connection, and the request, if one was performed. -/
  | attempted (fd : Descriptor) (performed? : Option Performed)
  /-- A connection is closed by its peer, or found broken. -/
  | closed (fd : Descriptor)
  /-- Replies of a connection are written, and its socket takes these bytes. -/
  | wrote (fd : Descriptor) (taken : Bytes)
  /-- A cycle of expiration. -/
  | cycled (count : Nat) (now : Int64) (draws : Nat → Draws)

/-- A `Moment` is a `Happening` and the server after it. -/
structure Moment where
  /-- What happens. -/
  event : Happening
  /-- The server after it. -/
  server : Server

/-- The request that is performed at a moment, if there is one: `attempted` events alone have
one. -/
def Moment.performed? (m : Moment) : Option Performed :=
  match m.event with
  | .attempted _ performed? => performed?
  | _ => none

namespace Server

/-- A `Callback`: what the loop fires, and what the `Host` answers meanwhile. -/
abbrev Callback := Fired Task Chore × Host

/-! ### The moments of a callback -/

/-- `acceptMoments outcomes s` has one `accepted` moment for each connection of `Server.accept`. -/
def acceptMoments : List AcceptOutcome → Server → List Moment
  | [], _ => []
  | .accepted fd :: rest, s =>
    let s := { s with clients := s.clients.put fd Client.fresh }
    ⟨.accepted fd, s⟩ :: acceptMoments rest s
  | .unusable :: rest, s => acceptMoments rest s
  | .interrupted :: rest, s => acceptMoments rest s
  | .wouldBlock :: _, _ => []
  | .failed :: _, _ => []

/-- `attemptMoments fd clock turn attempts s` has one `attempted` moment for each attempt that
`Server.serve` makes, and faults where `serve` does. -/
def attemptMoments (fd : Descriptor) (clock : Nat → Int64) (turn : Nat) :
    Nat → Server → Checked (List Moment)
  | 0, _ => .error .exhausted
  | attempts + 1, s => do
    let a ← s.attempt fd (clock turn)
    if a.goesOn then do
      let rest ← attemptMoments fd clock (turn + 1) attempts a.server
      .ok (⟨.attempted fd a.performed?, a.server⟩ :: rest)
    else .ok [⟨.attempted fd a.performed?, a.server⟩]

/-- The `closed` moment of the connection on `fd`, after which `clients` has no entry for it. -/
def closedMoment (s : Server) (fd : Descriptor) : Moment :=
  ⟨.closed fd, (s.free fd).server⟩

/-- `s.fed fd client bytes` is `s` with `bytes` fed to the decoder of `client`, in place on `fd`. -/
def fed (s : Server) (fd : Descriptor) (client : Client) (bytes : Bytes) : Server :=
  { s with clients := s.clients.put fd { client with decoder := client.decoder.feed bytes } }

/-- `Server.fed` leaves the client in place, with `Decoder.feed` on its decoder. -/
theorem get?_fed (s : Server) (fd : Descriptor) (client : Client) (bytes : Bytes) :
    (s.fed fd client bytes).clients.get? fd =
      some { client with decoder := client.decoder.feed bytes } := by
  rw [fed, Registry.get?_put_self]

/-- `s.readMoments fd outcome clock` are the moments of `Server.receive`: `received`, then those of
`attemptMoments`; or `closed`; or none. -/
def readMoments (s : Server) (fd : Descriptor) (outcome : ReadOutcome) (clock : Nat → Int64) :
    Checked (List Moment) :=
  match s.clients.get? fd with
  | none => .ok []
  | some client =>
    match outcome with
    | .received bytes =>
      if bytes.isEmpty then .ok [s.closedMoment fd]
      else do
        let attempts ←
          attemptMoments fd clock 0 (client.decoder.feed bytes).attempts (s.fed fd client bytes)
        .ok (⟨.received fd bytes, s.fed fd client bytes⟩ :: attempts)
    | .wouldBlock => .ok []
    | .interrupted => .ok []
    | .failed => .ok [s.closedMoment fd]

/-- `s.taken fd outcomes` are the bytes that the socket on `fd` takes in `Client.flush`. -/
def taken (s : Server) (fd : Descriptor) (outcomes : List WriteOutcome) : Bytes :=
  (s.clients.get? fd).elim [] fun client => (client.flush outcomes).taken

/-- The `wrote` moment of `Server.send`. -/
def wroteMoment (s : Server) (fd : Descriptor) (outcomes : List WriteOutcome) : Moment :=
  ⟨.wrote fd (s.taken fd outcomes), (s.send fd outcomes).server⟩

/-- `s.moments host fired` are the moments of the callback `fired`, as `Server.handle` runs it. -/
def moments (s : Server) (host : Host) : Fired Task Chore → Checked (List Moment)
  | .descriptor _ _ .accept => .ok (acceptMoments host.accepts s)
  | .descriptor fd _ .readRequests => s.readMoments fd host.read host.clock
  | .descriptor fd _ .sendReplies => .ok [s.wroteMoment fd host.writes]
  | .timer _ .expiration => do
    let e ← s.cron (host.clock 0) host.draws
    .ok [⟨.cycled s.settings.expireCheckCount.toNat (host.clock 0) host.draws, e.server⟩]

/-! ### Any number of callbacks -/

/-- `s.after moments` is the server after the last of `moments`, or `s` when there are none. -/
def after : Server → List Moment → Server
  | s, [] => s
  | _, m :: rest => after m.server rest

/-- `history callbacks s` are the moments of all callbacks, each at the server that the last one
left. -/
def history : List Callback → Server → Checked (List Moment)
  | [], _ => .ok []
  | (fired, host) :: rest, s => do
    let first ← s.moments host fired
    let later ← history rest (s.after first)
    .ok (first ++ later)

/-- `run callbacks s` is `Server.handle` for one callback after the other: the server at the end,
and all requests that were performed. -/
def run : List Callback → Server → Checked (Server × List Performed)
  | [], s => .ok (s, [])
  | (fired, host) :: rest, s => do
    let e ← s.handle host fired
    let (s, performed) ← run rest e.server
    .ok (s, e.performed ++ performed)

/-- `after` goes through `front ++ back` in turn. -/
@[simp]
theorem after_append (s : Server) (front back : List Moment) :
    s.after (front ++ back) = (s.after front).after back := by
  induction front generalizing s with
  | nil => rfl
  | cons m rest ih => exact ih m.server

/-! ### They are moments of the server as it runs -/

/-- `s.LeadTo moments e`: the effect `e` has the server that `moments` end at and the requests that
they hold. -/
structure LeadTo (s : Server) (moments : List Moment) (e : Effect) : Prop where
  server_eq : e.server = s.after moments
  performed_eq : e.performed = moments.filterMap Moment.performed?

variable {s : Server} {fd : Descriptor}

/-- `acceptMoments` lead to `Server.accept`. -/
theorem leadTo_accept (outcomes : List AcceptOutcome) (s : Server) :
    LeadTo s (acceptMoments outcomes s) (s.accept outcomes) := by
  induction outcomes generalizing s with
  | nil => exact ⟨rfl, rfl⟩
  | cons outcome rest ih =>
      cases outcome with
      | accepted fd =>
          obtain ⟨hserver, hperformed⟩ := ih { s with clients := s.clients.put fd Client.fresh }
          exact ⟨hserver, hperformed⟩
      | unusable => exact ih s
      | interrupted => exact ih s
      | wouldBlock => exact ⟨rfl, rfl⟩
      | failed => exact ⟨rfl, rfl⟩

/-- `LeadTo` for an attempt in front of others, whose effect is `Effect.after`. -/
theorem LeadTo.cons {a : Attempt} {moments : List Moment} {e : Effect}
    (h : LeadTo a.server moments e) :
    LeadTo s (⟨.attempted fd a.performed?, a.server⟩ :: moments) (e.after a) := by
  obtain ⟨hserver, hperformed⟩ := h
  refine ⟨hserver, ?_⟩
  change a.performed?.toList ++ e.performed = _
  rw [hperformed, List.filterMap_cons]
  cases hp : a.performed? with
  | none => simp [Moment.performed?]
  | some p => simp [Moment.performed?]

/-- `attemptMoments` lead to `Server.serve`. -/
theorem leadTo_serve {clock : Nat → Int64} {turn attempts : Nat} {moments : List Moment}
    (h : attemptMoments fd clock turn attempts s = .ok moments) :
    ∃ e, serve fd clock turn attempts s = .ok e ∧ LeadTo s moments e := by
  induction attempts generalizing turn s moments with
  | zero => cases h
  | succ attempts ih =>
      rw [attemptMoments, Checked.bind_eq_ok_iff] at h
      obtain ⟨a, hattempt, h⟩ := h
      rw [serve, hattempt, Checked.ok_bind]
      cases hgoes : a.goesOn with
      | false =>
          rw [hgoes] at h
          cases h
          have hquiet : LeadTo a.server [] (.quiet a.server) := ⟨rfl, rfl⟩
          exact ⟨_, rfl, hquiet.cons⟩
      | true =>
          rw [hgoes, if_pos rfl, Checked.bind_eq_ok_iff] at h
          obtain ⟨rest, hrest, h⟩ := h
          cases h
          obtain ⟨e, hserve, hlead⟩ := ih hrest
          rw [if_pos rfl, hserve, Checked.ok_bind]
          exact ⟨_, rfl, hlead.cons⟩

/-- `closedMoment` leads to `Server.free`. -/
theorem leadTo_free (s : Server) (fd : Descriptor) :
    LeadTo s [s.closedMoment fd] (s.free fd) := ⟨rfl, rfl⟩

/-- `readMoments` lead to `Server.receive`. -/
theorem leadTo_receive {outcome : ReadOutcome} {clock : Nat → Int64} {moments : List Moment}
    (h : s.readMoments fd outcome clock = .ok moments) :
    ∃ e, s.receive fd outcome clock = .ok e ∧ LeadTo s moments e := by
  rw [readMoments] at h
  rw [receive]
  cases hclient : s.clients.get? fd with
  | none =>
      rw [hclient] at h
      cases h
      exact ⟨_, rfl, rfl, rfl⟩
  | some client =>
      rw [hclient] at h
      cases outcome with
      | wouldBlock =>
          cases h
          exact ⟨_, rfl, rfl, rfl⟩
      | interrupted =>
          cases h
          exact ⟨_, rfl, rfl, rfl⟩
      | failed =>
          cases h
          exact ⟨_, rfl, leadTo_free s fd⟩
      | received bytes =>
          cases hempty : bytes.isEmpty with
          | true =>
              simp only [hempty, if_true] at h ⊢
              cases h
              exact ⟨_, rfl, leadTo_free s fd⟩
          | false =>
              simp only [hempty, Bool.false_eq_true, if_false, Checked.bind_eq_ok_iff] at h ⊢
              obtain ⟨attempts, hattempts, h⟩ := h
              cases h
              obtain ⟨e, hserve, hserver, hperformed⟩ := leadTo_serve hattempts
              exact ⟨e, hserve, hserver, hperformed⟩

/-- `Server.send` performs no request. -/
theorem performed_send (s : Server) (fd : Descriptor) (outcomes : List WriteOutcome) :
    (s.send fd outcomes).performed = [] := by
  rw [send]
  cases s.clients.get? fd with
  | none => rfl
  | some client =>
      dsimp only
      split
      · split <;> rfl
      · rfl

/-- **`Server.moments` lead to `Server.handle`**: to the server that it leaves and the requests that
it performs. -/
theorem leadTo_handle {host : Host} {fired : Fired Task Chore} {moments : List Moment}
    (h : s.moments host fired = .ok moments) :
    ∃ e, s.handle host fired = .ok e ∧ LeadTo s moments e := by
  cases fired with
  | timer id chore =>
      cases chore with
      | expiration =>
          rw [Server.moments, Checked.bind_eq_ok_iff] at h
          obtain ⟨e, hcron, h⟩ := h
          cases h
          refine ⟨e, hcron, rfl, ?_⟩
          rw [cron, Checked.bind_eq_ok_iff] at hcron
          obtain ⟨result, -, hcron⟩ := hcron
          cases hcron
          rfl
  | descriptor fd direction task =>
      cases task with
      | accept =>
          cases h
          exact ⟨_, rfl, leadTo_accept host.accepts s⟩
      | sendReplies =>
          cases h
          exact ⟨_, rfl, rfl, performed_send s fd host.writes⟩
      | readRequests => exact leadTo_receive h

/-- **`Server.history` leads to `Server.run`**: to the server that it leaves and the requests that
it performs. -/
theorem run_eq_of_history {callbacks : List Callback} {moments : List Moment}
    (h : history callbacks s = .ok moments) :
    run callbacks s = .ok (s.after moments, moments.filterMap Moment.performed?) := by
  induction callbacks generalizing s moments with
  | nil =>
      cases h
      rfl
  | cons callback rest ih =>
      obtain ⟨fired, host⟩ := callback
      rw [history, Checked.bind_eq_ok_iff] at h
      obtain ⟨first, hfirst, h⟩ := h
      rw [Checked.bind_eq_ok_iff] at h
      obtain ⟨later, hlater, h⟩ := h
      cases h
      obtain ⟨e, hhandle, hserver, hperformed⟩ := leadTo_handle hfirst
      rw [run, hhandle, Checked.ok_bind, hserver, ih hlater, hperformed, after_append,
        List.filterMap_append]
      rfl

end Server

end KeyValueServer
