import KeyValueServer.Proofs.Server.Client
import KeyValueServer.Proofs.Server.Execution

/-!
# Serving a connection

`Server.serve` performs the requests that `Decoder.drain` yields, one after the other, up to the
first that ends the connection (`performable`). Requests without arguments are passed over. Nothing
else of the server changes but the keyspace and the client on this descriptor.

## Main results

* `Server.dispatch_ok`: `Server.dispatch` performs one request as `Server.Dispatches` says.
* `Server.attemptMoments_ok`: the moments of an attempt after the other have `Server.Served`.
-/

namespace KeyValueServer

/-- `s.IsSound`: the keyspace represents some `Keyspace.Maps`. -/
def Keyspace.IsSound (s : Keyspace) : Prop := ∃ m, s.Represents m

/-- The request of the connection on `fd` that is performed at a moment, if there is one. -/
def Moment.request? (fd : Descriptor) (m : Moment) : Option (List Bytes) :=
  m.performed?.bind fun p => if p.fd = fd then some p.args else none

/-- `endsConnection args`: `Keyspace.perform` would answer `args` with `.quit`. -/
def endsConnection : List Bytes → Bool
  | [] => false
  | name :: _ => Command.isQuit name

/-- `performable requests` are the requests that are performed of these: those with arguments, up to
the first that `endsConnection`. -/
def performable : List (List Bytes) → List (List Bytes)
  | [] => []
  | request :: rest =>
    if request.isEmpty then performable rest
    else if endsConnection request then [request]
    else request :: performable rest

/-- `performable` goes on behind requests of which none `endsConnection`. -/
theorem performable_append {front : List (List Bytes)}
    (h : ∀ request ∈ front, endsConnection request = false) (back : List (List Bytes)) :
    performable (front ++ back) = performable front ++ performable back := by
  induction front with
  | nil => rfl
  | cons request rest ih =>
      have hrequest := h request List.mem_cons_self
      have hrest := ih fun other hother => h other (List.mem_cons_of_mem _ hother)
      rw [List.cons_append, performable, performable, hrest, hrequest]
      cases request with
      | nil => rfl
      | cons name args => rfl

/-- `performable` stops at a request that `endsConnection`. -/
theorem performable_of_ends {request : List Bytes} (h : endsConnection request = true)
    (rest : List (List Bytes)) : performable (request :: rest) = [request] := by
  cases request with
  | nil => cases h
  | cons name args =>
      rw [performable, h]
      rfl

namespace Server

variable {s : Server} {fd : Descriptor} {client : Client} {now : Int64}

/-! ### One request -/

/-- `Dispatches s fd client now args a`: the attempt `a` is what `Server.dispatch` makes of the
request `args`. There is one constructor for each of its branches. -/
inductive Dispatches (s : Server) (fd : Descriptor) (client : Client) (now : Int64) :
    List Bytes → Attempt → Prop
  | nothing : Dispatches s fd client now []
      ⟨{ s with clients := s.clients.put fd client }, [], none, true⟩
  | quit {name : Bytes} {args : List Bytes} {keyspace : Keyspace} {actions : List LoopAction}
      (hname : Command.isQuit name = true)
      (hperform : s.keyspace.perform now ((name :: args).map .str) = .ok (.quit, keyspace))
      (hsound : keyspace.IsSound) :
      Dispatches s fd client now (name :: args)
        ⟨{ s with keyspace := keyspace, clients := s.clients.erase fd }, actions,
          some ⟨fd, name :: args, now, .quit⟩, false⟩
  | answered {name : Bytes} {args : List Bytes} {keyspace : Keyspace}
      {actions : List LoopAction} {reply : Reply} (hname : Command.isQuit name = false)
      (hperform : s.keyspace.perform now ((name :: args).map .str) = .ok (.reply reply, keyspace))
      (hsound : keyspace.IsSound) :
      Dispatches s fd client now (name :: args)
        ⟨{ s with
            keyspace := keyspace
            clients := s.clients.put fd (client.addReply (.str reply.encode)) }, actions,
          some ⟨fd, name :: args, now, .reply reply⟩, true⟩

/-- **`Server.dispatch`** never faults, and is as `Dispatches` says. -/
theorem dispatch_ok (hsound : s.keyspace.IsSound) (fd : Descriptor) (client : Client)
    (args : List Bytes) (now : Int64) :
    ∃ a, s.dispatch fd client args now = .ok a ∧ Dispatches s fd client now args a := by
  cases args with
  | nil => exact ⟨_, rfl, .nothing⟩
  | cons name args =>
      obtain ⟨m, h⟩ := hsound
      obtain ⟨outcome, keyspace, m', hperform, hanswer, h', -⟩ := h.perform name args now
      rw [dispatch, if_neg (by exact Bool.false_ne_true), hperform, Checked.ok_bind]
      cases outcome with
      | quit =>
          have hname : Command.isQuit name = true := by
            cases hanswer with
            | quit hname => exact hname
          exact ⟨_, rfl, .quit hname hperform ⟨m', h'⟩⟩
      | reply reply =>
          have hname : Command.isQuit name = false := by
            cases hquit : Command.isQuit name with
            | false => rfl
            | true =>
                rw [List.map_cons, Keyspace.perform] at hperform
                simp only [Value.bytes, Value.bytes?, Option.getD_some, hquit, if_true] at hperform
                cases hperform
          exact ⟨_, rfl, .answered hname hperform ⟨m', h'⟩⟩

namespace Dispatches

variable {args : List Bytes} {a : Attempt}

/-- `Happening.replay` of the request gives the keyspace that `Server.dispatch` leaves. -/
theorem replay_eq (h : Dispatches s fd client now args a) :
    Happening.replay s.keyspace (.attempted fd a.performed?) = .ok a.server.keyspace := by
  cases h with
  | nothing => rfl
  | quit _ hperform | answered _ hperform =>
      simp only [Happening.replay, hperform, Checked.ok_bind, if_true]

/-- `Server.dispatch` keeps `Keyspace.IsSound`. -/
theorem sound (h : Dispatches s fd client now args a) (hsound : s.keyspace.IsSound) :
    a.server.keyspace.IsSound := by
  cases h with
  | nothing => exact hsound
  | quit hname hperform hsound' => exact hsound'
  | answered hname hperform hsound' => exact hsound'

/-- `Server.dispatch` leaves the clients on other descriptors alone. -/
theorem frame (h : Dispatches s fd client now args a) {other : Descriptor} (hother : other ≠ fd) :
    a.server.clients.get? other = s.clients.get? other := by
  cases h with
  | nothing => exact Registry.get?_put_of_ne hother _ _
  | quit => exact Registry.get?_erase_of_ne hother _
  | answered => exact Registry.get?_put_of_ne hother _ _

/-- The request that `Server.dispatch` performs is recorded for `fd`. -/
theorem fd_eq (h : Dispatches s fd client now args a) : ∀ p ∈ a.performed?, p.fd = fd := by
  intro p hp
  cases h with
  | nothing => cases hp
  | quit =>
      cases hp
      rfl
  | answered =>
      cases hp
      rfl

/-- `Server.dispatch` performs `args` unless it is empty, which is what `performable` says. -/
theorem performed_eq (h : Dispatches s fd client now args a) :
    (a.performed?.map (·.args)).toList = performable [args] := by
  cases h with
  | nothing => rfl
  | @quit name args keyspace actions hname hperform hsound =>
      have hends : endsConnection (name :: args) = true := hname
      rw [performable_of_ends hends]
      rfl
  | @answered name args keyspace actions reply hname hperform hsound =>
      have hgoing : endsConnection (name :: args) = false := hname
      rw [performable, hgoing]
      rfl

/-- Where `goesOn`, the client stands with the decoder that it had; where not, the request was one
that `endsConnection`, and the client is gone. -/
theorem goesOn_cases (h : Dispatches s fd client now args a) :
    (a.goesOn = true ∧ endsConnection args = false ∧
        ∃ client', a.server.clients.get? fd = some client' ∧ client'.decoder = client.decoder) ∨
      (a.goesOn = false ∧ endsConnection args = true ∧ a.server.clients.get? fd = none) := by
  cases h with
  | nothing =>
      refine .inl ⟨rfl, rfl, client, ?_, rfl⟩
      rw [Registry.get?_put_self]
  | quit hname hperform hsound =>
      refine .inr ⟨rfl, hname, ?_⟩
      rw [Registry.get?_erase_self]
  | @answered name args keyspace actions reply hname hperform hsound =>
      refine .inl ⟨rfl, hname, client.addReply (.str reply.encode), ?_, rfl⟩
      rw [Registry.get?_put_self]

end Dispatches

/-! ### All that draining yields -/

/-- `Served s fd drained moments`: what `moments` come to when they serve the connection on `fd`,
whose decoder drains to `drained`. -/
structure Served (s : Server) (fd : Descriptor) (drained : Decoder.Drained)
    (moments : List Moment) : Prop where
  sequential : Sequential s moments
  sound : (s.after moments).keyspace.IsSound
  /-- Other connections are left alone. -/
  frame : ∀ other, other ≠ fd → (s.after moments).clients.get? other = s.clients.get? other
  /-- There are attempts of this connection only. -/
  events : ∀ m ∈ moments, ∃ performed?, m.event = .attempted fd performed? ∧
    ∀ p ∈ performed?, p.fd = fd
  requests_eq : moments.filterMap (Moment.request? fd) = performable drained.requests
  /-- If the connection still stands, there was neither an error nor a request to end it. -/
  standing : ∀ client, (s.after moments).clients.get? fd = some client →
    drained.failure? = none ∧ client.decoder = drained.decoder ∧
      ∀ request ∈ drained.requests, endsConnection request = false

/-- `Moment.request?` of an attempt is the request that it performs, when that is one of `fd`. -/
theorem request?_attempted {performed? : Option Performed} (h : ∀ p ∈ performed?, p.fd = fd)
    (s : Server) :
    Moment.request? fd ⟨.attempted fd performed?, s⟩ = performed?.map (·.args) := by
  cases performed? with
  | none => rfl
  | some p => exact if_pos (h p rfl)

/-- `Served` for a last attempt. -/
theorem Served.stop {a : Attempt} {drained : Decoder.Drained}
    (hreplay : Happening.replay s.keyspace (.attempted fd a.performed?) = .ok a.server.keyspace)
    (hsound : a.server.keyspace.IsSound)
    (hframe : ∀ other, other ≠ fd → a.server.clients.get? other = s.clients.get? other)
    (hfd : ∀ p ∈ a.performed?, p.fd = fd)
    (hrequests : (a.performed?.map (·.args)).toList = performable drained.requests)
    (hstanding : ∀ client, a.server.clients.get? fd = some client →
      drained.failure? = none ∧ client.decoder = drained.decoder ∧
        ∀ request ∈ drained.requests, endsConnection request = false) :
    Served s fd drained [⟨.attempted fd a.performed?, a.server⟩] where
  sequential := .cons hreplay .nil
  sound := hsound
  frame := hframe
  events m hm := by
    rw [List.mem_singleton.1 hm]
    exact ⟨_, rfl, hfd⟩
  requests_eq := by
    rw [← hrequests, List.filterMap_cons, request?_attempted hfd]
    cases a.performed? <;> rfl
  standing := hstanding

/-- `Served` for an attempt that takes a request of `drained`, in front of the others. -/
theorem Served.more {a : Attempt} {request : List Bytes} {drained : Decoder.Drained}
    {rest : List Moment}
    (hreplay : Happening.replay s.keyspace (.attempted fd a.performed?) = .ok a.server.keyspace)
    (hframe : ∀ other, other ≠ fd → a.server.clients.get? other = s.clients.get? other)
    (hfd : ∀ p ∈ a.performed?, p.fd = fd) (hgoing : endsConnection request = false)
    (hrequest : (a.performed?.map (·.args)).toList = performable [request])
    (h : Served a.server fd drained rest) :
    Served s fd { drained with requests := request :: drained.requests }
      (⟨.attempted fd a.performed?, a.server⟩ :: rest) where
  sequential := .cons hreplay h.sequential
  sound := h.sound
  frame other hother := (h.frame other hother).trans (hframe other hother)
  events m hm := by
    rcases List.mem_cons.1 hm with rfl | hrest
    · exact ⟨_, rfl, hfd⟩
    · exact h.events m hrest
  requests_eq := by
    have hsplit := performable_append
      (fun other hother => (List.mem_singleton.1 hother) ▸ hgoing) drained.requests
    rw [List.singleton_append, ← hrequest, ← h.requests_eq] at hsplit
    rw [hsplit, List.filterMap_cons, request?_attempted hfd]
    cases a.performed? <;> rfl
  standing client hclient := by
    obtain ⟨hfailure, hdecoder, hnone⟩ := h.standing client hclient
    refine ⟨hfailure, hdecoder, fun other hother => ?_⟩
    rcases List.mem_cons.1 hother with rfl | hrest
    · exact hgoing
    · exact hnone other hrest

/-- `Served` where the decoder stops for lack of bytes. -/
theorem served_waiting (hsound : s.keyspace.IsSound) (fd : Descriptor) (client : Client)
    (decoder : Decoder) :
    Served s fd ⟨[], none, decoder⟩ [⟨.attempted fd none, { s with
      clients := s.clients.put fd { client with decoder := decoder } }⟩] := by
  refine .stop (a := ⟨_, [], none, false⟩) rfl hsound
    (fun _ hother => Registry.get?_put_of_ne hother _ _) nofun rfl fun client' hclient' => ?_
  rw [Registry.get?_put_self] at hclient'
  cases hclient'
  exact ⟨rfl, rfl, nofun⟩

/-- `Served` where the decoder stops at an error, and `Server.free` ends the connection. -/
theorem served_malformed (hsound : s.keyspace.IsSound) (fd : Descriptor) (e : ProtocolError)
    (decoder : Decoder) :
    Served s fd ⟨[], some e, decoder⟩ [⟨.attempted fd none, (s.free fd).server⟩] := by
  refine .stop (a := ⟨_, [], none, false⟩) rfl hsound
    (fun _ hother => Registry.get?_erase_of_ne hother _) nofun rfl fun client' hclient' => ?_
  change (s.clients.erase fd).get? fd = some client' at hclient'
  rw [Registry.get?_erase_self] at hclient'
  cases hclient'

/-- `Served` where `Dispatches` says that the request ends the connection. -/
theorem served_quit {args : List Bytes} {a : Attempt} (h : Dispatches s fd client now args a)
    (hsound : s.keyspace.IsSound) (hends : endsConnection args = true)
    (hgone : a.server.clients.get? fd = none) (drained : Decoder.Drained) :
    Served s fd { drained with requests := args :: drained.requests }
      [⟨.attempted fd a.performed?, a.server⟩] := by
  refine .stop h.replay_eq (h.sound hsound) (fun _ hother => h.frame hother) h.fd_eq ?_ ?_
  · rw [h.performed_eq, performable_of_ends hends, performable_of_ends hends]
  · intro client' hclient'
    rw [hgone] at hclient'
    cases hclient'

/-- **Serving a connection** by `attemptMoments` does not fault where `Decoder.drainWithin` does
not, and performs what it yields. -/
theorem attemptMoments_ok (clock : Nat → Int64) (turn : Nat) {attempts : Nat}
    {drained : Decoder.Drained} (hclient : s.clients.get? fd = some client)
    (hsound : s.keyspace.IsSound)
    (hdrain : client.decoder.drainWithin attempts = .ok drained) :
    ∃ moments, attemptMoments fd clock turn attempts s = .ok moments ∧
      Served s fd drained moments := by
  induction attempts generalizing s client turn drained with
  | zero => cases hdrain
  | succ attempts ih =>
      rw [Decoder.drainWithin, Checked.bind_eq_ok_iff] at hdrain
      obtain ⟨⟨progress, decoder⟩, hparse, hdrain⟩ := hdrain
      rw [attemptMoments, attempt, hclient]
      simp only [hparse, Checked.ok_bind]
      cases progress with
      | needMore =>
          cases hdrain
          exact ⟨_, rfl, served_waiting hsound fd client decoder⟩
      | malformed e =>
          cases hdrain
          exact ⟨_, rfl, served_malformed hsound fd e decoder⟩
      | ready =>
          simp only [Decoder.take] at hdrain ⊢
          rw [Checked.bind_eq_ok_iff] at hdrain
          obtain ⟨rest, hrest, hdrain⟩ := hdrain
          cases hdrain
          obtain ⟨a, hdispatch, hdispatches⟩ :=
            dispatch_ok hsound fd { client with decoder := decoder.reset } decoder.args (clock turn)
          rw [hdispatch, Checked.ok_bind]
          rcases hdispatches.goesOn_cases with
            ⟨hgoes, hgoing, client', hclient', hdecoder⟩ | ⟨hgoes, hends, hgone⟩
          · rw [← show client'.decoder = decoder.reset from hdecoder] at hrest
            obtain ⟨moments, hmoments, hserved⟩ :=
              ih (turn + 1) hclient' (hdispatches.sound hsound) hrest
            refine ⟨_, by rw [if_pos hgoes, hmoments, Checked.ok_bind], ?_⟩
            exact .more hdispatches.replay_eq (fun _ hother => hdispatches.frame hother)
              hdispatches.fd_eq hgoing hdispatches.performed_eq hserved
          · refine ⟨_, by rw [hgoes, if_neg Bool.false_ne_true], ?_⟩
            exact served_quit hdispatches hsound hends hgone rest

end Server

end KeyValueServer
