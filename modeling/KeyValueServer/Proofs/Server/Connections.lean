import KeyValueServer.Proofs.Request.Fragmentation
import KeyValueServer.Proofs.Server.Serving

/-!
# Connections in the history of a server

A descriptor may be used by one connection after another. The life of a connection (`Server.IsLife`)
begins at the moment that `accepts` it, and ends where the next one is accepted on its descriptor.
What has been performed for a connection in its life is what `Decoder.receive` reads from the pieces
of its own stream, whatever happens on other descriptors meanwhile.

## Main results

* `Server.IsLife`: the life of a connection, as part of a history.
* `Server.Accounted`: what has been performed for a connection is accounted for by its own stream.
* `Server.Accounted.served`, `Server.Accounted.served_other`: serving a connection keeps it.
-/

namespace KeyValueServer

namespace Moment

/-- The piece of the stream of the connection on `fd` that is `received` at a moment, if there is
one. -/
def piece? (fd : Descriptor) (m : Moment) : Option Bytes :=
  match m.event with
  | .received fd' bytes => if fd' = fd then some bytes else none
  | _ => none

/-- Whether a connection is `accepted` on `fd` at a moment. -/
def accepts (fd : Descriptor) (m : Moment) : Bool :=
  match m.event with
  | .accepted fd' => fd' == fd
  | _ => false

/-- `m.IsQuiet`: nothing is accepted, fed or performed at the moment `m`. -/
structure IsQuiet (m : Moment) : Prop where
  performed?_eq : m.performed? = none
  piece?_eq : ∀ fd, m.piece? fd = none
  accepts_eq : ∀ fd, m.accepts fd = false

/-- `request?` is `none` at a quiet moment. -/
theorem IsQuiet.request?_eq {m : Moment} (h : m.IsQuiet) (fd : Descriptor) :
    m.request? fd = none := by
  rw [request?, h.performed?_eq]
  rfl

end Moment

namespace Server

variable {s s' : Server} {fd : Descriptor} {past moments front back : List Moment}

/-! ### Lives -/

/-- `life? fd moments` is the life of the connection that was accepted last on `fd`: the server that
has just accepted it, and the moments since. -/
def life? (fd : Descriptor) : List Moment → Option (Server × List Moment)
  | [] => none
  | m :: rest =>
    match life? fd rest with
    | some life => some life
    | none => if m.accepts fd then some (m.server, rest) else none

/-- There is no `life?` where no moment `accepts fd`. -/
theorem life?_eq_none (h : ∀ m ∈ moments, m.accepts fd = false) : life? fd moments = none := by
  induction moments with
  | nil => rfl
  | cons m rest ih =>
      rw [life?, ih fun other hother => h other (List.mem_cons_of_mem m hother),
        h m List.mem_cons_self]
      rfl

/-- `life?` goes on with moments among which no connection is accepted on `fd`. -/
theorem life?_append (front : List Moment) (h : life? fd back = none) :
    life? fd (front ++ back) = (life? fd front).map fun life => (life.1, life.2 ++ back) := by
  induction front with
  | nil => exact h
  | cons m rest ih =>
      rw [List.cons_append, life?, life?, ih]
      cases life? fd rest with
      | some life => rfl
      | none => cases m.accepts fd <;> rfl

/-- An `accepted` moment begins a `life?`. -/
theorem life?_accepted (past : List Moment) (fd : Descriptor) (s : Server) :
    life? fd (past ++ [⟨.accepted fd, s⟩]) = some (s, []) := by
  have hlast : life? fd [⟨.accepted fd, s⟩] = some (s, []) := by
    simp [life?, Moment.accepts]
  induction past with
  | nil => exact hlast
  | cons m rest ih => rw [List.cons_append, life?, ih]

/-- `IsLife fd past s life`: in the history `past`, a connection is accepted on `fd`, which leads to
the server `s`, and `life` is what happens from then on, until another connection is accepted on
`fd` or the history ends. -/
def IsLife (fd : Descriptor) (past : List Moment) (s : Server) (life : List Moment) : Prop :=
  ∃ front back, past = front ++ ⟨.accepted fd, s⟩ :: (life ++ back) ∧
    (∀ m ∈ life, m.accepts fd = false) ∧ ∀ m ∈ back.head?, m.accepts fd = true

/-- `life?` finds a life that stands behind any moments. -/
theorem life?_of_no_accepts {life : List Moment} (front : List Moment)
    (h : ∀ m ∈ life, m.accepts fd = false) :
    life? fd (front ++ ⟨.accepted fd, s⟩ :: life) = some (s, life) := by
  rw [List.append_cons, life?_append _ (life?_eq_none h), life?_accepted]
  rfl

/-! ### What a connection has had performed -/

/-- `Accounted fd past s`: what has been performed on `fd` in `past` is accounted for. If no
connection was ever accepted on it, there is nothing. Otherwise it is what `Decoder.receive` reads
from the pieces of the connection that was accepted last; and while the connection stands, its
decoder is that decoder. -/
inductive Accounted (fd : Descriptor) (past : List Moment) (s : Server) : Prop
  | never (hlife : life? fd past = none) (hclient : s.clients.get? fd = none)
      (hrequests : past.filterMap (Moment.request? fd) = [])
  | life {s₀ : Server} {life : List Moment} (drained : Decoder.Drained)
      (hlife : life? fd past = some (s₀, life))
      (hreceive : Decoder.receive (life.filterMap (Moment.piece? fd)) Decoder.fresh = .ok drained)
      (hrequests : life.filterMap (Moment.request? fd) = performable drained.requests)
      (hstanding : ∀ client, s.clients.get? fd = some client →
        drained.failure? = none ∧ client.decoder = drained.decoder ∧
          ∀ request ∈ drained.requests, endsConnection request = false)

/-- `Accounted` goes on where the moments are none of this connection and its client has at most
`Wrote`. -/
theorem Accounted.untouched (h : Accounted fd past s)
    (haccepts : ∀ m ∈ moments, m.accepts fd = false)
    (hpieces : moments.filterMap (Moment.piece? fd) = [])
    (hrequests : moments.filterMap (Moment.request? fd) = [])
    (hclient : ∀ client', s'.clients.get? fd = some client' →
      ∃ client, s.clients.get? fd = some client ∧ client.Wrote client') :
    Accounted fd (past ++ moments) s' := by
  have happend := life?_append past (life?_eq_none haccepts)
  cases h with
  | never hlife hnone hrequests' =>
      rw [hlife] at happend
      refine .never happend ?_ ?_
      · cases hget : s'.clients.get? fd with
        | none => rfl
        | some client' =>
            obtain ⟨client, hsome, -⟩ := hclient client' hget
            rw [hnone] at hsome
            cases hsome
      · rw [List.filterMap_append, hrequests', hrequests]
        rfl
  | @life s₀ life drained hlife hreceive hrequests' hstanding =>
      rw [hlife] at happend
      refine .life drained happend ?_ ?_ ?_
      · rw [List.filterMap_append, hpieces, List.append_nil]
        exact hreceive
      · rw [List.filterMap_append, hrequests, List.append_nil]
        exact hrequests'
      · intro client' hget
        obtain ⟨client, hsome, hwrote⟩ := hclient client' hget
        rw [hwrote.decoder_eq]
        exact hstanding client hsome

/-- `Accounted` begins with an `accepted` moment. -/
theorem accounted_accepted (past : List Moment) (fd : Descriptor)
    (h : s.clients.get? fd = some Client.fresh) :
    Accounted fd (past ++ [⟨.accepted fd, s⟩]) s := by
  refine .life ⟨[], none, Decoder.fresh⟩ (life?_accepted past fd s) rfl rfl ?_
  intro client hclient
  rw [h] at hclient
  cases hclient
  exact ⟨rfl, rfl, nofun⟩

/-- No moment of `Served` accepts a connection. -/
theorem Served.accepts_eq {drained : Decoder.Drained} (h : Served s fd drained moments)
    (bytes : Bytes) (other : Descriptor) :
    ∀ m ∈ (⟨.received fd bytes, s⟩ :: moments : List Moment), m.accepts other = false := by
  intro m hm
  rcases List.mem_cons.1 hm with rfl | hrest
  · rfl
  · obtain ⟨performed?, hevent, -⟩ := h.events m hrest
    rw [Moment.accepts, hevent]

/-- No moment of `Served` brings a piece. -/
theorem Served.pieces_eq {drained : Decoder.Drained} (h : Served s fd drained moments)
    (other : Descriptor) : moments.filterMap (Moment.piece? other) = [] := by
  refine List.filterMap_eq_nil_iff.2 fun m hm => ?_
  obtain ⟨performed?, hevent, -⟩ := h.events m hm
  rw [Moment.piece?, hevent]

/-- No moment of `Served` performs a request of another connection. -/
theorem Served.requests_eq_nil {drained : Decoder.Drained} (h : Served s fd drained moments)
    {other : Descriptor} (hother : other ≠ fd) :
    moments.filterMap (Moment.request? other) = [] := by
  refine List.filterMap_eq_nil_iff.2 fun m hm => ?_
  obtain ⟨performed?, hevent, hfd⟩ := h.events m hm
  rw [Moment.request?, Moment.performed?, hevent]
  cases performed? with
  | none => rfl
  | some p => rw [Option.bind_some, hfd p rfl, if_neg (Ne.symm hother)]

/-- **Serving the connection on `fd`** keeps `Accounted` on any other descriptor. -/
theorem Accounted.served_other {client : Client} {bytes : Bytes} {drained : Decoder.Drained}
    {other : Descriptor} (h : Accounted other past s) (hother : other ≠ fd)
    (hserved : Served (s.fed fd client bytes) fd drained moments) :
    Accounted other (past ++ ⟨.received fd bytes, s.fed fd client bytes⟩ :: moments)
      ((s.fed fd client bytes).after moments) := by
  refine h.untouched (hserved.accepts_eq bytes other) ?_ ?_ fun client' hclient' => ?_
  · have hpiece : Moment.piece? other ⟨.received fd bytes, s.fed fd client bytes⟩ = none :=
      if_neg (Ne.symm hother)
    rw [List.filterMap_cons_none hpiece]
    exact hserved.pieces_eq other
  · rw [List.filterMap_cons_none rfl]
    exact hserved.requests_eq_nil hother
  · rw [hserved.frame other hother, fed, Registry.get?_put_of_ne hother] at hclient'
    exact ⟨client', hclient', .refl client'⟩

/-- **Serving the connection on `fd`** keeps `Accounted` on it. -/
theorem Accounted.served {client : Client} {bytes : Bytes} {drained' : Decoder.Drained}
    (h : Accounted fd past s) (hclient : s.clients.get? fd = some client)
    (hdrain : (client.decoder.feed bytes).drain = .ok drained') {s₁ : Server}
    (hserved : Served s₁ fd drained' moments) :
    Accounted fd (past ++ ⟨.received fd bytes, s₁⟩ :: moments) (s₁.after moments) := by
  have happend := life?_append past (life?_eq_none (hserved.accepts_eq bytes fd))
  cases h with
  | never hlife hnone hrequests' =>
      rw [hnone] at hclient
      cases hclient
  | @life s₀ life drained hlife hreceive hrequests' hstanding =>
      obtain ⟨hfailure, hdecoder, hgoing⟩ := hstanding client hclient
      rw [hlife] at happend
      rw [hdecoder] at hdrain
      have hreceive' : Decoder.receive (life.filterMap (Moment.piece? fd) ++ [bytes])
          Decoder.fresh =
            .ok { drained' with requests := drained.requests ++ drained'.requests } := by
        rw [Decoder.receive_append hreceive hfailure, Decoder.receive_singleton hdrain,
          Checked.ok_bind]
      refine .life { drained' with requests := drained.requests ++ drained'.requests } happend
        ?_ ?_ ?_
      · rw [List.filterMap_append, List.filterMap_cons, hserved.pieces_eq fd]
        simp only [Moment.piece?, if_true]
        exact hreceive'
      · rw [List.filterMap_append, List.filterMap_cons, hrequests', hserved.requests_eq,
          performable_append hgoing]
        rfl
      · intro client' hget
        obtain ⟨hfailure', hdecoder', hgoing'⟩ := hserved.standing client' hget
        refine ⟨hfailure', hdecoder', fun request hrequest => ?_⟩
        rcases List.mem_append.1 hrequest with hfront | hback
        · exact hgoing request hfront
        · exact hgoing' request hback

/-- The decoder of a connection that stands is `Decoder.Idle`: it waits for bytes. -/
theorem Accounted.idle {client : Client} (h : Accounted fd past s)
    (hclient : s.clients.get? fd = some client) : client.decoder.Idle := by
  cases h with
  | never hlife hnone hrequests =>
      rw [hnone] at hclient
      cases hclient
  | life drained hlife hreceive hrequests hstanding =>
      obtain ⟨hfailure, hdecoder, -⟩ := hstanding client hclient
      rw [hdecoder]
      exact Decoder.idle_fresh.receive hreceive hfailure

/-! ### Ending and writing -/

/-- `s.Recedes s'`: from the server `s` to `s'`, connections have only been ended or written to. -/
def Recedes (s s' : Server) : Prop :=
  ∀ fd client', s'.clients.get? fd = some client' →
    ∃ client, s.clients.get? fd = some client ∧ client.Wrote client'

/-- `Recedes` where the clients are the same. -/
theorem recedes_of_clients_eq (h : s'.clients = s.clients) : s.Recedes s' := by
  intro fd client' hclient'
  rw [h] at hclient'
  exact ⟨client', hclient', .refl client'⟩

/-- `Server.free` ends a connection. -/
theorem recedes_free (s : Server) (fd : Descriptor) : s.Recedes (s.free fd).server := by
  intro other client' hclient'
  change (s.clients.erase fd).get? other = some client' at hclient'
  rw [Registry.get?_erase] at hclient'
  split at hclient'
  · cases hclient'
  · exact ⟨client', hclient', .refl client'⟩

/-- `Recedes` where a client is put in place that has `Wrote`. -/
theorem recedes_put {client client' : Client} (hclient : s.clients.get? fd = some client)
    (h : client.Wrote client') : s.Recedes { s with clients := s.clients.put fd client' } := by
  intro other client'' hclient''
  rw [Registry.get?_put] at hclient''
  split at hclient''
  · rename_i hother
    cases hclient''
    exact ⟨client, by rw [hother, hclient], h⟩
  · exact ⟨client'', hclient'', .refl client''⟩

/-- `Server.send` leaves the keyspace, and `Recedes`. -/
theorem send_recedes (s : Server) (fd : Descriptor) (outcomes : List WriteOutcome) :
    (s.send fd outcomes).server.keyspace = s.keyspace ∧
      s.Recedes (s.send fd outcomes).server := by
  rw [send]
  cases hclient : s.clients.get? fd with
  | none => exact ⟨rfl, recedes_of_clients_eq rfl⟩
  | some client =>
      have hwrote := client.wrote_flush outcomes
      dsimp only
      split
      · split
        · exact ⟨rfl, recedes_put hclient ⟨hwrote.decoder_eq, hwrote.suffix⟩⟩
        · exact ⟨rfl, recedes_put hclient hwrote⟩
      · exact ⟨rfl, recedes_free s fd⟩

end Server

end KeyValueServer
