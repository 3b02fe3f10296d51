import KeyValueServer.Proofs.Reactor.Callbacks
import KeyValueServer.Proofs.Server.Attempts
import KeyValueServer.Proofs.Server.Consistency

/-!
# Where a connection is cut off

A connection is cut off at the first request that `endsConnection`, or at the first error in its
bytes. `Server.serve` finds either in the middle of performing what has been read, when requests
before it have been performed and answers to them have been queued. `Server.free` then drops the
client with all that waits to be read or written and disarms its descriptor, and `serve` stops.

## Main results

* `Server.confined_receive`: what `Server.receive` asks of the event loop is about one connection.
* `Server.CutExactly`: what it says of a history that connections are cut off exactly there.
* `Server.cut_exactly`: every `Server.history` is `Server.CutExactly`.
-/

namespace KeyValueServer

/-- `performable`, without recursion: the requests with arguments before the first that
`endsConnection`, and that one. -/
theorem performable_eq (requests : List (List Bytes)) :
    performable requests =
      (requests.takeWhile (!endsConnection ·)).filter (!·.isEmpty) ++
        (requests.find? endsConnection).toList := by
  induction requests with
  | nil => rfl
  | cons request rest ih =>
      cases hends : endsConnection request with
      | true =>
          rw [performable_of_ends hends]
          simp [hends]
      | false =>
          rw [performable, ih, hends]
          cases request with
          | nil => simp [hends]
          | cons name args => simp [hends]

/-- `endsConnection` says that the name is `quit` in letters of any case, whatever the arguments. -/
theorem endsConnection_iff {request : List Bytes} :
    endsConnection request = true ↔
      ∃ name args, request = name :: args ∧ name.map Bytes.lower = Bytes.ofText "quit" := by
  have hquit : (Bytes.ofText Command.quitName).map Bytes.lower = Bytes.ofText "quit" := by decide
  cases request with
  | nil => simp [endsConnection]
  | cons name args =>
      rw [endsConnection, Command.isQuit, Bytes.sameLetters, hquit, beq_iff_eq]
      constructor
      · exact fun hname => ⟨name, args, rfl, hname⟩
      · rintro ⟨_, _, heq, hname⟩
        rw [(List.cons.inj heq).1]
        exact hname

namespace Server

variable {s : Server} {fd : Descriptor} {client : Client} {now : Int64}

/-! ### Registrations -/

/-- `SameBut fd r r'`: the loops `r` and `r'` differ at most in what `fd` is armed for. -/
structure SameBut (fd : Descriptor) (r r' : Reactor Task Chore) : Prop where
  interests_eq : ∀ other, other ≠ fd → r'.interests.get? other = r.interests.get? other
  timers_eq : r'.timers = r.timers
  nextId_eq : r'.nextId = r.nextId
  stopped_eq : r'.stopped = r.stopped

namespace SameBut

variable {r r' r'' : Reactor Task Chore}

/-- `SameBut` is reflexive. -/
theorem refl (fd : Descriptor) (r : Reactor Task Chore) : SameBut fd r r :=
  ⟨fun _ _ => rfl, rfl, rfl, rfl⟩

/-- `SameBut` is transitive. -/
theorem trans (h : SameBut fd r r') (h' : SameBut fd r' r'') : SameBut fd r r'' :=
  ⟨fun other hother => (h'.interests_eq other hother).trans (h.interests_eq other hother),
    h'.timers_eq.trans h.timers_eq, h'.nextId_eq.trans h.nextId_eq,
    h'.stopped_eq.trans h.stopped_eq⟩

end SameBut

/-- `About fd actions`: each of `actions` arms or disarms `fd`. -/
def About (fd : Descriptor) (actions : List LoopAction) : Prop :=
  ∀ action ∈ actions, (∃ direction tag, action = .arm fd direction tag) ∨
    ∃ direction, action = .disarm fd direction

/-- Actions `About fd` do not fault and leave a loop that is `SameBut fd`. -/
theorem About.sameBut {actions : List LoopAction} (h : About fd actions)
    (r : Reactor Task Chore) :
    ∃ r', actions.foldlM Reactor.act r = .ok r' ∧ SameBut fd r r' := by
  induction actions generalizing r with
  | nil => exact ⟨r, rfl, .refl fd r⟩
  | cons action rest ih =>
      have hone : ∃ r₁, r.act action = .ok r₁ ∧ SameBut fd r r₁ := by
        rcases h action List.mem_cons_self with ⟨direction, tag, rfl⟩ | ⟨direction, rfl⟩
        · refine ⟨_, rfl, fun other hother => ?_, r.timers_arm fd direction tag,
            r.nextId_arm fd direction tag, r.stopped_arm fd direction tag⟩
          rw [Reactor.get?_interests_arm, if_neg hother]
        · refine ⟨_, rfl, fun other hother => ?_, r.timers_disarm fd direction,
            r.nextId_disarm fd direction, r.stopped_disarm fd direction⟩
          rw [Reactor.get?_interests_disarm, if_neg hother]
      obtain ⟨r₁, hact, hsame⟩ := hone
      obtain ⟨r', hrest, hsame'⟩ := ih (fun a ha => h a (List.mem_cons_of_mem action ha)) r₁
      refine ⟨r', ?_, hsame.trans hsame'⟩
      rw [List.foldlM_cons, hact, Checked.ok_bind, hrest]

/-- `Disarms fd actions`: the last of `actions` disarm `fd` in both directions. -/
def Disarms (fd : Descriptor) (actions : List LoopAction) : Prop :=
  [.disarm fd .readable, .disarm fd .writable] <:+ actions

/-- After actions that `Disarms fd`, the loop has no interests on `fd`. -/
theorem Disarms.get?_eq_none {actions : List LoopAction} {r r' : Reactor Task Chore}
    (h : Disarms fd actions) (hact : actions.foldlM Reactor.act r = .ok r') :
    r'.interests.get? fd = none := by
  obtain ⟨front, rfl⟩ := h
  rw [List.foldlM_append] at hact
  obtain ⟨r₁, -, hact⟩ := Checked.bind_eq_ok_iff.1 hact
  have hlast : (r₁.disarm fd .readable).disarm fd .writable = r' := Except.ok.inj hact
  rw [← hlast, Reactor.get?_interests_disarm, if_pos rfl, Reactor.get?_interests_disarm, if_pos rfl]
  cases r₁.interests.get? fd with
  | none => rfl
  | some interest =>
      cases hwrite : interest.write? <;>
        simp [Interest.disarmed, Interest.set, Interest.isNone, hwrite]

/-- `Confined s fd e`: the effect `e` of a callback that reads from the connection on `fd` is about
that connection only, and disarms it if it is gone. -/
structure Confined (s : Server) (fd : Descriptor) (e : Effect) : Prop where
  about : About fd e.actions
  frame : ∀ other, other ≠ fd → e.server.clients.get? other = s.clients.get? other
  disarms : e.server.clients.get? fd = none → Disarms fd e.actions

/-- `Server.free` is `Confined`. -/
theorem confined_free (s : Server) (fd : Descriptor) : Confined s fd (s.free fd) where
  about := by simp [About, free]
  frame _ hother := Registry.get?_erase_of_ne hother _
  disarms _ := List.suffix_rfl

/-- The actions of an attempt are `About` its connection. -/
theorem Tries.about {a : Attempt} (h : Tries s fd client now a) : About fd a.actions := by
  cases h with
  | cut => simp [About]
  | passed => simp [About]
  | answered => simp [About]

/-- An attempt that leaves no client on `fd` `Disarms fd`. -/
theorem Tries.disarms {a : Attempt} (h : Tries s fd client now a)
    (hgone : a.server.clients.get? fd = none) : Disarms fd a.actions := by
  cases h with
  | cut => exact List.suffix_rfl
  | passed =>
      rw [Registry.get?_put_self] at hgone
      cases hgone
  | answered =>
      rw [Registry.get?_put_self] at hgone
      cases hgone

/-- `Server.serve` is `Confined`. -/
theorem confined_serve {clock : Nat → Int64} {turn attempts : Nat} {e : Effect}
    (hclient : s.clients.get? fd = some client) (h : serve fd clock turn attempts s = .ok e) :
    Confined s fd e := by
  induction attempts generalizing turn s client e with
  | zero => cases h
  | succ attempts ih =>
      rw [serve] at h
      obtain ⟨a, hattempt, h⟩ := Checked.bind_eq_ok_iff.1 h
      have htries := tries_attempt hclient hattempt
      split at h
      · rename_i hgoes
        obtain ⟨client', hclient'⟩ := htries.exists_of_goesOn hgoes
        obtain ⟨rest, hrest, h⟩ := Checked.bind_eq_ok_iff.1 h
        cases h
        obtain ⟨habout, hframe, hdisarms⟩ := ih hclient' hrest
        refine ⟨fun action haction => ?_, fun other hother => ?_, fun hgone => ?_⟩
        · rcases List.mem_append.1 haction with haction | haction
          · exact htries.about action haction
          · exact habout action haction
        · exact (hframe other hother).trans (htries.get?_of_ne hother)
        · exact (hdisarms hgone).trans (List.suffix_append _ _)
      · cases h
        have hactions : (Effect.after a (.quiet a.server)).actions = a.actions :=
          List.append_nil a.actions
        refine ⟨?_, fun other hother => htries.get?_of_ne hother, fun hgone => ?_⟩
        · rw [hactions]
          exact htries.about
        · rw [hactions]
          exact htries.disarms hgone

/-- **`Server.receive`** is `Confined`: what reading asks of the event loop is about the connection
that is read from. -/
theorem confined_receive {outcome : ReadOutcome} {clock : Nat → Int64} {e : Effect}
    (hclient : s.clients.get? fd = some client) (h : s.receive fd outcome clock = .ok e) :
    Confined s fd e := by
  have hquiet : Confined s fd (.quiet s) := by
    refine ⟨nofun, fun _ _ => rfl, fun hgone => ?_⟩
    change s.clients.get? fd = none at hgone
    rw [hclient] at hgone
    cases hgone
  rw [receive, hclient] at h
  cases outcome with
  | received bytes =>
      dsimp only at h
      split at h
      · cases h
        exact confined_free s fd
      · obtain ⟨habout, hframe, hdisarms⟩ := confined_serve (get?_fed s fd client bytes) h
        refine ⟨habout, fun other hother => ?_, hdisarms⟩
        exact (hframe other hother).trans (Registry.get?_put_of_ne hother _ _)
  | wouldBlock | interrupted =>
      cases h
      exact hquiet
  | failed =>
      cases h
      exact confined_free s fd

/-! ### The cut -/

/-- `CutExactly s past`: in the history `past`, which begins at the server `s`, connections are cut
off exactly at their first error or request that `endsConnection`. -/
structure CutExactly (s : Server) (past : List Moment) : Prop where
  /-- The requests that are performed for a connection are those with arguments that its own stream
  completes before its first error and before the first that `endsConnection`, and that one. -/
  requests_eq : ∀ fd s₀ life, IsLife fd past s₀ life →
    ∃ drained, Decoder.receive (life.filterMap (Moment.piece? fd)) Decoder.fresh = .ok drained ∧
      life.filterMap (Moment.request? fd) =
        (drained.requests.takeWhile (!endsConnection ·)).filter (!·.isEmpty) ++
          (drained.requests.find? endsConnection).toList
  /-- A connection that still stands has sent neither. -/
  standing : ∀ fd s₀ front life client, past = front ++ ⟨.accepted fd, s₀⟩ :: life →
    (∀ m ∈ life, m.accepts fd = false) → (s.after past).clients.get? fd = some client →
    ∃ drained, Decoder.receive (life.filterMap (Moment.piece? fd)) Decoder.fresh = .ok drained ∧
      drained.failure? = none ∧ drained.requests.find? endsConnection = none
  /-- At each attempt other connections are left as they are. Where the decoder `CutsOff`, the
  connection goes with all that waits in it, and nothing else of the server changes. Otherwise it is
  `Kept`. -/
  cut : ∀ front fd performed? s' back, past = front ++ ⟨.attempted fd performed?, s'⟩ :: back →
    ∃ client now a, (s.after front).clients.get? fd = some client ∧
      (s.after front).attempt fd now = .ok a ∧ a.performed? = performed? ∧ a.server = s' ∧
      (∀ other, other ≠ fd → s'.clients.get? other = (s.after front).clients.get? other) ∧
      (client.decoder.CutsOff → s'.clients.get? fd = none ∧
        s' = { s.after front with clients := (s.after front).clients.erase fd } ∧
        a.actions = [.disarm fd .readable, .disarm fd .writable] ∧ a.goesOn = false ∧
        ∀ p ∈ performed?, p.outcome = .quit) ∧
      (¬ client.decoder.CutsOff → ∃ client', s'.clients.get? fd = some client' ∧
        Kept client client')
  /-- Nothing happens for a connection that is gone: no `piece?` arrives, and no attempt looks at
  those that have, until another connection is accepted on its descriptor. -/
  gone : ∀ front m later back fd, past = front ++ m :: (later ++ back) →
    m.server.clients.get? fd = none → (∀ m' ∈ later, m'.accepts fd = false) →
    (m.server.after later).clients.get? fd = none ∧
      ∀ m' ∈ later, m'.piece? fd = none ∧ ∀ performed?, m'.event ≠ .attempted fd performed?
  /-- The keyspace changes only with requests that are performed and not answered `.quit`, and with
  the cycles of expiration. -/
  keyspace_eq : ∀ front m back, past = front ++ m :: back →
    (∀ p ∈ m.performed?, p.outcome = .quit) →
    (∀ count now draws, m.event ≠ .cycled count now draws) →
    m.server.keyspace = (s.after front).keyspace

/-- `Happen` and `Accounts` give `CutExactly`. -/
theorem CutExactly.of_happen {past : List Moment} (h : Happen s past)
    (haccounts : Accounts past (s.after past)) : CutExactly s past where
  requests_eq := by
    intro fd s₀ life hlife
    obtain ⟨drained, hreceive, hrequests⟩ := haccounts.of_isLife hlife
    exact ⟨drained, hreceive, hrequests.trans (performable_eq drained.requests)⟩
  standing := by
    intro fd s₀ front life client hpast haccepts hclient
    have hlife := life?_of_no_accepts (s := s₀) front haccepts
    rw [← hpast] at hlife
    cases haccounts.now fd with
    | never hnone =>
        rw [hnone] at hlife
        cases hlife
    | life drained hsome hreceive _ hstanding =>
        rw [hsome] at hlife
        cases hlife
        obtain ⟨hfailure, -, hgoing⟩ := hstanding client hclient
        refine ⟨drained, hreceive, hfailure, List.find?_eq_none.2 fun request hrequest => ?_⟩
        rw [hgoing request hrequest]
        exact Bool.false_ne_true
  cut := by
    intro front fd performed? s' back hpast
    rw [hpast] at h
    cases h.happens with
    | @attempted _ client now a hclient hattempt =>
        have htries := tries_attempt hclient hattempt
        refine ⟨client, now, a, hclient, hattempt, rfl, rfl,
          fun other hother => htries.get?_of_ne hother, fun hcut => ?_, htries.kept⟩
        have hall := htries.eq_of_cutsOff hcut
        refine ⟨?_, hall⟩
        rw [hall.1, Registry.get?_erase_self]
  gone := by
    intro front m later back fd hpast hgone haccepts
    rw [hpast] at h
    cases h.of_append with
    | cons _ hrest => exact hrest.of_append_left.gone hgone haccepts
  keyspace_eq := by
    intro front m back hpast hquit hcycle
    rw [hpast] at h
    exact h.happens.keyspace_eq hquit hcycle

/-- **Connections are cut off exactly at their first error or request to end them.** Such a request
is one whose name is `quit` in letters of any case, whatever its arguments. Whatever fires, in
whatever order, and whatever each `Host` answers, no callback faults, and the history of the server
is `CutExactly`. Of any server, `Server.receive` asks nothing of the event loop but what is about
the connection that is read from. Whatever is registered, all that is registered otherwise stays as
it is; and if the connection is gone then, it is armed for nothing. -/
theorem cut_exactly (settings : Settings) (listener : Descriptor) (callbacks : List Callback) :
    (∀ request, endsConnection request = true ↔
      ∃ name args, request = name :: args ∧ name.map Bytes.lower = Bytes.ofText "quit") ∧
    (∃ past, history callbacks (fresh settings listener) = .ok past ∧
      run callbacks (fresh settings listener) =
        .ok ((fresh settings listener).after past, past.filterMap Moment.performed?) ∧
      CutExactly (fresh settings listener) past) ∧
    ∀ (s : Server) (fd : Descriptor) (client : Client) (outcome : ReadOutcome)
      (clock : Nat → Int64) (e : Effect), s.clients.get? fd = some client →
      s.receive fd outcome clock = .ok e →
        (∀ other, other ≠ fd → e.server.clients.get? other = s.clients.get? other) ∧
        ∀ r, ∃ r', e.actions.foldlM Reactor.act r = .ok r' ∧ SameBut fd r r' ∧
          (e.server.clients.get? fd = none → r'.interests.get? fd = none) := by
  refine ⟨fun _ => endsConnection_iff, ?_, ?_⟩
  · obtain ⟨past, hhistory, -, haccounts⟩ :=
      history_ok callbacks (accounts_fresh settings listener)
    exact ⟨past, hhistory, run_eq_of_history hhistory,
      .of_happen (happen_history hhistory) haccounts⟩
  · intro s fd client outcome clock e hclient hreceive
    obtain ⟨habout, hframe, hdisarms⟩ := confined_receive hclient hreceive
    refine ⟨hframe, fun r => ?_⟩
    obtain ⟨r', hact, hsame⟩ := habout.sameBut r
    exact ⟨r', hact, hsame, fun hgone => (hdisarms hgone).get?_eq_none hact⟩

end Server

end KeyValueServer
