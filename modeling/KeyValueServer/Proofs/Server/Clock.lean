import KeyValueServer.Proofs.Reactor.Clock
import KeyValueServer.Proofs.Server.Consistency

/-!
# The server and the end of its clock

`Server.register` starts one timer, and no callback starts another. Its interval is
`Settings.cronInterval`, and any 64-bit number is one: nothing keeps it away from the end of the
clock, and the server faults when it starts the timer or schedules it again where the sum is no
word. As long as the clock keeps one such interval and one `Reactor.maxWait` away from its end, the
server runs on without a fault.

## Main results

* `Server.startsNone_handle`: no callback starts a timer.
* `Server.startsWithin_handler`: `Server.handler` never faults.
* `Server.keeps_time`: every sum of the loop, and every run of the server.
* `Server.register_overflow_of_longest`: an interval that the server cannot start with.
-/

namespace KeyValueServer

namespace Server

/-- `StartsNone actions`: none of the actions starts a timer. -/
def StartsNone (actions : List LoopAction) : Prop :=
  ∀ kind interval tag now, .start kind interval tag now ∉ actions

variable {s : Server} {fd : Descriptor} {actions actions' : List LoopAction}

/-! ### Callbacks start no timer -/

/-- `StartsNone` of no action at all. -/
theorem startsNone_nil : StartsNone [] := fun _ _ _ _ => List.not_mem_nil

/-- `StartsNone` of actions after actions. -/
theorem StartsNone.append (h : StartsNone actions) (h' : StartsNone actions') :
    StartsNone (actions ++ actions') := by
  intro kind interval tag now hmem
  rcases List.mem_append.1 hmem with hmem | hmem
  · exact h kind interval tag now hmem
  · exact h' kind interval tag now hmem

/-- `StartsNone` of an action that arms a descriptor, in front of others. -/
theorem StartsNone.cons_arm (h : StartsNone actions) (fd : Descriptor) (direction : Direction)
    (task : Task) : StartsNone (.arm fd direction task :: actions) := by
  intro kind interval tag now hmem
  cases hmem with
  | tail _ hmem => exact h kind interval tag now hmem

/-- `Server.free` starts no timer. -/
theorem startsNone_free (s : Server) (fd : Descriptor) : StartsNone (s.free fd).actions := by
  simp [StartsNone, free]

/-- `Server.accept` starts no timer. -/
theorem startsNone_accept (outcomes : List AcceptOutcome) (s : Server) :
    StartsNone (accept outcomes s).actions := by
  induction outcomes generalizing s with
  | nil => exact startsNone_nil
  | cons outcome rest ih =>
      cases outcome with
      | accepted fd => exact (ih _).cons_arm fd .readable .readRequests
      | unusable | interrupted => exact ih s
      | wouldBlock | failed => exact startsNone_nil

/-- `Server.dispatch` starts no timer. -/
theorem startsNone_dispatch {client : Client} {args : List Bytes} {now : Int64} {a : Attempt}
    (h : s.dispatch fd client args now = .ok a) : StartsNone a.actions := by
  rw [dispatch] at h
  split at h
  · obtain rfl := Except.ok.inj h
    exact startsNone_nil
  · obtain ⟨⟨outcome, keyspace⟩, -, h⟩ := Checked.bind_eq_ok_iff.1 h
    cases outcome with
    | quit =>
        obtain rfl := Except.ok.inj h
        exact startsNone_free s fd
    | reply reply =>
        obtain rfl := Except.ok.inj h
        exact startsNone_nil.cons_arm fd .writable .sendReplies

/-- `Server.attempt` starts no timer. -/
theorem startsNone_attempt {now : Int64} {a : Attempt} (h : s.attempt fd now = .ok a) :
    StartsNone a.actions := by
  rw [attempt] at h
  split at h
  · obtain rfl := Except.ok.inj h
    exact startsNone_nil
  · obtain ⟨⟨progress, decoder⟩, -, h⟩ := Checked.bind_eq_ok_iff.1 h
    cases progress with
    | needMore =>
        obtain rfl := Except.ok.inj h
        exact startsNone_nil
    | malformed error =>
        obtain rfl := Except.ok.inj h
        exact startsNone_free s fd
    | ready => exact startsNone_dispatch h

/-- `Server.serve` starts no timer. -/
theorem startsNone_serve {clock : Nat → Int64} {turn attempts : Nat} {e : Effect}
    (h : serve fd clock turn attempts s = .ok e) : StartsNone e.actions := by
  induction attempts generalizing turn s e with
  | zero => cases h
  | succ attempts ih =>
      rw [serve] at h
      obtain ⟨a, hattempt, h⟩ := Checked.bind_eq_ok_iff.1 h
      have hfirst := startsNone_attempt hattempt
      split at h
      · obtain ⟨e', hserve, h⟩ := Checked.bind_eq_ok_iff.1 h
        obtain rfl := Except.ok.inj h
        exact hfirst.append (ih hserve)
      · obtain rfl := Except.ok.inj h
        exact hfirst.append startsNone_nil

/-- `Server.receive` starts no timer. -/
theorem startsNone_receive {outcome : ReadOutcome} {clock : Nat → Int64} {e : Effect}
    (h : s.receive fd outcome clock = .ok e) : StartsNone e.actions := by
  rw [receive] at h
  split at h
  · obtain rfl := Except.ok.inj h
    exact startsNone_nil
  · cases outcome with
    | received bytes =>
        dsimp only at h
        split at h
        · obtain rfl := Except.ok.inj h
          exact startsNone_free s fd
        · exact startsNone_serve h
    | wouldBlock | interrupted =>
        obtain rfl := Except.ok.inj h
        exact startsNone_nil
    | failed =>
        obtain rfl := Except.ok.inj h
        exact startsNone_free s fd

/-- `Server.send` starts no timer. -/
theorem startsNone_send (s : Server) (fd : Descriptor) (outcomes : List WriteOutcome) :
    StartsNone (s.send fd outcomes).actions := by
  rw [send]
  cases s.clients.get? fd with
  | none => exact startsNone_nil
  | some client =>
      dsimp only
      split
      · split
        · simp [StartsNone]
        · exact startsNone_nil
      · exact startsNone_free s fd

/-- **`Server.handle` starts no timer**, whatever fires. -/
theorem startsNone_handle {host : Host} {event : Fired Task Chore} {e : Effect}
    (h : s.handle host event = .ok e) : StartsNone e.actions := by
  cases event with
  | timer id chore =>
      cases chore
      obtain ⟨⟨outcome, keyspace⟩, -, h⟩ := Checked.bind_eq_ok_iff.1 h
      obtain rfl := Except.ok.inj h
      exact startsNone_nil
  | descriptor fd direction task =>
      cases task with
      | accept =>
          obtain rfl := Except.ok.inj h
          exact startsNone_accept host.accepts s
      | readRequests => exact startsNone_receive h
      | sendReplies =>
          obtain rfl := Except.ok.inj h
          exact startsNone_send s fd host.writes

/-- Actions with `StartsNone` start no timer outside any bounds. -/
theorem StartsNone.startsWithin (h : StartsNone actions) (latest longest : Nat) :
    ∀ action ∈ actions, action.StartsWithin latest longest := by
  intro action haction
  cases action with
  | start kind interval tag now => exact absurd haction (h kind interval tag now)
  | arm | disarm | cancel | stop => trivial

/-! ### The server under its loop -/

/-- `session.IsAccounted`: some history has `Accounts` for the server. -/
def IsAccounted (session : Session) : Prop :=
  ∃ past, Accounts past session.server

/-- **`Server.handler` never faults** and starts no timer, where the server `IsAccounted` for. -/
theorem startsWithin_handler (hosts : Nat → Fired Task Chore → Host) (latest longest : Nat) :
    Handler.StartsWithin IsAccounted latest longest (handler hosts) := by
  rintro event r session ⟨past, haccounts⟩
  obtain ⟨moments, hmoments, -, hnext⟩ := moments_ok haccounts (hosts session.turn event) event
  obtain ⟨e, hhandle, hserver, -⟩ := leadTo_handle hmoments
  rw [← hserver] at hnext
  refine ⟨e.actions, _, by rw [handler, hhandle, Checked.ok_bind], ⟨past ++ moments, hnext⟩, ?_⟩
  exact (startsNone_handle hhandle).startsWithin latest longest

variable {settings : Settings} {started latest : Nat}

/-- **`Server.register`** arms the timer of the expiration cycles, unless it overflows, and leaves a
server that `IsAccounted` for by the empty history. -/
theorem register_ok (listener : Descriptor) (hstarted : started ≤ latest)
    (hfits : latest + settings.cronInterval.toNat < wordLimit) :
    ∃ s r, (fresh settings listener).register .empty started = .ok (s, r) ∧
      r.ArmedWithin latest settings.cronInterval.toNat ∧ IsAccounted ⟨s, 0, []⟩ := by
  have hempty : (Reactor.empty : Reactor Task Chore).ArmedWithin latest
      settings.cronInterval.toNat :=
    ⟨Reactor.ordered_empty, fun t ht => absurd ht List.not_mem_nil⟩
  have hlistens : (Action.arm listener .readable .accept : LoopAction).StartsWithin latest
      settings.cronInterval.toNat := trivial
  have hcycles : (Action.start .recurring settings.cronInterval.toNat .expiration started :
      LoopAction).StartsWithin latest settings.cronInterval.toNat := ⟨hstarted, Nat.le_refl _⟩
  obtain ⟨r₁, harm, hr₁⟩ := hempty.act hfits hlistens
  obtain rfl := Except.ok.inj harm
  obtain ⟨r₂, hact, hr₂⟩ := hr₁.act hfits hcycles
  obtain ⟨⟨id, r⟩, hstart, hact⟩ := Checked.bind_eq_ok_iff.1 hact
  obtain rfl := Except.ok.inj hact
  refine ⟨{ fresh settings listener with cron? := some id }, r, ?_, hr₂, [], ?_⟩
  · rw [register]
    dsimp only [fresh]
    rw [hstart, Checked.ok_bind]
  · exact {
      sound := (accounts_fresh settings listener).sound
      now := fun _ => .never rfl rfl rfl
      ended := (accounts_fresh settings listener).ended }

/-- **Timers keep time, as far as the clock goes.** Every loop with timers that are `Ordered` has
`Reactor.KeepsTime`, whatever its clock shows: a timer that is started, or scheduled again, is armed
to fall due an interval later and not before now; and a wait takes ten milliseconds if some timer is
due, and else as long as the least of a second and the times that are left to the timers, always
between one millisecond and a second and not changed by its narrower width. All of this fails, and
only so, where the sum is no 64-bit word.

Whatever interval is set, a server whose clock keeps such an interval and a second away from its end
starts, and `Reactor.run` goes on for any number of rounds without a fault, whatever fires and
whatever the operating system answers. -/
theorem keeps_time (listener : Descriptor) (hosts : Nat → Fired Task Chore → Host)
    {world : Nat → Reactor Task Chore → Session → Round} (turn count : Nat)
    (hstarted : started ≤ latest) (hworld : ∀ turn r session, (world turn r session).ReadsBy latest)
    (hinterval : latest + settings.cronInterval.toNat < wordLimit)
    (hwait : latest + Reactor.maxWait < wordLimit) :
    (∀ (r : Reactor Task Chore) (now : Nat), r.Ordered → r.KeepsTime now) ∧
      ∃ s r course, (fresh settings listener).register .empty started = .ok (s, r) ∧
        Reactor.run (handler hosts) world turn count r ⟨s, 0, []⟩ = .ok course ∧
        course.reactor.ArmedWithin latest settings.cronInterval.toNat := by
  refine ⟨fun r now hr => Reactor.keepsTime hr now, ?_⟩
  obtain ⟨s, r, hregister, hr, hs⟩ := register_ok listener hstarted hinterval
  have hhandler := startsWithin_handler hosts latest settings.cronInterval.toNat
  obtain ⟨course, hrun, hcourse, -⟩ := hr.run hhandler hinterval hwait hworld turn count hs
  exact ⟨s, r, course, hregister, hrun, hcourse⟩

/-- Nothing is accepted, read or written. -/
def idleHost : Host where
  accepts := []
  read := .wouldBlock
  writes := []
  clock := fun _ => 0
  draws := fun _ => ⟨fun _ => 0, 0⟩

/-- A server with the default settings starts after a second. Its first cycle runs when it falls
due, 100 milliseconds later, the next one falls due that long after the first has run, and what is
left of that bounds the wait. -/
theorem keeps_time_of_cycle :
    ∃ s r course, (fresh .initial 3).register .empty 1000 = .ok (s, r) ∧
      Reactor.run (handler fun _ _ => idleHost) (fun _ _ _ => ⟨1100, [], 1100, fun _ => 1101⟩) 0 2
        r ⟨s, 0, []⟩ = .ok course ∧
      course.fired = [.timer 1 .expiration] ∧
      course.reactor.timers = [⟨1, .recurring, 1201, 100, .expiration⟩] ∧
      course.reactor.waitTimeout 1150 = .ok (Int32.ofNat 51) := by
  obtain ⟨hkeeps, s, r, course, hregister, hrun, hcourse⟩ :=
    @keeps_time .initial 1000 1101 3 (fun _ _ => idleHost)
      (fun _ _ _ => ⟨1100, [], 1100, fun _ => 1101⟩) 0 2 (by decide)
      (fun _ _ _ => ⟨by decide, fun _ => Nat.le_refl 1101⟩) (by decide) (by decide)
  obtain ⟨w, hwait, -, hw⟩ := (hkeeps course.reactor 1150 hcourse.ordered).wait_ok (by decide)
  have hregistered := hregister
  cases hregistered
  have htimers : course.reactor.timers = [⟨1, .recurring, 1201, 100, .expiration⟩] := by
    cases hrun
    rfl
  obtain ⟨hmem, hleast⟩ := hw.of_not_due (by simp [htimers])
  have hle : w ≤ 51 := hleast (.inr ⟨_, by rw [htimers]; exact List.mem_singleton_self _, rfl⟩)
  have h51 : w = 51 := by
    rcases hmem with rfl | ⟨t, ht, hleft⟩
    · exact absurd hle (by decide)
    · rw [htimers, List.mem_singleton] at ht
      subst ht
      exact (Nat.add_left_cancel (show 1150 + 51 = 1150 + w from hleft)).symm
  subst h51
  refine ⟨_, _, course, hregister, hrun, ?_, htimers, hwait⟩
  cases hrun
  rfl

/-- The longest interval that a file of settings can give. -/
def longestInterval : Settings := { cronInterval := 18446744073709551615 }

/-- **An interval that the server cannot start with.** A file may give the longest one, and then the
server faults when it starts the timer as little as a millisecond after the clock has started. -/
theorem register_overflow_of_longest :
    Settings.parse? "\x7b\"cron_interval_ms\":18446744073709551615\x7d" = some longestInterval ∧
      (fresh longestInterval 3).register .empty 1 = .error .overflow :=
  ⟨by decide +kernel, rfl⟩

end Server

end KeyValueServer
