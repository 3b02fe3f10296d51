import KeyValueServer.Proofs.Server.Client

/-!
# The bytes of replies

A socket may take any part of what it is offered, so a reply may be written in many calls of
`Client.flush`, with new replies queued in between. What the socket has taken and what is
`Client.unsent` are together all that was ever queued, in order: at the end of each call, at each
attempt to write within a call, and while `dropWritten` drops the replies that are complete.

A call is followed attempt by attempt (`Client.Call`). A `Client.WriteAttempt` offers what is left
of the first reply, and there is something left whenever one is made: a reply without bytes, such as
an integer, is dropped without an attempt.

## Main results

* `Client.WriteAttempt`, `Client.writeAttempts`: the attempts that a call makes.
* `Client.call_flush`, `Client.Call.taken_append_unsent`: `Client.flush` is such a call, and a call
  conserves the bytes.
* `Client.run_conserves`: any `ReplyCall`s on a new client, and one call more, attempt by attempt.
-/

namespace KeyValueServer

namespace Client

/-! ### What waits -/

/-- `c.unsent`: the bytes that wait, those of the first reply from `sent` on and those of all
others. -/
def unsent (c : Client) : Bytes :=
  match c.replies.items with
  | [] => []
  | head :: rest => head.bytes.drop c.sent ++ rest.flatMap Value.bytes

/-- `addReply` puts the bytes of the reply behind `unsent`. -/
theorem unsent_addReply {c : Client} (h : c.Counted) (reply : Value) :
    (c.addReply reply).unsent = c.unsent ++ reply.bytes := by
  cases hitems : c.replies.items with
  | nil => simp [unsent, addReply, Sequence.append, hitems, h.sent_eq hitems]
  | cons head rest => simp [unsent, addReply, Sequence.append, hitems]

/-- `addReply` keeps `Counted`. -/
theorem counted_addReply {c : Client} (h : c.Counted) (reply : Value) :
    (c.addReply reply).Counted where
  count_eq := by simp [addReply, Sequence.append, h.count_eq]
  sent_eq := by simp [addReply, Sequence.append]

/-- `dropWritten` leaves `unsent`, as many replies as it may drop. -/
theorem unsent_dropWritten (count : Nat) (c : Client) :
    (dropWritten count c).unsent = c.unsent := by
  induction count generalizing c with
  | zero => rfl
  | succ count ih =>
      rw [dropWritten, Sequence.popFirst?]
      cases hitems : c.replies.items with
      | nil => rfl
      | cons head rest =>
          dsimp only
          split
          · rename_i hcomplete
            have hnothing : head.bytes.drop c.sent = [] := List.drop_eq_nil_iff.2 hcomplete
            have hfirst : c.unsent = rest.flatMap Value.bytes := by
              rw [unsent, hitems]
              exact congrArg (· ++ rest.flatMap Value.bytes) hnothing
            rw [ih, hfirst, unsent]
            cases rest <;> simp
          · rfl

/-- `Client.settle` leaves `unsent`. -/
theorem unsent_settle (c : Client) : c.settle.unsent = c.unsent :=
  unsent_dropWritten _ c

/-! ### The attempts of a call -/

/-- A `WriteAttempt` is one call of the socket in the course of a `Client.flush`. -/
structure WriteAttempt where
  /-- The client when the attempt is made. -/
  client : Client
  /-- What the socket answers. -/
  outcome : WriteOutcome

namespace WriteAttempt

/-- What is offered: the first reply from `sent` on. -/
def offered (a : WriteAttempt) : Bytes :=
  (a.client.replies.first?.elim [] Value.bytes).drop a.client.sent

/-- How many bytes the socket says that it has taken. -/
def count (a : WriteAttempt) : Nat :=
  match a.outcome with
  | .accepted count => count
  | _ => 0

/-- What the socket has taken. -/
def taken (a : WriteAttempt) : Bytes :=
  a.offered.take a.count

/-- The client with `a.count` added to `sent`. -/
def after (a : WriteAttempt) : Client :=
  { a.client with sent := a.client.sent + a.count }

/-- `a.Fits`: the socket takes no more than it is offered. -/
def Fits (a : WriteAttempt) : Prop :=
  a.count ≤ a.offered.length

instance (a : WriteAttempt) : Decidable a.Fits :=
  inferInstanceAs (Decidable (a.count ≤ a.offered.length))

/-- Whether the connection turns out to be broken or closed. -/
def breaks (a : WriteAttempt) : Bool :=
  a.outcome == .failed || a.outcome == .accepted 0

/-- Whether the call ends with this attempt: the connection is gone, or the socket has no room. -/
def stops (a : WriteAttempt) : Bool :=
  a.breaks || a.outcome == .wouldBlock

/-- What is `taken` and what is `unsent` after it are what was `unsent` before. -/
theorem taken_append_unsent (a : WriteAttempt) : a.taken ++ a.after.unsent = a.client.unsent := by
  cases hitems : a.client.replies.items with
  | nil => simp [taken, offered, after, unsent, Sequence.first?, hitems]
  | cons head rest =>
      have hsplit : (head.bytes.drop a.client.sent).take a.count ++
          head.bytes.drop (a.client.sent + a.count) = head.bytes.drop a.client.sent := by
        rw [← List.drop_drop, List.take_append_drop]
      simp [taken, offered, after, unsent, Sequence.first?, hitems, ← List.append_assoc, hsplit]

/-- An attempt that `stops` the call writes nothing. -/
theorem count_eq_zero {a : WriteAttempt} (h : a.stops = true) : a.count = 0 := by
  rw [stops, breaks, Bool.or_eq_true, Bool.or_eq_true, beq_iff_eq, beq_iff_eq, beq_iff_eq] at h
  rcases h with (h | h) | h
  · rw [count, h]
  · rw [count, h]
  · rw [count, h]

/-- Where the attempt `Fits`, as many bytes are `taken` as the socket says. -/
theorem length_taken {a : WriteAttempt} (h : a.Fits) : a.taken.length = a.count := by
  rw [taken, List.length_take]
  exact Nat.min_eq_left h

end WriteAttempt

/-- `writeAttempts outcomes c` are the attempts of `c.flush outcomes`. When `outcomes` end, the
socket has no room. -/
def writeAttempts : List WriteOutcome → Client → List WriteAttempt
  | outcomes, c =>
    match c.settle.replies.first?, outcomes with
    | none, _ => []
    | some _, [] => [⟨c.settle, .wouldBlock⟩]
    | some _, outcome :: rest =>
      let a : WriteAttempt := ⟨c.settle, outcome⟩
      a :: if a.stops then [] else writeAttempts rest a.after

/-- `Flushed.after` with nothing taken changes nothing. -/
theorem after_nil (f : Flushed) : f.after [] 0 = f := by
  rw [Flushed.after, Nat.zero_add]
  rfl

/-- `Call c as f`: a call on the client `c` makes the attempts `as` and yields `f`. -/
inductive Call : Client → List WriteAttempt → Flushed → Prop
  /-- There is nothing to write. -/
  | idle {c : Client} (h : c.settle.replies.first? = none) : Call c [] ⟨[], true, 0, c.settle⟩
  /-- The connection is gone, or the socket has no room. -/
  | stop {c : Client} {head : Value} (h : c.settle.replies.first? = some head) {a : WriteAttempt}
      (ha : a.client = c.settle) (hstops : a.stops = true) :
      Call c [a] ⟨[], !a.breaks, 0, c.settle⟩
  /-- The call goes on. -/
  | more {c : Client} {head : Value} (h : c.settle.replies.first? = some head) {a : WriteAttempt}
      (ha : a.client = c.settle) (hstops : a.stops = false) {as : List WriteAttempt} {f : Flushed}
      (hrest : Call a.after as f) : Call c (a :: as) (f.after a.taken a.count)

/-- `Client.flush` is a `Call` with the attempts `writeAttempts`. -/
theorem call_flush (outcomes : List WriteOutcome) (c : Client) :
    Call c (c.writeAttempts outcomes) (c.flush outcomes) := by
  induction outcomes generalizing c with
  | nil =>
      unfold writeAttempts flush
      cases hfirst : c.settle.replies.first? with
      | none => exact .idle hfirst
      | some head => exact .stop (a := ⟨c.settle, .wouldBlock⟩) hfirst rfl rfl
  | cons outcome rest ih =>
      unfold writeAttempts flush
      cases hfirst : c.settle.replies.first? with
      | none => exact .idle hfirst
      | some head =>
          have hrest := ih (WriteAttempt.after ⟨c.settle, outcome⟩)
          cases outcome with
          | wouldBlock => exact .stop (a := ⟨c.settle, .wouldBlock⟩) hfirst rfl rfl
          | failed => exact .stop (a := ⟨c.settle, .failed⟩) hfirst rfl rfl
          | interrupted =>
              have hmore := Call.more (a := ⟨c.settle, .interrupted⟩) hfirst rfl rfl hrest
              rwa [show WriteAttempt.count ⟨c.settle, .interrupted⟩ = 0 from rfl,
                show WriteAttempt.taken ⟨c.settle, .interrupted⟩ = [] from rfl, after_nil] at hmore
          | accepted count =>
              by_cases hcount : count = 0
              · subst hcount
                exact .stop (a := ⟨c.settle, .accepted 0⟩) hfirst rfl rfl
              · have hstops : WriteAttempt.stops ⟨c.settle, .accepted count⟩ = false := by
                  simp [WriteAttempt.stops, WriteAttempt.breaks, hcount]
                have hmore := Call.more (a := ⟨c.settle, .accepted count⟩) hfirst rfl hstops hrest
                simpa [hstops, hcount, WriteAttempt.taken, WriteAttempt.offered, WriteAttempt.count,
                  WriteAttempt.after, hfirst] using hmore

/-! ### One call -/

/-- What the socket takes in some attempts. -/
def takenIn (as : List WriteAttempt) : Bytes :=
  as.flatMap WriteAttempt.taken

namespace Call

variable {c : Client} {as : List WriteAttempt} {f : Flushed}

/-- `f.taken` is what the socket takes in the attempts. -/
theorem taken_eq (h : Call c as f) : f.taken = takenIn as := by
  induction h with
  | idle => rfl
  | stop _ _ hstops =>
      rw [takenIn, List.flatMap_singleton, WriteAttempt.taken, WriteAttempt.count_eq_zero hstops]
      rfl
  | more _ _ _ _ ih => exact congrArg (_ ++ ·) ih

/-- What a call writes and what is `unsent` then are what was `unsent` before. -/
theorem taken_append_unsent (h : Call c as f) : f.taken ++ f.client.unsent = c.unsent := by
  induction h with
  | @idle c _ => exact unsent_settle c
  | @stop c _ _ _ _ _ => exact unsent_settle c
  | @more c _ _ a ha _ _ f _ ih =>
      change (a.taken ++ f.taken) ++ f.client.unsent = c.unsent
      rw [List.append_assoc, ih, a.taken_append_unsent, ha, unsent_settle]

/-- At each attempt, `takenIn` those before it and what is `unsent` are what was `unsent` before the
call. -/
theorem takenIn_append_unsent (h : Call c as f) {front back : List WriteAttempt} {a : WriteAttempt}
    (has : as = front ++ a :: back) : takenIn front ++ a.client.unsent = c.unsent := by
  induction h generalizing front with
  | idle => exact absurd has.symm (by simp)
  | @stop c _ _ b hb _ =>
      cases front with
      | nil =>
          obtain ⟨rfl, -⟩ := List.cons.inj has
          rw [hb]
          exact unsent_settle c
      | cons b' front => exact absurd (List.cons.inj has).2.symm (by simp)
  | @more c _ _ b hb _ as f _ ih =>
      cases front with
      | nil =>
          obtain ⟨rfl, -⟩ := List.cons.inj has
          rw [hb]
          exact unsent_settle c
      | cons b' front =>
          obtain ⟨rfl, hrest⟩ := List.cons.inj has
          rw [takenIn, List.flatMap_cons, List.append_assoc]
          change b.taken ++ (takenIn front ++ a.client.unsent) = c.unsent
          rw [ih hrest, b.taken_append_unsent, hb, unsent_settle]

/-- `f.written` is the length of `f.taken` where all attempts fit. -/
theorem written_eq (h : Call c as f) (hfits : ∀ a ∈ as, a.Fits) : f.written = f.taken.length := by
  induction h with
  | idle => rfl
  | stop => rfl
  | @more _ _ _ a _ _ _ f _ ih =>
      have ha := hfits a List.mem_cons_self
      have hrest := ih fun b hb => hfits b (List.mem_cons_of_mem a hb)
      change a.count + f.written = (a.taken ++ f.taken).length
      rw [List.length_append, WriteAttempt.length_taken ha, hrest]

/-- `f.isOpen` where no attempt `breaks` the connection. -/
theorem isOpen_eq (h : Call c as f) (hbreaks : ∀ a ∈ as, a.breaks = false) : f.isOpen = true := by
  induction h with
  | idle => rfl
  | stop => simp [hbreaks]
  | @more _ _ _ a _ _ _ _ _ ih => exact ih fun b hb => hbreaks b (List.mem_cons_of_mem a hb)

/-- No reply is left where no attempt `stops` the call. -/
theorem items_eq_nil (h : Call c as f) (hstops : ∀ a ∈ as, a.stops = false) :
    f.client.replies.items = [] := by
  induction h with
  | idle h => exact List.head?_eq_none_iff.1 h
  | @stop _ _ _ a _ ha =>
      have hnot := hstops a List.mem_cons_self
      rw [ha] at hnot
      cases hnot
  | @more _ _ _ a _ _ _ _ _ ih => exact ih fun b hb => hstops b (List.mem_cons_of_mem a hb)

/-- `WriteAttempt.after` keeps `Counted`. -/
theorem counted_after {a : WriteAttempt} {head : Value} (h : a.client.Counted)
    (hfirst : a.client.replies.first? = some head) : a.after.Counted where
  count_eq := h.count_eq
  sent_eq := by
    intro hnil
    rw [Sequence.first?, show a.client.replies.items = [] from hnil] at hfirst
    cases hfirst

/-- Each attempt offers bytes. -/
theorem offered_ne_nil (h : Call c as f) (hc : c.Counted) : ∀ a ∈ as, a.offered ≠ [] := by
  have hoffered : ∀ {c : Client} {head : Value} {a : WriteAttempt}, c.Counted →
      c.settle.replies.first? = some head → a.client = c.settle → a.offered ≠ [] := by
    intro c head a hc hfirst ha hnil
    have hlt := (steady_settle hc).sent_lt head hfirst
    rw [WriteAttempt.offered, ha, hfirst, List.drop_eq_nil_iff] at hnil
    exact absurd hlt (Nat.not_lt.2 hnil)
  induction h with
  | idle => exact nofun
  | stop hfirst ha _ =>
      intro b hb
      obtain rfl := List.mem_singleton.1 hb
      exact hoffered hc hfirst ha
  | @more c _ hfirst a ha _ as f _ ih =>
      intro b hb
      rcases List.mem_cons.1 hb with rfl | hb
      · exact hoffered hc hfirst ha
      · have hsettle : a.client.Counted := by
          rw [ha]
          exact (steady_settle hc).toCounted
        rw [← ha] at hfirst
        exact ih (counted_after hsettle hfirst) b hb

end Call

/-! ### Sequences of calls -/

/-- A `ReplyCall` on a client is `Client.addReply` or `Client.flush`. -/
inductive ReplyCall
  /-- Queues `reply`. -/
  | add (reply : Value)
  /-- Writes replies, the socket answering `outcomes`. -/
  | write (outcomes : List WriteOutcome)

/-- The reply that a call queues. -/
def ReplyCall.reply? : ReplyCall → Option Value
  | add reply => some reply
  | write _ => none

/-- `run calls c` makes the calls one after the other: what the socket has taken, and the client
afterwards. -/
def run : List ReplyCall → Client → Bytes × Client
  | [], c => ([], c)
  | .add reply :: rest, c => run rest (c.addReply reply)
  | .write outcomes :: rest, c =>
    let later := run rest (c.flush outcomes).client
    ((c.flush outcomes).taken ++ later.1, later.2)

/-- All bytes of the replies that calls queue, in order. -/
def queuedBytes (calls : List ReplyCall) : Bytes :=
  (calls.filterMap ReplyCall.reply?).flatMap Value.bytes

/-- `run` conserves the bytes and keeps `Counted`. -/
theorem taken_append_unsent_run (calls : List ReplyCall) {c : Client} (h : c.Counted) :
    (run calls c).1 ++ (run calls c).2.unsent = c.unsent ++ queuedBytes calls ∧
      (run calls c).2.Counted := by
  induction calls generalizing c with
  | nil => exact ⟨(List.append_nil _).symm, h⟩
  | cons call rest ih =>
      cases call with
      | add reply =>
          obtain ⟨hrest, hcounted⟩ := ih (counted_addReply h reply)
          refine ⟨?_, hcounted⟩
          rw [run, hrest, unsent_addReply h, List.append_assoc]
          rfl
      | write outcomes =>
          obtain ⟨hrest, hcounted⟩ := ih (steady_flush outcomes h).toCounted
          refine ⟨?_, hcounted⟩
          dsimp only [run]
          rw [List.append_assoc, hrest, ← List.append_assoc,
            (call_flush outcomes c).taken_append_unsent]
          rfl

/-- **Reply bytes are neither lost, repeated nor reordered.** After `run calls` on a new client, and
then in the course of one more `Client.flush`:

* what the socket has taken, followed by `unsent`, is `queuedBytes calls`, all that was ever queued,
  in order; so it is before each attempt of the call, after it, while complete replies are dropped,
  and at the end;
* each attempt offers bytes, so replies without bytes are passed over; and what the call writes is
  what the socket takes in its attempts;
* if each attempt `Fits`, the call reports what it has written;
* if no attempt `breaks` the connection, it stands; and if none `stops` the call, no reply is left;
* `sent` is zero when the queue is empty. -/
theorem run_conserves (calls : List ReplyCall) (outcomes : List WriteOutcome) :
    ∃ taken c f, run calls fresh = (taken, c) ∧ c.flush outcomes = f ∧
      taken ++ c.unsent = queuedBytes calls ∧
      (∀ front a back, c.writeAttempts outcomes = front ++ a :: back →
        taken ++ takenIn front ++ a.client.unsent = queuedBytes calls ∧
          ∀ count, taken ++ takenIn (front ++ [a]) ++ (dropWritten count a.after).unsent =
            queuedBytes calls) ∧
      taken ++ f.taken ++ f.client.unsent = queuedBytes calls ∧
      (∀ a ∈ c.writeAttempts outcomes, a.offered ≠ []) ∧
      f.taken = takenIn (c.writeAttempts outcomes) ∧
      ((∀ a ∈ c.writeAttempts outcomes, a.Fits) → f.written = f.taken.length) ∧
      ((∀ a ∈ c.writeAttempts outcomes, a.breaks = false) → f.isOpen = true) ∧
      ((∀ a ∈ c.writeAttempts outcomes, a.stops = false) →
        f.client.replies.items = [] ∧ f.client.replies.isEmpty = true) ∧
      (f.client.replies.isEmpty = true → f.client.sent = 0) := by
  obtain ⟨hall, hcounted⟩ := taken_append_unsent_run calls steady_fresh.toCounted
  have hcall := call_flush outcomes (run calls fresh).2
  have hafter := (steady_flush outcomes hcounted).toCounted
  refine ⟨_, _, _, rfl, rfl, hall, fun front a back has => ⟨?_, fun count => ?_⟩, ?_,
    hcall.offered_ne_nil hcounted, hcall.taken_eq, hcall.written_eq, hcall.isOpen_eq,
    fun hstops => ?_, fun hempty => ?_⟩
  · rw [List.append_assoc, hcall.takenIn_append_unsent has]
    exact hall
  · have hattempt : takenIn (front ++ [a]) ++ a.after.unsent = (run calls fresh).2.unsent := by
      rw [takenIn, List.flatMap_append, List.flatMap_singleton, List.append_assoc,
        a.taken_append_unsent]
      exact hcall.takenIn_append_unsent has
    rw [unsent_dropWritten, List.append_assoc, hattempt]
    exact hall
  · rw [List.append_assoc, hcall.taken_append_unsent]
    exact hall
  · have hnil := hcall.items_eq_nil hstops
    refine ⟨hnil, ?_⟩
    rw [Sequence.isEmpty, hafter.count_eq, hnil]
    rfl
  · refine hafter.sent_eq (List.length_eq_zero_iff.1 ?_)
    rw [← hafter.count_eq]
    exact eq_of_beq hempty

/-- A client whose first reply has been written in part, with two replies without bytes behind
it. -/
def halfWritten : Client :=
  ⟨Decoder.fresh, ⟨[.str [1, 2], .int 7, .str [], .str [3]], 4⟩, 1⟩

/-- `flush` goes on where it has stopped, and passes over the replies without bytes. -/
theorem run_conserves_halfWritten :
    run [.add (.str [1, 2]), .write [.accepted 1], .add (.int 7), .add (.str []),
        .add (.str [3])] fresh = ([1], halfWritten) ∧
      (∀ a ∈ halfWritten.writeAttempts [.interrupted, .accepted 1, .accepted 1],
        a.Fits ∧ a.stops = false) ∧
      (halfWritten.flush [.interrupted, .accepted 1, .accepted 1]).taken = [2, 3] ∧
      (halfWritten.flush [.interrupted, .accepted 1, .accepted 1]).written = 2 ∧
      (halfWritten.flush [.interrupted, .accepted 1, .accepted 1]).client.replies.items = [] := by
  have hgoes : ∀ a ∈ halfWritten.writeAttempts [.interrupted, .accepted 1, .accepted 1],
      a.Fits ∧ a.stops = false := by decide
  obtain ⟨taken, c, f, hrun, hflush, -, -, -, -, htaken, hwritten, -, hdrained, -⟩ :=
    run_conserves [.add (.str [1, 2]), .write [.accepted 1], .add (.int 7), .add (.str []),
      .add (.str [3])] [.interrupted, .accepted 1, .accepted 1]
  obtain ⟨rfl, rfl⟩ : [1] = taken ∧ halfWritten = c := Prod.mk.inj hrun
  subst hflush
  have hbytes : (halfWritten.flush [.interrupted, .accepted 1, .accepted 1]).taken = [2, 3] :=
    htaken.trans rfl
  refine ⟨hrun, hgoes, hbytes, ?_, (hdrained fun a ha => (hgoes a ha).2).1⟩
  rw [hwritten fun a ha => (hgoes a ha).1, hbytes]
  rfl

end Client

end KeyValueServer
