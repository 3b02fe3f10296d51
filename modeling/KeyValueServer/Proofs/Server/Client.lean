import KeyValueServer.Server.Client

/-!
# Writing to a client

`Client.flush` takes replies from the front of the queue and leaves the others in their order
(`Client.Wrote`). What has been read of the requests is not touched. Between one attempt and the
next, `sent` is less than the length of the first reply (`Client.Steady`): a reply that is complete
has left the queue, and no reply is without bytes.

## Main results

* `Client.wrote_flush`: `Client.Wrote` is all that `Client.flush` does.
* `Client.steady_addReply`, `Client.steady_flush`: the first reply always has bytes left to write.
-/

namespace KeyValueServer

namespace Client

/-- `c.Wrote c'`: the client `c'` is `c` after the first of its replies have been written. -/
structure Wrote (c c' : Client) : Prop where
  decoder_eq : c'.decoder = c.decoder
  suffix : c'.replies.items <:+ c.replies.items

/-- `Wrote` is reflexive: nothing need be written. -/
theorem Wrote.refl (c : Client) : c.Wrote c := ⟨rfl, List.suffix_rfl⟩

/-- `Wrote` is transitive. -/
theorem Wrote.trans {c c' c'' : Client} (h : c.Wrote c') (h' : c'.Wrote c'') : c.Wrote c'' :=
  ⟨h'.decoder_eq.trans h.decoder_eq, h'.suffix.trans h.suffix⟩

/-- `Wrote` does not depend on `sent`, how much of the first reply has been written. -/
theorem Wrote.of_sent {c c' : Client} (sent : Nat)
    (h : ({ c with sent := sent } : Client).Wrote c') : c.Wrote c' := ⟨h.decoder_eq, h.suffix⟩

/-- `dropWritten` leaves the last of the replies. -/
theorem wrote_dropWritten (count : Nat) (c : Client) : c.Wrote (dropWritten count c) := by
  induction count generalizing c with
  | zero => exact .refl c
  | succ count ih =>
      rw [dropWritten, Sequence.popFirst?]
      cases hitems : c.replies.items with
      | nil => exact .refl c
      | cons head rest =>
          dsimp only
          split
          · have hrest := ih { c with replies := ⟨rest, c.replies.count - 1⟩, sent := 0 }
            refine ⟨hrest.decoder_eq, hrest.suffix.trans ?_⟩
            rw [hitems]
            exact List.suffix_cons head rest
          · exact .refl c

/-- `Client.settle` leaves the last of the replies. -/
theorem wrote_settle (c : Client) : c.Wrote c.settle :=
  wrote_dropWritten _ c

/-- **`Client.flush`** takes replies from the front of the queue, and does nothing else. -/
theorem wrote_flush (outcomes : List WriteOutcome) (c : Client) :
    c.Wrote (c.flush outcomes).client := by
  have hsettle := c.wrote_settle
  induction outcomes generalizing c with
  | nil =>
      unfold flush
      cases c.settle.replies.first? <;> exact hsettle
  | cons outcome rest ih =>
      unfold flush
      cases c.settle.replies.first? with
      | none => exact hsettle
      | some head =>
          cases outcome with
          | wouldBlock => exact hsettle
          | failed => exact hsettle
          | interrupted => exact hsettle.trans (ih c.settle (wrote_settle _))
          | accepted count =>
              by_cases hcount : count = 0
              · simp only [hcount, if_true]
                exact hsettle
              · simp only [hcount, if_false]
                exact hsettle.trans (.of_sent _ (ih _ (wrote_settle _)))

/-! ### What is left of the first reply -/

/-- `c.Counted`: the queue knows its length, and `sent` is zero when it is empty. -/
structure Counted (c : Client) : Prop where
  count_eq : c.replies.count = c.replies.items.length
  sent_eq : c.replies.items = [] → c.sent = 0

/-- `c.Steady`: besides, the first reply has bytes left to write. So it is between two attempts to
write. -/
structure Steady (c : Client) : Prop extends c.Counted where
  sent_lt : ∀ head, c.replies.first? = some head → c.sent < head.bytes.length

/-- `Client.fresh` has nothing to write. -/
theorem steady_fresh : fresh.Steady where
  count_eq := rfl
  sent_eq := fun _ => rfl
  sent_lt := by rintro head ⟨⟩

/-- `addReply` of a reply with bytes keeps `Steady`. -/
theorem steady_addReply {c : Client} (h : c.Steady) {reply : Value} (hreply : reply.bytes ≠ []) :
    (c.addReply reply).Steady where
  count_eq := by simp [addReply, Sequence.append, h.count_eq]
  sent_eq := by simp [addReply, Sequence.append]
  sent_lt := by
    intro head hhead
    cases hitems : c.replies.items with
    | nil =>
        obtain rfl : reply = head := by
          simpa [addReply, Sequence.append, Sequence.first?, hitems] using hhead
        have hsent := h.sent_eq hitems
        have hpos := List.length_pos_iff.2 hreply
        change c.sent < _
        omega
    | cons first rest =>
        obtain rfl : first = head := by
          simpa [addReply, Sequence.append, Sequence.first?, hitems] using hhead
        exact h.sent_lt first (by rw [Sequence.first?, hitems]; rfl)

/-- `dropWritten` with a bound that reaches leaves a client that is `Steady`. -/
theorem steady_dropWritten {count : Nat} {c : Client} (h : c.Counted)
    (hcount : c.replies.items.length ≤ count) : (dropWritten count c).Steady := by
  induction count generalizing c with
  | zero =>
      have hnil : c.replies.items = [] := List.length_eq_zero_iff.1 (by omega)
      refine ⟨h, fun head hhead => ?_⟩
      rw [dropWritten, Sequence.first?, hnil] at hhead
      cases hhead
  | succ count ih =>
      rw [dropWritten, Sequence.popFirst?]
      cases hitems : c.replies.items with
      | nil =>
          refine ⟨h, fun head hhead => ?_⟩
          rw [Sequence.first?, hitems] at hhead
          cases hhead
      | cons head rest =>
          have hlength := h.count_eq
          rw [hitems, List.length_cons] at hlength
          rw [hitems, List.length_cons] at hcount
          dsimp only
          split
          · refine ih ⟨?_, fun _ => rfl⟩ (Nat.le_of_succ_le_succ hcount)
            change c.replies.count - 1 = rest.length
            omega
          · rename_i hleft
            refine ⟨h, fun head' hhead' => ?_⟩
            rw [Sequence.first?, hitems] at hhead'
            obtain rfl := Option.some.inj hhead'
            omega

/-- `Client.settle` leaves a client that is `Steady`. -/
theorem steady_settle {c : Client} (h : c.Counted) : c.settle.Steady :=
  steady_dropWritten h (Nat.le_refl _)

/-- **`Client.flush` leaves a client that is `Steady`**: its first reply has bytes left to write, if
there is one. -/
theorem steady_flush (outcomes : List WriteOutcome) {c : Client} (h : c.Counted) :
    (c.flush outcomes).client.Steady := by
  have hsettle := steady_settle h
  induction outcomes generalizing c with
  | nil =>
      unfold flush
      cases c.settle.replies.first? <;> exact hsettle
  | cons outcome rest ih =>
      unfold flush
      cases hfirst : c.settle.replies.first? with
      | none => exact hsettle
      | some head =>
          cases outcome with
          | wouldBlock => exact hsettle
          | failed => exact hsettle
          | interrupted => exact ih hsettle.toCounted (steady_settle hsettle.toCounted)
          | accepted count =>
              by_cases hcount : count = 0
              · simp only [hcount, if_true]
                exact hsettle
              · have htaken :
                    ({ c.settle with sent := c.settle.sent + count } : Client).Counted := by
                  refine ⟨hsettle.count_eq, fun hnil => ?_⟩
                  rw [Sequence.first?, show c.settle.replies.items = [] from hnil] at hfirst
                  cases hfirst
                simp only [hcount, if_false]
                exact ih htaken (steady_settle htaken)

end Client

/-- `Reply.encode` is never empty. -/
theorem Reply.encode_ne_nil (reply : Reply) : reply.encode ≠ [] := by
  have hdollar : Bytes.ofText "$" = [36] := by decide
  have herr : Bytes.ofText "-ERR: " = [45, 69, 82, 82, 58, 32] := by decide
  cases reply with
  | done => decide
  | nil => decide
  | bulk value => simp [encode, hdollar]
  | refused error => simp [encode, herr]

end KeyValueServer
