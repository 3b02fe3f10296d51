import KeyValueServer.Proofs.Checked
import KeyValueServer.Proofs.Request.Reads

/-!
# The decoder reads step by step

`Decoder.parse` is a number of steps of `Decoder.reading`, and `Decoder.drain` is reading until a
step stops. Neither ever faults where the reading is `Reading.Sound`: a request in bulk form that
awaits its header line has the byte that opens it among the bytes that wait.

## Main results

* `Decoder.parse_ok`: `Decoder.parse` comes to what `Decoder.Parses` says.
* `Decoder.drain_ok`: `Decoder.drain` comes to what `Reading.Reads` says.
-/

namespace KeyValueServer

namespace Decoder

open Reading

/-! ### What a decoder has read -/

/-- `d.reading` is what the decoder `d` has read, and the bytes that wait. -/
def reading (d : Decoder) : Reading := ⟨d.pending.live, d.args, d.form, d.awaited, d.length?⟩

variable {d d' : Decoder} {r r₁ : Reading} {progress : Progress}

/-- The reading of `Decoder.fresh`. -/
@[simp]
theorem reading_fresh : fresh.reading = before [] := by
  rw [reading, fresh, ByteQueue.live_ofCapacity]
  rfl

/-- The reading after `Decoder.feed`. -/
@[simp]
theorem reading_feed (d : Decoder) (bytes : Bytes) :
    (d.feed bytes).reading = d.reading.feed bytes := by
  rw [reading, feed, ByteQueue.live_append]
  rfl

/-- The reading after `Decoder.reset`. -/
@[simp]
theorem reading_reset (d : Decoder) : d.reset.reading = before d.pending.live := rfl

/-- `Parses r progress d'`: from the reading `r`, an attempt comes to `progress` and leaves the
decoder `d'`. -/
inductive Parses : Reading → Progress → Decoder → Prop
  | needMore {r : Reading} {d' : Decoder} (h : Reads r [] none d'.reading) : Parses r .needMore d'
  | malformed {r : Reading} {e : ProtocolError} {d' : Decoder}
      (h : Reads r [] (some e) d'.reading) : Parses r (.malformed e) d'
  | ready {r m : Reading} {d' : Decoder} (hs : Steps r [] m)
      (hstep : m.step = .go (some d'.args) d'.reset.reading) : Parses r .ready d'

namespace Parses

/-- `Parses` with a step in front that completes no request. -/
theorem of_step (hstep : r.step = .go none r₁) (h : Parses r₁ progress d') :
    Parses r progress d' := by
  have hs : Steps r [] r₁ := .go hstep .refl
  cases h with
  | needMore h => exact .needMore (Reads.of_steps hs h)
  | malformed h => exact .malformed (Reads.of_steps hs h)
  | ready hs' hgo => exact .ready (hs.trans hs') hgo

/-- `Parses` does not depend on whether the form is settled. -/
theorem of_settle (h : Parses r.settle progress d') : Parses r progress d' := by
  cases h with
  | needMore h => exact .needMore (Reads.of_settle_eq (settle_settle r) h)
  | malformed h => exact .malformed (Reads.of_settle_eq (settle_settle r) h)
  | ready hs hgo =>
      obtain ⟨m, hs', hm⟩ := hs.of_settle_eq (settle_settle r)
      rw [step_eq_of_settle_eq hm] at hgo
      exact .ready hs' hgo

/-- `Parses` where the first step stops for lack of bytes. -/
theorem needMore_of_stop (hform : d.form ≠ .unknown) (h : d.reading.step = .stop none) :
    Parses d.reading .needMore d := by
  refine .needMore ?_
  have hreads := Reads.of_stop h
  rwa [settle_eq_self hform] at hreads

/-- `Parses` where the first step stops at an error. -/
theorem malformed_of_stop {e : ProtocolError} (hform : d.form ≠ .unknown)
    (h : d.reading.step = .stop (some e)) : Parses d.reading (.malformed e) d := by
  refine .malformed ?_
  have hreads := Reads.of_stop h
  rwa [settle_eq_self hform] at hreads

end Parses

/-! ### Attempts -/

/-- `Decoder.headerEnd` is `Reading.headerEnd` of `pending.live`. -/
theorem headerEnd_eq (d : Decoder) :
    d.headerEnd =
      match Reading.headerEnd d.pending.live with
      | .ok k => .ok (some k)
      | .error (some e) => .error e
      | .error none => .ok none := by
  rw [headerEnd, Reading.headerEnd, ByteQueue.crlfOffset?_eq, ByteQueue.length_live]
  cases Bytes.crlfIndex d.pending.live with
  | some k => rfl
  | none => by_cases hlong : Limit.header < d.pending.size <;> simp [hlong]

/-- Where a `LineAt` waits, its line end and its first byte are found. -/
theorem exists_headerLine {taken later : Bytes} {k : Nat} (hlive : d.pending.live = taken ++ later)
    (hline : LineAt taken k) :
    Bytes.crlfIndex d.pending.live = some k ∧ Reading.headerEnd d.pending.live = .ok k ∧
      d.pending.live.head? = some (d.pending.live.headD 0) := by
  have hcrlf := hline.crlfIndex_append later
  rw [← hlive] at hcrlf
  have hle := Bytes.add_two_le_of_crlfIndex hcrlf
  refine ⟨hcrlf, by rw [Reading.headerEnd, hcrlf], ?_⟩
  cases hwaiting : d.pending.live with
  | nil =>
      rw [hwaiting] at hle
      cases hle
  | cons first rest => rfl

/-- `slice` of what follows the first byte of a header line, where that byte is no part of a line
end. -/
theorem slice_headerLine {first : UInt8} {k : Nat}
    (hcrlf : Bytes.crlfIndex d.pending.live = some k) (hfirst : d.pending.live.head? = some first)
    (hne : first ≠ Bytes.carriageReturn) :
    d.pending.slice 1 k = .ok ((d.pending.live.drop 1).take (k - 1)) := by
  have hle := Bytes.add_two_le_of_crlfIndex hcrlf
  have hpos : 1 ≤ k := by
    refine Nat.one_le_iff_ne_zero.2 ?_
    rintro rfl
    rw [Bytes.head?_of_crlfIndex_zero hcrlf] at hfirst
    cases hfirst
    exact hne rfl
  exact d.pending.slice_ok hpos (by omega)

/-- `Form.bulk` is not `Form.unknown`. -/
theorem form_ne_unknown_of_bulk (hform : d.form = .bulk) : d.form ≠ .unknown := by
  rw [hform]
  exact nofun

/-- **`Decoder.parseInline`** does not fault and `Parses`. -/
theorem parseInline_ok (hform : d.form = .inline) :
    ∃ progress d', d.parseInline = .ok (progress, d') ∧ Parses d.reading progress d' := by
  have hknown : d.form ≠ .unknown := by
    rw [hform]
    exact nofun
  have hstep : d.reading.step = d.reading.stepInline :=
    (step_eq_stepSettled hknown).trans (stepSettled_of_inline hform)
  cases hcrlf : Bytes.crlfIndex d.pending.live with
  | none =>
      refine ⟨.needMore, d, ?_, .needMore_of_stop hknown ?_⟩
      · rw [parseInline, ByteQueue.crlfOffset?_eq, hcrlf]
      · rw [hstep, stepInline]
        simp only [reading, hcrlf]
  | some k =>
      have hle := Bytes.add_two_le_of_crlfIndex hcrlf
      obtain ⟨pending, hconsume, hlive⟩ := d.pending.consume_ok hle
      have hslice := d.pending.slice_ok (Nat.zero_le k) (Nat.le_trans (Nat.le_add_right k 2) hle)
      refine ⟨.ready, { d with pending := pending, args := words (d.pending.live.take k) }, ?_,
        .ready .refl ?_⟩
      · rw [parseInline, ByteQueue.crlfOffset?_eq, hcrlf]
        simp only [hslice, hconsume, Checked.ok_bind, List.drop_zero, Nat.sub_zero]
      · rw [hstep, stepInline, reading_reset]
        simp only [reading, hcrlf, hlive]

/-- **`Decoder.nextLength`** ends the attempt, or gives a length with which the attempt goes on. -/
theorem nextLength_ok (hform : d.form = .bulk) (hawaited : d.awaited ≠ 0) :
    (∃ progress, d.nextLength = .ok (.error progress) ∧ Parses d.reading progress d) ∨
      ∃ length d₁, d.nextLength = .ok (.ok (length, d₁)) ∧ d₁.form = .bulk ∧
        d₁.awaited = d.awaited ∧ d₁.length? = some length ∧
        ∀ progress d', Parses d₁.reading progress d' → Parses d.reading progress d' := by
  have hknown := form_ne_unknown_of_bulk hform
  cases hlength : d.length? with
  | some length =>
      refine .inr ⟨length, d, ?_, hform, rfl, hlength, fun _ _ h => h⟩
      rw [nextLength, hlength]
  | none =>
      have hstep : d.reading.step = d.reading.stepLength :=
        (step_eq_stepSettled hknown).trans (stepSettled_of_length hform hawaited hlength)
      rcases headerEnd_cases d.pending.live with hnone | ⟨hlong, -⟩ |
        ⟨k, taken, later, hlive, hline⟩
      · refine .inl ⟨.needMore, ?_, .needMore_of_stop hknown ?_⟩
        · rw [nextLength, hlength, headerEnd_eq, hnone]
        · rw [hstep, stepLength]
          simp only [reading, hnone]
      · refine .inl ⟨.malformed (.headerTooLong d.pending.live.length), ?_,
          .malformed_of_stop hknown ?_⟩
        · rw [nextLength, hlength, headerEnd_eq, hlong]
        · rw [hstep, stepLength]
          simp only [reading, hlong]
      · obtain ⟨hcrlf, hheader, hhead⟩ := exists_headerLine hlive hline
        have hget : d.pending.get? 0 = some (d.pending.live.headD 0) := by
          rw [ByteQueue.get?_eq, ← hhead, List.head?_eq_getElem?]
        rw [nextLength, hlength, headerEnd_eq, hheader]
        simp only [hget, Checked.orFault, Checked.ok_bind]
        by_cases hfirst : d.pending.live.headD 0 = dollar
        · rw [hfirst] at hhead
          rw [if_neg (not_not_intro hfirst), slice_headerLine hcrlf hhead (by decide),
            Checked.ok_bind]
          cases hnumber : announced .payload ((d.pending.live.drop 1).take (k - 1)) with
          | error e =>
              refine .inl ⟨.malformed e, rfl, .malformed_of_stop hknown ?_⟩
              rw [hstep, stepLength]
              simp only [reading, hheader, hfirst, if_true, hnumber]
          | ok length =>
              by_cases hlimit : Limit.bulk < length
              · refine .inl ⟨.malformed (.bulkTooLong length), if_pos hlimit,
                  .malformed_of_stop hknown ?_⟩
                rw [hstep, stepLength]
                simp only [reading, hheader, hfirst, if_true, hnumber, hlimit]
              · obtain ⟨pending, hconsume, hleft⟩ :=
                  d.pending.consume_ok (Bytes.add_two_le_of_crlfIndex hcrlf)
                refine .inr ⟨length, { d with pending := pending, length? := some length }, ?_,
                  hform, rfl, rfl, fun _ _ => .of_step ?_⟩
                · simp only [if_neg hlimit, hconsume, Checked.ok_bind]
                · rw [hstep, stepLength]
                  simp only [reading, hheader, hfirst, if_true, hnumber, hlimit, if_false, hleft]
        · refine .inl ⟨_, if_pos hfirst, .malformed_of_stop hknown ?_⟩
          rw [hstep, stepLength]
          simp only [reading, hheader, hfirst, if_false]

/-- **The payload**, once its length is known: the attempt ends there, or one argument more has been
read and fewer are awaited. -/
theorem payload_cases {length n : Nat} (hform : d.form = .bulk) (hawaited : d.awaited = n + 1)
    (hlength : d.length? = some length) :
    (d.pending.size < length + 2 ∧ Parses d.reading .needMore d) ∨
      (¬ d.pending.size < length + 2 ∧ ∃ terminator,
        d.pending.slice length (length + 2) = .ok terminator ∧
        ((terminator ≠ Bytes.crlf ∧ Parses d.reading (.malformed .expectedCrlf) d) ∨
          (terminator = Bytes.crlf ∧ ∃ argument pending,
            d.pending.slice 0 length = .ok argument ∧ d.pending.consume (length + 2) = .ok pending ∧
            d.reading.step =
              if n = 0 then .go (some (d.args ++ [argument])) (before pending.live)
              else .go none ⟨pending.live, d.args ++ [argument], .bulk, n, none⟩))) := by
  have hknown := form_ne_unknown_of_bulk hform
  have hnonzero : d.reading.awaited ≠ 0 := by
    rw [reading, hawaited]
    exact Nat.add_one_ne_zero n
  have hstep : d.reading.step = d.reading.stepPayload length :=
    (step_eq_stepSettled hknown).trans (stepSettled_of_payload hform hnonzero hlength)
  rw [← ByteQueue.length_live]
  by_cases hshort : d.pending.live.length < length + 2
  · refine .inl ⟨hshort, .needMore_of_stop hknown ?_⟩
    rw [hstep, stepPayload]
    exact if_pos hshort
  · have hterminator := d.pending.slice_ok (Nat.le_add_right length 2) (Nat.le_of_not_lt hshort)
    rw [Nat.add_sub_cancel_left] at hterminator
    refine .inr ⟨hshort, _, hterminator, ?_⟩
    have hreach : d.reading.step =
        if (d.pending.live.drop length).take 2 = Bytes.crlf then
          if n = 0 then .go (some (d.args ++ [d.pending.live.take length]))
            (before (d.pending.live.drop (length + 2)))
          else .go none ⟨d.pending.live.drop (length + 2), d.args ++ [d.pending.live.take length],
            .bulk, n, none⟩
        else .stop (some .expectedCrlf) := by
      rw [hstep, stepPayload]
      simp only [reading, hawaited, hform, hshort, if_false, Nat.add_eq_right, Nat.add_sub_cancel]
    by_cases hcrlf : (d.pending.live.drop length).take 2 = Bytes.crlf
    · rw [if_pos hcrlf] at hreach
      have hargument := d.pending.slice_ok (Nat.zero_le length) (by omega)
      rw [Nat.sub_zero, List.drop_zero] at hargument
      obtain ⟨pending, hconsume, hleft⟩ := d.pending.consume_ok (Nat.le_of_not_lt hshort)
      refine .inr ⟨hcrlf, _, pending, hargument, hconsume, ?_⟩
      rw [hreach, hleft]
    · rw [if_neg hcrlf] at hreach
      exact .inl ⟨hcrlf, .malformed_of_stop hknown hreach⟩

/-- `Decoder.parseArguments` reads one argument more, and then the rest. -/
theorem parseArguments_of_rest {n : Nat} (hform : d.form = .bulk) (hawaited : d.awaited = n + 1)
    (hrest : n ≠ 0 → ∀ d₁ : Decoder, d₁.form = .bulk → d₁.awaited = n →
      ∃ progress d', parseArguments n d₁ = .ok (progress, d') ∧ Parses d₁.reading progress d') :
    ∃ progress d', parseArguments (n + 1) d = .ok (progress, d') ∧
      Parses d.reading progress d' := by
  have hnonzero : d.awaited ≠ 0 := by
    rw [hawaited]
    exact Nat.add_one_ne_zero n
  rcases nextLength_ok hform hnonzero with
    ⟨progress, hnext, hparses⟩ | ⟨length, d₁, hnext, hform₁, hawaited₁, hlength₁, hfrom⟩
  · exact ⟨progress, d, by rw [parseArguments, hnext]; rfl, hparses⟩
  · rw [hawaited] at hawaited₁
    rw [parseArguments, hnext, Checked.ok_bind]
    rcases payload_cases hform₁ hawaited₁ hlength₁ with ⟨hshort, hparses⟩ |
      ⟨hreach, terminator, hterminator, ⟨hne, hparses⟩ |
        ⟨hcrlf, argument, pending, hargument, hconsume, hstep⟩⟩
    · exact ⟨.needMore, d₁, if_pos hshort, hfrom _ _ hparses⟩
    · refine ⟨.malformed .expectedCrlf, d₁, ?_, hfrom _ _ hparses⟩
      simp only [hreach, if_false, hterminator, Checked.ok_bind]
      exact if_pos hne
    · simp only [hreach, if_false, hterminator, Checked.ok_bind, hcrlf, ne_eq, not_true_eq_false,
        hargument, hconsume]
      by_cases hlast : n = 0
      · rw [if_pos hlast] at hstep
        subst hlast
        exact ⟨.ready, _, rfl, hfrom _ _ (.ready .refl hstep)⟩
      · rw [if_neg hlast] at hstep
        obtain ⟨progress, d', hparse, hparses⟩ := hrest hlast
          { d₁ with
            pending := pending
            args := d₁.args ++ [argument]
            awaited := n
            length? := none } hform₁ rfl
        refine ⟨progress, d', hparse, hfrom _ _ (.of_step hstep ?_)⟩
        rw [reading, hform₁] at hparses
        exact hparses

/-- **`Decoder.parseArguments`** does not fault and `Parses`. -/
theorem parseArguments_ok (n : Nat) (hform : d.form = .bulk) (hawaited : d.awaited = n + 1) :
    ∃ progress d', parseArguments (n + 1) d = .ok (progress, d') ∧
      Parses d.reading progress d' := by
  induction n generalizing d with
  | zero => exact parseArguments_of_rest hform hawaited fun hzero => absurd rfl hzero
  | succ n ih =>
      refine parseArguments_of_rest hform hawaited ?_
      intro _ d₁ hform₁ hawaited₁
      exact ih hform₁ hawaited₁

/-- **`Decoder.parseBulk`** does not fault and `Parses`, where the reading is `Sound`. -/
theorem parseBulk_ok (hform : d.form = .bulk) (hsound : d.reading.Sound) :
    ∃ progress d', d.parseBulk = .ok (progress, d') ∧ Parses d.reading progress d' := by
  by_cases hawaited : d.awaited = 0
  · have hknown := form_ne_unknown_of_bulk hform
    have hstep : d.reading.step = d.reading.stepCount :=
      (step_eq_stepSettled hknown).trans (stepSettled_of_count hform hawaited)
    rw [parseBulk, if_neg (not_not_intro hawaited), headerEnd_eq]
    rcases headerEnd_cases d.pending.live with hnone | ⟨hlong, -⟩ |
      ⟨k, taken, later, hlive, hline⟩
    · refine ⟨.needMore, d, by rw [hnone], .needMore_of_stop hknown ?_⟩
      rw [hstep, stepCount]
      simp only [reading, hnone]
    · refine ⟨.malformed (.headerTooLong d.pending.live.length), d, by rw [hlong],
        .malformed_of_stop hknown ?_⟩
      rw [hstep, stepCount]
      simp only [reading, hlong]
    · obtain ⟨hcrlf, hheader, -⟩ := exists_headerLine hlive hline
      rw [hheader]
      simp only [slice_headerLine hcrlf (hsound hform hawaited) (by decide), Checked.ok_bind]
      cases hnumber : announced .arguments ((d.pending.live.drop 1).take (k - 1)) with
      | error e =>
          refine ⟨.malformed e, d, rfl, .malformed_of_stop hknown ?_⟩
          rw [hstep, stepCount]
          simp only [reading, hheader, hnumber]
      | ok count =>
          by_cases hlimit : Limit.bulk < count
          · refine ⟨.malformed (.tooManyArguments count), d, if_pos hlimit,
              .malformed_of_stop hknown ?_⟩
            rw [hstep, stepCount]
            simp only [reading, hheader, hnumber, hlimit, if_true]
          · obtain ⟨pending, hconsume, hleft⟩ :=
              d.pending.consume_ok (Bytes.add_two_le_of_crlfIndex hcrlf)
            simp only [hlimit, if_false, hconsume, Checked.ok_bind]
            by_cases hcount : count = 0
            · subst hcount
              refine ⟨.ready, { d with pending := pending }, rfl, .ready .refl ?_⟩
              rw [hstep, stepCount, reading_reset]
              simp only [reading, hheader, hnumber, hlimit, if_false, if_true, hleft]
            · obtain ⟨n, rfl⟩ := Nat.exists_eq_succ_of_ne_zero hcount
              have hform₁ : { d with pending := pending, awaited := n + 1, args := [] }.form =
                .bulk := hform
              obtain ⟨progress, d', hparse, hparses⟩ := parseArguments_ok n hform₁ rfl
              refine ⟨progress, d', (if_neg hcount).trans hparse, .of_step ?_ hparses⟩
              rw [hstep, stepCount]
              simp only [reading, hheader, hnumber, hlimit, if_false, hcount, hleft]
  · obtain ⟨n, hn⟩ := Nat.exists_eq_succ_of_ne_zero hawaited
    rw [parseBulk, if_pos hawaited, hn]
    exact parseArguments_ok n hform hn

/-- **`Decoder.parse`** does not fault and `Parses`, where the reading is `Sound`. -/
theorem parse_ok (hsound : d.reading.Sound) :
    ∃ progress d', d.parse = .ok (progress, d') ∧ Parses d.reading progress d' := by
  rw [parse, ByteQueue.get?_eq]
  cases hlive : d.pending.live with
  | nil =>
      refine ⟨.needMore, d, rfl, .needMore ?_⟩
      have hwaiting : d.reading.waiting = [] := hlive
      have hreads := Reads.of_stop (step_of_waiting_nil hwaiting)
      rwa [settle_of_waiting_nil hwaiting] at hreads
  | cons first rest =>
      simp only [List.getElem?_cons_zero]
      cases hform : d.form with
      | inline => exact parseInline_ok hform
      | bulk => exact parseBulk_ok hform hsound
      | unknown =>
          have hsettle : d.reading.settle = { d with form := formOf first }.reading := by
            rw [settle]
            simp only [reading, hform, hlive]
          have hsound' := hsound.settle
          rw [hsettle] at hsound'
          by_cases hfirst : first = asterisk
          · have hbulk : formOf first = .bulk := if_pos hfirst
            rw [hbulk] at hsettle hsound' ⊢
            obtain ⟨progress, d', hparse, hparses⟩ := parseBulk_ok rfl hsound'
            rw [← hsettle] at hparses
            exact ⟨progress, d', hparse, .of_settle hparses⟩
          · have hinline : formOf first = .inline := if_neg hfirst
            rw [hinline] at hsettle ⊢
            obtain ⟨progress, d', hparse, hparses⟩ :=
              parseInline_ok (d := { d with form := .inline }) rfl
            rw [← hsettle] at hparses
            exact ⟨progress, d', hparse, .of_settle hparses⟩

/-! ### Draining -/

/-- `Decoder.drainWithin` enough attempts `Reads` all that waits. -/
theorem drainWithin_ok (attempts : Nat) (hsound : d.reading.Sound)
    (hlength : d.pending.live.length < 2 * attempts) :
    ∃ drained, drainWithin attempts d = .ok drained ∧
      Reads d.reading drained.requests drained.failure? drained.decoder.reading := by
  induction attempts generalizing d with
  | zero => cases hlength
  | succ attempts ih =>
      obtain ⟨progress, d', hparse, hparses⟩ := parse_ok hsound
      rw [drainWithin, hparse, Checked.ok_bind]
      cases hparses with
      | needMore h => exact ⟨⟨[], none, d'⟩, rfl, h⟩
      | malformed h => exact ⟨⟨[], some _, d'⟩, rfl, h⟩
      | ready hs hstep =>
          obtain ⟨taken, hwaiting, htwo, -⟩ := step_local hstep
          have hle := hs.length_le
          rw [hwaiting, List.length_append] at hle
          have hless : d'.pending.live.length < 2 * attempts := by
            change taken.length + d'.pending.live.length ≤ d.pending.live.length at hle
            omega
          obtain ⟨drained, hdrain, hreads⟩ := ih (sound_of_step hstep) hless
          refine ⟨{ drained with requests := d'.args :: drained.requests }, ?_, ?_⟩
          · simp only [take, hdrain, Checked.ok_bind]
          · exact Reads.of_steps (hs.trans (.go hstep .refl)) hreads

/-- **`Decoder.drain`** does not fault, and `Reads` until a step stops. -/
theorem drain_ok (hsound : d.reading.Sound) :
    ∃ drained, d.drain = .ok drained ∧
      Reads d.reading drained.requests drained.failure? drained.decoder.reading := by
  refine drainWithin_ok d.attempts hsound ?_
  rw [ByteQueue.length_live, attempts]
  omega

end Decoder

end KeyValueServer
