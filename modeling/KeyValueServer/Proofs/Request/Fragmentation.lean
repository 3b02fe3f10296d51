import KeyValueServer.Proofs.Request.Decoder

/-!
# How a stream is cut into pieces makes no difference

`Decoder.receive` feeds a stream piece by piece, and drains the decoder after each. It yields the
requests of the stream, its first error, and the same unfinished request, wherever the stream is
cut.

One error depends on the cut: `headerTooLong` arises when too many bytes wait without a line end,
and how many wait at once depends on the pieces. So each header line of the stream must end in time,
or the stream must end first (`Decoder.HeadersBounded`).

## Main results

* `Decoder.receive_ok`: feeding piece by piece reads the stream up to its first error.
* `Decoder.receive_independent`: two cuts of a stream come to the same.
-/

namespace KeyValueServer

namespace Decoder

open Reading

/-! ### Piece by piece -/

/-- `receive pieces d` feeds `pieces` to the decoder `d`, and drains it after each, until there is
an error. -/
def receive : List Bytes → Decoder → Checked Drained
  | [], d => .ok ⟨[], none, d⟩
  | piece :: rest, d => do
    let drained ← (d.feed piece).drain
    match drained.failure? with
    | some _ => .ok drained
    | none => do
      let later ← receive rest drained.decoder
      .ok { later with requests := drained.requests ++ later.requests }

/-- `d.Idle`: the decoder `d` has read all it can, and waits for bytes. -/
structure Idle (d : Decoder) : Prop where
  sound : d.reading.Sound
  step_eq : d.reading.step = .stop none
  settle_eq : d.reading.settle = d.reading

/-- `Idle` decoders may be fed and parsed. -/
theorem Idle.sound_feed {d : Decoder} (hd : d.Idle) (piece : Bytes) :
    (d.feed piece).reading.Sound := by
  rw [reading_feed]
  exact hd.sound.feed piece

/-- `Decoder.fresh` is `Idle`. -/
theorem idle_fresh : fresh.Idle := by
  refine ⟨?_, ?_, ?_⟩
  · rw [reading_fresh]
    exact nofun
  · exact step_of_waiting_nil (congrArg Reading.waiting reading_fresh)
  · exact settle_of_waiting_nil (congrArg Reading.waiting reading_fresh)

/-- A decoder is `Idle` that has been drained without an error. -/
theorem idle_of_reads {d : Decoder} {r : Reading} {requests : List (List Bytes)} (hr : r.Sound)
    (h : Reads r requests none d.reading) : d.Idle :=
  ⟨h.sound hr, h.step_eq, h.settle_eq⟩

/-- `Reading.feed` of two pieces is `feed` of both as one. -/
theorem feed_feed (r : Reading) (piece later : Bytes) :
    (r.feed piece).feed later = r.feed (piece ++ later) := by
  rw [Reading.feed, Reading.feed, Reading.feed, waiting_withWaiting, withWaiting_withWaiting,
    List.append_assoc]

/-- **`receive`** never faults and `Reads` all bytes of the stream, or those up to an error. -/
theorem receive_ok (pieces : List Bytes) {d : Decoder} (hd : d.Idle) :
    ∃ drained fed later, receive pieces d = .ok drained ∧ pieces.flatten = fed ++ later ∧
      Reads (d.reading.feed fed) drained.requests drained.failure? drained.decoder.reading ∧
      (drained.failure? = none → later = []) := by
  induction pieces generalizing d with
  | nil =>
      have hreads := Reads.of_stop hd.step_eq
      rw [hd.settle_eq] at hreads
      refine ⟨⟨[], none, d⟩, [], [], rfl, rfl, ?_, fun _ => rfl⟩
      rw [Reading.feed, List.append_nil, withWaiting_self]
      exact hreads
  | cons piece rest ih =>
      have hsound := hd.sound_feed piece
      obtain ⟨drained, hdrain, hreads⟩ := drain_ok hsound
      rw [receive, hdrain, Checked.ok_bind, List.flatten_cons]
      cases hfailure : drained.failure? with
      | some e =>
          refine ⟨drained, piece, rest.flatten, rfl, rfl, ?_, ?_⟩
          · rw [← reading_feed]
            exact hreads
          · intro hnone
            rw [hfailure] at hnone
            cases hnone
      | none =>
          rw [hfailure] at hreads
          obtain ⟨drained', fed, later, hreceive, hflatten, hreads', hlater⟩ :=
            ih (idle_of_reads hsound hreads)
          refine ⟨{ drained' with requests := drained.requests ++ drained'.requests },
            piece ++ fed, later, ?_, ?_, ?_, hlater⟩
          · simp only [hreceive, Checked.ok_bind]
          · rw [hflatten, List.append_assoc]
          · rw [← feed_feed, ← reading_feed]
            exact hreads.append fed hreads'

/-- `receive` without an error leaves a decoder that is `Idle`. -/
theorem Idle.receive {pieces : List Bytes} {d : Decoder} {drained : Drained} (hd : d.Idle)
    (h : receive pieces d = .ok drained) (hnone : drained.failure? = none) :
    drained.decoder.Idle := by
  obtain ⟨drained', fed, later, hreceive, -, hreads, -⟩ := receive_ok pieces hd
  rw [h] at hreceive
  cases hreceive
  rw [hnone] at hreads
  exact idle_of_reads (hd.sound.feed fed) hreads

/-- `receive` of more pieces goes on where the first have met no error. -/
theorem receive_append {front : List Bytes} {d : Decoder} {drained : Drained}
    (h : receive front d = .ok drained) (hnone : drained.failure? = none) (back : List Bytes) :
    receive (front ++ back) d = receive back drained.decoder >>= fun later =>
      .ok { later with requests := drained.requests ++ later.requests } := by
  induction front generalizing d drained with
  | nil =>
      cases h
      rw [List.nil_append]
      cases receive back d <;> rfl
  | cons piece rest ih =>
      rw [receive, Checked.bind_eq_ok_iff] at h
      obtain ⟨first, hfirst, h⟩ := h
      rw [List.cons_append, receive, hfirst, Checked.ok_bind]
      cases hfailure : first.failure? with
      | some e =>
          rw [hfailure] at h
          cases h
          rw [hnone] at hfailure
          cases hfailure
      | none =>
          simp only [hfailure, Checked.bind_eq_ok_iff] at h
          obtain ⟨rest', hrest', h⟩ := h
          cases h
          simp only [ih hrest' hnone]
          cases receive back rest'.decoder with
          | error fault => rfl
          | ok later => simp only [Checked.ok_bind, List.append_assoc]

/-- `receive` of one piece is `drain` after `feed`. -/
theorem receive_singleton {piece : Bytes} {d : Decoder} {drained : Drained}
    (h : (d.feed piece).drain = .ok drained) : receive [piece] d = .ok drained := by
  rw [receive, h, Checked.ok_bind]
  obtain ⟨requests, failure?, decoder⟩ := drained
  cases failure? with
  | some e => rfl
  | none => simp only [receive, Checked.ok_bind, List.append_nil]

/-! ### Header lines that end in time -/

/-- `HeadersBounded stream`: each header line of the stream ends within `Limit.header` bytes, or the
stream ends first. Where a header line is expected, in front of `rest`, is what the decoder says
once it has read all that is before. -/
def HeadersBounded (stream : Bytes) : Prop :=
  ∀ front rest drained, stream = front ++ rest → (fresh.feed front).drain = .ok drained →
    drained.failure? = none → drained.decoder.pending.live = [] →
    drained.decoder.reading.expectsHeader rest = true →
    (∃ k, Bytes.crlfIndex rest = some k ∧ k < Limit.header) ∨ rest.length ≤ Limit.header

/-- `HeadersBounded` of a stream that is no longer than `Limit.header`. -/
theorem headersBounded_of_length_le {stream : Bytes} (h : stream.length ≤ Limit.header) :
    HeadersBounded stream := by
  intro front rest drained hstream _ _ _ _
  rw [hstream, List.length_append] at h
  exact .inr (Nat.le_trans (Nat.le_add_left _ _) h)

/-- `expectsHeader` goes on to hold when more bytes are there. -/
theorem expectsHeader_append {r : Reading} (hwaiting : r.waiting ≠ [])
    (h : r.expectsHeader r.waiting = true) (later : Bytes) :
    (r.withWaiting []).expectsHeader (r.waiting ++ later) = true := by
  have hhead : (r.waiting ++ later).head? = r.waiting.head? := by
    cases hcons : r.waiting with
    | nil => exact absurd hcons hwaiting
    | cons first rest => rfl
  unfold expectsHeader at h ⊢
  rw [form_withWaiting, hhead]
  exact h

/-- `HeaderBehind front rest`: behind the bytes `front` a header line is expected, where `rest`
comes next. The decoder says so once it has read `front` and has nothing left of it. -/
def HeaderBehind (front rest : Bytes) : Prop :=
  ∃ drained, (fresh.feed front).drain = .ok drained ∧ drained.failure? = none ∧
    drained.decoder.pending.live = [] ∧ drained.decoder.reading.expectsHeader rest = true

/-- `headerTooLong` stands where there is a `HeaderBehind`. -/
theorem exists_headerBehind {fed : Bytes} {requests : List (List Bytes)} {n : Nat} {r' : Reading}
    (h : Reads (fresh.reading.feed fed) requests (some (.headerTooLong n)) r') :
    ∃ (front : Bytes) (m : Reading), fed = front ++ m.waiting ∧
      Steps (before front) requests (m.withWaiting []) ∧
      m.step = .stop (some (.headerTooLong n)) ∧
      ∀ later, HeaderBehind front (m.waiting ++ later) := by
  obtain ⟨front, m, hfed, hsteps, hstop⟩ := h.exists_header
  rw [reading_fresh] at hfed hsteps
  obtain ⟨hexpects, -, hlong⟩ := header_of_step_long hstop
  refine ⟨front, m, hfed, hsteps, hstop, fun later => ?_⟩
  -- the decoder, drained of what is before the header line, expects it
  obtain ⟨drained, hdrain, hreads⟩ := drain_ok (idle_fresh.sound_feed front)
  rw [reading_feed, reading_fresh] at hreads
  have hwait : (m.withWaiting []).step = .stop none := step_of_waiting_nil rfl
  obtain ⟨-, hfailure, hleft⟩ := hreads.unique (.intro hsteps hwait)
  rw [settle_of_waiting_nil rfl] at hleft
  have hwaiting : m.waiting ≠ [] := by
    intro hnil
    rw [hnil] at hlong
    cases hlong
  refine ⟨drained, hdrain, hfailure, congrArg Reading.waiting hleft, ?_⟩
  rw [hleft]
  exact expectsHeader_append hwaiting hexpects later

/-- `HeadersBounded` streams have no part with `headerTooLong`. -/
theorem ne_headerTooLong {fed later : Bytes} (hbounded : HeadersBounded (fed ++ later))
    {requests : List (List Bytes)} {e : ProtocolError} {r' : Reading}
    (h : Reads (fresh.reading.feed fed) requests (some e) r') (n : Nat) : e ≠ .headerTooLong n := by
  rintro rfl
  obtain ⟨front, m, rfl, -, hstop, hbehind⟩ := exists_headerBehind h
  obtain ⟨-, hcrlf, hlong⟩ := header_of_step_long hstop
  obtain ⟨drained, hdrain, hfailure, hlive, hexpects⟩ := hbehind later
  rcases hbounded front (m.waiting ++ later) drained (List.append_assoc _ _ _) hdrain hfailure hlive
    hexpects with ⟨k, hk, hlt⟩ | hle
  · rw [Bytes.crlfIndex_of_append hk (by omega)] at hcrlf
    cases hcrlf
  · rw [List.length_append] at hle
    omega

/-! ### Two cuts of a stream -/

/-- `receive` of a stream with `HeadersBounded`, however it is cut, `Reads` the whole stream,
whatever is left over after an error. -/
theorem receive_reads {stream : Bytes} (hbounded : HeadersBounded stream) {pieces : List Bytes}
    (h : pieces.flatten = stream) :
    ∃ drained r', receive pieces fresh = .ok drained ∧
      Reads (fresh.reading.feed stream) drained.requests drained.failure? r' ∧
      (drained.failure? = none → r' = drained.decoder.reading) := by
  obtain ⟨drained, fed, later, hreceive, hflatten, hreads, hlater⟩ := receive_ok pieces idle_fresh
  rw [h] at hflatten
  subst hflatten
  cases hfailure : drained.failure? with
  | none =>
      rw [hlater hfailure, List.append_nil]
      rw [hfailure] at hreads
      exact ⟨drained, _, hreceive, by rw [hfailure]; exact hreads, fun _ => rfl⟩
  | some e =>
      rw [hfailure] at hreads
      have hmore := hreads.feed_of_failure (ne_headerTooLong hbounded hreads) later
      rw [feed_feed] at hmore
      refine ⟨drained, _, hreceive, by rw [hfailure]; exact hmore, ?_⟩
      rw [hfailure]
      exact nofun

/-- **How a stream is cut makes no difference.** Two cuts of a stream whose header lines end in time
yield the same requests and the same error. If there is no error, the same bytes are left, of a
request of the same form with the same arguments read and the same counts awaited. -/
theorem receive_independent {stream : Bytes} (hbounded : HeadersBounded stream)
    {pieces pieces' : List Bytes} (h : pieces.flatten = stream) (h' : pieces'.flatten = stream) :
    ∃ drained drained', receive pieces fresh = .ok drained ∧
      receive pieces' fresh = .ok drained' ∧ drained.requests = drained'.requests ∧
      drained.failure? = drained'.failure? ∧
      (drained.failure? = none → drained.decoder.reading = drained'.decoder.reading) := by
  obtain ⟨drained, r, hreceive, hreads, hr⟩ := receive_reads hbounded h
  obtain ⟨drained', r', hreceive', hreads', hr'⟩ := receive_reads hbounded h'
  obtain ⟨hrequests, hfailure, hleft⟩ := hreads.unique hreads'
  refine ⟨drained, drained', hreceive, hreceive', hrequests, hfailure, fun hnone => ?_⟩
  rw [← hr hnone, hleft]
  exact hr' (hfailure.symm.trans hnone)

/-- A request in bulk form that is cut inside of its first line end, and the same bytes at once. -/
theorem receive_independent_of_split :
    HeadersBounded [42, 49, 13, 10, 36, 49, 13, 10, 65, 13, 10] ∧
      ∃ drained drained',
        receive [[42, 49, 13], [], [10, 36, 49, 13, 10, 65, 13, 10]] fresh = .ok drained ∧
        receive [[42, 49, 13, 10, 36, 49, 13, 10, 65, 13, 10]] fresh = .ok drained' ∧
        drained.requests = drained'.requests ∧ drained.failure? = drained'.failure? ∧
        (drained.failure? = none → drained.decoder.reading = drained'.decoder.reading) := by
  have hbounded : HeadersBounded [42, 49, 13, 10, 36, 49, 13, 10, 65, 13, 10] :=
    headersBounded_of_length_le (by decide)
  exact ⟨hbounded, receive_independent hbounded rfl rfl⟩

end Decoder

end KeyValueServer
