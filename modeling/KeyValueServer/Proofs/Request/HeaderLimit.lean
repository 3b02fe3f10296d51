import KeyValueServer.Proofs.Request.Fragmentation
import KeyValueServer.Proofs.Request.Steps

/-!
# Header lines that are too long

`Reading.headerEnd` is `headerTooLong` when more than `Limit.header` bytes wait and no line end is
among them. So a line without an end is too long wherever the stream is cut, once enough of it has
arrived. A line that has an end, but one that comes late, is too long only where its end does not
arrive with it: the same bytes are accepted at once and refused in pieces.

## Main results

* `Decoder.reads_feed_of_long`: a header line that is too long stays so.
* `Decoder.headerTooLong_independent`: where no line end comes late (`Decoder.HeadersTimely`), two
  cuts agree on whether a header line is too long.
* `Decoder.headerTooLong_of_cut`: where one does, they need not.
-/

namespace KeyValueServer

namespace Reading

variable {r r' : Reading} {requests : List (List Bytes)} {later : Bytes} {n : Nat}

/-- `stepSettled` stops with `headerTooLong` where a header line without an end exceeds
`Limit.header`. -/
theorem stepSettled_of_long (hform : r.form = .bulk) (hheader : r.awaited = 0 ∨ r.length? = none)
    (hcrlf : Bytes.crlfIndex r.waiting = none) (hlong : Limit.header < r.waiting.length) :
    r.stepSettled = .stop (some (.headerTooLong r.waiting.length)) := by
  have hend : headerEnd r.waiting = .error (some (.headerTooLong r.waiting.length)) := by
    rw [headerEnd_eq_missingEnd hcrlf, missingEnd, if_pos hlong]
  by_cases hawaited : r.awaited = 0
  · rw [stepSettled_of_count hform hawaited, stepCount, hend]
  · rw [stepSettled_of_length hform hawaited (hheader.resolve_left hawaited), stepLength, hend]

/-- `step` stops with `headerTooLong` in bulk form only. -/
theorem settle_of_step_long (h : r.step = .stop (some (.headerTooLong n))) :
    r.settle.form = .bulk ∧ (r.settle.awaited = 0 ∨ r.settle.length? = none) := by
  rw [step] at h
  rcases r.settle.stepSettled_cases with hnone | ⟨-, hform, hheader, -⟩ |
    ⟨taken, later, hwaiting, hdepends⟩
  · rw [hnone] at h
    cases h
  · exact ⟨hform, hheader⟩
  · exact absurd h (hdepends.ne_long_of_append hwaiting n)

/-- `step` goes on to stop with `headerTooLong` when more bytes arrive, unless a line end is among
them. -/
theorem step_feed_of_long (h : r.step = .stop (some (.headerTooLong n)))
    (hcrlf : Bytes.crlfIndex (r.waiting ++ later) = none) :
    ∃ n', (r.feed later).step = .stop (some (.headerTooLong n')) := by
  obtain ⟨hform, hheader⟩ := settle_of_step_long h
  obtain ⟨-, -, hlong⟩ := header_of_step_long h
  have hwaiting : r.waiting ≠ [] := by
    intro hnil
    rw [hnil] at hlong
    cases hlong
  have hfed : (r.settle.feed later).waiting = r.waiting ++ later :=
    congrArg (· ++ later) (waiting_settle r)
  refine ⟨(r.settle.feed later).waiting.length, ?_⟩
  rw [step, settle_feed hwaiting]
  refine stepSettled_of_long hform hheader (by rw [hfed, hcrlf]) ?_
  rw [hfed, List.length_append]
  omega

end Reading

namespace Decoder

open Reading

variable {stream : Bytes} {pieces pieces' : List Bytes}

/-! ### Header lines that end late -/

/-- `HeadersTimely stream`: each header line of the stream that has an end has it in time, its line
end beginning before `Limit.header`. -/
def HeadersTimely (stream : Bytes) : Prop :=
  ∀ front rest k, stream = front ++ rest → HeaderBehind front rest →
    Bytes.crlfIndex rest = some k → k < Limit.header

/-- `drained.EndsTooLong`: draining ends with `headerTooLong`. -/
def Drained.EndsTooLong (drained : Drained) : Prop :=
  ∃ n, drained.failure? = some (.headerTooLong n)

/-- `HeadersTimely` of a stream without line ends. -/
theorem headersTimely_of_notMem (h : Bytes.carriageReturn ∉ stream) : HeadersTimely stream := by
  rintro front rest k rfl - hk
  have hrest : Bytes.carriageReturn ∉ rest := fun hmem => h (List.mem_append_right front hmem)
  rw [Bytes.crlfIndex_eq_none_of_notMem hrest] at hk
  cases hk

/-- **`headerTooLong` stays**, after the same requests, when more bytes of a stream with
`HeadersTimely` arrive. -/
theorem reads_feed_of_long {fed later : Bytes} (htimely : HeadersTimely (fed ++ later))
    {requests : List (List Bytes)} {n : Nat} {r' : Reading}
    (h : Reads (fresh.reading.feed fed) requests (some (.headerTooLong n)) r') :
    ∃ n' r'',
      Reads (fresh.reading.feed (fed ++ later)) requests (some (.headerTooLong n')) r'' := by
  obtain ⟨front, m, rfl, hsteps, hstop, hbehind⟩ := exists_headerBehind h
  obtain ⟨-, hcrlf, hlong⟩ := header_of_step_long hstop
  have hnone : Bytes.crlfIndex (m.waiting ++ later) = none := by
    cases hk : Bytes.crlfIndex (m.waiting ++ later) with
    | none => rfl
    | some k =>
        have hlt := htimely front _ k (List.append_assoc _ _ _) (hbehind later) hk
        rw [Bytes.crlfIndex_of_append hk (by omega)] at hcrlf
        cases hcrlf
  obtain ⟨n', hstop'⟩ := step_feed_of_long hstop hnone
  have hall := hsteps.feed (m.waiting ++ later)
  rw [reading_fresh, List.append_assoc]
  exact ⟨n', _, .intro hall hstop'⟩

/-- `receive` of a stream with `HeadersTimely`, however it is cut, `Reads` the whole stream, up to
the number in `headerTooLong`. -/
theorem receive_reads_of_timely (htimely : HeadersTimely stream) (h : pieces.flatten = stream) :
    ∃ drained failure? r', receive pieces fresh = .ok drained ∧
      Reads (fresh.reading.feed stream) drained.requests failure? r' ∧
      (drained.EndsTooLong ↔ ∃ n, failure? = some (.headerTooLong n)) := by
  obtain ⟨drained, fed, later, hreceive, hflatten, hreads, hlater⟩ := receive_ok pieces idle_fresh
  rw [h] at hflatten
  subst hflatten
  by_cases hlong : drained.EndsTooLong
  · obtain ⟨n, hfailure⟩ := hlong
    rw [hfailure] at hreads
    obtain ⟨n', r', hreads'⟩ := reads_feed_of_long htimely hreads
    exact ⟨drained, _, r', hreceive, hreads', ⟨fun _ => ⟨n', rfl⟩, fun _ => ⟨n, hfailure⟩⟩⟩
  · refine ⟨drained, drained.failure?, ?_⟩
    cases hfailure : drained.failure? with
    | none =>
        rw [hfailure] at hreads
        rw [hlater hfailure, List.append_nil]
        exact ⟨_, hreceive, hreads, by rw [Drained.EndsTooLong, hfailure]⟩
    | some e =>
        have hne : ∀ n, e ≠ .headerTooLong n := by
          rintro n rfl
          exact hlong ⟨n, hfailure⟩
        rw [hfailure] at hreads
        have hmore := hreads.feed_of_failure hne later
        rw [feed_feed] at hmore
        exact ⟨_, hreceive, hmore, by rw [Drained.EndsTooLong, hfailure]⟩

/-- **`EndsTooLong` does not depend on the cut** of a stream with `HeadersTimely`: two cuts of the
stream end so or neither does, and they yield the same requests. -/
theorem headerTooLong_independent (htimely : HeadersTimely stream) (h : pieces.flatten = stream)
    (h' : pieces'.flatten = stream) :
    ∃ drained drained', receive pieces fresh = .ok drained ∧
      receive pieces' fresh = .ok drained' ∧ (drained.EndsTooLong ↔ drained'.EndsTooLong) ∧
      drained.requests = drained'.requests := by
  obtain ⟨drained, failure?, r, hreceive, hreads, hlong⟩ := receive_reads_of_timely htimely h
  obtain ⟨drained', failure?', r', hreceive', hreads', hlong'⟩ := receive_reads_of_timely htimely h'
  obtain ⟨hrequests, rfl, -⟩ := hreads.unique hreads'
  exact ⟨drained, drained', hreceive, hreceive', hlong.trans hlong'.symm, hrequests⟩

/-! ### A line of zeros -/

/-- `Reads` of a stream at once is `drain` of a fresh decoder. -/
theorem drain_fresh_of_reads {bytes : Bytes} {requests : List (List Bytes)}
    {failure? : Option ProtocolError} {r' : Reading}
    (h : Reads (before bytes) requests failure? r') :
    ∃ drained, (fresh.feed bytes).drain = .ok drained ∧ drained.failure? = failure? := by
  obtain ⟨drained, hdrain, hreads⟩ := drain_ok (idle_fresh.sound_feed bytes)
  rw [reading_feed, reading_fresh] at hreads
  exact ⟨drained, hdrain, (hreads.unique h).2.1⟩

/-- `IsNumber` of zeros, however many there are. -/
theorem isNumber_replicate_zero (count : Nat) :
    Numeral.IsNumber (List.replicate (count + 1) 48) 0 := by
  refine .inl ?_
  induction count with
  | zero => exact .digit (d := 0) (by decide)
  | succ count ih =>
      rw [List.replicate_succ']
      exact .more (d := 0) ih (by decide)

/-- No carriage return is among zeros. -/
theorem notMem_zeros (count : Nat) :
    Bytes.carriageReturn ∉ (asterisk :: List.replicate count 48 : Bytes) := by
  rw [List.mem_cons, List.mem_replicate, not_or, not_and]
  exact ⟨by decide, fun _ => by decide⟩

/-- `headerTooLong` of a header line of more zeros than `Limit.header` whose end has not arrived. -/
theorem reads_zeros (count : Nat) (h : Limit.header ≤ count) :
    ∃ n r',
      Reads (before (asterisk :: List.replicate count 48)) [] (some (.headerTooLong n)) r' := by
  have hlong : Limit.header < (asterisk :: List.replicate count 48 : Bytes).length := by
    rw [List.length_cons, List.length_replicate]
    omega
  have hstop := step_noCount rfl (Bytes.crlfIndex_eq_none_of_notMem (notMem_zeros count))
  rw [missingEnd, if_pos hlong] at hstop
  exact ⟨_, _, .of_stop hstop⟩

/-- With its end that line announces a request without arguments. -/
theorem reads_zeros_line (count : Nat) :
    ∃ r', Reads (before (asterisk :: List.replicate (count + 1) 48 ++ (Bytes.crlf ++ []))) [[]] none
      r' := by
  have hnone : Bytes.crlfIndex (List.replicate (count + 1) (48 : UInt8)) = none :=
    Bytes.crlfIndex_eq_none_of_notMem fun hmem =>
      notMem_zeros (count + 1) (List.mem_cons_of_mem asterisk hmem)
  have hstep := step_count hnone []
  rw [Grammar.within_eq_ok (isNumber_replicate_zero count) (by decide)] at hstep
  exact ⟨_, .of_steps (.go hstep .refl) (.of_stop (step_of_waiting_nil rfl))⟩

/-- A header line without an end `EndsTooLong` at once and in pieces. -/
theorem headerTooLong_independent_of_unterminated :
    HeadersTimely (asterisk :: List.replicate 5000 48) ∧
      ∃ drained drained',
        receive [asterisk :: List.replicate 5000 48] fresh = .ok drained ∧
        receive [asterisk :: List.replicate 4000 48, List.replicate 1000 48] fresh =
          .ok drained' ∧
        drained.EndsTooLong ∧ drained'.EndsTooLong ∧ drained.requests = drained'.requests := by
  have htimely : HeadersTimely (asterisk :: List.replicate 5000 48) :=
    headersTimely_of_notMem (notMem_zeros 5000)
  have hpieces : [asterisk :: List.replicate 4000 48, List.replicate 1000 (48 : UInt8)].flatten =
      asterisk :: List.replicate 5000 48 := by
    simp only [List.flatten_cons, List.flatten_nil, List.append_nil, List.cons_append,
      List.replicate_append_replicate]
  obtain ⟨drained, drained', hreceive, hreceive', hlong, hrequests⟩ :=
    headerTooLong_independent htimely List.flatten_singleton hpieces
  obtain ⟨n, r', hreads⟩ := reads_zeros 5000 (by decide)
  obtain ⟨whole, hdrain, hfailure⟩ := drain_fresh_of_reads hreads
  have hwhole : drained = whole := by
    rw [receive_singleton hdrain] at hreceive
    exact (Except.ok.inj hreceive).symm
  have hends : drained.EndsTooLong := ⟨n, by rw [hwhole, hfailure]⟩
  exact ⟨htimely, drained, drained', hreceive, hreceive', hends, hlong.1 hends, hrequests⟩

/-- **The same bytes are accepted at once and refused in pieces** where the end of a header line
comes late: a line of `Limit.header` zeros announces a request without arguments, but before its end
arrives it is too long. -/
theorem headerTooLong_of_cut :
    [asterisk :: List.replicate Limit.header 48 ++ Bytes.crlf].flatten =
        [asterisk :: List.replicate Limit.header 48, Bytes.crlf].flatten ∧
      ∃ drained drained',
        receive [asterisk :: List.replicate Limit.header 48 ++ Bytes.crlf] fresh = .ok drained ∧
        receive [asterisk :: List.replicate Limit.header 48, Bytes.crlf] fresh = .ok drained' ∧
        ¬ drained.EndsTooLong ∧ drained'.EndsTooLong := by
  obtain ⟨r, hreads⟩ := reads_zeros_line 4095
  obtain ⟨n, r', hreads'⟩ := reads_zeros Limit.header (Nat.le_refl _)
  obtain ⟨whole, hdrain, hfailure⟩ := drain_fresh_of_reads hreads
  obtain ⟨cut, hdrain', hfailure'⟩ := drain_fresh_of_reads hreads'
  refine ⟨by simp, whole, cut, receive_singleton hdrain, ?_, ?_, n, hfailure'⟩
  · rw [receive, hdrain', Checked.ok_bind, hfailure']
  · rintro ⟨n', hlong⟩
    rw [hfailure] at hlong
    cases hlong

end Decoder

end KeyValueServer
