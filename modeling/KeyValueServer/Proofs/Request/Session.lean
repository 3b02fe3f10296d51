import KeyValueServer.Proofs.Request.Acceptance

/-!
# Decoders as they may be used

This module runs `Decoder.feed`, `Decoder.parse`, `Decoder.take` and `Decoder.reset` in any order
and any number of times (`Session.call`, `Session.run`): after an error, in the middle of a request,
before anything has arrived. `Session.Permitted` excludes one thing only, a `Call.parse` while
`Session.unfetched` says that the request of an earlier `.ready` is neither taken nor reset.

`Decoder.parseBulk` skips the first byte of the header line without looking at it, so it relies on
what an earlier `Decoder.parse` has seen there. That byte may have been seen long ago, with any
number of pieces, errors and attempts in between, and `Decoder.awaited` and `Decoder.length?` are as
old. The invariant that carries all of it is `Decoder.Holding`: the part of one request that the
decoder has taken and `pending.live` are, end to end, the last bytes that were fed.

## Main results

* `Decoder.Holding.cases`: the fields of a decoder, by whether it is before a request or inside one.
* `Decoder.Holding.parse`: one `Decoder.parse` keeps `Decoder.Holding`, or completes the request.
* `Session.Tracks.call`, `Session.Tracks.run`: permitted calls do not fault and keep
  `Session.Tracks`.
* `Session.run_consistent`: after all permitted calls the session is `Session.Consistent`.
-/

namespace KeyValueServer

open Bytes Grammar Numeral

namespace Reading

variable {r : Reading} {rest : Bytes}

/-- `Reading.feed` adds the bytes at the end of what is held. -/
theorem Holds.feed (h : Holds r rest) (later : Bytes) : Holds (r.feed later) (rest ++ later) := by
  cases h with
  | before => exact .before
  | argument o =>
      rw [List.append_assoc]
      exact .argument o
  | payload o hnumber hle =>
      rw [List.append_assoc, List.append_assoc, List.append_assoc]
      exact .payload o hnumber hle

/-- `Reading.Holds` implies `Reading.Sound`: inside a word, arguments are awaited. -/
theorem Holds.sound (h : Holds r rest) : r.Sound := by
  cases h with
  | before => exact sound_before _
  | argument o => exact sound_of_awaited_ne_zero o.awaited_ne_zero
  | payload o _ _ => exact sound_of_awaited_ne_zero o.awaited_ne_zero

/-- The `waiting` bytes are the end of what `Reading.Holds` says is held. -/
theorem Holds.exists_taken (h : Holds r rest) : ∃ taken, rest = taken ++ r.waiting := by
  cases h with
  | before => exact ⟨[], rfl⟩
  | argument o => exact ⟨o.bytes, rfl⟩
  | @payload o numeral waiting length _ _ =>
      refine ⟨o.bytes ++ (Decoder.dollar :: numeral ++ crlf), ?_⟩
      simp only [List.append_assoc]

end Reading

namespace Decoder

open Reading

variable {d d' : Decoder} {rest : Bytes}

/-! ### What a decoder holds -/

/-- `d.Holding rest`: the decoder has taken part of a word, and `rest` is that part followed by
`d.pending.live`. The form of the word may have been settled already (`Reading.settle`). -/
def Holding (d : Decoder) (rest : Bytes) : Prop :=
  ∃ r, Holds r rest ∧ (d.reading = r ∨ d.reading = r.settle)

/-- After `Decoder.reset`, all that is held is `d.pending.live`. -/
theorem holding_reset (d : Decoder) : d.reset.Holding d.pending.live :=
  ⟨_, .before, .inl d.reading_reset⟩

/-- `Decoder.fresh` holds nothing. -/
theorem holding_fresh : fresh.Holding [] :=
  ⟨_, .before, .inl reading_fresh⟩

namespace Holding

/-- `Decoder.feed` adds the bytes at the end of what is held. -/
theorem feed (h : d.Holding rest) (later : Bytes) : (d.feed later).Holding (rest ++ later) := by
  obtain ⟨r, hr, hreading⟩ := h
  refine ⟨r.feed later, hr.feed later, ?_⟩
  rw [reading_feed]
  obtain hreading | hreading := hreading
  · exact .inl (by rw [hreading])
  · by_cases hwaiting : r.waiting = []
    · rw [settle_of_waiting_nil hwaiting] at hreading
      exact .inl (by rw [hreading])
    · exact .inr (by rw [hreading, settle_feed hwaiting])

/-- The reading of a decoder with `Holding` is `Reading.Sound`, so the first byte that
`Decoder.parseBulk` skips is an asterisk. -/
theorem sound (h : d.Holding rest) : d.reading.Sound := by
  obtain ⟨r, hr, hreading | hreading⟩ := h
  · exact hreading ▸ hr.sound
  · exact hreading ▸ hr.sound.settle

/-- `d.pending.live` is the end of what is held. -/
theorem exists_taken (h : d.Holding rest) : ∃ taken, rest = taken ++ d.pending.live := by
  obtain ⟨r, hr, hreading⟩ := h
  have hwaiting : d.pending.live = r.waiting := by
    obtain hreading | hreading := hreading
    · exact congrArg Reading.waiting hreading
    · exact (congrArg Reading.waiting hreading).trans r.waiting_settle
  rw [hwaiting]
  exact hr.exists_taken

/-- **A decoder is before a request or inside one.** Before it, `awaited` is zero and `length?` is
`none`. Inside, what is held is an `Opening` with the same `args` and `awaited`, then the header
line of the next argument when `length?` is not `none`, and then `pending.live`. -/
theorem cases (h : d.Holding rest) :
    (d.awaited = 0 ∧ d.length? = none) ∨
      ∃ (o : Opening) (header : Bytes), d.form = .bulk ∧ d.args = o.args ∧ d.awaited = o.awaited ∧
        rest = o.bytes ++ (header ++ d.pending.live) ∧
        (d.length? = none ∧ header = [] ∨ ∃ numeral length, d.length? = some length ∧
          IsNumber numeral length ∧ length ≤ Limit.bulk ∧ header = dollar :: numeral ++ crlf) := by
  obtain ⟨pending, args, form, awaited, length?⟩ := d
  obtain ⟨r, hr, hreading⟩ := h
  cases hr with
  | before =>
      have hcounts := (before rest).counts_settle
      obtain hreading | hreading := hreading
      · exact .inl ⟨congrArg Reading.awaited hreading, congrArg Reading.length? hreading⟩
      · exact .inl ⟨(congrArg Reading.awaited hreading).trans hcounts.1,
          (congrArg Reading.length? hreading).trans hcounts.2⟩
  | argument o =>
      rw [settle_eq_self (by exact nofun), or_self] at hreading
      cases hreading
      exact .inr ⟨o, [], rfl, rfl, rfl, rfl, .inl ⟨rfl, rfl⟩⟩
  | @payload o numeral waiting length hnumber hle =>
      rw [settle_eq_self (by exact nofun), or_self] at hreading
      cases hreading
      refine .inr ⟨o, dollar :: numeral ++ crlf, rfl, rfl, rfl, ?_,
        .inr ⟨numeral, length, rfl, hnumber, hle, rfl⟩⟩
      simp only [List.append_assoc]

end Holding

/-- `Decoder.parse` where `Reading.step` stops is not `.ready`, and only settles the form. -/
theorem parse_of_stop {failure? : Option ProtocolError} (hsound : d.reading.Sound)
    (hstop : d.reading.step = .stop failure?) :
    ∃ progress d', d.parse = .ok (progress, d') ∧ progress ≠ .ready ∧
      d'.reading = d.reading.settle := by
  obtain ⟨progress, d', hparse, hparses⟩ := parse_ok hsound
  refine ⟨progress, d', hparse, ?_⟩
  cases hparses with
  | needMore hreads => exact ⟨nofun, (hreads.unique (.of_stop hstop)).2.2⟩
  | malformed hreads => exact ⟨nofun, (hreads.unique (.of_stop hstop)).2.2⟩
  | ready hs hstep =>
      generalize ([] : List (List Bytes)) = requests at hs
      cases hs with
      | refl =>
          rw [hstop] at hstep
          cases hstep
      | go hgo _ =>
          rw [hstop] at hgo
          cases hgo

/-! ### Complete requests -/

/-- `d.Complete`: no argument and no length is awaited, as after a `.ready`. -/
structure Complete (d : Decoder) : Prop where
  awaited_eq : d.awaited = 0
  length_eq : d.length? = none

/-- `Decoder.nextLength` never ends an attempt with `.ready`. -/
theorem nextLength_ne_ready (d : Decoder) : d.nextLength ≠ .ok (.error .ready) := by
  intro h
  rw [nextLength] at h
  split at h
  · cases h
  · split at h
    · cases h
    · cases h
    · obtain ⟨first, -, h⟩ := Checked.bind_eq_ok_iff.1 h
      split at h
      · cases h
      · obtain ⟨raw, -, h⟩ := Checked.bind_eq_ok_iff.1 h
        split at h
        · cases h
        · split at h
          · cases h
          · obtain ⟨pending, -, h⟩ := Checked.bind_eq_ok_iff.1 h
            cases h

/-- `Decoder.parseInline` leaves `awaited` and `length?` alone. -/
theorem complete_of_parseInline (hd : d.Complete) (h : d.parseInline = .ok (.ready, d')) :
    d'.Complete := by
  rw [parseInline] at h
  split at h
  · cases h
  · obtain ⟨line, -, h⟩ := Checked.bind_eq_ok_iff.1 h
    obtain ⟨pending, -, h⟩ := Checked.bind_eq_ok_iff.1 h
    cases h
    exact ⟨hd.awaited_eq, hd.length_eq⟩

/-- `Decoder.parseArguments` is `.ready` only once `awaited` is down to zero. -/
theorem complete_of_parseArguments {n : Nat} (hd : n = 0 → d.Complete)
    (h : parseArguments n d = .ok (.ready, d')) : d'.Complete := by
  induction n generalizing d with
  | zero =>
      cases h
      exact hd rfl
  | succ n ih =>
      rw [parseArguments] at h
      obtain ⟨next, hnext, h⟩ := Checked.bind_eq_ok_iff.1 h
      cases next with
      | error progress =>
          cases h
          exact absurd hnext (nextLength_ne_ready _)
      | ok next =>
          dsimp only at h
          split at h
          · cases h
          · obtain ⟨terminator, -, h⟩ := Checked.bind_eq_ok_iff.1 h
            split at h
            · cases h
            · obtain ⟨argument, -, h⟩ := Checked.bind_eq_ok_iff.1 h
              obtain ⟨pending, -, h⟩ := Checked.bind_eq_ok_iff.1 h
              exact ih (fun hn => ⟨hn, rfl⟩) h

/-- `Decoder.parseBulk` is `.ready` after its last argument, or at a header line that announces
none. -/
theorem complete_of_parseBulk (hd : d.awaited = 0 → d.length? = none)
    (h : d.parseBulk = .ok (.ready, d')) : d'.Complete := by
  rw [parseBulk] at h
  split at h
  · rename_i hawaited
    exact complete_of_parseArguments (fun hzero => absurd hzero hawaited) h
  · rename_i hawaited
    rw [not_not] at hawaited
    split at h
    · cases h
    · cases h
    · obtain ⟨raw, -, h⟩ := Checked.bind_eq_ok_iff.1 h
      split at h
      · cases h
      · split at h
        · cases h
        · obtain ⟨pending, -, h⟩ := Checked.bind_eq_ok_iff.1 h
          split at h
          · cases h
            exact ⟨hawaited, hd hawaited⟩
          · rename_i hcount
            exact complete_of_parseArguments (fun hzero => absurd hzero hcount) h

/-- **A `.ready` of `Decoder.parse` leaves the decoder `Complete`.** -/
theorem complete_of_parse (hbulk : d.form ≠ .bulk → d.Complete)
    (hlength : d.awaited = 0 → d.length? = none) (h : d.parse = .ok (.ready, d')) :
    d'.Complete := by
  rw [parse] at h
  split at h
  · cases h
  · split at h
    · rename_i hform
      exact complete_of_parseInline (hbulk (by rw [hform]; decide)) h
    · exact complete_of_parseBulk hlength h
    · rename_i hform
      obtain ⟨hawaited, hnone⟩ := hbulk (by rw [hform]; decide)
      split at h
      · exact complete_of_parseBulk (d := { d with form := .bulk }) hlength h
      · exact complete_of_parseInline (d := { d with form := .inline }) ⟨hawaited, hnone⟩ h

/-- **One `Decoder.parse`** under `Holding` does not fault. With `.ready` the decoder is `Complete`,
and `pending.live` is the end of what was held; otherwise it holds the same bytes as before. -/
theorem Holding.parse (h : d.Holding rest) :
    ∃ progress d', d.parse = .ok (progress, d') ∧
      (progress ≠ .ready ∧ d'.Holding rest ∨
        progress = .ready ∧ d'.Complete ∧ ∃ taken, rest = taken ++ d'.pending.live) := by
  obtain ⟨progress, d', hparse, hparses⟩ := parse_ok h.sound
  refine ⟨progress, d', hparse, ?_⟩
  obtain ⟨r, hr, hreading⟩ := id h
  have hr' : Parses r progress d' := by
    obtain hreading | hreading := hreading
    · exact hreading ▸ hparses
    · rw [hreading] at hparses
      exact .of_settle hparses
  -- an attempt completes no other request on the way, so it stops in what was held
  have hstops : ∀ {failure?}, Reads r [] failure? d'.reading → d'.Holding rest := by
    intro failure? hreads
    obtain ⟨m, hs, -, hleft⟩ := hreads.exists_steps
    obtain ⟨words, rest', hrest, hwords, hholds⟩ := hr.steps hs
    obtain rfl := List.map_eq_nil_iff.1 hwords.symm
    obtain rfl : rest = rest' := hrest
    exact ⟨m, hholds, .inr hleft⟩
  cases hr' with
  | needMore hreads => exact .inl ⟨nofun, hstops hreads⟩
  | malformed hreads => exact .inl ⟨nofun, hstops hreads⟩
  | ready hs hstep =>
      refine .inr ⟨rfl, ?_, ?_⟩
      · obtain ⟨hawaited, hnone⟩ | ⟨o, header, hform, -, hawaited, -⟩ := h.cases
        · exact complete_of_parse (fun _ => ⟨hawaited, hnone⟩) (fun _ => hnone) hparse
        · refine complete_of_parse (fun hne => absurd hform hne) (fun hzero => ?_) hparse
          exact absurd (hawaited.symm.trans hzero) o.awaited_ne_zero
      · obtain ⟨words, rest', hrest, hwords, hholds⟩ := hr.steps hs
        obtain rfl := List.map_eq_nil_iff.1 hwords.symm
        obtain rfl : rest = rest' := hrest
        have heffect := hholds.step
        rw [hstep, reading_reset] at heffect
        generalize d'.args = args, d'.pending.live = waiting at heffect ⊢
        cases heffect with
        | complete w => exact ⟨w.bytes, rfl⟩

end Decoder

/-! ### Sessions -/

/-- A decoder in use: the decoder itself, and what its owner knows. -/
structure Session where
  /-- The decoder. -/
  decoder : Decoder
  /-- Whether the last `Decoder.parse` was `.ready`, with no `take` or `reset` since. -/
  unfetched : Bool
  /-- All bytes that have been fed. -/
  fed : Bytes

namespace Session

open Decoder

/-- A `Call` on a decoder: one of `Decoder.feed`, `Decoder.parse`, `Decoder.take` and
`Decoder.reset`. -/
inductive Call
  | feed (bytes : Bytes)
  | parse
  | take
  | reset
  deriving DecidableEq

/-- The session of `Decoder.fresh`, to which nothing has been fed. -/
def fresh : Session := ⟨Decoder.fresh, false, []⟩

/-- `s.call c` is the session after the call `c`, or the fault of `Decoder.parse`. -/
def call (s : Session) : Call → Checked Session
  | .feed bytes => .ok ⟨s.decoder.feed bytes, s.unfetched, s.fed ++ bytes⟩
  | .parse => do
    let (progress, d) ← s.decoder.parse
    .ok ⟨d, progress == .ready, s.fed⟩
  | .take => .ok ⟨s.decoder.take.2, false, s.fed⟩
  | .reset => .ok ⟨s.decoder.reset, false, s.fed⟩

/-- `run calls s` makes the calls in turn, up to the first that faults. -/
def run : List Call → Session → Checked Session
  | [], s => .ok s
  | c :: rest, s => do
    let s ← s.call c
    run rest s

/-- `Permitted calls s`: no `Call.parse` of `calls` is made while the session is `unfetched`. -/
def Permitted : List Call → Session → Prop
  | [], _ => True
  | c :: rest, s =>
    (c = .parse → s.unfetched = false) ∧ ∀ s', s.call c = .ok s' → Permitted rest s'

variable {s s' : Session} {c : Call} {calls front : List Call}

/-- `Call.parse` where `Decoder.parse` does not fault. -/
theorem call_parse {progress : Progress} {d : Decoder} (h : s.decoder.parse = .ok (progress, d)) :
    s.call .parse = .ok ⟨d, progress == .ready, s.fed⟩ := by
  rw [call, h]
  rfl

/-- `Permitted` for a first call that does not fault. -/
theorem permitted_cons (hcall : s.call c = .ok s') (hc : c = .parse → s.unfetched = false)
    (hrest : Permitted calls s') : Permitted (c :: calls) s := by
  refine ⟨hc, fun s'' hcall' => ?_⟩
  rw [hcall] at hcall'
  exact Except.ok.inj hcall' ▸ hrest

/-- `s.Tracks`: the decoder has `Decoder.Holding` of the last bytes of `s.fed`; or the session is
`unfetched`, and the decoder is `Decoder.Complete`. -/
inductive Tracks : Session → Prop
  | holding {d : Decoder} {earlier rest : Bytes} (h : d.Holding rest) :
      Tracks ⟨d, false, earlier ++ rest⟩
  | complete {d : Decoder} {earlier : Bytes} (h : d.Complete) :
      Tracks ⟨d, true, earlier ++ d.pending.live⟩

/-- `pending.live` is the end of `s.fed`. -/
theorem Tracks.exists_earlier (h : s.Tracks) :
    ∃ earlier, s.fed = earlier ++ s.decoder.pending.live := by
  cases h with
  | @holding d earlier rest h =>
      obtain ⟨taken, rfl⟩ := h.exists_taken
      exact ⟨earlier ++ taken, (List.append_assoc _ _ _).symm⟩
  | complete _ => exact ⟨_, rfl⟩

/-- `Tracks` holds again after `Decoder.reset`. -/
theorem Tracks.reset (h : s.Tracks) : Tracks ⟨s.decoder.reset, false, s.fed⟩ := by
  obtain ⟨earlier, hfed⟩ := h.exists_earlier
  rw [hfed]
  exact .holding s.decoder.holding_reset

/-- **One permitted call** does not fault and keeps `Tracks`. -/
theorem Tracks.call (h : s.Tracks) (hc : c = .parse → s.unfetched = false) :
    ∃ s', s.call c = .ok s' ∧ s'.Tracks := by
  cases c with
  | feed bytes =>
      refine ⟨_, rfl, ?_⟩
      cases h with
      | holding h =>
          rw [List.append_assoc]
          exact .holding (h.feed bytes)
      | @complete d earlier h =>
          have hlive : (d.feed bytes).pending.live = d.pending.live ++ bytes :=
            d.pending.live_append bytes
          rw [List.append_assoc, ← hlive]
          exact .complete ⟨h.awaited_eq, h.length_eq⟩
  | parse =>
      cases h with
      | complete _ => cases hc rfl
      | @holding d earlier rest h =>
          obtain ⟨progress, d', hparse, hend⟩ := h.parse
          refine ⟨_, call_parse hparse, ?_⟩
          obtain ⟨hnot, hholding⟩ | ⟨rfl, hcomplete, taken, rfl⟩ := hend
          · rw [beq_false_of_ne hnot]
            exact .holding hholding
          · rw [beq_self_eq_true, ← List.append_assoc]
            exact .complete hcomplete
  | take => exact ⟨_, rfl, h.reset⟩
  | reset => exact ⟨_, rfl, h.reset⟩

/-- **Permitted calls** do not fault and keep `Tracks`, after each of them. -/
theorem Tracks.run (h : s.Tracks) (hpermitted : Permitted calls s) (hfront : front <+: calls) :
    ∃ s', run front s = .ok s' ∧ s'.Tracks := by
  induction calls generalizing s front with
  | nil =>
      obtain rfl := List.prefix_nil.1 hfront
      exact ⟨s, rfl, h⟩
  | cons c rest ih =>
      obtain ⟨hc, hrest⟩ := hpermitted
      obtain rfl | ⟨front', rfl, hfront'⟩ := List.prefix_cons_iff.1 hfront
      · exact ⟨s, rfl, h⟩
      · obtain ⟨s₁, hcall, h₁⟩ := h.call hc
        rw [Session.run, hcall, Checked.ok_bind]
        exact ih h₁ (hrest s₁ hcall) hfront'

/-! ### What holds between calls -/

/-- `s.Announced count`: the last bytes of `s.fed` are an `Opening` that announces `count` arguments
and holds `s.decoder.args`, then the header line of the next argument when `s.decoder.length?` is
not `none`, and then `s.decoder.pending.live`. -/
def Announced (s : Session) (count : Nat) : Prop :=
  ∃ (earlier header : Bytes) (o : Opening), o.count = count ∧ o.args = s.decoder.args ∧
    s.fed = earlier ++ (o.bytes ++ (header ++ s.decoder.pending.live)) ∧
    (s.decoder.length? = none ∧ header = [] ∨ ∃ numeral length,
      s.decoder.length? = some length ∧ IsNumber numeral length ∧
        header = dollar :: numeral ++ crlf)

/-- `s.Consistent`: the fields `form`, `awaited`, `length?` and `args` of the decoder agree with
each other, with `pending.live` and with `s.fed`. -/
structure Consistent (s : Session) : Prop where
  /-- In bulk form before the header line, the first of the bytes in `pending.live` is an
  asterisk. -/
  opens : s.decoder.form = .bulk → s.decoder.awaited = 0 → s.unfetched = false →
    ∃ rest, s.decoder.pending.live = asterisk :: rest
  /-- Arguments are awaited in bulk form only. -/
  bulk_of_awaited : s.decoder.awaited ≠ 0 → s.decoder.form = .bulk
  /-- A length is awaited in bulk form only, with arguments awaited, and is at most 4096. -/
  bulk_of_length : ∀ length, s.decoder.length? = some length →
    s.decoder.form = .bulk ∧ s.decoder.awaited ≠ 0 ∧ length ≤ 4096
  /-- The arguments that have been read and those that are awaited are as many as were announced,
  at most 4096. -/
  announced : s.decoder.awaited ≠ 0 →
    s.Announced (s.decoder.args.length + s.decoder.awaited) ∧
      s.decoder.args.length + s.decoder.awaited ≤ 4096

/-- `Tracks` implies `Consistent`. -/
theorem Tracks.consistent (h : s.Tracks) : s.Consistent := by
  cases h with
  | @complete d earlier h =>
      obtain ⟨hawaited, hnone⟩ := h
      refine ⟨nofun, fun hne => absurd hawaited hne, fun length hlength => ?_,
        fun hne => absurd hawaited hne⟩
      rw [hnone] at hlength
      cases hlength
  | @holding d earlier rest h =>
      have hopens : d.form = .bulk → d.awaited = 0 → false = false →
          ∃ rest, d.pending.live = asterisk :: rest := by
        intro hform hawaited _
        exact List.head?_eq_some_iff.1 (h.sound hform hawaited)
      obtain ⟨hawaited, hnone⟩ | ⟨o, header, hform, hargs, hawaited, rfl, hheader⟩ := h.cases
      · refine ⟨hopens, fun hne => absurd hawaited hne, fun length hlength => ?_,
          fun hne => absurd hawaited hne⟩
        rw [hnone] at hlength
        cases hlength
      · have hcount : d.args.length + d.awaited = o.count := by
          have hlt := o.length_lt
          rw [hargs, hawaited, Opening.args, List.length_map, Opening.awaited]
          omega
        have hne : d.awaited ≠ 0 := hawaited ▸ o.awaited_ne_zero
        refine ⟨hopens, fun _ => hform, fun length hlength => ⟨hform, hne, ?_⟩, fun _ => ⟨?_, ?_⟩⟩
        · obtain ⟨hnone, -⟩ | ⟨-, length', hlength', -, hle, -⟩ := hheader
          · rw [hnone] at hlength
            cases hlength
          · rw [hlength'] at hlength
            obtain rfl := Option.some.inj hlength
            exact hle
        · rw [hcount]
          refine ⟨earlier, header, o, rfl, hargs.symm, rfl, ?_⟩
          obtain hnone | ⟨numeral, length, hlength, hnumber, -, rfl⟩ := hheader
          · exact .inl hnone
          · exact .inr ⟨numeral, length, hlength, hnumber, rfl⟩
        · rw [hcount]
          exact o.count_le

/-- **No permitted use of a decoder faults, and its state is always consistent.** For any calls that
are `Permitted` from `fresh`, `run` has a result after each of them, and the session is then
`Consistent`. -/
theorem run_consistent (h : Permitted calls fresh) (hfront : front <+: calls) :
    ∃ s, run front fresh = .ok s ∧ s.Consistent := by
  have hfresh : fresh.Tracks := @Tracks.holding Decoder.fresh [] [] holding_fresh
  obtain ⟨s, hrun, htracks⟩ := hfresh.run h hfront
  exact ⟨s, hrun, htracks.consistent⟩

/-- `*x` is refused twice; after `Call.reset` it is tried once more, and more is fed before
`Call.take` and the last `Call.parse`. -/
theorem run_consistent_of_mistake :
    Permitted [.feed [42, 120, 13, 10], .parse, .parse, .reset, .parse, .feed [42], .take, .parse]
        fresh ∧
      ∃ s, run [.feed [42, 120, 13, 10], .parse, .parse, .reset, .parse, .feed [42], .take, .parse]
        fresh = .ok s ∧ s.Consistent := by
  have hpermitted : Permitted [.feed [42, 120, 13, 10], .parse, .parse, .reset, .parse,
      .feed [42], .take, .parse] fresh := by
    have hfed : (Decoder.fresh.feed [42, 120, 13, 10]).reading =
        Reading.before [42, 120, 13, 10] := by
      rw [reading_feed, reading_fresh]
      rfl
    have hstop : (Reading.before [42, 120, 13, 10]).step =
        .stop (some (.invalidLength .arguments [120])) := rfl
    obtain ⟨progress₁, d₁, hparse₁, hnot₁, hleft₁⟩ :=
      parse_of_stop (hfed ▸ Reading.sound_before _) (hfed ▸ hstop)
    rw [hfed] at hleft₁
    obtain ⟨progress₂, d₂, hparse₂, -, -⟩ :=
      parse_of_stop (hleft₁ ▸ (Reading.sound_before _).settle)
        (hleft₁ ▸ (Reading.step_eq_of_settle_eq (Reading.settle_settle _)).trans hstop)
    obtain ⟨progress₃, d₃, hparse₃, -⟩ := d₂.holding_reset.parse
    obtain ⟨progress₄, d₄, hparse₄, -⟩ := (d₃.feed [42]).holding_reset.parse
    refine permitted_cons rfl nofun ?_
    refine permitted_cons (call_parse hparse₁) (fun _ => rfl) ?_
    refine permitted_cons (call_parse hparse₂) (fun _ => beq_false_of_ne hnot₁) ?_
    refine permitted_cons rfl nofun ?_
    refine permitted_cons (call_parse hparse₃) (fun _ => rfl) ?_
    refine permitted_cons rfl nofun ?_
    refine permitted_cons rfl nofun ?_
    exact permitted_cons (call_parse hparse₄) (fun _ => rfl) trivial
  exact ⟨hpermitted, run_consistent hpermitted List.prefix_rfl⟩

/-- Without `Holding`, `Decoder.parseBulk` may fault. -/
example : (⟨(ByteQueue.ofCapacity 4).append [13, 10], [], .bulk, 0, none⟩ : Decoder).parse =
    .error .outOfRange := rfl

end Session

end KeyValueServer
