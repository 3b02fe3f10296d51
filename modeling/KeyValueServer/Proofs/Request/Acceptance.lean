import KeyValueServer.Proofs.Request.Fragmentation
import KeyValueServer.Proofs.Request.Steps

/-!
# The decoder accepts its grammar

Fed a stream and drained, the decoder takes one `Grammar.Word` after the other from the front of it.
What is left is `Grammar.Unfinished`, and the decoder waits for the rest, or it `Offends`, and there
is an error; the error says which offence it is. The one thing that the grammar does not know of is
that a header line may be too long while its end is missing.

In the middle of a word `Reading.Holds` says what has been taken of the word and what waits. Each
step takes more of the word, completes it, or stops for a reason that is seen in what the reading
holds (`Reading.Effect`).

## Main results

* `Reading.Holds.step`: what a step can be in the middle of a word.
* `Reading.Holds.steps`: steps take words from the front.
* `Decoder.drain_accepts_grammar`: draining a decoder that was fed a stream.
-/

namespace KeyValueServer

namespace Reading

open Bytes Decoder Grammar Numeral

/-! ### In the middle of a word -/

/-- `Holds r rest`: the reading has taken part of a word, and `rest` is that part and what waits. -/
inductive Holds : Reading → Bytes → Prop
  | before {rest : Bytes} : Holds (before rest) rest
  | argument (o : Opening) {waiting : Bytes} :
      Holds ⟨waiting, o.args, .bulk, o.awaited, none⟩ (o.bytes ++ waiting)
  | payload (o : Opening) {numeral waiting : Bytes} {length : Nat} (h : IsNumber numeral length)
      (hle : length ≤ Limit.bulk) :
      Holds ⟨waiting, o.args, .bulk, o.awaited, some length⟩
        (o.bytes ++ (dollar :: numeral ++ (crlf ++ waiting)))

/-- `Effect rest step`: what a step does with `rest`, the bytes that are held. -/
inductive Effect : Bytes → Step → Prop
  | more {rest : Bytes} {r : Reading} (h : Holds r rest) : Effect rest (.go none r)
  | complete (w : Word) (later : Bytes) :
      Effect (w.bytes ++ later) (.go (some w.args) (before later))
  | unfinished {rest : Bytes} (h : Unfinished rest) : Effect rest (.stop none)
  | offends {rest : Bytes} {e : ProtocolError} (h : Offends rest e) : Effect rest (.stop (some e))
  | overlong {rest line : Bytes} (h : StopsInHeader rest line)
      (hlong : Limit.header < line.length) :
      Effect rest (.stop (some (.headerTooLong line.length)))

variable {r r' : Reading} {rest line waiting : Bytes} {requests : List (List Bytes)}
  {failure? : Option ProtocolError}

/-- `StopsInHeader` is `Unfinished` or too long. -/
theorem effect_of_stopsInHeader (h : StopsInHeader rest line) :
    Effect rest (.stop (missingEnd line)) := by
  rw [missingEnd]
  by_cases hlong : Limit.header < line.length
  · rw [if_pos hlong]
    exact .overlong h hlong
  · rw [if_neg hlong]
    exact .unfinished (.header h (Nat.le_of_not_lt hlong))

/-- `Effect` before a line. -/
theorem effect_inline (hhead : rest.head? ≠ some asterisk) : Effect rest (before rest).step := by
  cases hcrlf : crlfIndex rest with
  | none =>
      rw [step_noLine hhead hcrlf]
      exact .unfinished (.line hhead hcrlf)
  | some k =>
      obtain ⟨line, later, rfl, hline, -⟩ := exists_line hcrlf
      rw [ne_eq, head?_line_eq_some_iff (by decide)] at hhead
      have hword := Effect.complete (.ofLine line hline hhead) later
      rw [Word.bytes_ofLine, List.append_assoc] at hword
      rw [step_line hhead hline]
      exact hword

/-- `Effect` before the header line of a request. -/
theorem effect_count (hhead : rest.head? = some asterisk) : Effect rest (before rest).step := by
  cases hcrlf : crlfIndex rest with
  | none =>
      rw [step_noCount hhead hcrlf]
      exact effect_of_stopsInHeader (.count hhead hcrlf)
  | some k =>
      obtain ⟨whole, later, rfl, hwhole, -⟩ := exists_line hcrlf
      -- the asterisk is on the line, since it opens no line end
      rw [head?_line_eq_some_iff (by decide), List.head?_eq_some_iff] at hhead
      obtain ⟨line, rfl⟩ := hhead
      have hline := (crlfIndex_cons_eq_none_iff (by decide)).1 hwhole
      rw [step_count hline]
      rcases within_cases .arguments line with ⟨count, hok, hnumber, hle⟩ | ⟨e, herror, hwrong⟩
      · rw [hok]
        by_cases hcount : count = 0
        · subst hcount
          have hword := Effect.complete (.bulk line [] hnumber hle) later
          rw [Word.bytes, List.flatMap_nil, List.append_nil, List.append_assoc] at hword
          exact hword
        · have hopening : Holds ⟨later, [], .bulk, count, none⟩
              ((Opening.first hnumber hle hcount).bytes ++ later) :=
            .argument (Opening.first hnumber hle hcount)
          rw [Opening.bytes, List.append_assoc] at hopening
          simp only [hcount, if_false]
          exact .more hopening
      · rw [herror]
        exact .offends (.count hline hwrong)

/-- `Effect` before the header line of an argument. -/
theorem effect_length (o : Opening) (waiting : Bytes) :
    Effect (o.bytes ++ waiting) (step ⟨waiting, o.args, .bulk, o.awaited, none⟩) := by
  cases hcrlf : crlfIndex waiting with
  | none =>
      rw [step_noLength o.awaited_ne_zero hcrlf]
      exact effect_of_stopsInHeader (.length o hcrlf)
  | some k =>
      obtain ⟨whole, later, rfl, hwhole, -⟩ := exists_line hcrlf
      by_cases hdollar : whole.head? = some dollar
      · obtain ⟨line, rfl⟩ := List.head?_eq_some_iff.1 hdollar
        have hline := (crlfIndex_cons_eq_none_iff (by decide)).1 hwhole
        rw [step_length o.args o.awaited_ne_zero hline]
        rcases within_cases .payload line with ⟨length, hok, hnumber, hle⟩ | ⟨e, herror, hwrong⟩
        · rw [hok]
          exact .more (.payload o hnumber hle)
        · rw [herror]
          exact .offends (.length o hline hwrong)
      · obtain ⟨first, hfirst⟩ : ∃ first, (whole ++ crlf).head? = some first := by
          cases whole with
          | nil => exact ⟨_, rfl⟩
          | cons first line => exact ⟨first, rfl⟩
        have hne : first ≠ dollar := by
          rintro rfl
          rw [← List.append_nil crlf, head?_line_eq_some_iff (by decide)] at hfirst
          exact hdollar hfirst
        rw [step_noDollar o.awaited_ne_zero hwhole hfirst hne]
        exact .offends (.dollar o hwhole hfirst hne)

/-- `Effect` before an argument. -/
theorem effect_payload (o : Opening) {numeral : Bytes} {length : Nat} (h : IsNumber numeral length)
    (hle : length ≤ Limit.bulk) (waiting : Bytes) :
    Effect (o.bytes ++ (dollar :: numeral ++ (crlf ++ waiting)))
      (step ⟨waiting, o.args, .bulk, o.awaited, some length⟩) := by
  by_cases hshort : waiting.length < length + 2
  · rw [step_noPayload o.awaited_ne_zero hshort]
    exact .unfinished (.payload o h hle hshort)
  · obtain ⟨payload, two, later, rfl, rfl, htwo⟩ : ∃ payload two later,
        waiting = payload ++ (two ++ later) ∧ payload.length = length ∧ two.length = 2 := by
      refine ⟨waiting.take length, (waiting.drop length).take 2, (waiting.drop length).drop 2,
        ?_, ?_, ?_⟩
      · rw [List.take_append_drop, List.take_append_drop]
      · rw [List.length_take]
        omega
      · rw [List.length_take, List.length_drop]
        omega
    rw [step_payload payload o.args o.awaited_ne_zero htwo]
    by_cases hcrlf : two = crlf
    · subst hcrlf
      have hblock : dollar :: numeral ++ (crlf ++ (payload ++ (crlf ++ later))) =
          (Block.mk numeral payload h hle).bytes ++ later := by
        simp only [Block.bytes, List.append_assoc]
      rw [hblock, ← List.append_assoc, if_pos rfl]
      by_cases hlast : o.awaited = 1
      · rw [if_pos hlast, ← o.bytes_close _ hlast, ← o.args_close ⟨numeral, payload, h, hle⟩ hlast]
        exact .complete _ later
      · rw [if_neg hlast, ← o.bytes_add _ hlast, ← o.args_add ⟨numeral, payload, h, hle⟩ hlast,
          ← o.awaited_add _ hlast]
        exact .more (.argument _)
    · rw [if_neg hcrlf]
      exact .offends (.terminator o h hle htwo hcrlf)

/-- **`step` in the middle of a word** takes more of it, completes it, or stops because of what
there is of it. -/
theorem Holds.step (h : Holds r rest) : Effect rest r.step := by
  cases h with
  | before =>
      by_cases hhead : rest.head? = some asterisk
      · exact effect_count hhead
      · exact effect_inline hhead
  | argument o => exact effect_length o _
  | payload o h hle => exact effect_payload o h hle _

/-- **`Steps` take words from the front**, and end in the middle of another one. -/
theorem Holds.steps (h : Holds r rest) (hs : Steps r requests r') :
    ∃ (words : List Word) (rest' : Bytes), rest = words.flatMap Word.bytes ++ rest' ∧
      requests = words.map Word.args ∧ Holds r' rest' := by
  induction hs generalizing rest with
  | refl => exact ⟨[], rest, rfl, rfl, h⟩
  | go hstep _ ih =>
      -- a step that goes on takes more of the word that is held, or completes it
      have heffect := h.step
      rw [hstep] at heffect
      cases heffect with
      | more h₁ =>
          obtain ⟨words, rest', hrest, hrequests, h'⟩ := ih h₁
          exact ⟨words, rest', hrest, hrequests, h'⟩
      | complete w =>
          obtain ⟨words, rest', hrest, hrequests, h'⟩ := ih .before
          refine ⟨w :: words, rest', ?_, ?_, h'⟩
          · rw [hrest, List.flatMap_cons, List.append_assoc]
          · rw [hrequests]
            rfl

end Reading

namespace Grammar

open Reading

variable {rest : Bytes} {e : ProtocolError}

/-- **What `Offends` is not `Completable`.** -/
theorem Offends.not_completable (h : Offends rest e) : ¬ Completable rest := by
  rintro ⟨later, w, hword⟩
  -- with more bytes the error would still be there, but a word is read without one
  obtain ⟨r, hs, hstop⟩ := h.exists_stop
  have herror := (Reads.intro hs hstop).feed_of_failure h.ne_long later
  have hwhole : (before rest).feed later = before (w.bytes ++ []) := by
    rw [List.append_nil, ← hword]
    rfl
  rw [hwhole] at herror
  obtain ⟨hnone, -⟩ := herror.unique (.intro (w.steps []) (step_of_waiting_nil rfl))
  cases hnone

end Grammar

namespace Decoder

open Reading Grammar

/-- `Reads` of a stream from its beginning has a result. -/
theorem exists_reads (input : Bytes) :
    ∃ requests failure? r, Reads (before input) requests failure? r := by
  obtain ⟨drained, -, hreads⟩ := drain_ok (idle_fresh.sound_feed input)
  rw [reading_feed, reading_fresh] at hreads
  exact ⟨_, _, _, hreads⟩

/-- **The decoder accepts its grammar and loses no byte.** `drain` of a stream yields the arguments
of the words that it begins with, and what is behind them is held. There is an error exactly when
that is not `Completable` and `Offends`, and the error is the offence; or when it `StopsInHeader`
with a line that is too long. Otherwise it is `Unfinished`. However the stream is taken apart, words
in front of it are among those that are read. -/
theorem drain_accepts_grammar (input : Bytes) :
    ∃ (drained : Drained) (words : List Word) (rest : Bytes),
      (fresh.feed input).drain = .ok drained ∧
      input = words.flatMap Word.bytes ++ rest ∧ drained.requests = words.map Word.args ∧
      (∃ r, Holds r rest ∧ drained.decoder.reading = r.settle) ∧
      (∀ e, drained.failure? = some e ↔ (¬ Completable rest ∧ Offends rest e) ∨
        ∃ line, StopsInHeader rest line ∧ Limit.header < line.length ∧
          e = .headerTooLong line.length) ∧
      (drained.failure? = none ↔ Unfinished rest) ∧
      ∀ (words' : List Word) (rest' : Bytes), input = words'.flatMap Word.bytes ++ rest' →
        words'.map Word.args <+: drained.requests := by
  obtain ⟨drained, hdrain, hreads⟩ := drain_ok (idle_fresh.sound_feed input)
  rw [reading_feed, reading_fresh] at hreads
  change Reads (before input) _ _ _ at hreads
  obtain ⟨r, hs, hstop, hleft⟩ := hreads.exists_steps
  obtain ⟨words, rest, hinput, hrequests, hholds⟩ := Holds.before.steps hs
  have heffect := hholds.step
  rw [hstop] at heffect
  -- what stops the reading of `rest` is what stops the decoder
  have hfailure : ∀ {failure?}, (∃ m, Steps (before rest) [] m ∧ m.step = .stop failure?) →
      drained.failure? = failure? := by
    rintro failure? ⟨m, hm, hmstop⟩
    have hwords := (steps_words words rest).trans hm
    rw [← hinput] at hwords
    exact (hreads.unique (.intro hwords hmstop)).2.1
  have hlong : ∀ {line}, StopsInHeader rest line → Limit.header < line.length →
      drained.failure? = some (.headerTooLong line.length) := by
    intro line hheader hlong
    obtain ⟨m, hm, hmstop⟩ := hheader.exists_stop
    rw [missingEnd, if_pos hlong] at hmstop
    exact hfailure ⟨m, hm, hmstop⟩
  refine ⟨drained, words, rest, hdrain, hinput, hrequests, ⟨r, hholds, hleft⟩, fun e => ⟨?_, ?_⟩,
    ⟨?_, ?_⟩, ?_⟩
  · intro he
    rw [he] at heffect
    cases heffect with
    | offends h => exact .inl ⟨h.not_completable, h⟩
    | overlong h hlt => exact .inr ⟨_, h, hlt, rfl⟩
  · rintro (⟨-, h⟩ | ⟨line, h, hlt, rfl⟩)
    · exact hfailure h.exists_stop
    · exact hlong h hlt
  · intro hnone
    rw [hnone] at heffect
    cases heffect with
    | unfinished h => exact h
  · intro h
    exact hfailure h.exists_stop
  · rintro words' rest' rfl
    obtain ⟨requests, failure?, r', hrest⟩ := exists_reads rest'
    obtain ⟨hall, -⟩ := hreads.unique (.of_steps (steps_words words' rest') hrest)
    rw [hall]
    exact List.prefix_append _ _

end Decoder

end KeyValueServer
