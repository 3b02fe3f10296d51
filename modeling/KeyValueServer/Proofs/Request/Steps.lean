import KeyValueServer.Proofs.Request.Grammar
import KeyValueServer.Proofs.Request.Reads

/-!
# Reading what is written

Each part of a `Grammar.Word` is taken in one `Reading.step`: a line, a header line, or a payload
with the line end behind it. So the steps on a word are known in advance, and so is the step that
stops at an offence or where bytes are missing.

## Main results

* `Grammar.Word.steps`: a word is read as its arguments.
* `Grammar.Opening.steps`: the arguments in front of another one are read.
* `Grammar.Offends.exists_stop`, `Unfinished.exists_stop`, `StopsInHeader.exists_stop`: what is
  behind the last word is read up to a step that stops.
-/

namespace KeyValueServer

namespace Grammar

open Decoder Numeral

variable {what : Announcement} {raw : Bytes} {e : ProtocolError} {n : Nat}

/-! ### Numbers up to the cap -/

/-- `within what raw` is the number up to `Limit.bulk` that `raw` announces, or the error. -/
def within (what : Announcement) (raw : Bytes) : Except ProtocolError Nat :=
  match announced what raw with
  | .error e => .error e
  | .ok n => if Limit.bulk < n then .error (overCap what n) else .ok n

/-- Numbers up to `Limit.bulk` are 64-bit words. -/
theorem lt_of_le_bulk (h : n ≤ Limit.bulk) : n < UInt64.size := by
  rw [Limit.bulk] at h
  have hsize : UInt64.size = 18446744073709551616 := rfl
  omega

/-- `within` is a number, or an error that is `Misannounced`. -/
theorem within_cases (what : Announcement) (raw : Bytes) :
    (∃ n, within what raw = .ok n ∧ IsNumber raw n ∧ n ≤ Limit.bulk) ∨
      ∃ e, within what raw = .error e ∧ Misannounced what raw e := by
  rw [within, announced]
  cases hword : word? raw with
  | none =>
      refine .inr ⟨.invalidLength what raw, rfl, .noWord fun n hn hnumber => ?_⟩
      rw [word?_eq_some_iff.2 ⟨hnumber, hn⟩] at hword
      cases hword
  | some n =>
      obtain ⟨hnumber, hn⟩ := word?_eq_some_iff.1 hword
      by_cases hcap : Limit.bulk < n
      · exact .inr ⟨overCap what n, if_pos hcap, .overCap hnumber hn hcap⟩
      · exact .inl ⟨n, if_neg hcap, hnumber, Nat.le_of_not_lt hcap⟩

/-- `within` of a numeral up to `Limit.bulk`. -/
theorem within_eq_ok (h : IsNumber raw n) (hle : n ≤ Limit.bulk) : within what raw = .ok n := by
  rw [within, announced, word?_eq_some_iff.2 ⟨h, lt_of_le_bulk hle⟩]
  exact if_neg (Nat.not_lt.2 hle)

/-- `within` of anything that is `Misannounced`. -/
theorem within_eq_error (h : Misannounced what raw e) : within what raw = .error e := by
  rw [within, announced]
  cases h with
  | noWord h =>
      cases hword : word? raw with
      | none => rfl
      | some n =>
          obtain ⟨hnumber, hn⟩ := word?_eq_some_iff.1 hword
          exact absurd hnumber (h n hn)
  | overCap h hword hcap =>
      rw [word?_eq_some_iff.2 ⟨h, hword⟩]
      exact if_pos hcap

/-- A `Misannounced` error is not `headerTooLong`. -/
theorem Misannounced.ne_long (h : Misannounced what raw e) (n : Nat) : e ≠ .headerTooLong n := by
  cases h with
  | noWord => exact nofun
  | overCap => cases what <;> exact nofun

/-- An error that `Offends` is not `headerTooLong`. -/
theorem Offends.ne_long {rest : Bytes} (h : Offends rest e) (n : Nat) : e ≠ .headerTooLong n := by
  cases h with
  | count _ h => exact h.ne_long n
  | dollar => exact nofun
  | length _ _ h => exact h.ne_long n
  | terminator => exact nofun

/-- A numeral holds no line end. -/
theorem crlfIndex_of_isNumber (h : IsNumber raw n) : Bytes.crlfIndex raw = none := by
  refine Bytes.crlfIndex_eq_none_of_notMem ?_
  rcases h with h | ⟨digits, rfl, h⟩
  · exact h.notMem (by decide)
  · rw [List.mem_cons, not_or]
    exact ⟨by decide, h.notMem (by decide)⟩

end Grammar

namespace Reading

open Bytes Decoder Grammar Numeral

variable {line later rest : Bytes} {args : List Bytes} {n : Nat}

/-! ### Single steps -/

/-- `drop` takes a line off with its end. -/
theorem drop_line (line later : Bytes) :
    (line ++ (crlf ++ later)).drop (line.length + 2) = later := by
  rw [← List.append_assoc]
  exact List.drop_left' (by rw [List.length_append]; rfl)

/-- `missingEnd line` is why a step stops where a header line has no end: it is too long, or bytes
are missing. -/
def missingEnd (line : Bytes) : Option ProtocolError :=
  if Limit.header < line.length then some (.headerTooLong line.length) else none

/-- `headerEnd` of a header line without an end. -/
theorem headerEnd_eq_missingEnd (h : crlfIndex line = none) :
    headerEnd line = .error (missingEnd line) := by
  rw [headerEnd, h]
  by_cases hlong : Limit.header < line.length
  · simp only [missingEnd, hlong, if_true]
  · simp only [missingEnd, hlong, if_false]

/-- `headerEnd` of a header line with an end. -/
theorem headerEnd_line (h : crlfIndex line = none) (later : Bytes) :
    headerEnd (line ++ (crlf ++ later)) = .ok line.length := by
  rw [headerEnd, crlfIndex_line h]

/-- `step` of a request that does not begin with an asterisk is `stepInline`. -/
theorem step_before_of_inline (h : rest.head? ≠ some asterisk) (hne : rest ≠ []) :
    (before rest).step = stepInline ⟨rest, [], .inline, 0, none⟩ := by
  cases rest with
  | nil => exact absurd rfl hne
  | cons first tail =>
      have hfirst : first ≠ asterisk := fun heq => h (congrArg some heq)
      have hform : formOf first = .inline := if_neg hfirst
      change stepSettled ⟨first :: tail, [], formOf first, 0, none⟩ = _
      rw [hform]
      rfl

/-- `step` of a request that begins with an asterisk is `stepCount`. -/
theorem step_before_of_bulk (h : rest.head? = some asterisk) :
    (before rest).step = stepCount ⟨rest, [], .bulk, 0, none⟩ := by
  cases rest with
  | nil => cases h
  | cons first tail =>
      obtain rfl : first = asterisk := Option.some.inj h
      rfl

/-- `step` where a line has no end. -/
theorem step_noLine (hhead : rest.head? ≠ some asterisk) (hline : crlfIndex rest = none) :
    (before rest).step = .stop none := by
  by_cases hne : rest = []
  · exact step_of_waiting_nil hne
  · rw [step_before_of_inline hhead hne, stepInline]
    simp only [hline]

/-- `step` takes a line as a request. -/
theorem step_line (hhead : line.head? ≠ some asterisk) (hline : crlfIndex line = none)
    (later : Bytes) :
    (before (line ++ (crlf ++ later))).step = .go (some (words line)) (before later) := by
  have hhead' : (line ++ (crlf ++ later)).head? ≠ some asterisk := by
    rw [ne_eq, head?_line_eq_some_iff (by decide)]
    exact hhead
  have hne : line ++ (crlf ++ later) ≠ [] :=
    List.append_ne_nil_of_right_ne_nil _ (List.cons_ne_nil _ _)
  rw [step_before_of_inline hhead' hne, stepInline]
  simp only [crlfIndex_line hline, List.take_left, drop_line]

/-- `step` where the header line of a request has no end. -/
theorem step_noCount (hhead : line.head? = some asterisk) (hline : crlfIndex line = none) :
    (before line).step = .stop (missingEnd line) := by
  rw [step_before_of_bulk hhead, stepCount]
  simp only [headerEnd_eq_missingEnd hline]

/-- `step` takes the header line of a request. -/
theorem step_count (hline : crlfIndex line = none) (later : Bytes) :
    (before (asterisk :: line ++ (crlf ++ later))).step =
      match within .arguments line with
      | .error e => .stop (some e)
      | .ok count =>
        if count = 0 then .go (some []) (before later)
        else .go none ⟨later, [], .bulk, count, none⟩ := by
  have hwhole : crlfIndex (asterisk :: line) = none :=
    (crlfIndex_cons_eq_none_iff (by decide)).2 hline
  have htext : ((asterisk :: line ++ (crlf ++ later)).drop 1).take
      ((asterisk :: line).length - 1) = line :=
    List.take_left' rfl
  rw [step_before_of_bulk rfl, stepCount]
  simp only [headerEnd_line hwhole, htext, drop_line, within]
  cases announced .arguments line with
  | error e => rfl
  | ok count =>
      by_cases hcap : Limit.bulk < count
      · simp only [hcap, if_true, overCap]
      · simp only [hcap, if_false]

/-- `step` before the header line of an argument is `stepLength`. -/
theorem step_eq_stepLength (waiting : Bytes) (args : List Bytes) (hn : n ≠ 0) :
    (⟨waiting, args, .bulk, n, none⟩ : Reading).step =
      stepLength ⟨waiting, args, .bulk, n, none⟩ :=
  stepSettled_of_length rfl hn rfl

/-- `step` behind it is `stepPayload`. -/
theorem step_eq_stepPayload (waiting : Bytes) (args : List Bytes) (hn : n ≠ 0) (length : Nat) :
    (⟨waiting, args, .bulk, n, some length⟩ : Reading).step =
      stepPayload ⟨waiting, args, .bulk, n, some length⟩ length :=
  stepSettled_of_payload rfl hn rfl

/-- `step` where the header line of an argument has no end. -/
theorem step_noLength (hn : n ≠ 0) (hline : crlfIndex line = none) :
    (⟨line, args, .bulk, n, none⟩ : Reading).step = .stop (missingEnd line) := by
  rw [step_eq_stepLength line args hn, stepLength]
  simp only [headerEnd_eq_missingEnd hline]

/-- `step` takes the header line of an argument. -/
theorem step_length (args : List Bytes) (hn : n ≠ 0) (hline : crlfIndex line = none)
    (later : Bytes) :
    (⟨dollar :: line ++ (crlf ++ later), args, .bulk, n, none⟩ : Reading).step =
      match within .payload line with
      | .error e => .stop (some e)
      | .ok length => .go none ⟨later, args, .bulk, n, some length⟩ := by
  have hwhole : crlfIndex (dollar :: line) = none :=
    (crlfIndex_cons_eq_none_iff (by decide)).2 hline
  have hfirst : (dollar :: line ++ (crlf ++ later)).headD 0 = dollar := rfl
  have htext : ((dollar :: line ++ (crlf ++ later)).drop 1).take
      ((dollar :: line).length - 1) = line :=
    List.take_left' rfl
  rw [step_eq_stepLength _ args hn, stepLength]
  simp only [headerEnd_line hwhole, hfirst, if_true, htext, drop_line, within]
  cases announced .payload line with
  | error e => rfl
  | ok length =>
      by_cases hcap : Limit.bulk < length
      · simp only [hcap, if_true, overCap]
      · simp only [hcap, if_false]

/-- `step` where a line stands in the place of such a header line. -/
theorem step_noDollar {first : UInt8} (hn : n ≠ 0) (hline : crlfIndex line = none)
    (hfirst : (line ++ crlf).head? = some first) (hne : first ≠ dollar) (later : Bytes) :
    (⟨line ++ (crlf ++ later), args, .bulk, n, none⟩ : Reading).step =
      .stop (some (.expectedDollar first)) := by
  have hhead : (line ++ (crlf ++ later)).headD 0 = first := by
    cases line with
    | nil => exact Option.some.inj hfirst
    | cons b tail => exact Option.some.inj hfirst
  rw [step_eq_stepLength _ args hn, stepLength]
  simp only [headerEnd_line hline, hhead, hne, if_false]

/-- `step` where an argument, or the line end behind it, has not arrived. -/
theorem step_noPayload {length : Nat} (hn : n ≠ 0) (hshort : rest.length < length + 2) :
    (⟨rest, args, .bulk, n, some length⟩ : Reading).step = .stop none := by
  rw [step_eq_stepPayload rest args hn length, stepPayload, if_pos hshort]

/-- `step` takes an argument and the two bytes behind it. -/
theorem step_payload (payload : Bytes) {two : Bytes} (args : List Bytes) (hn : n ≠ 0)
    (htwo : two.length = 2) (later : Bytes) :
    (⟨payload ++ (two ++ later), args, .bulk, n, some payload.length⟩ : Reading).step =
      if two = crlf then
        if n = 1 then .go (some (args ++ [payload])) (before later)
        else .go none ⟨later, args ++ [payload], .bulk, n - 1, none⟩
      else .stop (some .expectedCrlf) := by
  have hreach : ¬ (payload ++ (two ++ later)).length < payload.length + 2 := by
    rw [List.length_append, List.length_append, htwo]
    omega
  have hrest : (payload ++ (two ++ later)).drop (payload.length + 2) = later := by
    rw [← List.append_assoc]
    exact List.drop_left' (by rw [List.length_append, htwo])
  have hend : ((payload ++ (two ++ later)).drop payload.length).take 2 = two := by
    rw [List.drop_left, List.take_left' htwo]
  rw [step_eq_stepPayload _ args hn, stepPayload]
  simp only [hreach, if_false, hend, hrest, List.take_left]

/-! ### Blocks -/

/-- `step` takes the header line of a `Block`. -/
theorem step_announce (b : Block) (args : List Bytes) (hn : n ≠ 0) (later : Bytes) :
    (⟨b.bytes ++ later, args, .bulk, n, none⟩ : Reading).step =
      .go none ⟨b.payload ++ (crlf ++ later), args, .bulk, n, some b.payload.length⟩ := by
  have hbytes : b.bytes ++ later =
      dollar :: b.numeral ++ (crlf ++ (b.payload ++ (crlf ++ later))) := by
    simp only [Block.bytes, List.append_assoc]
  rw [hbytes, step_length args hn (crlfIndex_of_isNumber b.isNumber),
    within_eq_ok b.isNumber b.length_le]

/-- `Steps` over blocks, as long as others are missing behind them. -/
theorem steps_blocks (blocks : List Block) (args : List Bytes) (hn : n ≠ 0) (later : Bytes) :
    Steps ⟨blocks.flatMap Block.bytes ++ later, args, .bulk, blocks.length + n, none⟩ []
      ⟨later, args ++ blocks.map Block.payload, .bulk, n, none⟩ := by
  induction blocks generalizing args with
  | nil =>
      rw [List.map_nil, List.append_nil, List.length_nil, Nat.zero_add]
      exact .refl
  | cons b blocks ih =>
      have hmissing : (b :: blocks).length + n ≠ 0 := by
        rw [List.length_cons]
        omega
      have hothers : (b :: blocks).length + n ≠ 1 := by
        rw [List.length_cons]
        omega
      have hcount : (b :: blocks).length + n - 1 = blocks.length + n := by
        rw [List.length_cons]
        omega
      have hannounce := step_announce b args hmissing (blocks.flatMap Block.bytes ++ later)
      have hpayload := step_payload b.payload args hmissing (rfl : crlf.length = 2)
        (blocks.flatMap Block.bytes ++ later)
      rw [if_pos rfl, if_neg hothers, hcount] at hpayload
      have hrest := ih (args ++ [b.payload])
      rw [List.append_assoc, List.singleton_append] at hrest
      rw [List.flatMap_cons, List.append_assoc]
      exact .go hannounce (.go hpayload hrest)

/-- `Steps` over the last block, which completes the request. -/
theorem steps_last (b : Block) (args : List Bytes) (later : Bytes) :
    Steps ⟨b.bytes ++ later, args, .bulk, 1, none⟩ [args ++ [b.payload]] (before later) := by
  have hannounce := step_announce b args Nat.one_ne_zero later
  have hpayload := step_payload b.payload args Nat.one_ne_zero (rfl : crlf.length = 2) later
  rw [if_pos rfl, if_pos rfl] at hpayload
  exact .go hannounce (.go hpayload .refl)

end Reading

namespace Grammar

open Bytes Decoder Numeral Reading

variable {line rest : Bytes} {e : ProtocolError}

/-- `Steps` over an `Opening` leave its arguments read. -/
theorem Opening.steps (o : Opening) (later : Bytes) :
    Steps (before (o.bytes ++ later)) [] ⟨later, o.args, .bulk, o.awaited, none⟩ := by
  have hlt := o.length_lt
  have hcount : o.blocks.length + o.awaited = o.count := by
    rw [Opening.awaited]
    omega
  have hheader := step_count (crlfIndex_of_isNumber o.isNumber)
    (o.blocks.flatMap Block.bytes ++ later)
  rw [within_eq_ok o.isNumber o.count_le] at hheader
  have hne : o.count ≠ 0 := by omega
  simp only [hne, if_false] at hheader
  have hblocks := steps_blocks o.blocks [] o.awaited_ne_zero later
  rw [hcount] at hblocks
  rw [Opening.bytes, List.append_assoc, List.append_assoc]
  exact .go hheader hblocks

/-- `Steps` over an `Opening` and its last block complete the request. -/
theorem Opening.close_steps (o : Opening) (b : Block) (h : o.awaited = 1) (later : Bytes) :
    Steps (before ((o.close b h).bytes ++ later)) [(o.close b h).args] (before later) := by
  have hopening := o.steps (b.bytes ++ later)
  rw [h] at hopening
  rw [o.bytes_close, o.args_close, List.append_assoc]
  exact hopening.trans (steps_last b o.args later)

/-- **`Steps` over a `Word`** yield its arguments, and behind it another one begins. -/
theorem Word.steps (w : Word) (later : Bytes) :
    Steps (before (w.bytes ++ later)) [w.args] (before later) := by
  cases w with
  | line tokens spaceless not_lone one_line not_bulk =>
      have hstep := step_line not_bulk one_line later
      rw [words_join spaceless not_lone] at hstep
      rw [Word.bytes, List.append_assoc]
      exact .go hstep .refl
  | bulk numeral blocks isNumber length_le =>
      rcases List.eq_nil_or_concat blocks with rfl | ⟨front, last, hblocks⟩
      · have hheader := step_count (crlfIndex_of_isNumber isNumber) later
        rw [within_eq_ok isNumber length_le] at hheader
        rw [Word.bytes, List.flatMap_nil, List.append_nil, List.append_assoc]
        exact .go hheader .refl
      · rw [List.concat_eq_append] at hblocks
        subst hblocks
        -- all blocks but the last are an opening
        have hlt : front.length < (front ++ [last]).length := by
          rw [List.length_append, List.length_singleton]
          exact Nat.lt_succ_self _
        have hone : Opening.awaited ⟨numeral, _, front, isNumber, length_le, hlt⟩ = 1 := by
          simp only [Opening.awaited, List.length_append, List.length_singleton]
          omega
        exact Opening.close_steps _ last hone later

/-- `Steps` over one `Word` after the other. -/
theorem steps_words (words : List Word) (later : Bytes) :
    Steps (before (words.flatMap Word.bytes ++ later)) (words.map Word.args) (before later) := by
  induction words with
  | nil => exact .refl
  | cons w words ih =>
      have hfirst := w.steps (words.flatMap Word.bytes ++ later)
      rw [List.flatMap_cons, List.append_assoc]
      exact hfirst.trans ih

/-! ### What is behind the last word -/

/-- `Steps` lead to where a header line has no end. -/
theorem StopsInHeader.exists_stop (h : StopsInHeader rest line) :
    ∃ r, Steps (before rest) [] r ∧ r.step = .stop (missingEnd line) := by
  cases h with
  | count hhead hline => exact ⟨_, .refl, step_noCount hhead hline⟩
  | length o hline => exact ⟨_, o.steps line, step_noLength o.awaited_ne_zero hline⟩

/-- `Steps` lead to where an `Unfinished` word has no more bytes. -/
theorem Unfinished.exists_stop (h : Unfinished rest) :
    ∃ r, Steps (before rest) [] r ∧ r.step = .stop none := by
  cases h with
  | line hhead hline => exact ⟨_, .refl, step_noLine hhead hline⟩
  | header h hle =>
      obtain ⟨r, hs, hstop⟩ := h.exists_stop
      rw [missingEnd, if_neg (Nat.not_lt.2 hle)] at hstop
      exact ⟨r, hs, hstop⟩
  | @payload o numeral front length h hle hshort =>
      have hannounce := step_length o.args o.awaited_ne_zero (crlfIndex_of_isNumber h) front
      rw [within_eq_ok h hle] at hannounce
      exact ⟨_, (o.steps _).trans (.go hannounce .refl), step_noPayload o.awaited_ne_zero hshort⟩

/-- **`Steps` lead to an offence**, and there it is the error. -/
theorem Offends.exists_stop (h : Offends rest e) :
    ∃ r, Steps (before rest) [] r ∧ r.step = .stop (some e) := by
  cases h with
  | @count line later e hline h =>
      have hstep := step_count hline later
      rw [within_eq_error h] at hstep
      exact ⟨_, .refl, hstep⟩
  | @dollar o line later first hline hfirst hne =>
      exact ⟨_, o.steps _, step_noDollar o.awaited_ne_zero hline hfirst hne later⟩
  | @length o line later e hline h =>
      have hstep := step_length o.args o.awaited_ne_zero hline later
      rw [within_eq_error h] at hstep
      exact ⟨_, o.steps _, hstep⟩
  | @terminator o numeral payload two later h hle htwo hne =>
      have hannounce := step_length o.args o.awaited_ne_zero (crlfIndex_of_isNumber h)
        (payload ++ (two ++ later))
      rw [within_eq_ok h hle] at hannounce
      have hstop := step_payload payload o.args o.awaited_ne_zero htwo later
      rw [if_neg hne] at hstop
      exact ⟨_, (o.steps _).trans (.go hannounce .refl), hstop⟩

end Grammar

end KeyValueServer
