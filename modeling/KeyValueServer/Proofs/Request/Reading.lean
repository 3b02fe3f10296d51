import KeyValueServer.Request.Decoder
import KeyValueServer.Proofs.ByteQueue

/-!
# Reading requests step by step

What a decoder has read, and what waits to be read, is a `Reading`. `Reading.step` takes one line,
one header line or one argument from the bytes that wait (`stepInline`, `stepCount`, `stepLength`,
`stepPayload`), or stops because they do not reach or are no request. A step that goes on looks at
the bytes it takes and at none behind them (`Reading.DependsOn`), so it is the same step whatever
has arrived after them.

## Main results

* `Reading.step_cases`: what `Reading.step` can be.
* `Reading.step_local`: a step that goes on depends on the bytes it takes only.
* `Reading.step_feed_of_failure`: an error stays the same error when more bytes arrive, unless it is
  `headerTooLong`.
* `Reading.sound_of_step`: `Reading.Sound` holds after every step that goes on.
-/

namespace KeyValueServer

/-- A `Reading` is what has been read of the current request, and the bytes that wait. -/
structure Reading where
  /-- The bytes that have arrived and are not read yet. -/
  waiting : Bytes
  /-- The arguments read so far. -/
  args : List Bytes
  /-- The form of the request. -/
  form : Form
  /-- How many arguments are still to come. -/
  awaited : Nat
  /-- The length of the next argument, once its header line has been read. -/
  length? : Option Nat

namespace Reading

/-! ### Steps -/

/-- A `Step` is what one step of reading comes to. -/
inductive Step
  /-- The bytes that wait do not reach, or there is an error in them. -/
  | stop (failure? : Option ProtocolError)
  /-- Bytes have been taken, and a request may be complete with them. -/
  | go (request? : Option (List Bytes)) (r : Reading)

/-- `before waiting` is the reading before a request, with `waiting` still to read. -/
def before (waiting : Bytes) : Reading := ⟨waiting, [], .unknown, 0, none⟩

/-- `r.withWaiting waiting` is `r` with other bytes that wait. -/
def withWaiting (r : Reading) (waiting : Bytes) : Reading := { r with waiting := waiting }

/-- `r.feed later` is `r` when the bytes `later` have arrived. -/
def feed (r : Reading) (later : Bytes) : Reading := r.withWaiting (r.waiting ++ later)

/-- `r.settle` is `r` with the form that the first byte announces, if it is not known yet. -/
def settle (r : Reading) : Reading :=
  match r.form, r.waiting with
  | .unknown, first :: _ => { r with form := Decoder.formOf first }
  | _, _ => r

/-- `stepInline` takes a line as a request, as `Decoder.parseInline` does. -/
def stepInline (r : Reading) : Step :=
  match Bytes.crlfIndex r.waiting with
  | none => .stop none
  | some k => .go (some (Decoder.words (r.waiting.take k))) (before (r.waiting.drop (k + 2)))

/-- `headerEnd waiting` is where the header line that waits ends, or why there is none. -/
def headerEnd (waiting : Bytes) : Except (Option ProtocolError) Nat :=
  match Bytes.crlfIndex waiting with
  | some k => .ok k
  | none =>
    if Limit.header < waiting.length then .error (some (.headerTooLong waiting.length))
    else .error none

/-- `stepCount` takes the header line of a request. -/
def stepCount (r : Reading) : Step :=
  match headerEnd r.waiting with
  | .error failure? => .stop failure?
  | .ok k =>
    match Decoder.announced .arguments ((r.waiting.drop 1).take (k - 1)) with
    | .error e => .stop (some e)
    | .ok count =>
      if Limit.bulk < count then .stop (some (.tooManyArguments count))
      else if count = 0 then .go (some r.args) (before (r.waiting.drop (k + 2)))
      else .go none { r with waiting := r.waiting.drop (k + 2), awaited := count, args := [] }

/-- `stepLength` takes the header line of an argument. -/
def stepLength (r : Reading) : Step :=
  match headerEnd r.waiting with
  | .error failure? => .stop failure?
  | .ok k =>
    if r.waiting.headD 0 = Decoder.dollar then
      match Decoder.announced .payload ((r.waiting.drop 1).take (k - 1)) with
      | .error e => .stop (some e)
      | .ok length =>
        if Limit.bulk < length then .stop (some (.bulkTooLong length))
        else .go none { r with waiting := r.waiting.drop (k + 2), length? := some length }
    else .stop (some (.expectedDollar (r.waiting.headD 0)))

/-- `stepPayload r length` takes an argument of `length` bytes, which may be the last one
awaited. -/
def stepPayload (r : Reading) (length : Nat) : Step :=
  if r.waiting.length < length + 2 then .stop none
  else if (r.waiting.drop length).take 2 = Bytes.crlf then
    if r.awaited = 1 then
      .go (some (r.args ++ [r.waiting.take length])) (before (r.waiting.drop (length + 2)))
    else
      .go none
        { r with
          waiting := r.waiting.drop (length + 2)
          args := r.args ++ [r.waiting.take length]
          awaited := r.awaited - 1
          length? := none }
  else .stop (some .expectedCrlf)

/-- `stepSettled` is the step of the form that is known. Without a form nothing waits. -/
def stepSettled (r : Reading) : Step :=
  match r.form with
  | .unknown => .stop none
  | .inline => r.stepInline
  | .bulk =>
    if r.awaited = 0 then r.stepCount
    else
      match r.length? with
      | none => r.stepLength
      | some length => r.stepPayload length

/-- `r.step` is one step: `stepSettled` after `settle`. -/
def step (r : Reading) : Step :=
  r.settle.stepSettled

/-! ### Bytes that a step takes -/

variable {r r' : Reading} {taken later : Bytes} {k : Nat}

@[simp]
theorem waiting_withWaiting (r : Reading) (waiting : Bytes) :
    (r.withWaiting waiting).waiting = waiting := rfl

@[simp]
theorem form_withWaiting (r : Reading) (waiting : Bytes) :
    (r.withWaiting waiting).form = r.form := rfl

@[simp]
theorem awaited_withWaiting (r : Reading) (waiting : Bytes) :
    (r.withWaiting waiting).awaited = r.awaited := rfl

@[simp]
theorem withWaiting_withWaiting (r : Reading) (waiting waiting' : Bytes) :
    (r.withWaiting waiting).withWaiting waiting' = r.withWaiting waiting' := rfl

@[simp]
theorem withWaiting_self (r : Reading) : r.withWaiting r.waiting = r := rfl

/-- `s.leave later` is the same step with `later` left waiting. -/
def Step.leave : Step → Bytes → Step
  | .stop failure?, _ => .stop failure?
  | .go request? r, waiting => .go request? (r.withWaiting waiting)

/-- `LineAt taken k`: the bytes `taken` are a line, its line end at `k` and nothing behind it. -/
structure LineAt (taken : Bytes) (k : Nat) : Prop where
  length_eq : taken.length = k + 2
  crlfIndex_eq : Bytes.crlfIndex taken = some k

/-- Bytes with a line end begin with a `LineAt`. -/
theorem exists_lineAt {waiting : Bytes} (h : Bytes.crlfIndex waiting = some k) :
    ∃ taken later, waiting = taken ++ later ∧ LineAt taken k := by
  have hle := Bytes.add_two_le_of_crlfIndex h
  have hlength : (waiting.take (k + 2)).length = k + 2 := by
    rw [List.length_take]
    omega
  rw [← List.take_append_drop (k + 2) waiting] at h
  exact ⟨waiting.take (k + 2), waiting.drop (k + 2), (List.take_append_drop _ _).symm, hlength,
    Bytes.crlfIndex_of_append h (Nat.le_of_eq hlength.symm)⟩

namespace LineAt

/-- `Bytes.crlfIndex` finds the line end where it is when bytes are added behind it. -/
theorem crlfIndex_append (h : LineAt taken k) (later : Bytes) :
    Bytes.crlfIndex (taken ++ later) = some k :=
  Bytes.crlfIndex_append h.crlfIndex_eq later

/-- `headerEnd` finds it, too. -/
theorem headerEnd_append (h : LineAt taken k) (later : Bytes) :
    headerEnd (taken ++ later) = .ok k := by
  rw [headerEnd, h.crlfIndex_append]

/-- `headerEnd` of the line alone. -/
theorem headerEnd_eq (h : LineAt taken k) : headerEnd taken = .ok k := by
  rw [headerEnd, h.crlfIndex_eq]

/-- `take` of the line's text is in `taken`. -/
theorem take_append (h : LineAt taken k) (later : Bytes) : (taken ++ later).take k = taken.take k :=
  List.take_append_of_le_length (by rw [h.length_eq]; omega)

/-- What follows the first byte of the line's text is in `taken`. -/
theorem drop_take_append (h : LineAt taken k) (later : Bytes) :
    ((taken ++ later).drop 1).take (k - 1) = (taken.drop 1).take (k - 1) := by
  have hlength := h.length_eq
  rw [List.drop_append_of_le_length (by omega),
    List.take_append_of_le_length (by rw [List.length_drop]; omega)]

/-- The first byte is in `taken`. -/
theorem headD_append (h : LineAt taken k) (later : Bytes) :
    (taken ++ later).headD 0 = taken.headD 0 := by
  have hlength := h.length_eq
  cases taken with
  | nil => simp at hlength
  | cons b rest => rfl

/-- `drop` of the line leaves what is behind `taken`. -/
theorem drop_append (h : LineAt taken k) (later : Bytes) :
    (taken ++ later).drop (k + 2) = later := by
  rw [← h.length_eq]
  exact List.drop_left

/-- **`stepInline`** depends on `taken`, where that is a line. -/
theorem stepInline_append (h : LineAt taken k) (r : Reading) (later : Bytes) :
    (r.withWaiting (taken ++ later)).stepInline =
      (r.withWaiting taken).stepInline.leave later := by
  simp only [stepInline, waiting_withWaiting, h.crlfIndex_append, h.crlfIndex_eq, h.take_append,
    h.drop_append]
  rfl

/-- **`stepCount`** depends on `taken`, where that is a line. -/
theorem stepCount_append (h : LineAt taken k) (r : Reading) (later : Bytes) :
    (r.withWaiting (taken ++ later)).stepCount = (r.withWaiting taken).stepCount.leave later := by
  simp only [stepCount, waiting_withWaiting, h.headerEnd_append, h.headerEnd_eq,
    h.drop_take_append, h.drop_append]
  split
  · rfl
  · split
    · rfl
    · split <;> rfl

/-- **`stepLength`** depends on `taken`, where that is a line. -/
theorem stepLength_append (h : LineAt taken k) (r : Reading) (later : Bytes) :
    (r.withWaiting (taken ++ later)).stepLength = (r.withWaiting taken).stepLength.leave later := by
  simp only [stepLength, waiting_withWaiting, h.headerEnd_append, h.headerEnd_eq,
    h.drop_take_append, h.headD_append, h.drop_append]
  by_cases hfirst : taken.headD 0 = Decoder.dollar
  · simp only [hfirst, if_true]
    split
    · rfl
    · split <;> rfl
  · simp only [hfirst, if_false]
    rfl

/-- `stepCount` does not stop at a line that is there with `headerTooLong`. -/
theorem stepCount_ne_long (h : LineAt taken k) (r : Reading) (n : Nat) :
    (r.withWaiting taken).stepCount ≠ .stop (some (.headerTooLong n)) := by
  simp only [stepCount, waiting_withWaiting, h.headerEnd_eq, Decoder.announced]
  cases Numeral.word? ((taken.drop 1).take (k - 1)) with
  | none => exact nofun
  | some count =>
      by_cases hlimit : Limit.bulk < count
      · simp [hlimit]
      · by_cases hcount : count = 0 <;> simp [hlimit, hcount]

/-- `stepLength` does not stop at a line that is there with `headerTooLong`. -/
theorem stepLength_ne_long (h : LineAt taken k) (r : Reading) (n : Nat) :
    (r.withWaiting taken).stepLength ≠ .stop (some (.headerTooLong n)) := by
  simp only [stepLength, waiting_withWaiting, h.headerEnd_eq, Decoder.announced]
  by_cases hfirst : taken.headD 0 = Decoder.dollar
  · simp only [hfirst, if_true]
    cases Numeral.word? ((taken.drop 1).take (k - 1)) with
    | none => exact nofun
    | some length => by_cases hlimit : Limit.bulk < length <;> simp [hlimit]
  · simp only [hfirst, if_false]
    exact nofun

end LineAt

/-- `stepPayload` never stops with `headerTooLong`. -/
theorem stepPayload_ne_long (r : Reading) (length n : Nat) :
    r.stepPayload length ≠ .stop (some (.headerTooLong n)) := by
  unfold stepPayload
  split
  · exact nofun
  · split
    · split <;> exact nofun
    · exact nofun

/-- **`stepPayload`** depends on `taken`, where that is the argument and two more bytes. -/
theorem stepPayload_append {length : Nat} (h : taken.length = length + 2) (r : Reading)
    (later : Bytes) :
    (r.withWaiting (taken ++ later)).stepPayload length =
      ((r.withWaiting taken).stepPayload length).leave later := by
  have hend : ((taken ++ later).drop length).take 2 = (taken.drop length).take 2 := by
    rw [List.drop_append_of_le_length (by omega),
      List.take_append_of_le_length (by rw [List.length_drop]; omega)]
  have hargument : (taken ++ later).take length = taken.take length :=
    List.take_append_of_le_length (by omega)
  have hrest : (taken ++ later).drop (length + 2) = later := by
    rw [← h]
    exact List.drop_left
  have hreach : ¬ (taken ++ later).length < length + 2 := by
    rw [List.length_append]
    omega
  simp only [stepPayload, waiting_withWaiting, awaited_withWaiting, if_neg hreach, h,
    Nat.lt_irrefl, if_false, hend, hargument, hrest]
  by_cases hcrlf : (taken.drop length).take 2 = Bytes.crlf
  · simp only [hcrlf, if_true]
    by_cases hlast : r.awaited = 1
    · simp only [hlast, if_true]
      rfl
    · simp only [hlast, if_false]
      rfl
  · simp only [hcrlf, if_false]
    rfl

/-! ### Settling the form -/

/-- `settle` leaves the bytes that wait. -/
@[simp]
theorem waiting_settle (r : Reading) : r.settle.waiting = r.waiting := by
  unfold settle
  split <;> rfl

/-- `settle` leaves a form that is known. -/
theorem settle_eq_self (h : r.form ≠ .unknown) : r.settle = r := by
  unfold settle
  split
  · rename_i hform _
    exact absurd hform h
  · rfl

/-- `step` is `stepSettled` where the form is known. -/
theorem step_eq_stepSettled (h : r.form ≠ .unknown) : r.step = r.stepSettled := by
  rw [step, settle_eq_self h]

/-- `settle` leaves the form where nothing waits. -/
theorem settle_of_waiting_nil (h : r.waiting = []) : r.settle = r := by
  unfold settle
  split
  · rename_i hcons
    rw [h] at hcons
    cases hcons
  · rfl

/-- `settle` makes the form known where bytes wait. -/
theorem form_settle_ne_unknown (h : r.waiting ≠ []) : r.settle.form ≠ .unknown := by
  obtain ⟨waiting, args, form, awaited, length?⟩ := r
  cases waiting with
  | nil => exact absurd rfl h
  | cons first rest =>
      cases form with
      | unknown =>
          change Decoder.formOf first ≠ .unknown
          rw [Decoder.formOf]
          split <;> exact nofun
      | inline => exact nofun
      | bulk => exact nofun

/-- `settle` looks at the first byte, whatever waits behind it. -/
theorem settle_withWaiting (hwaiting : r.waiting = taken ++ later) (htaken : taken ≠ [])
    (later' : Bytes) :
    (r.withWaiting (taken ++ later')).settle = r.settle.withWaiting (taken ++ later') := by
  obtain ⟨waiting, args, form, awaited, length?⟩ := r
  obtain rfl : waiting = taken ++ later := hwaiting
  cases taken with
  | nil => exact absurd rfl htaken
  | cons first rest => cases form <;> rfl

/-- `settle` may come before `feed` where bytes wait. -/
theorem settle_feed (h : r.waiting ≠ []) (later : Bytes) :
    (r.feed later).settle = r.settle.feed later := by
  rw [feed, feed, settle_withWaiting (List.append_nil r.waiting).symm h later, waiting_settle]

/-! ### A step depends on the bytes it takes only -/

/-- `r.expectsHeader rest`: a header line comes next when `rest` is what comes next. -/
def expectsHeader (r : Reading) (rest : Bytes) : Bool :=
  match r.form with
  | .unknown => rest.head? == some Decoder.asterisk
  | .inline => false
  | .bulk => r.awaited == 0 || r.length?.isNone

/-- `expectsHeader` holds before `settle` where a header line is expected after it. -/
theorem expectsHeader_of_settle (hform : r.settle.form = .bulk)
    (hheader : r.awaited = 0 ∨ r.length? = none) : r.expectsHeader r.waiting = true := by
  obtain ⟨waiting, args, form, awaited, length?⟩ := r
  cases form with
  | unknown =>
      cases waiting with
      | nil => cases hform
      | cons first rest =>
          change Decoder.formOf first = .bulk at hform
          by_cases hfirst : first = Decoder.asterisk
          · rw [hfirst]
            rfl
          · rw [Decoder.formOf, if_neg hfirst] at hform
            cases hform
  | inline => cases hform
  | bulk =>
      rcases hheader with hawaited | hlength
      · obtain rfl : awaited = 0 := hawaited
        rfl
      · obtain rfl : length? = none := hlength
        exact Bool.or_true _

/-- `settle` changes neither `awaited` nor `length?`. -/
theorem counts_settle (r : Reading) :
    r.settle.awaited = r.awaited ∧ r.settle.length? = r.length? := by
  unfold settle
  split <;> exact ⟨rfl, rfl⟩

/-- `headerEnd` where bytes wait: the line end is missing, or missing for too long, or there. -/
theorem headerEnd_cases (waiting : Bytes) :
    headerEnd waiting = .error none ∨
      (headerEnd waiting = .error (some (.headerTooLong waiting.length)) ∧
        Bytes.crlfIndex waiting = none ∧ Limit.header < waiting.length) ∨
      ∃ k taken later, waiting = taken ++ later ∧ LineAt taken k := by
  cases hcrlf : Bytes.crlfIndex waiting with
  | none =>
      by_cases hlong : Limit.header < waiting.length
      · exact .inr (.inl ⟨by rw [headerEnd, hcrlf]; exact if_pos hlong, rfl, hlong⟩)
      · exact .inl (by rw [headerEnd, hcrlf]; exact if_neg hlong)
  | some k => exact .inr (.inr ⟨k, exists_lineAt hcrlf⟩)

/-- `DependsOn stepOf r taken`: the step `stepOf` depends on the bytes `taken`, with which those
that wait in `r` begin, and not on what is behind them. It does not stop with `headerTooLong`. -/
structure DependsOn (stepOf : Reading → Step) (r : Reading) (taken : Bytes) : Prop where
  two_le_length : 2 ≤ taken.length
  leave : ∀ later, stepOf (r.withWaiting (taken ++ later)) =
    (stepOf (r.withWaiting taken)).leave later
  ne_long : ∀ n, stepOf (r.withWaiting taken) ≠ .stop (some (.headerTooLong n))

/-- `DependsOn` for another step that is the same on `r`. -/
theorem DependsOn.of_eq {stepOf stepOf' : Reading → Step} (h : DependsOn stepOf r taken)
    (heq : ∀ waiting, stepOf' (r.withWaiting waiting) = stepOf (r.withWaiting waiting)) :
    DependsOn stepOf' r taken where
  two_le_length := h.two_le_length
  leave later := by rw [heq, heq, h.leave]
  ne_long n := by
    rw [heq]
    exact h.ne_long n

/-- `DependsOn` excludes `headerTooLong` where more bytes wait behind `taken`. -/
theorem DependsOn.ne_long_of_append {stepOf : Reading → Step} (h : DependsOn stepOf r taken)
    (hwaiting : r.waiting = taken ++ later) (n : Nat) :
    stepOf r ≠ .stop (some (.headerTooLong n)) := by
  intro hlong
  have hall := h.leave later
  rw [← hwaiting, withWaiting_self, hlong] at hall
  cases htaken : stepOf (r.withWaiting taken) with
  | stop failure? =>
      rw [htaken] at hall
      cases hall
      exact h.ne_long n htaken
  | go request? r₀ =>
      rw [htaken] at hall
      cases hall

/-- A `LineAt` holds the two bytes of its end. -/
theorem LineAt.two_le_length (h : LineAt taken k) : 2 ≤ taken.length := by
  rw [h.length_eq]
  exact Nat.le_add_left 2 k

/-- `stepInline` stops for lack of bytes, or depends on the first bytes that wait. -/
theorem stepInline_cases (r : Reading) :
    r.stepInline = .stop none ∨
      ∃ taken later, r.waiting = taken ++ later ∧ DependsOn stepInline r taken := by
  cases hcrlf : Bytes.crlfIndex r.waiting with
  | none => exact .inl (by rw [stepInline, hcrlf])
  | some k =>
      obtain ⟨taken, later, hwaiting, hline⟩ := exists_lineAt hcrlf
      refine .inr ⟨taken, later, hwaiting, hline.two_le_length, hline.stepInline_append r,
        fun n => ?_⟩
      rw [stepInline, waiting_withWaiting, hline.crlfIndex_eq]
      exact nofun

/-- `stepPayload` stops for lack of bytes, or depends on the first bytes that wait. -/
theorem stepPayload_cases (r : Reading) (length : Nat) :
    r.stepPayload length = .stop none ∨
      ∃ taken later, r.waiting = taken ++ later ∧ DependsOn (stepPayload · length) r taken := by
  by_cases hreach : r.waiting.length < length + 2
  · exact .inl (by rw [stepPayload, if_pos hreach])
  · have htaken : (r.waiting.take (length + 2)).length = length + 2 := by
      rw [List.length_take]
      omega
    exact .inr ⟨r.waiting.take (length + 2), r.waiting.drop (length + 2),
      (List.take_append_drop _ _).symm, by rw [htaken]; omega, stepPayload_append htaken r,
      stepPayload_ne_long _ length⟩

/-- A step that takes a header line stops for lack of bytes or with `headerTooLong`, or depends on
the first bytes that wait. -/
theorem header_cases {stepOf : Reading → Step}
    (hstop : ∀ failure?, headerEnd r.waiting = .error failure? → stepOf r = .stop failure?)
    (hline : ∀ taken k, LineAt taken k → DependsOn stepOf r taken) :
    stepOf r = .stop none ∨
      (stepOf r = .stop (some (.headerTooLong r.waiting.length)) ∧
        Bytes.crlfIndex r.waiting = none ∧ Limit.header < r.waiting.length) ∨
      ∃ taken later, r.waiting = taken ++ later ∧ DependsOn stepOf r taken := by
  rcases headerEnd_cases r.waiting with hnone | ⟨hlong, hcrlf, hlt⟩ | ⟨k, taken, later, hwaiting, h⟩
  · exact .inl (hstop _ hnone)
  · exact .inr (.inl ⟨hstop _ hlong, hcrlf, hlt⟩)
  · exact .inr (.inr ⟨taken, later, hwaiting, hline taken k h⟩)

/-- `header_cases` for `stepCount`. -/
theorem stepCount_cases (r : Reading) :
    r.stepCount = .stop none ∨
      (r.stepCount = .stop (some (.headerTooLong r.waiting.length)) ∧
        Bytes.crlfIndex r.waiting = none ∧ Limit.header < r.waiting.length) ∨
      ∃ taken later, r.waiting = taken ++ later ∧ DependsOn stepCount r taken := by
  refine header_cases (fun failure? hend => by rw [stepCount, hend]) fun taken k hline => ?_
  exact ⟨hline.two_le_length, hline.stepCount_append r, hline.stepCount_ne_long r⟩

/-- `header_cases` for `stepLength`. -/
theorem stepLength_cases (r : Reading) :
    r.stepLength = .stop none ∨
      (r.stepLength = .stop (some (.headerTooLong r.waiting.length)) ∧
        Bytes.crlfIndex r.waiting = none ∧ Limit.header < r.waiting.length) ∨
      ∃ taken later, r.waiting = taken ++ later ∧ DependsOn stepLength r taken := by
  refine header_cases (fun failure? hend => by rw [stepLength, hend]) fun taken k hline => ?_
  exact ⟨hline.two_le_length, hline.stepLength_append r, hline.stepLength_ne_long r⟩

/-- `stepSettled` in inline form. -/
theorem stepSettled_of_inline (hform : r.form = .inline) : r.stepSettled = r.stepInline := by
  rw [stepSettled, hform]

/-- `stepSettled` in bulk form, with no argument awaited. -/
theorem stepSettled_of_count (hform : r.form = .bulk) (hawaited : r.awaited = 0) :
    r.stepSettled = r.stepCount := by
  simp only [stepSettled, hform, hawaited, if_true]

/-- `stepSettled` in bulk form, before the header line of an argument. -/
theorem stepSettled_of_length (hform : r.form = .bulk) (hawaited : r.awaited ≠ 0)
    (hlength : r.length? = none) : r.stepSettled = r.stepLength := by
  simp only [stepSettled, hform, hawaited, if_false, hlength]

/-- `stepSettled` in bulk form, once the length of an argument is known. -/
theorem stepSettled_of_payload {length : Nat} (hform : r.form = .bulk) (hawaited : r.awaited ≠ 0)
    (hlength : r.length? = some length) : r.stepSettled = r.stepPayload length := by
  simp only [stepSettled, hform, hawaited, if_false, hlength]

/-- `stepSettled` stops for lack of bytes or with `headerTooLong`, or depends on the first bytes
that wait. -/
theorem stepSettled_cases (r : Reading) :
    r.stepSettled = .stop none ∨
      (r.stepSettled = .stop (some (.headerTooLong r.waiting.length)) ∧ r.form = .bulk ∧
        (r.awaited = 0 ∨ r.length? = none) ∧ Bytes.crlfIndex r.waiting = none ∧
          Limit.header < r.waiting.length) ∨
      ∃ taken later, r.waiting = taken ++ later ∧ DependsOn stepSettled r taken := by
  cases hform : r.form with
  | unknown => exact .inl (by rw [stepSettled, hform])
  | inline =>
      have hstep : ∀ waiting, (r.withWaiting waiting).stepSettled =
          (r.withWaiting waiting).stepInline :=
        fun _ => stepSettled_of_inline hform
      rcases r.stepInline_cases with hnone | ⟨taken, later, hwaiting, hdepends⟩
      · exact .inl ((hstep r.waiting).trans hnone)
      · exact .inr (.inr ⟨taken, later, hwaiting, hdepends.of_eq hstep⟩)
  | bulk =>
      by_cases hawaited : r.awaited = 0
      · have hstep : ∀ waiting, (r.withWaiting waiting).stepSettled =
            (r.withWaiting waiting).stepCount :=
          fun _ => stepSettled_of_count hform hawaited
        rcases r.stepCount_cases with hnone | ⟨hlong, hheader⟩ | ⟨taken, later, hwaiting, hdepends⟩
        · exact .inl ((hstep r.waiting).trans hnone)
        · exact .inr (.inl ⟨(hstep r.waiting).trans hlong, rfl, .inl hawaited, hheader⟩)
        · exact .inr (.inr ⟨taken, later, hwaiting, hdepends.of_eq hstep⟩)
      · cases hlength : r.length? with
        | none =>
            have hstep : ∀ waiting, (r.withWaiting waiting).stepSettled =
                (r.withWaiting waiting).stepLength :=
              fun _ => stepSettled_of_length hform hawaited hlength
            rcases r.stepLength_cases with hnone | ⟨hlong, hheader⟩ |
              ⟨taken, later, hwaiting, hdepends⟩
            · exact .inl ((hstep r.waiting).trans hnone)
            · exact .inr (.inl ⟨(hstep r.waiting).trans hlong, rfl, .inr rfl, hheader⟩)
            · exact .inr (.inr ⟨taken, later, hwaiting, hdepends.of_eq hstep⟩)
        | some length =>
            have hstep : ∀ waiting, (r.withWaiting waiting).stepSettled =
                (r.withWaiting waiting).stepPayload length :=
              fun _ => stepSettled_of_payload hform hawaited hlength
            rcases r.stepPayload_cases length with hnone | ⟨taken, later, hwaiting, hdepends⟩
            · exact .inl ((hstep r.waiting).trans hnone)
            · exact .inr (.inr ⟨taken, later, hwaiting, hdepends.of_eq hstep⟩)

/-- **`step`** stops for lack of bytes or with `headerTooLong`, or depends on the first bytes that
wait. -/
theorem step_cases (r : Reading) :
    r.step = .stop none ∨
      (r.step = .stop (some (.headerTooLong r.waiting.length)) ∧
        r.expectsHeader r.waiting = true ∧ Bytes.crlfIndex r.waiting = none ∧
          Limit.header < r.waiting.length) ∨
      ∃ taken later, r.waiting = taken ++ later ∧ DependsOn step r taken := by
  rcases r.settle.stepSettled_cases with hnone | ⟨hlong, hform, hheader, hcrlf, hlt⟩ |
    ⟨taken, later, hwaiting, htwo, hleave, hne⟩
  · exact .inl hnone
  · rw [waiting_settle] at hlong hcrlf hlt
    rw [r.counts_settle.1, r.counts_settle.2] at hheader
    exact .inr (.inl ⟨hlong, expectsHeader_of_settle hform hheader, hcrlf, hlt⟩)
  · rw [waiting_settle] at hwaiting
    have htaken : taken ≠ [] := by
      rintro rfl
      cases htwo
    have hsettle := settle_withWaiting hwaiting htaken
    have hnil := hsettle []
    rw [List.append_nil] at hnil
    refine .inr (.inr ⟨taken, later, hwaiting, htwo, fun later' => ?_, fun n => ?_⟩)
    · rw [step, step, hsettle, hnil]
      exact hleave later'
    · rw [step, hnil]
      exact hne n

/-- `step` stops with `headerTooLong` only where a header line is expected and no line end waits. -/
theorem header_of_step_long {n : Nat} (h : r.step = .stop (some (.headerTooLong n))) :
    r.expectsHeader r.waiting = true ∧ Bytes.crlfIndex r.waiting = none ∧
      Limit.header < r.waiting.length := by
  rcases r.step_cases with hnone | ⟨-, hheader⟩ | ⟨taken, later, hwaiting, hdepends⟩
  · rw [hnone] at h
    cases h
  · exact hheader
  · exact absurd h (hdepends.ne_long_of_append hwaiting n)

/-- **A `step` that goes on** takes bytes from the front, and is the same step whatever is behind
them. -/
theorem step_local {request? : Option (List Bytes)} (h : r.step = .go request? r') :
    ∃ taken, r.waiting = taken ++ r'.waiting ∧ 2 ≤ taken.length ∧
      ∀ later, (r.withWaiting (taken ++ later)).step = .go request? (r'.withWaiting later) := by
  rcases r.step_cases with hnone | ⟨hlong, -⟩ | ⟨taken, later, hwaiting, htwo, hleave, -⟩
  · rw [hnone] at h
    cases h
  · rw [hlong] at h
    cases h
  · have hall := hleave later
    rw [← hwaiting, withWaiting_self, h] at hall
    cases htaken : (r.withWaiting taken).step with
    | stop failure? =>
        rw [htaken] at hall
        cases hall
    | go request?' r₀ =>
        rw [htaken] at hall
        cases hall
        refine ⟨taken, hwaiting, htwo, fun later' => ?_⟩
        rw [hleave later', htaken]
        rfl

/-- **A `step` that stops at an error** stops at the same error when more bytes arrive, unless that
is `headerTooLong`. -/
theorem step_feed_of_failure {e : ProtocolError} (h : r.step = .stop (some e))
    (hlong : ∀ n, e ≠ .headerTooLong n) (later : Bytes) :
    (r.feed later).step = .stop (some e) := by
  rcases r.step_cases with hnone | ⟨hheader, -⟩ | ⟨taken, later', hwaiting, -, hleave, -⟩
  · rw [hnone] at h
    cases h
  · rw [hheader] at h
    cases h
    exact absurd rfl (hlong _)
  · have hall := hleave later'
    rw [← hwaiting, withWaiting_self, h] at hall
    rw [feed, hwaiting, List.append_assoc, hleave]
    cases htaken : (r.withWaiting taken).step with
    | stop failure? =>
        rw [htaken] at hall
        exact hall.symm
    | go request? r₀ =>
        rw [htaken] at hall
        cases hall

/-- `step` stops for lack of bytes where nothing waits. -/
theorem step_of_waiting_nil (h : r.waiting = []) : r.step = .stop none := by
  rcases r.step_cases with hnone | ⟨-, -, -, hlt⟩ | ⟨taken, later, hwaiting, htwo, -⟩
  · exact hnone
  · rw [h] at hlt
    cases hlt
  · rw [h] at hwaiting
    rw [(List.append_eq_nil_iff.1 hwaiting.symm).1] at htwo
    cases htwo

/-! ### Settling before more bytes arrive -/

/-- `settle` before `feed` makes no difference to `settle` after it. -/
theorem settle_feed_settle (r : Reading) (later : Bytes) :
    (r.settle.feed later).settle = (r.feed later).settle := by
  by_cases hwaiting : r.waiting = []
  · rw [settle_of_waiting_nil hwaiting]
  · have hknown : (r.settle.feed later).form ≠ .unknown := form_settle_ne_unknown hwaiting
    rw [settle_eq_self hknown, settle_feed hwaiting]

/-- `settle` is idempotent. -/
theorem settle_settle (r : Reading) : r.settle.settle = r.settle := by
  have h := r.settle_feed_settle []
  rwa [feed, feed, List.append_nil, List.append_nil, withWaiting_self, withWaiting_self] at h

/-- `step` depends on the settled reading only. -/
theorem step_eq_of_settle_eq {r₁ : Reading} (h : r.settle = r₁.settle) : r.step = r₁.step :=
  congrArg stepSettled h

/-! ### The byte that opens a request in bulk form -/

/-- `r.Sound`: where the header line of a request in bulk form is awaited, its first byte, an
asterisk, waits. -/
def Sound (r : Reading) : Prop :=
  r.form = .bulk → r.awaited = 0 → r.waiting.head? = some Decoder.asterisk

/-- `settle` keeps `Sound`: it has looked at the first byte. -/
theorem Sound.settle (h : r.Sound) : r.settle.Sound := by
  intro hform hawaited
  obtain ⟨waiting, args, form, awaited, length?⟩ := r
  cases form with
  | unknown =>
      cases waiting with
      | nil => cases hform
      | cons first rest =>
          change Decoder.formOf first = .bulk at hform
          by_cases hfirst : first = Decoder.asterisk
          · exact congrArg some hfirst
          · rw [Decoder.formOf, if_neg hfirst] at hform
            cases hform
  | inline => exact h hform hawaited
  | bulk => exact h hform hawaited

/-- `feed` keeps `Sound`: more bytes stand behind the first. -/
theorem Sound.feed (h : r.Sound) (later : Bytes) : (r.feed later).Sound := by
  intro hform hawaited
  have hhead := h hform hawaited
  change (r.waiting ++ later).head? = _
  cases hwaiting : r.waiting with
  | nil =>
      rw [hwaiting] at hhead
      cases hhead
  | cons first rest =>
      rw [hwaiting] at hhead
      exact hhead

/-- `before` is `Sound`, since no form is known. -/
theorem sound_before (waiting : Bytes) : (before waiting).Sound := nofun

/-- `Sound` where arguments are awaited, since the header line of the request has been read. -/
theorem sound_of_awaited_ne_zero (h : r.awaited ≠ 0) : r.Sound :=
  fun _ hawaited => absurd hawaited h

section

variable {request? : Option (List Bytes)}

/-- `stepInline` leads to a `Sound` reading: behind a line a request begins. -/
theorem sound_of_stepInline (h : r.stepInline = .go request? r') : r'.Sound := by
  rw [stepInline] at h
  cases hcrlf : Bytes.crlfIndex r.waiting with
  | none =>
      rw [hcrlf] at h
      cases h
  | some k =>
      rw [hcrlf] at h
      cases h
      exact sound_before _

/-- `stepCount` leads to a `Sound` reading: arguments are awaited, or a request begins. -/
theorem sound_of_stepCount (h : r.stepCount = .go request? r') : r'.Sound := by
  unfold stepCount at h
  split at h
  · cases h
  · split at h
    · cases h
    · split at h
      · cases h
      · split at h
        · cases h
          exact sound_before _
        · rename_i hcount
          cases h
          exact sound_of_awaited_ne_zero hcount

/-- `stepLength` leads to a `Sound` reading: arguments are still awaited. -/
theorem sound_of_stepLength (hawaited : r.awaited ≠ 0) (h : r.stepLength = .go request? r') :
    r'.Sound := by
  unfold stepLength at h
  split at h
  · cases h
  · split at h
    · split at h
      · cases h
      · split at h
        · cases h
        · cases h
          exact sound_of_awaited_ne_zero hawaited
    · cases h

/-- `stepPayload` leads to a `Sound` reading: other arguments are awaited, or a request begins. -/
theorem sound_of_stepPayload {length : Nat} (hawaited : r.awaited ≠ 0)
    (h : r.stepPayload length = .go request? r') : r'.Sound := by
  unfold stepPayload at h
  split at h
  · cases h
  · split at h
    · split at h
      · cases h
        exact sound_before _
      · rename_i hlast
        cases h
        refine sound_of_awaited_ne_zero ?_
        change r.awaited - 1 ≠ 0
        omega
    · cases h

/-- **`step`** leads from any reading to a `Sound` one. -/
theorem sound_of_step (h : r.step = .go request? r') : r'.Sound := by
  rw [step] at h
  cases hform : r.settle.form with
  | unknown =>
      rw [stepSettled, hform] at h
      cases h
  | inline =>
      rw [stepSettled_of_inline hform] at h
      exact sound_of_stepInline h
  | bulk =>
      by_cases hawaited : r.settle.awaited = 0
      · rw [stepSettled_of_count hform hawaited] at h
        exact sound_of_stepCount h
      · cases hlength : r.settle.length? with
        | none =>
            rw [stepSettled_of_length hform hawaited hlength] at h
            exact sound_of_stepLength hawaited h
        | some length =>
            rw [stepSettled_of_payload hform hawaited hlength] at h
            exact sound_of_stepPayload hawaited h

end

end Reading

end KeyValueServer
