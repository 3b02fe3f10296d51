import KeyValueServer.Proofs.Numeral
import KeyValueServer.Proofs.Text.Utf8
import KeyValueServer.Reply

/-!
# Replies can be told apart

`Reply.encode` writes the length of a payload in front of it with nothing between the two, and the
payload may itself begin with digits. A reply can be told from its bytes all the same: the length in
front of a longer payload never has fewer digits, so that all the bytes together say how long the
payload is.

In a row, replies have only their line ends to be told apart by. These are enough as long as neither
a payload nor the name of a command brings line ends of its own (`Reply.IsPlain`): a payload has a
digit in front of it and a name is quoted, so neither closes a line end that something else opens.

## Main results

* `Numeral.prefixed_injective`: a payload behind its length.
* `Reply.line_injective`, `crlfIndex_line_eq_none`: what stands before the line end of a reply.
* `Reply.encodings_differ`: different replies, and different rows of replies.
-/

namespace KeyValueServer

open Bytes Numeral

/-! ### A payload behind its length -/

namespace Numeral

/-- **A payload behind its `decimalBytes` length is known from the bytes together.** -/
theorem prefixed_injective {p q : Bytes}
    (h : decimalBytes p.length ++ p = decimalBytes q.length ++ q) : p = q := by
  have htotal := congrArg List.length h
  rw [List.length_append, List.length_append] at htotal
  -- of two lengths the greater one takes no fewer digits
  have hlength : p.length = q.length := by
    rcases Nat.le_total p.length q.length with hle | hle
    · have hdigits := length_decimalBytes_mono hle
      omega
    · have hdigits := length_decimalBytes_mono hle
      omega
  rw [hlength] at h
  exact List.append_cancel_left h

end Numeral

/-! ### The wording of a refusal -/

namespace CommandError

/-- `e.opening` is how the wording begins. -/
def opening : CommandError → Bytes
  | .unknownCommand _ => ofText "unknown"
  | .wrongArity _ => ofText "wrong n"
  | .wrongType => ofText "wrong t"
  | .notInteger => ofText "value i"

/-- `message` of an unknown command quotes the name. -/
theorem ofText_message_unknownCommand (name : String) :
    ofText (unknownCommand name).message =
      ofText "unknown command '" ++ (ofText name ++ ofText "'") := by
  change ofText ("unknown command '" ++ name ++ "'") = _
  rw [ofText_append, ofText_append, List.append_assoc]

/-- `message` of a wrong number of arguments quotes the name. -/
theorem ofText_message_wrongArity (name : String) :
    ofText (wrongArity name).message =
      ofText "wrong number of arguments for '" ++ (ofText name ++ ofText "'") := by
  change ofText ("wrong number of arguments for '" ++ name ++ "'") = _
  rw [ofText_append, ofText_append, List.append_assoc]

/-- `opening` are the first seven bytes of `message`. -/
theorem take_message (e : CommandError) : (ofText e.message).take 7 = e.opening := by
  cases e with
  | unknownCommand name =>
      rw [ofText_message_unknownCommand, List.take_append_of_le_length (by decide)]
      rfl
  | wrongArity name =>
      rw [ofText_message_wrongArity, List.take_append_of_le_length (by decide)]
      rfl
  | wrongType => rfl
  | notInteger => rfl

/-- **`message` is injective**: every refusal has a wording of its own. -/
theorem message_injective {a b : CommandError} (h : ofText a.message = ofText b.message) :
    a = b := by
  have hopening : a.opening = b.opening := by rw [← take_message, ← take_message, h]
  cases a <;> cases b
  case unknownCommand.unknownCommand name name' =>
    rw [ofText_message_unknownCommand, ofText_message_unknownCommand] at h
    have hname := List.append_cancel_right (List.append_cancel_left h)
    rw [ofText_injective hname]
  case wrongArity.wrongArity name name' =>
    rw [ofText_message_wrongArity, ofText_message_wrongArity] at h
    have hname := List.append_cancel_right (List.append_cancel_left h)
    rw [ofText_injective hname]
  case wrongType.wrongType => rfl
  case notInteger.notInteger => rfl
  -- wordings of different kinds begin differently
  all_goals exact absurd hopening (by dsimp only [opening]; decide)

/-- `e.HasPlainName`: no line end stands in a name that the refusal quotes. -/
def HasPlainName : CommandError → Prop
  | .unknownCommand name | .wrongArity name => ¬ crlf <:+: ofText name
  | .wrongType | .notInteger => True

instance : DecidablePred HasPlainName
  | .unknownCommand name | .wrongArity name =>
    inferInstanceAs (Decidable (¬ crlf <:+: ofText name))
  | .wrongType | .notInteger => .isTrue trivial

/-- A quoted text has a line end when the text has one. -/
theorem crlfIndex_quoted_eq_none_iff {front : Bytes} (hfront : carriageReturn ∉ front)
    (bytes : Bytes) :
    crlfIndex (front ++ (bytes ++ ofText "'")) = none ↔ crlfIndex bytes = none := by
  have hquote : (ofText "'").head? ≠ some lineFeed := by decide
  rw [crlfIndex_append_of_notMem hfront, crlfIndex_append_eq_none_iff]
  constructor
  · rintro ⟨hbytes, -, -⟩
    exact hbytes
  · intro hbytes
    exact ⟨hbytes, rfl, fun h => hquote h.2⟩

/-- **`message` has a line end when the name that it quotes has one.** -/
theorem crlfIndex_message_eq_none_iff (e : CommandError) :
    crlfIndex (ofText e.message) = none ↔ e.HasPlainName := by
  cases e with
  | unknownCommand name =>
      rw [ofText_message_unknownCommand, crlfIndex_quoted_eq_none_iff (by decide),
        crlfIndex_eq_none_iff_not_within, HasPlainName]
  | wrongArity name =>
      rw [ofText_message_wrongArity, crlfIndex_quoted_eq_none_iff (by decide),
        crlfIndex_eq_none_iff_not_within, HasPlainName]
  | wrongType => exact iff_of_true (by decide) trivial
  | notInteger => exact iff_of_true (by decide) trivial

end CommandError

/-! ### The line of a reply -/

namespace Reply

/-- `r.line` are the bytes of a reply before its line end. -/
def line : Reply → Bytes
  | .done => ofText "+OK"
  | .nil => ofText "$-1"
  | .bulk value => ofText "$" ++ (decimalBytes value.bytes.length ++ value.bytes)
  | .refused error => ofText "-ERR: " ++ ofText error.message

/-- `encode` is the `line` and a line end. -/
theorem encode_eq (r : Reply) : r.encode = r.line ++ crlf := by
  cases r with
  | done => rfl
  | nil => rfl
  | bulk value => simp only [encode, line, decimalBytes, List.append_assoc]
  | refused error => rfl

/-- `r.IsText`: a value that is answered is a string. -/
def IsText : Reply → Prop
  | .bulk value => value.kind = .str
  | .done | .nil | .refused _ => True

/-- `r.IsPlain`: no line end stands in a payload, nor in a name that is quoted. -/
def IsPlain : Reply → Prop
  | .bulk value => ¬ crlf <:+: value.bytes
  | .refused error => error.HasPlainName
  | .done | .nil => True

instance : DecidablePred IsText
  | .bulk value => inferInstanceAs (Decidable (value.kind = .str))
  | .done | .nil | .refused _ => .isTrue trivial

instance : DecidablePred IsPlain
  | .bulk value => inferInstanceAs (Decidable (¬ crlf <:+: value.bytes))
  | .refused error => inferInstanceAs (Decidable error.HasPlainName)
  | .done | .nil => .isTrue trivial

/-- `r.opening` is the byte that a reply begins with. -/
def opening : Reply → UInt8
  | .done => 43
  | .nil | .bulk _ => 36
  | .refused _ => 45

/-- `line` begins with `opening`. -/
theorem head?_line (r : Reply) : r.line.head? = some r.opening := by
  cases r <;> rfl

/-- `line` of a missing value is that of no payload. -/
theorem line_nil_ne_line_bulk (value : Value) : nil.line ≠ (bulk value).line := by
  intro h
  have hnil : nil.line = ofText "$" ++ ofText "-1" := rfl
  rw [hnil, line] at h
  have hlength := List.append_cancel_left h
  have hmem : (45 : UInt8) ∈ decimalBytes value.bytes.length := by
    obtain ⟨b, digits, hdigits⟩ :=
      List.exists_cons_of_ne_nil (denotes_decimal value.bytes.length).ne_nil
    rw [hdigits] at hlength ⊢
    have hhead : some (45 : UInt8) = some b := congrArg List.head? hlength
    rw [Option.some.inj hhead]
    exact List.mem_cons_self
  exact (denotes_decimal _).notMem (by decide) hmem

/-- Strings of the same bytes are the same. -/
theorem eq_of_bytes_eq {value value' : Value} (h : value.kind = .str) (h' : value'.kind = .str)
    (hbytes : value.bytes = value'.bytes) : value = value' := by
  cases value with
  | int n => cases h
  | str bytes =>
      cases value' with
      | int n => cases h'
      | str bytes' => exact congrArg Value.str hbytes

/-- **`line` is injective** on replies that are `IsText`. -/
theorem line_injective {r s : Reply} (hr : r.IsText) (hs : s.IsText) (h : r.line = s.line) :
    r = s := by
  have hopening : r.opening = s.opening := by
    rw [← Option.some_inj, ← head?_line, ← head?_line, h]
  cases r <;> cases s
  case done.done => rfl
  case nil.nil => rfl
  case nil.bulk value => exact absurd h (line_nil_ne_line_bulk value)
  case bulk.nil value => exact absurd h.symm (line_nil_ne_line_bulk value)
  case bulk.bulk value value' =>
    have hbytes := prefixed_injective (List.append_cancel_left h)
    rw [eq_of_bytes_eq hr hs hbytes]
  case refused.refused error error' =>
    rw [CommandError.message_injective (List.append_cancel_left h)]
  -- replies of other kinds begin differently
  all_goals cases hopening

/-- `line` of a reply that is `IsPlain` holds no line end. -/
theorem crlfIndex_line_eq_none {r : Reply} (h : r.IsPlain) : crlfIndex r.line = none := by
  cases r with
  | done => decide
  | nil => decide
  | bulk value =>
      have hdigits : carriageReturn ∉ decimalBytes value.bytes.length :=
        (denotes_decimal _).notMem (by decide)
      rw [line, crlfIndex_append_of_notMem (by decide), crlfIndex_append_of_notMem hdigits]
      exact crlfIndex_eq_none_iff_not_within.2 h
  | refused error =>
      rw [line, crlfIndex_append_of_notMem (by decide)]
      exact error.crlfIndex_message_eq_none_iff.2 h

/-- **Replies can be told apart** by `encode`. Two different replies have different encodings,
whatever the payloads and the names are. So do two different rows of replies, as long as all of them
are `IsPlain`: no payload and no name has a line end in it. -/
theorem encodings_differ :
    (∀ r s : Reply, r.IsText → s.IsText → r ≠ s → r.encode ≠ s.encode) ∧
      ∀ rs ss : List Reply, (∀ r ∈ rs, r.IsText ∧ r.IsPlain) → (∀ s ∈ ss, s.IsText ∧ s.IsPlain) →
        rs ≠ ss → rs.flatMap encode ≠ ss.flatMap encode := by
  constructor
  · intro r s hr hs hne hencode
    rw [encode_eq, encode_eq] at hencode
    exact hne (line_injective hr hs (List.append_cancel_right hencode))
  · intro rs ss hrs hss hne hencode
    have hlines : encode = fun r => r.line ++ crlf := funext encode_eq
    rw [hlines] at hencode
    refine hne (flatMap_line_injective ?_ ?_ ?_ hencode)
    · intro r hr s hs hline
      exact line_injective (hrs r hr).1 (hss s hs).1 hline
    · intro r hr
      exact crlfIndex_line_eq_none (hrs r hr).2
    · intro s hs
      exact crlfIndex_line_eq_none (hss s hs).2

/-- The payload `1` behind its length against eleven bytes behind theirs, which both begin with the
same digits; and two payloads in a row, the first of which ends in one half of a line end and the
second of which begins with the other, against the same two the other way round. -/
theorem encodings_differ_ofDigits :
    (bulk (.ofText "1")).encode ≠ (bulk (.ofText "elevenbytes")).encode ∧
      [bulk (.str [carriageReturn]), bulk (.str [lineFeed])].flatMap encode ≠
        [bulk (.str [lineFeed]), bulk (.str [carriageReturn])].flatMap encode :=
  ⟨encodings_differ.1 _ _ rfl rfl (by decide),
    encodings_differ.2 _ _ (by decide) (by decide) (by decide)⟩

end Reply

end KeyValueServer
