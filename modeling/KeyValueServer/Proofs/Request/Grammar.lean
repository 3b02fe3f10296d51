import KeyValueServer.Proofs.Line
import KeyValueServer.Proofs.Numeral

/-!
# The grammar of requests

A stream is a sequence of words, and each `Grammar.Word` is a request. A word is a line of tokens
between single spaces, or it is in bulk form: a header line that announces a number of blocks, and
as many blocks. A `Grammar.Block` is a header line that announces a number of bytes, and as many
bytes with a line end behind them. Numbers are decimal, may have a plus sign in front
(`Numeral.IsNumber`), and are capped by `Limit.bulk`.

What is behind the last word of a stream is the beginning of a word, or it `Offends`: a header line
announces no number up to the cap, or begins with the wrong byte, or a payload has no line end
behind it. An offence is there once the line, or the two bytes behind the payload, are.

## Main definitions

* `Grammar.Word`: a request as it is written, with its bytes and its arguments.
* `Grammar.Offends`, `Unfinished`, `StopsInHeader`: what may be behind the last word.
* `Grammar.Completable`: the beginnings of words.
-/

namespace KeyValueServer

namespace Grammar

open Bytes Decoder Numeral

/-! ### Words -/

/-- A `Block` is an argument in bulk form. -/
structure Block where
  /-- What the header line announces: the length of `payload`. -/
  numeral : Bytes
  /-- The argument. -/
  payload : Bytes
  isNumber : IsNumber numeral payload.length
  length_le : payload.length ≤ Limit.bulk

/-- `b.bytes` is the block as it is written. -/
def Block.bytes (b : Block) : Bytes :=
  dollar :: b.numeral ++ (crlf ++ (b.payload ++ crlf))

/-- A `Word` is a request as it is written. -/
inductive Word
  /-- A number of blocks. -/
  | bulk (numeral : Bytes) (blocks : List Block) (isNumber : IsNumber numeral blocks.length)
      (length_le : blocks.length ≤ Limit.bulk)
  /-- A line that does not look like a request in bulk form. Without tokens it is empty, so one
  empty token cannot be written. -/
  | line (tokens : List Bytes) (spaceless : ∀ token ∈ tokens, space ∉ token)
      (not_lone : tokens ≠ [[]]) (one_line : crlfIndex (join space tokens) = none)
      (not_bulk : (join space tokens).head? ≠ some asterisk)

/-- `w.bytes` is the request as it is written. -/
def Word.bytes : Word → Bytes
  | .bulk numeral blocks _ _ => asterisk :: numeral ++ (crlf ++ blocks.flatMap Block.bytes)
  | .line tokens _ _ _ _ => join space tokens ++ crlf

/-- `w.args` are the arguments of the request. -/
def Word.args : Word → List Bytes
  | .bulk _ blocks _ _ => blocks.map Block.payload
  | .line tokens _ _ _ _ => tokens

/-- `Word.ofLine line` is the request on any line that does not look like one in bulk form. -/
def Word.ofLine (line : Bytes) (hline : crlfIndex line = none)
    (hhead : line.head? ≠ some asterisk) : Word :=
  .line (words line) (fun _ => notMem_of_mem_words) (words_ne_lone line)
    (by rw [join_words, hline]) (by rw [join_words]; exact hhead)

/-- `Word.ofLine` is written as the line and its end. -/
theorem Word.bytes_ofLine {line : Bytes} (hline : crlfIndex line = none)
    (hhead : line.head? ≠ some asterisk) : (ofLine line hline hhead).bytes = line ++ crlf :=
  congrArg (· ++ crlf) (join_words line)

/-- An `Opening` is a request in bulk form up to one of its arguments. -/
structure Opening where
  /-- What the header line announces. -/
  numeral : Bytes
  /-- How many arguments that is. -/
  count : Nat
  /-- The arguments before. -/
  blocks : List Block
  isNumber : IsNumber numeral count
  count_le : count ≤ Limit.bulk
  length_lt : blocks.length < count

namespace Opening

/-- `o.bytes` is the opening as it is written. -/
def bytes (o : Opening) : Bytes :=
  asterisk :: o.numeral ++ (crlf ++ o.blocks.flatMap Block.bytes)

/-- `o.args` are the arguments before. -/
def args (o : Opening) : List Bytes := o.blocks.map Block.payload

/-- `o.awaited` is how many arguments are missing. -/
def awaited (o : Opening) : Nat := o.count - o.blocks.length

/-- `Opening.first` is the opening before the first argument. -/
def first {numeral : Bytes} {count : Nat} (h : IsNumber numeral count) (hle : count ≤ Limit.bulk)
    (hne : count ≠ 0) : Opening :=
  ⟨numeral, count, [], h, hle, Nat.pos_of_ne_zero hne⟩

/-- `o.add b` is the opening one argument later, if more than one is missing. -/
def add (o : Opening) (b : Block) (h : o.awaited ≠ 1) : Opening where
  numeral := o.numeral
  count := o.count
  blocks := o.blocks ++ [b]
  isNumber := o.isNumber
  count_le := o.count_le
  length_lt := by
    have hlt := o.length_lt
    rw [awaited] at h
    rw [List.length_append, List.length_singleton]
    omega

/-- `o.close b` is the request that is complete with the argument `b`. -/
def close (o : Opening) (b : Block) (h : o.awaited = 1) : Word :=
  have hlength : (o.blocks ++ [b]).length = o.count := by
    have hlt := o.length_lt
    rw [awaited] at h
    rw [List.length_append, List.length_singleton]
    omega
  .bulk o.numeral (o.blocks ++ [b]) (by rw [hlength]; exact o.isNumber)
    (by rw [hlength]; exact o.count_le)

/-- An `Opening` has an argument missing. -/
theorem awaited_ne_zero (o : Opening) : o.awaited ≠ 0 := by
  have hlt := o.length_lt
  rw [awaited]
  omega

/-- `add` leaves one argument less missing. -/
theorem awaited_add (o : Opening) (b : Block) (h : o.awaited ≠ 1) :
    (o.add b h).awaited = o.awaited - 1 := by
  simp only [awaited, add, List.length_append, List.length_singleton]
  omega

/-- `add` writes the block behind the opening. -/
theorem bytes_add (o : Opening) (b : Block) (h : o.awaited ≠ 1) :
    (o.add b h).bytes = o.bytes ++ b.bytes := by
  simp [bytes, add]

/-- `close` writes the block behind the opening. -/
theorem bytes_close (o : Opening) (b : Block) (h : o.awaited = 1) :
    (o.close b h).bytes = o.bytes ++ b.bytes := by
  simp [bytes, close, Word.bytes]

/-- `add` puts the payload behind the arguments. -/
theorem args_add (o : Opening) (b : Block) (h : o.awaited ≠ 1) :
    (o.add b h).args = o.args ++ [b.payload] :=
  List.map_append

/-- `close` puts the payload behind the arguments. -/
theorem args_close (o : Opening) (b : Block) (h : o.awaited = 1) :
    (o.close b h).args = o.args ++ [b.payload] :=
  List.map_append

end Opening

/-! ### Numbers that are announced -/

/-- `overCap what n` is the error of a number `n` above the cap. -/
def overCap : Announcement → Nat → ProtocolError
  | .arguments, n => .tooManyArguments n
  | .payload, n => .bulkTooLong n

/-- `Misannounced what raw e`: no number up to the cap is announced. A number that is no 64-bit word
is not taken for a number. -/
inductive Misannounced (what : Announcement) (raw : Bytes) : ProtocolError → Prop
  | noWord (h : ∀ n < UInt64.size, ¬ IsNumber raw n) :
      Misannounced what raw (.invalidLength what raw)
  | overCap {n : Nat} (h : IsNumber raw n) (hword : n < UInt64.size) (hcap : Limit.bulk < n) :
      Misannounced what raw (overCap what n)

/-! ### What is behind the last word -/

/-- `StopsInHeader rest line`: the header line of a request or of an argument is missing its end,
and `line` is what there is of it. -/
inductive StopsInHeader : Bytes → Bytes → Prop
  | count {line : Bytes} (hhead : line.head? = some asterisk) (hline : crlfIndex line = none) :
      StopsInHeader line line
  | length (o : Opening) {line : Bytes} (hline : crlfIndex line = none) :
      StopsInHeader (o.bytes ++ line) line

/-- `Offends rest e`: a line, or what should be a line end, is all there and wrong. -/
inductive Offends : Bytes → ProtocolError → Prop
  | count {line later : Bytes} {e : ProtocolError} (hline : crlfIndex line = none)
      (h : Misannounced .arguments line e) : Offends (asterisk :: line ++ (crlf ++ later)) e
  | dollar (o : Opening) {line later : Bytes} {first : UInt8} (hline : crlfIndex line = none)
      (hfirst : (line ++ crlf).head? = some first) (hne : first ≠ dollar) :
      Offends (o.bytes ++ (line ++ (crlf ++ later))) (.expectedDollar first)
  | length (o : Opening) {line later : Bytes} {e : ProtocolError} (hline : crlfIndex line = none)
      (h : Misannounced .payload line e) :
      Offends (o.bytes ++ (Decoder.dollar :: line ++ (crlf ++ later))) e
  | terminator (o : Opening) {numeral payload two later : Bytes}
      (h : IsNumber numeral payload.length) (hle : payload.length ≤ Limit.bulk)
      (htwo : two.length = 2) (hne : two ≠ crlf) :
      Offends (o.bytes ++ (Decoder.dollar :: numeral ++ (crlf ++ (payload ++ (two ++ later)))))
        .expectedCrlf

/-- `Unfinished rest`: a line, a header line that is not too long, or a payload is not all there. -/
inductive Unfinished : Bytes → Prop
  | line {rest : Bytes} (hhead : rest.head? ≠ some asterisk) (hline : crlfIndex rest = none) :
      Unfinished rest
  | header {rest line : Bytes} (h : StopsInHeader rest line) (hle : line.length ≤ Limit.header) :
      Unfinished rest
  | payload (o : Opening) {numeral front : Bytes} {length : Nat} (h : IsNumber numeral length)
      (hle : length ≤ Limit.bulk) (hshort : front.length < length + 2) :
      Unfinished (o.bytes ++ (dollar :: numeral ++ (crlf ++ front)))

/-- `Completable rest`: some bytes behind `rest` make it a word. -/
def Completable (rest : Bytes) : Prop := ∃ (later : Bytes) (w : Word), rest ++ later = w.bytes

end Grammar

end KeyValueServer
