import KeyValueServer.Proofs.Request.Fragmentation
import KeyValueServer.Proofs.Request.Steps

/-!
# Decoding undoes encoding

A peer writes its requests one behind the other, each in bulk form or as a line (`Written.encode`).
In bulk form the numbers are the shortest numerals, so no header line is long. Wherever the bytes
are cut, the decoder reads the same requests, and is then as if it had read nothing.

## Main results

* `Grammar.headersBounded_of_brief`: where numerals are short, the stream has
  `Decoder.HeadersBounded`.
* `Decoder.receive_encoded`: a decoder fed an encoded pipeline in pieces.
-/

namespace KeyValueServer

namespace Grammar

open Bytes Decoder Numeral Reading

/-! ### Short header lines -/

/-- `b.Brief`: the header line of the block is shorter than `Limit.header`. -/
def Block.Brief (b : Block) : Prop := b.numeral.length + 1 < Limit.header

/-- `w.Brief`: all header lines of the word are shorter than `Limit.header`. -/
def Word.Brief : Word → Prop
  | .bulk numeral blocks _ _ => numeral.length + 1 < Limit.header ∧ ∀ b ∈ blocks, b.Brief
  | .line .. => True

/-- `OnCourse r`: what waits is the rest of a request, if one has begun, and then whole requests,
with no header line that is too long. -/
inductive OnCourse : Reading → Prop
  | between {words : List Word} (hwords : ∀ w ∈ words, w.Brief) :
      OnCourse (before (words.flatMap Word.bytes))
  | argument {b : Block} {blocks : List Block} {words : List Word} {args : List Bytes}
      (hblocks : ∀ b' ∈ b :: blocks, b'.Brief) (hwords : ∀ w ∈ words, w.Brief) :
      OnCourse ⟨b.bytes ++ (blocks.flatMap Block.bytes ++ words.flatMap Word.bytes), args, .bulk,
        blocks.length + 1, none⟩
  | payload {b : Block} {blocks : List Block} {words : List Word} {args : List Bytes}
      (hblocks : ∀ b' ∈ blocks, b'.Brief) (hwords : ∀ w ∈ words, w.Brief) :
      OnCourse ⟨b.payload ++ (crlf ++ (blocks.flatMap Block.bytes ++ words.flatMap Word.bytes)),
        args, .bulk, blocks.length + 1, some b.payload.length⟩

variable {r r' : Reading} {request? : Option (List Bytes)} {words : List Word}

/-- `stepCount` keeps `OnCourse`. -/
theorem onCourse_of_count {numeral : Bytes} {blocks : List Block}
    (isNumber : IsNumber numeral blocks.length) (length_le : blocks.length ≤ Limit.bulk)
    (hblocks : ∀ b ∈ blocks, b.Brief) (hwords : ∀ w ∈ words, w.Brief)
    (hstep : (before (asterisk :: numeral ++ (crlf ++
      (blocks.flatMap Block.bytes ++ words.flatMap Word.bytes)))).step = .go request? r') :
    OnCourse r' := by
  rw [step_count (crlfIndex_of_isNumber isNumber), within_eq_ok isNumber length_le] at hstep
  cases blocks with
  | nil =>
      cases hstep
      exact .between hwords
  | cons b blocks =>
      simp only [List.length_cons, Nat.add_one_ne_zero, if_false, List.flatMap_cons,
        List.append_assoc] at hstep
      cases hstep
      exact .argument hblocks hwords

/-- **`step` keeps `OnCourse`.** -/
theorem OnCourse.step (h : OnCourse r) (hstep : r.step = .go request? r') : OnCourse r' := by
  cases h with
  | @between words hwords =>
      cases words with
      | nil =>
          rw [List.flatMap_nil, step_of_waiting_nil rfl] at hstep
          cases hstep
      | cons w words =>
          have hothers : ∀ w' ∈ words, w'.Brief := fun w' hw' =>
            hwords w' (List.mem_cons_of_mem w hw')
          have hbrief := hwords w List.mem_cons_self
          rw [List.flatMap_cons] at hstep
          cases w with
          | line tokens spaceless not_lone one_line not_bulk =>
              rw [Word.bytes, List.append_assoc, step_line not_bulk one_line] at hstep
              cases hstep
              exact .between hothers
          | bulk numeral blocks isNumber length_le =>
              rw [Word.bytes, List.append_assoc, List.append_assoc] at hstep
              exact onCourse_of_count isNumber length_le hbrief.2 hothers hstep
  | @argument b blocks words args hblocks hwords =>
      rw [step_announce b args (Nat.succ_ne_zero _)] at hstep
      cases hstep
      exact .payload (fun b' hb' => hblocks b' (List.mem_cons_of_mem b hb')) hwords
  | @payload b blocks words args hblocks hwords =>
      rw [step_payload b.payload args (Nat.succ_ne_zero _) rfl, if_pos rfl] at hstep
      cases blocks with
      | nil =>
          cases hstep
          exact .between hwords
      | cons b' blocks =>
          rw [if_neg (by simp), List.flatMap_cons, List.append_assoc] at hstep
          cases hstep
          exact .argument hblocks hwords

/-- `Steps` keep `OnCourse`. -/
theorem OnCourse.steps {requests : List (List Bytes)} (h : OnCourse r) (hs : Steps r requests r') :
    OnCourse r' := by
  induction hs with
  | refl => exact h
  | go hstep _ ih => exact ih (h.step hstep)

/-- A header line that begins with one byte and goes on with a short numeral ends before
`Limit.header`. -/
theorem crlfIndex_header {numeral : Bytes} {n : Nat} (h : IsNumber numeral n) {first : UInt8}
    (hfirst : first ≠ carriageReturn) (hbrief : numeral.length + 1 < Limit.header)
    (later : Bytes) :
    ∃ k, crlfIndex (first :: numeral ++ (crlf ++ later)) = some k ∧ k < Limit.header := by
  have hline : crlfIndex (first :: numeral) = none :=
    (crlfIndex_cons_eq_none_iff hfirst).2 (crlfIndex_of_isNumber h)
  exact ⟨_, crlfIndex_line hline later, hbrief⟩

/-- **`OnCourse`, a header line ends in time** wherever one is expected. -/
theorem OnCourse.bounded (h : OnCourse r) (hexpects : r.expectsHeader r.waiting = true) :
    (∃ k, crlfIndex r.waiting = some k ∧ k < Limit.header) ∨ r.waiting.length ≤ Limit.header := by
  cases h with
  | @between words hwords =>
      cases words with
      | nil => exact .inr (Nat.zero_le _)
      | cons w words =>
          have hbrief := hwords w List.mem_cons_self
          refine .inl ?_
          cases w with
          | line tokens spaceless not_lone one_line not_bulk =>
              -- no header line is expected, since the line does not begin with an asterisk
              have hhead : (join space tokens ++ (crlf ++ words.flatMap Word.bytes)).head? =
                  some asterisk := by
                simpa only [expectsHeader, before, List.flatMap_cons, Word.bytes,
                  List.append_assoc, beq_iff_eq] using hexpects
              rw [head?_line_eq_some_iff (by decide)] at hhead
              exact absurd hhead not_bulk
          | bulk numeral blocks isNumber length_le =>
              have hheader := crlfIndex_header isNumber (by decide : asterisk ≠ carriageReturn)
                hbrief.1 (blocks.flatMap Block.bytes ++ words.flatMap Word.bytes)
              simpa only [before, List.flatMap_cons, Word.bytes, List.append_assoc] using hheader
  | @argument b blocks words args hblocks hwords =>
      have hheader := crlfIndex_header b.isNumber (by decide : dollar ≠ carriageReturn)
        (hblocks b List.mem_cons_self)
        (b.payload ++ (crlf ++ (blocks.flatMap Block.bytes ++ words.flatMap Word.bytes)))
      refine .inl ?_
      simpa only [Block.bytes, List.append_assoc] using hheader
  | payload => cases hexpects

/-- **`HeadersBounded` of words that are `Brief`.** -/
theorem headersBounded_of_brief (hwords : ∀ w ∈ words, w.Brief) :
    HeadersBounded (words.flatMap Word.bytes) := by
  intro front rest drained hstream hdrain hnone hlive hexpects
  -- what the decoder has read of the front leads to a reading of the whole that is on course
  obtain ⟨drained', hdrain', hreads⟩ := drain_ok (idle_fresh.sound_feed front)
  rw [hdrain] at hdrain'
  cases hdrain'
  rw [hnone, reading_feed, reading_fresh] at hreads
  change Reads (before front) _ _ _ at hreads
  obtain ⟨r, hs, -, hleft⟩ := hreads.exists_steps
  have hwaiting : r.waiting = [] := by
    rw [← waiting_settle, ← hleft]
    exact hlive
  rw [settle_of_waiting_nil hwaiting] at hleft
  have hcourse : OnCourse (r.feed rest) := by
    refine OnCourse.steps ?_ (hs.feed rest)
    change OnCourse (before (front ++ rest))
    rw [← hstream]
    exact .between hwords
  have hrest : (r.feed rest).waiting = rest := by
    change r.waiting ++ rest = rest
    rw [hwaiting, List.nil_append]
  have hbounded := hcourse.bounded
  rw [hrest] at hbounded
  refine hbounded ?_
  rw [← hleft]
  exact hexpects

/-! ### Encoding -/

/-- `Written` is a request that a peer writes. -/
inductive Written
  /-- In bulk form. -/
  | bulk (args : List Bytes) (length_le : args.length ≤ Limit.bulk)
      (lengths_le : ∀ arg ∈ args, arg.length ≤ Limit.bulk)
  /-- As a line. -/
  | inline (tokens : List Bytes) (spaceless : ∀ token ∈ tokens, space ∉ token)
      (not_lone : tokens ≠ [[]]) (one_line : crlfIndex (join space tokens) = none)
      (not_bulk : (join space tokens).head? ≠ some asterisk)

/-- `encodeArg arg` is an argument in bulk form, with its length in as few digits as there can
be. -/
def encodeArg (arg : Bytes) : Bytes :=
  dollar :: decimalBytes arg.length ++ (crlf ++ (arg ++ crlf))

namespace Written

/-- `w.encode` are the bytes that are written. -/
def encode : Written → Bytes
  | .bulk arguments _ _ =>
    asterisk :: decimalBytes arguments.length ++ (crlf ++ arguments.flatMap encodeArg)
  | .inline tokens _ _ _ _ => join space tokens ++ crlf

/-- `w.args` are the arguments that are meant. -/
def args : Written → List Bytes
  | .bulk arguments _ _ => arguments
  | .inline tokens _ _ _ _ => tokens

end Written

/-- `blocksOf args` are the arguments as blocks. -/
def blocksOf (args : List Bytes) (h : ∀ arg ∈ args, arg.length ≤ Limit.bulk) : List Block :=
  args.pmap (fun arg hle => ⟨decimalBytes arg.length, arg, .inl (denotes_decimal _), hle⟩) h

section

variable {args : List Bytes} (h : ∀ arg ∈ args, arg.length ≤ Limit.bulk)

/-- `blocksOf` has as many blocks as there are arguments. -/
theorem length_blocksOf : (blocksOf args h).length = args.length :=
  List.length_pmap

/-- `blocksOf` has the arguments as payloads. -/
theorem map_payload_blocksOf : (blocksOf args h).map Block.payload = args := by
  rw [blocksOf, List.map_pmap]
  exact (List.pmap_eq_map _).trans (List.map_id args)

/-- `blocksOf` are written as `encodeArg` writes the arguments. -/
theorem flatMap_bytes_blocksOf :
    (blocksOf args h).flatMap Block.bytes = args.flatMap encodeArg := by
  have hmap : args.pmap (fun arg _ => encodeArg arg) h = args.map encodeArg := List.pmap_eq_map h
  rw [List.flatMap_def, List.flatMap_def, blocksOf, List.map_pmap]
  exact congrArg List.flatten hmap

/-- `decimalBytes` of a number up to `Limit.bulk` has few digits. -/
theorem brief_decimalBytes {n : Nat} (hle : n ≤ Limit.bulk) :
    (decimalBytes n).length + 1 < Limit.header := by
  have hlength : (decimalBytes n).length ≤ 4 := by
    refine length_decimalBytes_le (by decide) ?_
    rw [Limit.bulk] at hle
    omega
  rw [Limit.header]
  omega

/-- `blocksOf` are `Brief`. -/
theorem brief_blocksOf : ∀ b ∈ blocksOf args h, b.Brief := by
  intro b hb
  obtain ⟨arg, harg, rfl⟩ := List.mem_pmap.1 hb
  exact brief_decimalBytes (h arg harg)

end

namespace Written

/-- `w.word` is the `Word` that is written. -/
def word : Written → Word
  | .bulk arguments length_le lengths_le =>
    .bulk (decimalBytes arguments.length) (blocksOf arguments lengths_le)
      (by rw [length_blocksOf]; exact .inl (denotes_decimal _))
      (by rw [length_blocksOf]; exact length_le)
  | .inline tokens spaceless not_lone one_line not_bulk =>
    .line tokens spaceless not_lone one_line not_bulk

/-- `word` is written as `encode` says. -/
theorem bytes_word (w : Written) : w.word.bytes = w.encode := by
  cases w with
  | bulk args length_le lengths_le =>
      rw [word, Word.bytes, encode, flatMap_bytes_blocksOf]
  | inline => rfl

/-- `word` has the arguments that are meant. -/
theorem args_word (w : Written) : w.word.args = w.args := by
  cases w with
  | bulk args length_le lengths_le => exact map_payload_blocksOf lengths_le
  | inline => rfl

/-- `word` is `Brief`. -/
theorem brief_word (w : Written) : w.word.Brief := by
  cases w with
  | bulk args length_le lengths_le =>
      exact ⟨brief_decimalBytes length_le, brief_blocksOf lengths_le⟩
  | inline => exact trivial

end Written

variable (pipeline : List Written)

/-- `encode` of a pipeline are the bytes of its words. -/
theorem flatMap_bytes_words :
    (pipeline.map Written.word).flatMap Word.bytes = pipeline.flatMap Written.encode := by
  have hbytes : (fun w : Written => w.word.bytes) = Written.encode := funext Written.bytes_word
  rw [List.flatMap_map, hbytes]

/-- `args` of a pipeline are the arguments of its words. -/
theorem map_args_words :
    (pipeline.map Written.word).map Word.args = pipeline.map Written.args := by
  rw [List.map_map]
  exact List.map_congr_left fun w _ => w.args_word

/-- **`Reads` of an encoded pipeline** yields what was meant, and nothing is left. -/
theorem reads_encoded :
    Reads (before (pipeline.flatMap Written.encode)) (pipeline.map Written.args) none
      (before []) := by
  have hsteps := steps_words (pipeline.map Written.word) []
  rw [List.append_nil, flatMap_bytes_words, map_args_words] at hsteps
  exact .intro hsteps (step_of_waiting_nil rfl)

/-- `HeadersBounded` of an encoded pipeline. -/
theorem headersBounded_encoded : HeadersBounded (pipeline.flatMap Written.encode) := by
  rw [← flatMap_bytes_words]
  refine headersBounded_of_brief fun w hw => ?_
  obtain ⟨w', -, rfl⟩ := List.mem_map.1 hw
  exact w'.brief_word

end Grammar

namespace Decoder

open Bytes Grammar Reading

/-- `drained.Yields requests`: the decoder has read `requests`, nothing else and nothing of another
request, without an error. -/
structure Drained.Yields (drained : Drained) (requests : List (List Bytes)) : Prop where
  requests_eq : drained.requests = requests
  failure?_eq : drained.failure? = none
  reading_eq : drained.decoder.reading = fresh.reading

/-- `feed` of pieces is `feed` of all their bytes. -/
theorem reading_foldl_feed (pieces : List Bytes) (d : Decoder) :
    (pieces.foldl feed d).reading = d.reading.feed pieces.flatten := by
  induction pieces generalizing d with
  | nil =>
      rw [List.flatten_nil, Reading.feed, List.append_nil]
      rfl
  | cons piece pieces ih => rw [List.foldl_cons, ih, reading_feed, feed_feed, List.flatten_cons]

/-- **Decoding undoes encoding.** However `Written.encode` of a pipeline is cut, a decoder that is
fed the pieces `Yields` the arguments that were meant, in their order and without an error, and is
as if it had read nothing; whether it is drained after each piece, or once after all of them. -/
theorem receive_encoded (pipeline : List Written) {pieces : List Bytes}
    (h : pieces.flatten = pipeline.flatMap Written.encode) :
    (∃ drained, receive pieces fresh = .ok drained ∧
      drained.Yields (pipeline.map Written.args)) ∧
    ∃ drained, (pieces.foldl feed fresh).drain = .ok drained ∧
      drained.Yields (pipeline.map Written.args) := by
  have hencoded := reads_encoded pipeline
  constructor
  · obtain ⟨drained, r, hreceive, hreads, hleft⟩ :=
      receive_reads (headersBounded_encoded pipeline) h
    rw [reading_fresh] at hreads
    obtain ⟨hrequests, hnone, rfl⟩ := hreads.unique hencoded
    refine ⟨drained, hreceive, hrequests, hnone, ?_⟩
    rw [reading_fresh]
    exact (hleft hnone).symm
  · have hread : (pieces.foldl feed fresh).reading =
        before (pipeline.flatMap Written.encode) := by
      rw [reading_foldl_feed, reading_fresh, h]
      rfl
    have hsound : (pieces.foldl feed fresh).reading.Sound := by
      rw [hread]
      exact sound_before _
    obtain ⟨drained, hdrain, hreads⟩ := drain_ok hsound
    rw [hread] at hreads
    obtain ⟨hrequests, hnone, hleft⟩ := hreads.unique hencoded
    refine ⟨drained, hdrain, hrequests, hnone, ?_⟩
    rw [reading_fresh]
    exact hleft

/-- A request in bulk form with a line end as its argument, and a line; cut inside of the first line
end and inside of the line. -/
theorem receive_encoded_of_mixed :
    (∃ drained, receive [[42, 49, 13], [10, 36, 50, 13, 10, 13, 10, 13, 10, 80], [],
        [73, 78, 71, 32, 97, 13, 10]] fresh = .ok drained ∧
      drained.Yields [[[13, 10]], [[80, 73, 78, 71], [97]]]) ∧
    ∃ drained, ([[42, 49, 13], [10, 36, 50, 13, 10, 13, 10, 13, 10, 80], [],
        [73, 78, 71, 32, 97, 13, 10]].foldl feed fresh).drain = .ok drained ∧
      drained.Yields [[[13, 10]], [[80, 73, 78, 71], [97]]] :=
  receive_encoded [.bulk [[13, 10]] (by decide) (by decide),
    .inline [[80, 73, 78, 71], [97]] (by decide) (by decide) (by decide) (by decide)] (by decide)

end Decoder

end KeyValueServer
