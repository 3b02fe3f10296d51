import KeyValueServer.Proofs.Keyspace.Events
import KeyValueServer.Proofs.Reply.Framing
import KeyValueServer.Proofs.Request.Pipeline

/-!
# Refusals are lines, and when they are not

A refusal quotes at most the name of the request (`CommandError.message`). The names of commands
have no line ends, and a name that is written on a line has none either. What is left is a request
in bulk form whose name is that of no command: such a name may have line ends in it, and they are
quoted as they are. The refusal is then several lines, and the peer that reads it takes each of them
for a reply.

## Main results

* `Keyspace.refused_cases`: which refusals there are, and which names they quote.
* `Keyspace.refusal_isLine`: a refusal is one line exactly when the name has no line end.
* `Keyspace.refusal_of_splittingName`: a request that is refused with the bytes of three replies.
-/

namespace KeyValueServer

open Bytes

/-! ### Names without line ends -/

/-- `Command.lookup?` finds no name with a line end. -/
theorem Command.crlfIndex_eq_none {name : Bytes} {command : Command}
    (h : lookup? name = some command) : crlfIndex name = none := by
  refine crlfIndex_eq_none_of_notMem fun hmem => ?_
  have hlower : lower carriageReturn ∈ name.map lower := List.mem_map_of_mem hmem
  rw [Keyspace.map_lower_of_lookup? h] at hlower
  revert hlower
  cases command <;> decide

/-- `w.isInline`: the request is written as a line. -/
def Grammar.Word.isInline : Grammar.Word → Bool
  | .bulk .. => false
  | .line .. => true

/-- The name of a request that `isInline` has no line end. -/
theorem Grammar.Word.crlfIndex_name_eq_none {w : Grammar.Word} {name : Bytes} {args : List Bytes}
    (hinline : w.isInline = true) (hargs : w.args = name :: args) : crlfIndex name = none := by
  cases w with
  | bulk numeral blocks isNumber length_le => cases hinline
  | line tokens spaceless not_lone one_line not_bulk =>
      change tokens = name :: args at hargs
      subst hargs
      cases args with
      | nil => exact one_line
      | cons arg args =>
          rw [join_cons_cons, crlfIndex_append_eq_none_iff] at one_line
          exact one_line.1

/-- `drain` reads a request that a peer writes as what it means. -/
theorem Decoder.drain_written (w : Grammar.Written) :
    ∃ drained, (fresh.feed w.encode).drain = .ok drained ∧ drained.requests = [w.args] ∧
      drained.failure? = none := by
  have hwritten := Grammar.reads_encoded [w]
  rw [List.flatMap_singleton] at hwritten
  obtain ⟨drained, hdrain, hreads⟩ := drain_ok (idle_fresh.sound_feed w.encode)
  rw [reading_feed, reading_fresh] at hreads
  obtain ⟨hrequests, hnone, -⟩ := hreads.unique hwritten
  exact ⟨drained, hdrain, hrequests, hnone⟩

namespace Keyspace

/-! ### Which refusals there are -/

section

variable {s s' : Keyspace} {now : Int64} {name : Bytes} {args : List Bytes} {e : CommandError}

/-- `performGet` refuses a value that is no string. -/
theorem performGet_refused {key : Value}
    (h : s.performGet key now = .ok (.refused e, s')) : e = .wrongType := by
  rw [performGet, Checked.bind_eq_ok_iff] at h
  obtain ⟨⟨value?, s₁⟩, -, h⟩ := h
  cases value? with
  | none => cases h
  | some value =>
      cases value with
      | str bytes => cases h
      | int n =>
          cases h
          rfl

/-- `performSet` refuses a value that is no string. -/
theorem performSet_refused {key value : Value}
    (h : s.performSet key value = .ok (.refused e, s')) : e = .wrongType := by
  cases value with
  | str bytes =>
      rw [performSet, Checked.bind_eq_ok_iff] at h
      obtain ⟨s₁, -, h⟩ := h
      cases h
  | int n =>
      cases h
      rfl

/-- `performExpire` refuses seconds that lead to no deadline. -/
theorem performExpire_refused {key seconds : Value}
    (h : s.performExpire key seconds now = .ok (.refused e, s')) : e = .notInteger := by
  rw [performExpire] at h
  split at h
  · rw [Checked.bind_eq_ok_iff] at h
    obtain ⟨s₁, -, h⟩ := h
    cases h
  · cases h
    rfl

/-- `performCommand` refuses values of the wrong kind, and seconds that lead to no deadline. -/
theorem performCommand_refused {command : Command} {values : List Value}
    (h : s.performCommand now command values = .ok (.refused e, s')) :
    e = .wrongType ∨ e = .notInteger := by
  unfold performCommand at h
  split at h
  · exact .inl (performGet_refused h)
  · exact .inl (performSet_refused h)
  · exact .inr (performExpire_refused h)
  · cases h

/-- **Which refusals there are.** `Keyspace.perform` refuses a request because its name is that of
no command, which is quoted; or it has the name of a command, and quotes it or nothing. -/
theorem refused_cases
    (h : s.perform now ((name :: args).map .str) = .ok (.reply (.refused e), s')) :
    e = .unknownCommand (Utf8.lossy name) ∨
      ∃ command, Command.lookup? name = some command ∧
        (e = .wrongArity (Utf8.lossy name) ∨ e = .wrongType ∨ e = .notInteger) := by
  have hbytes : (Value.str name).bytes = name := rfl
  rw [List.map_cons, perform, hbytes] at h
  split at h
  · cases h
  · cases hname : Command.lookup? name with
    | none =>
        rw [hname] at h
        cases h
        exact .inl rfl
    | some command =>
        rw [hname] at h
        refine .inr ⟨command, rfl, ?_⟩
        dsimp only at h
        split at h
        · cases h
          exact .inl rfl
        · rw [Checked.bind_eq_ok_iff] at h
          obtain ⟨⟨reply, s₁⟩, hperform, heq⟩ := h
          cases heq
          exact .inr (performCommand_refused hperform)

/-- `Keyspace.perform` quotes a name that is that of no command and does not end the connection. -/
theorem perform_unknown (s : Keyspace) (now : Int64) (args : List Bytes)
    (hquit : Command.isQuit name = false) (hname : Command.lookup? name = none) :
    s.perform now ((name :: args).map .str) =
      .ok (.reply (.refused (.unknownCommand (Utf8.lossy name))), s) := by
  have hbytes : (Value.str name).bytes = name := rfl
  rw [List.map_cons, perform, hbytes, hquit, hname]
  rfl

/-- `HasPlainName` of a refusal says that the name of the request has no line end. -/
theorem hasPlainName_iff
    (h : s.perform now ((name :: args).map .str) = .ok (.reply (.refused e), s')) :
    e.HasPlainName ↔ crlfIndex name = none := by
  have hquoted : ¬ crlf <:+: ofText (Utf8.lossy name) ↔ crlfIndex name = none := by
    rw [← crlfIndex_eq_none_iff_not_within, Utf8.crlfIndex_lossy_eq_none_iff]
  rcases refused_cases h with rfl | ⟨command, hname, rfl | rfl | rfl⟩
  · exact hquoted
  · exact hquoted
  · exact iff_of_true trivial (Command.crlfIndex_eq_none hname)
  · exact iff_of_true trivial (Command.crlfIndex_eq_none hname)

/-- **A refusal `IsLine` exactly when the name of the request has no line end in it**, whatever the
keyspace holds and whatever the other arguments are. So a request that `isInline` is refused in one
line, and so is every request that has the name of a command. -/
theorem refusal_isLine
    (h : s.perform now ((name :: args).map .str) = .ok (.reply (.refused e), s')) :
    (IsLine (Reply.refused e).encode ↔ ¬ crlf <:+: name) ∧
      (∀ w : Grammar.Word, w.args = name :: args → w.isInline = true →
        IsLine (Reply.refused e).encode) ∧
      (∀ command, Command.lookup? name = some command → IsLine (Reply.refused e).encode) := by
  have hline : IsLine (Reply.refused e).encode ↔ crlfIndex name = none := by
    rw [Reply.encode_eq, isLine_append_crlf_iff, ← crlfIndex_eq_none_iff_not_within, Reply.line,
      crlfIndex_append_of_notMem (by decide), e.crlfIndex_message_eq_none_iff, hasPlainName_iff h]
  refine ⟨?_, ?_, ?_⟩
  · rw [hline, crlfIndex_eq_none_iff_not_within]
  · intro w hargs hinline
    exact hline.2 (Grammar.Word.crlfIndex_name_eq_none hinline hargs)
  · intro command hname
    exact hline.2 (Command.crlfIndex_eq_none hname)

/-- A request that is written as a line, and one with the name of a command but without arguments,
are refused in one line each. -/
theorem refusal_isLine_of_names :
    IsLine (Reply.refused (.unknownCommand (Utf8.lossy (ofText "PING")))).encode ∧
      IsLine (Reply.refused (.wrongArity (Utf8.lossy (ofText "GET")))).encode := by
  have hping : empty.perform 0 ([ofText "PING"].map .str) =
      .ok (.reply (.refused (.unknownCommand (Utf8.lossy (ofText "PING")))), empty) :=
    perform_unknown empty 0 [] (by decide) (by decide)
  have hget : empty.perform 0 ([ofText "GET"].map .str) =
      .ok (.reply (.refused (.wrongArity (Utf8.lossy (ofText "GET")))), empty) := rfl
  exact ⟨(refusal_isLine hping).2.1
      (.line [ofText "PING"] (by decide) (by decide) (by decide) (by decide)) rfl rfl,
    (refusal_isLine hget).2.2 .get rfl⟩

end

/-! ### A name with line ends -/

/-- `splittingName` closes its own quotation, goes on with a reply, and opens a quotation again. -/
def splittingName : Bytes :=
  ofText "x'" ++ crlf ++ Reply.done.encode ++ ofText "-ERR: unknown command 'y"

/-- `splittingRequest` has no argument but that name, in bulk form. -/
def splittingRequest : Grammar.Written :=
  .bulk [splittingName] (by decide) (by decide)

/-- **A refusal that is no line.** `splittingRequest` is read like any other, with one argument; it
is refused in the empty keyspace, and the bytes of the refusal are those of three replies: two
refusals, and between them the reply to a command that has been carried out. -/
theorem refusal_of_splittingName :
    ∃ drained e,
      (Decoder.fresh.feed splittingRequest.encode).drain = .ok drained ∧
        drained.requests = [[splittingName]] ∧ drained.failure? = none ∧
        empty.perform 0 ([splittingName].map .str) = .ok (.reply (.refused e), empty) ∧
        ¬ IsLine (Reply.refused e).encode ∧
        (Reply.refused e).encode =
          [Reply.refused (.unknownCommand "x"), .done, .refused (.unknownCommand "y")].flatMap
            Reply.encode := by
  obtain ⟨drained, hdrain, hrequests, hnone⟩ := Decoder.drain_written splittingRequest
  -- the name is text, and comes back as it is
  have hlossy : ofText (Utf8.lossy splittingName) = splittingName := by
    rw [Utf8.ofText_lossy]
    decide +kernel
  have hmessage : ofText (CommandError.unknownCommand (Utf8.lossy splittingName)).message =
      ofText "unknown command '" ++ (splittingName ++ ofText "'") := by
    rw [CommandError.ofText_message_unknownCommand, hlossy]
  refine ⟨drained, .unknownCommand (Utf8.lossy splittingName), hdrain, hrequests, hnone, ?_, ?_, ?_⟩
  · exact perform_unknown empty 0 [] (by decide) (by decide)
  · rw [Reply.encode_eq, isLine_append_crlf_iff, Reply.line, hmessage]
    decide +kernel
  · rw [Reply.encode_eq, Reply.line, hmessage]
    decide +kernel

end Keyspace

end KeyValueServer
