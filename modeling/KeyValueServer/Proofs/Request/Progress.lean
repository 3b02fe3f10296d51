import KeyValueServer.Proofs.Request.Decoder

/-!
# Progress of a decoder

`Decoder.parse` makes progress or waits. Where it is `.ready`, it has consumed bytes that waited,
two at least: each request ends in a line end, and also a request most of which has been consumed
before ends in one that has not. Where it is `.needMore`, it has done all that can be done without
more bytes, so that another attempt does nothing and says the same (`Decoder.Waits`).

## Main results

* `Decoder.Parses.exists_consumed`: a `.ready` attempt has consumed bytes.
* `Decoder.Parses.waits`: a `.needMore` attempt leaves a decoder that waits.
-/

namespace KeyValueServer

namespace Reading

variable {r : Reading}

/-! ### Steps that stop for lack of bytes -/

/-- `stepInline` stops for lack of bytes only where no line end waits. -/
theorem crlfIndex_eq_none_of_stop (h : r.stepInline = .stop none) :
    Bytes.crlfIndex r.waiting = none := by
  unfold stepInline at h
  split at h
  · assumption
  · cases h

/-- `stepCount` stops for lack of bytes only where `headerEnd` finds no end. -/
theorem headerEnd_of_stepCount_stop (h : r.stepCount = .stop none) :
    headerEnd r.waiting = .error none := by
  unfold stepCount at h
  split at h
  · rename_i failure? hend
    cases h
    exact hend
  · split at h
    · cases h
    · split at h
      · cases h
      · split at h <;> cases h

/-- `stepLength` stops for lack of bytes only where `headerEnd` finds no end. -/
theorem headerEnd_of_stepLength_stop (h : r.stepLength = .stop none) :
    headerEnd r.waiting = .error none := by
  unfold stepLength at h
  split at h
  · rename_i failure? hend
    cases h
    exact hend
  · split at h
    · split at h
      · cases h
      · split at h <;> cases h
    · cases h

/-- `stepPayload` stops for lack of bytes only where the payload has not arrived. -/
theorem length_lt_of_stepPayload_stop {length : Nat} (h : r.stepPayload length = .stop none) :
    r.waiting.length < length + 2 := by
  unfold stepPayload at h
  split at h
  · assumption
  · split at h
    · split at h <;> cases h
    · cases h

end Reading

namespace Decoder

open Reading

variable {d d' : Decoder} {r : Reading}

/-! ### Attempts -/

/-- `d.Waits`: another `Decoder.parse` is `.needMore` and does nothing. -/
def Waits (d : Decoder) : Prop := d.parse = .ok (.needMore, d)

/-- **A `.ready` attempt** has consumed two bytes or more of those that waited, from the front. -/
theorem Parses.exists_consumed (h : Parses r .ready d') :
    ∃ consumed, r.waiting = consumed ++ d'.pending.live ∧ 2 ≤ consumed.length := by
  cases h with
  | ready hs hstep =>
      obtain ⟨before, hbefore, -⟩ := hs.taken
      obtain ⟨last, hlast, htwo, -⟩ := step_local hstep
      refine ⟨before ++ last, ?_, ?_⟩
      · rw [hbefore, hlast, List.append_assoc]
        rfl
      · rw [List.length_append]
        exact Nat.le_add_left_of_le htwo

/-- `Decoder.parseInline` is `.needMore` and does nothing where no line end waits. -/
theorem parseInline_of_stop (hstop : d.reading.stepInline = .stop none) :
    d.parseInline = .ok (.needMore, d) := by
  have hnone : Bytes.crlfIndex d.pending.live = none := crlfIndex_eq_none_of_stop hstop
  rw [parseInline, ByteQueue.crlfOffset?_eq, hnone]

/-- `Decoder.headerEnd` finds no end where `Reading.headerEnd` finds none. -/
theorem headerEnd_of_stop (hstop : Reading.headerEnd d.pending.live = .error none) :
    d.headerEnd = .ok none := by
  rw [headerEnd_eq, hstop]

/-- `Decoder.parseArguments` is `.needMore` and does nothing where the next step stops for lack of
bytes. -/
theorem parseArguments_of_stop {n : Nat} (hform : d.form = .bulk) (hawaited : d.awaited = n + 1)
    (hstop : d.reading.step = .stop none) : parseArguments (n + 1) d = .ok (.needMore, d) := by
  have hnonzero : d.reading.awaited ≠ 0 := by
    rw [reading, hawaited]
    exact Nat.add_one_ne_zero n
  rw [step_eq_stepSettled (form_ne_unknown_of_bulk hform)] at hstop
  rw [parseArguments, nextLength]
  cases hlength : d.length? with
  | none =>
      rw [stepSettled_of_length hform hnonzero hlength] at hstop
      rw [headerEnd_of_stop (headerEnd_of_stepLength_stop hstop)]
      rfl
  | some length =>
      rw [stepSettled_of_payload hform hnonzero hlength] at hstop
      rw [Checked.ok_bind]
      have hshort : d.pending.live.length < length + 2 := length_lt_of_stepPayload_stop hstop
      rw [ByteQueue.length_live] at hshort
      exact if_pos hshort

/-- `Waits` where the next step stops for lack of bytes and the form is known. -/
theorem waits_of_stop (hform : d.form ≠ .unknown) (hstop : d.reading.step = .stop none) :
    d.Waits := by
  rw [Waits, parse]
  cases d.pending.get? 0 with
  | none => rfl
  | some first =>
      cases hbulk : d.form with
      | unknown => exact absurd hbulk hform
      | inline =>
          rw [step_eq_stepSettled hform, stepSettled_of_inline hbulk] at hstop
          exact parseInline_of_stop hstop
      | bulk =>
          change d.parseBulk = _
          rw [parseBulk]
          cases hawaited : d.awaited with
          | zero =>
              rw [step_eq_stepSettled hform, stepSettled_of_count hbulk hawaited] at hstop
              rw [if_neg (not_not_intro rfl), headerEnd_of_stop (headerEnd_of_stepCount_stop hstop)]
          | succ n =>
              rw [if_pos (Nat.add_one_ne_zero n)]
              exact parseArguments_of_stop hbulk hawaited hstop

/-- **A `.needMore` attempt** leaves a decoder that `Waits`. -/
theorem Parses.waits (h : Parses r .needMore d') : d'.Waits := by
  cases h with
  | needMore h =>
      by_cases hlive : d'.pending.live = []
      · rw [Waits, parse, ByteQueue.get?_eq, hlive]
        rfl
      · have hform := form_settle_ne_unknown (r := d'.reading) hlive
        rw [h.settle_eq] at hform
        exact waits_of_stop hform h.step_eq

end Decoder

end KeyValueServer
