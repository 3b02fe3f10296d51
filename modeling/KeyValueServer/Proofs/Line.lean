import KeyValueServer.Request.Decoder
import KeyValueServer.Proofs.ByteQueue

/-!
# Lines and the words on them

A line is what stands before the first line end, where `Bytes.crlfIndex` finds it. It may hold
either byte of a line end, but not the two side by side. The words of a line are what stands between
single spaces (`Decoder.words`): there are always words that give the line, and only one choice of
them has no space in a word.

## Main results

* `Bytes.crlfIndex_line`, `exists_line`: the first line end is the one behind the line.
* `Bytes.isLine_append_crlf_iff`, `flatMap_line_injective`: a single line, and lines in a row.
* `Bytes.splitOn_join`: splitting undoes joining.
* `Decoder.words_join`: the words of a line are those that it was made of.
-/

namespace KeyValueServer

namespace Bytes

variable {bytes line later : Bytes} {k : Nat}

/-! ### Lines -/

/-- `crlfIndex` is moved by one by a byte in front that opens no line end. -/
theorem crlfIndex_cons {b : UInt8} (h : b ≠ carriageReturn) (bytes : Bytes) :
    crlfIndex (b :: bytes) = (crlfIndex bytes).map (· + 1) := by
  cases bytes with
  | nil => rfl
  | cons b' rest => rw [crlfIndex, if_neg fun hend => h hend.1]

/-- `crlfIndex` is `none` or not whatever byte stands in front that opens no line end. -/
theorem crlfIndex_cons_eq_none_iff {b : UInt8} (h : b ≠ carriageReturn) :
    crlfIndex (b :: bytes) = none ↔ crlfIndex bytes = none := by
  rw [crlfIndex_cons h, Option.map_eq_none_iff]

/-- A byte that opens no line end is the first one of what begins with a line only if it is on the
line. -/
theorem head?_line_eq_some_iff {first : UInt8} (h : first ≠ carriageReturn) (line later : Bytes) :
    (line ++ (crlf ++ later)).head? = some first ↔ line.head? = some first := by
  cases line with
  | nil =>
      constructor
      · intro hhead
        exact absurd (Option.some.inj hhead).symm h
      · intro hhead
        cases hhead
  | cons b line => exact Iff.rfl

/-- `crlfIndex` is `none` without a carriage return. -/
theorem crlfIndex_eq_none_of_notMem (h : carriageReturn ∉ bytes) : crlfIndex bytes = none := by
  induction bytes with
  | nil => rfl
  | cons b rest ih =>
      rw [List.mem_cons, not_or] at h
      rw [crlfIndex_cons (Ne.symm h.1), ih h.2]
      rfl

/-- **`crlfIndex` is the end of a line** with a line end behind it. -/
theorem crlfIndex_line (h : crlfIndex line = none) (later : Bytes) :
    crlfIndex (line ++ (crlf ++ later)) = some line.length := by
  induction line using crlfIndex.induct with
  | case1 a b rest hend =>
      rw [crlfIndex, if_pos hend] at h
      cases h
  | case2 a b rest hend ih =>
      rw [crlfIndex, if_neg hend, Option.map_eq_none_iff] at h
      have hrest := ih h
      rw [List.cons_append] at hrest
      rw [List.cons_append, List.cons_append, crlfIndex, if_neg hend, hrest]
      rfl
  | case3 line hshort =>
      cases line with
      | nil => rfl
      | cons b tail =>
          cases tail with
          | nil =>
              have hend : ¬ (b = carriageReturn ∧ carriageReturn = lineFeed) := fun hend => by
                cases hend.2
              change crlfIndex (b :: carriageReturn :: lineFeed :: later) = some 1
              rw [crlfIndex, if_neg hend]
              rfl
          | cons b' rest => exact absurd rfl (hshort b b' rest)

/-- **Bytes with a line end** are a line, a line end, and what is behind it. -/
theorem exists_line (h : crlfIndex bytes = some k) :
    ∃ line later, bytes = line ++ (crlf ++ later) ∧ crlfIndex line = none ∧ line.length = k := by
  induction bytes using crlfIndex.induct generalizing k with
  | case1 a b rest hend =>
      rw [crlfIndex, if_pos hend] at h
      cases h
      exact ⟨[], rest, by rw [hend.1, hend.2]; rfl, rfl, rfl⟩
  | case2 a b rest hend ih =>
      rw [crlfIndex, if_neg hend, Option.map_eq_some_iff] at h
      obtain ⟨j, hj, rfl⟩ := h
      obtain ⟨line, later, hrest, hnone, hlength⟩ := ih hj
      refine ⟨a :: line, later, by rw [hrest]; rfl, ?_, by rw [List.length_cons, hlength]⟩
      cases line with
      | nil => rfl
      | cons b' line =>
          obtain rfl : b = b' := (List.cons.inj hrest).1
          rw [crlfIndex, if_neg hend, hnone]
          rfl
  | case3 bytes hshort =>
      rw [crlfIndex] at h
      · cases h
      · exact hshort

/-- `crlfIndex` with a byte in front, which opens a line end at most with the byte behind it. -/
theorem crlfIndex_cons_eq_none_iff_not_opens {b : UInt8} :
    crlfIndex (b :: bytes) = none ↔
      ¬ (b = carriageReturn ∧ bytes.head? = some lineFeed) ∧ crlfIndex bytes = none := by
  cases bytes with
  | nil => simp [crlfIndex]
  | cons b' rest =>
      by_cases hend : b = carriageReturn ∧ b' = lineFeed
      · simp [crlfIndex, hend]
      · rw [crlfIndex, if_neg hend, Option.map_eq_none_iff, List.head?_cons, Option.some.injEq]
        exact ⟨fun hrest => ⟨hend, hrest⟩, fun hrest => hrest.2⟩

/-- `crlfIndex` of two pieces side by side: there is a line end when either has one, or when the
first opens one that the second closes. -/
theorem crlfIndex_append_eq_none_iff {front : Bytes} :
    crlfIndex (front ++ bytes) = none ↔
      crlfIndex front = none ∧ crlfIndex bytes = none ∧
        ¬ (front.getLast? = some carriageReturn ∧ bytes.head? = some lineFeed) := by
  induction front with
  | nil => simp [crlfIndex]
  | cons b rest ih =>
      rw [List.cons_append, crlfIndex_cons_eq_none_iff_not_opens, ih,
        crlfIndex_cons_eq_none_iff_not_opens]
      cases rest with
      | nil => simp [crlfIndex, and_comm]
      | cons b' rest =>
          rw [List.getLast?_cons_cons, List.cons_append, List.head?_cons, List.head?_cons]
          exact and_assoc.symm

/-- `crlfIndex` is `none` or not whatever bytes stand in front that open no line end. -/
theorem crlfIndex_append_of_notMem {front : Bytes} (h : carriageReturn ∉ front) :
    crlfIndex (front ++ bytes) = none ↔ crlfIndex bytes = none := by
  rw [crlfIndex_append_eq_none_iff]
  constructor
  · rintro ⟨-, hbytes, -⟩
    exact hbytes
  · intro hbytes
    exact ⟨crlfIndex_eq_none_of_notMem h, hbytes,
      fun hopens => h (List.mem_of_getLast? hopens.1)⟩

/-- `crlfIndex` is `none` exactly when `crlf` is no infix. -/
theorem crlfIndex_eq_none_iff_not_within : crlfIndex bytes = none ↔ ¬ crlf <:+: bytes := by
  induction bytes with
  | nil => simp [crlfIndex, crlf]
  | cons b rest ih =>
      have hopens : crlf <+: b :: rest ↔ b = carriageReturn ∧ rest.head? = some lineFeed := by
        rw [crlf, List.cons_prefix_cons]
        cases rest with
        | nil => simp
        | cons b' rest => simp [List.cons_prefix_cons, eq_comm]
      rw [crlfIndex_cons_eq_none_iff_not_opens, ih, List.infix_cons_iff, hopens, not_or]

/-- `IsLine bytes`: a line end stands at the end, and it is the only one. -/
def IsLine (bytes : Bytes) : Prop :=
  crlf <:+ bytes ∧ ∀ front later, bytes = front ++ (crlf ++ later) → later = []

/-- What ends in a line end `IsLine` when there is no other before it. -/
theorem isLine_append_crlf_iff : IsLine (line ++ crlf) ↔ ¬ crlf <:+: line := by
  constructor
  · rintro ⟨-, honly⟩ ⟨front, later, hline⟩
    have hlater := honly front (later ++ crlf) (by simp [← hline])
    exact List.append_ne_nil_of_right_ne_nil later (List.cons_ne_nil _ _) hlater
  · intro hline
    refine ⟨List.suffix_append line crlf, ?_⟩
    intro front later hbytes
    rcases List.eq_nil_or_concat later with rfl | ⟨later', b, rfl⟩
    · rfl
    · -- without the last byte there is the line and half a line end, which hold none
      have hhalf : line ++ [carriageReturn] = front ++ (crlf ++ later') := by
        have hsplit : (line ++ [carriageReturn]) ++ [lineFeed] =
            (front ++ (crlf ++ later')) ++ [b] := by
          simpa [crlf] using hbytes
        exact (List.append_inj' hsplit rfl).1
      have hnone : crlfIndex (line ++ [carriageReturn]) = none :=
        crlfIndex_append_eq_none_iff.2
          ⟨crlfIndex_eq_none_iff_not_within.2 hline, rfl, fun hend => by cases hend.2⟩
      exact absurd ⟨front, later', by rw [hhalf, List.append_assoc]⟩
        (crlfIndex_eq_none_iff_not_within.1 hnone)

/-- **Lines one behind the other can be told apart**: their line ends are the only ones. -/
theorem flatMap_line_injective {α : Type} {line : α → Bytes} {xs ys : List α}
    (hinj : ∀ x ∈ xs, ∀ y ∈ ys, line x = line y → x = y)
    (hxs : ∀ x ∈ xs, crlfIndex (line x) = none) (hys : ∀ y ∈ ys, crlfIndex (line y) = none)
    (h : xs.flatMap (fun x => line x ++ crlf) = ys.flatMap fun y => line y ++ crlf) : xs = ys := by
  induction xs generalizing ys with
  | nil =>
      cases ys with
      | nil => rfl
      | cons y ys => simp [crlf] at h
  | cons x xs ih =>
      cases ys with
      | nil => simp [crlf] at h
      | cons y ys =>
          rw [List.flatMap_cons, List.flatMap_cons, List.append_assoc, List.append_assoc] at h
          -- the first line end of either stream is where its first line ends
          have hlength : (line x).length = (line y).length := by
            have hindex := congrArg crlfIndex h
            rw [crlfIndex_line (hxs x List.mem_cons_self),
              crlfIndex_line (hys y List.mem_cons_self)] at hindex
            exact Option.some.inj hindex
          obtain ⟨hline, hbehind⟩ := List.append_inj h hlength
          have hrest := (List.append_inj hbehind rfl).2
          rw [hinj x List.mem_cons_self y List.mem_cons_self hline,
            ih (fun x hx y hy => hinj x (List.mem_cons_of_mem _ hx) y (List.mem_cons_of_mem _ hy))
              (fun x hx => hxs x (List.mem_cons_of_mem _ hx))
              (fun y hy => hys y (List.mem_cons_of_mem _ hy)) hrest]

/-! ### Splitting and joining -/

variable {separator : UInt8} {piece rest : Bytes} {pieces : List Bytes}

/-- `splitOn` of what has no separator in it is one piece. -/
theorem splitOn_of_notMem (h : separator ∉ piece) : splitOn separator piece = [piece] := by
  induction piece with
  | nil => rfl
  | cons b piece ih =>
      rw [List.mem_cons, not_or] at h
      rw [splitOn, if_neg (Ne.symm h.1), ih h.2]

/-- `splitOn` ends a piece at the first separator. -/
theorem splitOn_append_separator (h : separator ∉ piece) (rest : Bytes) :
    splitOn separator (piece ++ separator :: rest) = piece :: splitOn separator rest := by
  induction piece with
  | nil => rw [List.nil_append, splitOn, if_pos rfl]
  | cons b piece ih =>
      rw [List.mem_cons, not_or] at h
      rw [List.cons_append, splitOn, if_neg (Ne.symm h.1), ih h.2]

/-- `join` puts a separator between each piece and the next. -/
theorem join_cons_cons (separator : UInt8) (piece piece' : Bytes) (pieces : List Bytes) :
    join separator (piece :: piece' :: pieces) =
      piece ++ separator :: join separator (piece' :: pieces) := rfl

/-- **`splitOn` undoes `join`**, where no separator stands in a piece. -/
theorem splitOn_join (hne : pieces ≠ []) (h : ∀ piece ∈ pieces, separator ∉ piece) :
    splitOn separator (join separator pieces) = pieces := by
  induction pieces with
  | nil => exact absurd rfl hne
  | cons piece pieces ih =>
      have hpiece := h piece List.mem_cons_self
      cases pieces with
      | nil => exact splitOn_of_notMem hpiece
      | cons piece' pieces =>
          have hrest := ih (List.cons_ne_nil _ _) fun p hp => h p (List.mem_cons_of_mem piece hp)
          rw [join_cons_cons, splitOn_append_separator hpiece, hrest]

/-- `splitOn` leaves no separator in a piece. -/
theorem notMem_of_mem_splitOn (h : piece ∈ splitOn separator bytes) : separator ∉ piece := by
  induction bytes generalizing piece with
  | nil =>
      rw [splitOn, List.mem_singleton] at h
      rw [h]
      exact List.not_mem_nil
  | cons b rest ih =>
      rw [splitOn] at h
      split at h
      · rcases List.mem_cons.1 h with rfl | hrest
        · exact List.not_mem_nil
        · exact ih hrest
      · rename_i hb
        cases hs : splitOn separator rest with
        | nil => exact absurd hs (splitOn_ne_nil separator rest)
        | cons first others =>
            rw [hs] at h ih
            rcases List.mem_cons.1 h with rfl | hother
            · rw [List.mem_cons, not_or]
              exact ⟨Ne.symm hb, ih List.mem_cons_self⟩
            · exact ih (List.mem_cons_of_mem first hother)

/-- `join` is empty only for an empty piece alone. -/
theorem join_ne_nil (hne : pieces ≠ []) (hlone : pieces ≠ [[]]) : join separator pieces ≠ [] := by
  match pieces, hne, hlone with
  | [], hne, _ => exact absurd rfl hne
  | [piece], _, hlone =>
      rintro hnil
      change piece = [] at hnil
      exact hlone (by rw [hnil])
  | piece :: piece' :: rest, _, _ =>
      exact List.append_ne_nil_of_right_ne_nil piece (List.cons_ne_nil _ _)

end Bytes

namespace Decoder

open Bytes

variable {text : Bytes} {tokens : List Bytes}

/-- `words` of a line that is not empty are its pieces. -/
theorem words_of_ne_nil (h : text ≠ []) : words text = splitOn space text := by
  cases text with
  | nil => exact absurd rfl h
  | cons => rfl

/-- **`words` of a line** are those that it was made of. -/
theorem words_join (h : ∀ token ∈ tokens, space ∉ token) (hlone : tokens ≠ [[]]) :
    words (join space tokens) = tokens := by
  by_cases hne : tokens = []
  · rw [hne]
    rfl
  · rw [words_of_ne_nil (join_ne_nil hne hlone), splitOn_join hne h]

/-- `join` makes a line of its words. -/
theorem join_words (text : Bytes) : join space (words text) = text := by
  cases text with
  | nil => rfl
  | cons b rest =>
      rw [words_of_ne_nil (List.cons_ne_nil b rest)]
      exact join_splitOn space (b :: rest)

/-- `words` have no space in them. -/
theorem notMem_of_mem_words {token : Bytes} (h : token ∈ words text) : space ∉ token := by
  cases text with
  | nil => exact absurd h List.not_mem_nil
  | cons b rest => exact notMem_of_mem_splitOn h

/-- `words` are never one empty word alone. -/
theorem words_ne_lone (text : Bytes) : words text ≠ [[]] := by
  intro h
  have hjoin := join_words text
  rw [h] at hjoin
  obtain rfl : text = [] := hjoin.symm
  cases h

end Decoder

end KeyValueServer
