import KeyValueServer.Proofs.Line
import KeyValueServer.Text.Utf8

/-!
# Line ends in texts

A text has one encoding, and a byte below 128 in it is the character of that number. So a line end
in the encoding is a line end in the text. `Utf8.lossy` replaces what is broken, but never by
nothing: what stood between the two bytes of a line end still has something in its place, and line
ends come through as they are (`Utf8.Alike`).

## Main results

* `Bytes.ofText_injective`: different texts have different bytes.
* `Utf8.alike_lossy`: what reading bytes as text does to them.
* `Utf8.crlfIndex_lossy_eq_none_iff`: the text has line ends when the bytes have any.
-/

namespace KeyValueServer

namespace Bytes

/-- `ofText` of a text behind another. -/
@[simp] theorem ofText_append (a b : String) : ofText (a ++ b) = ofText a ++ ofText b := by
  rw [ofText, String.toList_append, List.flatMap_append]
  rfl

/-- **`ofText` is injective.** -/
theorem ofText_injective {a b : String} (h : ofText a = ofText b) : a = b := by
  have harray := congrArg List.toByteArray h
  change a.toList.utf8Encode = b.toList.utf8Encode at harray
  rwa [String.utf8Encode_toList, String.utf8Encode_toList, String.toByteArray_inj] at harray

end Bytes

namespace Utf8

open Bytes

/-! ### The bytes of a character -/

/-- `utf8EncodeChar` has a byte below 128 for the character of that number only. -/
theorem toNat_eq_of_mem_utf8EncodeChar {c : Char} {b : UInt8} (h : b ∈ String.utf8EncodeChar c)
    (hb : b.toNat < 128) : c.toNat = b.toNat := by
  unfold String.utf8EncodeChar at h
  dsimp only at h
  split at h
  · rw [List.mem_singleton] at h
    rw [h, UInt8.toNat_ofNat', Nat.mod_eq_of_lt (by omega)]
    rfl
  · -- each byte of a longer form has its high bit
    split at h
    · simp only [List.mem_cons, List.not_mem_nil, or_false] at h
      rcases h with rfl | rfl <;> rw [UInt8.toNat_ofNat'] at hb <;> omega
    · split at h
      · simp only [List.mem_cons, List.not_mem_nil, or_false] at h
        rcases h with rfl | rfl | rfl <;> rw [UInt8.toNat_ofNat'] at hb <;> omega
      · simp only [List.mem_cons, List.not_mem_nil, or_false] at h
        rcases h with rfl | rfl | rfl | rfl <;> rw [UInt8.toNat_ofNat'] at hb <;> omega

/-- `Char.ofNat` has the number that it was made from. -/
theorem toNat_ofNat_of_isValidChar {n : Nat} (h : n.isValidChar) : (Char.ofNat n).toNat = n := by
  rw [Char.ofNat, dif_pos h]
  rfl

/-- `Char.ofNat` is the character zero where there is no such character. -/
theorem toNat_ofNat_eq_or (n : Nat) : (Char.ofNat n).toNat = n ∨ (Char.ofNat n).toNat = 0 := by
  by_cases h : n.isValidChar
  · exact .inl (toNat_ofNat_of_isValidChar h)
  · refine .inr ?_
    rw [Char.ofNat, dif_neg h]
    rfl

/-- `utf8EncodeChar` of a character below 128 is its byte. -/
theorem utf8EncodeChar_ofNat {b : UInt8} (hb : b < 0x80) :
    String.utf8EncodeChar (Char.ofNat b.toNat) = [b] := by
  have hlt : b.toNat < 128 := hb
  have hnat : (Char.ofNat b.toNat).val.toNat = b.toNat :=
    toNat_ofNat_of_isValidChar (Or.inl (by omega))
  rw [String.utf8EncodeChar, hnat]
  change (if b.toNat ≤ 127 then [UInt8.ofNat b.toNat] else _) = _
  rw [if_pos (by omega), UInt8.ofNat_toNat]

/-! ### Bytes that differ apart from line ends -/

/-- `Plain bytes`: there are bytes, and none of them is one of a line end. -/
def Plain (bytes : Bytes) : Prop := bytes ≠ [] ∧ carriageReturn ∉ bytes ∧ lineFeed ∉ bytes

/-- `Alike x y`: the one has turned into the other by changes to runs of bytes that are none of a
line end. No run has vanished, and none has come from nothing. -/
inductive Alike : Bytes → Bytes → Prop
  | nil : Alike [] []
  | same (b : UInt8) {x y : Bytes} (h : Alike x y) : Alike (b :: x) (b :: y)
  | changed {u v x y : Bytes} (hu : Plain u) (hv : Plain v) (h : Alike x y) :
      Alike (u ++ x) (v ++ y)

variable {x y u : Bytes}

/-- `Plain` bytes do not begin with a line feed. -/
theorem Plain.head?_append (h : Plain u) (x : Bytes) : (u ++ x).head? ≠ some lineFeed := by
  obtain ⟨hne, -, hfeed⟩ := h
  cases u with
  | nil => exact absurd rfl hne
  | cons b u =>
      rintro hhead
      cases hhead
      exact hfeed List.mem_cons_self

/-- `Plain` bytes neither have a line end nor open one. -/
theorem Plain.crlfIndex_append (h : Plain u) (x : Bytes) :
    crlfIndex (u ++ x) = none ↔ crlfIndex x = none :=
  crlfIndex_append_of_notMem h.2.1

/-- `Alike` bytes both begin with a line feed, or neither does. -/
theorem Alike.head?_eq_lineFeed_iff (h : Alike x y) :
    x.head? = some lineFeed ↔ y.head? = some lineFeed := by
  cases h with
  | nil => exact Iff.rfl
  | same b h => exact Iff.rfl
  | @changed u v x y hu hv h => exact iff_of_false (hu.head?_append x) (hv.head?_append y)

/-- **`Alike` bytes both have line ends, or neither does.** -/
theorem Alike.crlfIndex_eq_none_iff (h : Alike x y) : crlfIndex x = none ↔ crlfIndex y = none := by
  induction h with
  | nil => exact Iff.rfl
  | same b h ih =>
      rw [crlfIndex_cons_eq_none_iff_not_opens, crlfIndex_cons_eq_none_iff_not_opens, ih,
        h.head?_eq_lineFeed_iff]
  | @changed u v x y hu hv h ih => rw [hu.crlfIndex_append, hv.crlfIndex_append, ih]

/-! ### Reading bytes as text -/

/-- `shown piece` is the text that a character or a broken run is shown as. -/
def shown (piece : Option Char) : Bytes := String.utf8EncodeChar (piece.getD '\uFFFD')

/-- `lossy` has the bytes of its pieces as they are `shown`. -/
theorem ofText_lossy (bytes : Bytes) : ofText (lossy bytes) = (decode bytes).flatMap shown := by
  rw [ofText, lossy, String.toList_ofList, List.flatMap_map]
  rfl

/-- `Plain` bytes from 128 on. -/
theorem plain_of_high (hne : u ≠ []) (h : ∀ b ∈ u, 128 ≤ b.toNat) : Plain u :=
  ⟨hne, fun hmem => absurd (h _ hmem) (by decide), fun hmem => absurd (h _ hmem) (by decide)⟩

/-- `shown` is `Plain` for a character from 128 on. -/
theorem plain_shown {n : Nat} (h : 128 ≤ n) : Plain (shown (some (Char.ofNat n))) := by
  have hnot : ∀ b : UInt8, 0 < b.toNat → b.toNat < 128 → b ∉ shown (some (Char.ofNat n)) := by
    intro b hpos hlt hmem
    have hnat := toNat_eq_of_mem_utf8EncodeChar hmem hlt
    rw [Option.getD_some] at hnat
    rcases toNat_ofNat_eq_or n with hn | hn <;> omega
  exact ⟨String.utf8EncodeChar_ne_nil, hnot _ (by decide) (by decide),
    hnot _ (by decide) (by decide)⟩

/-- `shown` is `Plain` for a broken run. -/
theorem plain_shown_none : Plain (shown none) :=
  plain_shown (n := 0xFFFD) (by decide)

/-- `lead?` admits a second byte with its high bit only, and with the bytes that are announced the
two make a number from 128 on. -/
theorem high_of_lead? {a b : UInt8} {lead : Lead} (h : lead? a = some lead)
    (hb : lead.low ≤ b ∧ b ≤ lead.high) :
    128 ≤ b.toNat ∧ (lead.more = 1 → 2 ≤ a.toNat % 32) ∧
      (lead.more = 2 → 2 ≤ a.toNat % 16 * 64 + payload b) ∧
      (lead.more ≠ 1 → lead.more ≠ 2 → 2 ≤ a.toNat % 8 * 64 + payload b) := by
  have hlt := a.toNat_lt
  rw [UInt8.le_iff_toNat_le, UInt8.le_iff_toNat_le] at hb
  simp only [lead?, UInt8.lt_iff_toNat_lt, UInt8.le_iff_toNat_le, ← UInt8.toNat_inj,
    UInt8.reduceToNat] at h
  rw [payload]
  -- one case for each range of lead bytes
  repeat' split at h
  all_goals cases h
  all_goals simp only [UInt8.reduceToNat] at hb
  all_goals simp only [forall_const, Nat.reduceEqDiff, Nat.succ_ne_self, false_implies, ne_eq,
    not_true_eq_false, not_false_eq_true, and_true, true_and]
  all_goals omega

/-- `isContinuation` holds of bytes with their high bit only. -/
theorem high_of_isContinuation {b : UInt8} (h : isContinuation b = true) : 128 ≤ b.toNat := by
  rw [isContinuation, Bool.and_eq_true, decide_eq_true_iff] at h
  exact h.1

/-- `Alike` with a run from 128 on that is read as one piece. -/
theorem Alike.read {rest : Bytes} {piece : Option Char} {pieces : List (Option Char)}
    (hne : u ≠ []) (hhigh : ∀ b ∈ u, 128 ≤ b.toNat) (hpiece : Plain (shown piece))
    (h : Alike rest (pieces.flatMap shown)) :
    Alike (u ++ rest) ((piece :: pieces).flatMap shown) := by
  rw [List.flatMap_cons]
  exact .changed (plain_of_high hne hhigh) hpiece h

/-- **`lossy` is `Alike`**: it changes runs of bytes that are none of a line end. -/
theorem alike_lossy (bytes : Bytes) : Alike bytes (ofText (lossy bytes)) := by
  have high : ∀ {a : UInt8}, ¬ a < 0x80 → 128 ≤ a.toNat := Nat.le_of_not_lt
  rw [ofText_lossy]
  fun_induction decode bytes with
  | case1 => exact .nil
  | case2 a rest ha ih =>
      rw [List.flatMap_cons, shown, Option.getD_some, utf8EncodeChar_ofNat ha]
      exact .same a ih
  | case3 a rest ha hlead ih =>
      exact .read (u := [a]) (by simp) (by simp [high ha]) plain_shown_none ih
  | case4 a ha lead hlead =>
      exact .read (u := [a]) (by simp) (by simp [high ha]) plain_shown_none .nil
  | case5 a ha lead hlead b rest hb hmore ih =>
      obtain ⟨hb', htwo, -, -⟩ := high_of_lead? hlead hb
      have hnat := htwo hmore
      exact .read (u := [a, b]) (by simp) (by simp [high ha, hb']) (plain_shown (by omega)) ih
  | case6 a ha lead hlead b hb hmore =>
      have hb' := (high_of_lead? hlead hb).1
      exact .read (u := [a, b]) (by simp) (by simp [high ha, hb']) plain_shown_none .nil
  | case7 a ha lead hlead b hb hmore c rest hc hmore' ih =>
      obtain ⟨hb', -, hthree, -⟩ := high_of_lead? hlead hb
      have hnat := hthree hmore'
      exact .read (u := [a, b, c]) (by simp) (by simp [high ha, hb', high_of_isContinuation hc])
        (plain_shown (by omega)) ih
  | case8 a ha lead hlead b hb hmore c hc hmore' =>
      have hb' := (high_of_lead? hlead hb).1
      exact .read (u := [a, b, c]) (by simp) (by simp [high ha, hb', high_of_isContinuation hc])
        plain_shown_none .nil
  | case9 a ha lead hlead b hb hmore c hc hmore' d rest hd ih =>
      obtain ⟨hb', -, -, hfour⟩ := high_of_lead? hlead hb
      have hnat := hfour hmore hmore'
      exact .read (u := [a, b, c, d]) (by simp)
        (by simp [high ha, hb', high_of_isContinuation hc, high_of_isContinuation hd])
        (plain_shown (by omega)) ih
  | case10 a ha lead hlead b hb hmore c hc hmore' d rest hd ih =>
      have hb' := (high_of_lead? hlead hb).1
      exact .read (u := [a, b, c]) (by simp) (by simp [high ha, hb', high_of_isContinuation hc])
        plain_shown_none ih
  | case11 a ha lead hlead b hb hmore c rest hc ih =>
      have hb' := (high_of_lead? hlead hb).1
      exact .read (u := [a, b]) (by simp) (by simp [high ha, hb']) plain_shown_none ih
  | case12 a ha lead hlead b rest hb ih =>
      exact .read (u := [a]) (by simp) (by simp [high ha]) plain_shown_none ih

/-- **`lossy` keeps line ends**: the text has some when the bytes have any. -/
theorem crlfIndex_lossy_eq_none_iff (bytes : Bytes) :
    crlfIndex (ofText (lossy bytes)) = none ↔ crlfIndex bytes = none :=
  (alike_lossy bytes).crlfIndex_eq_none_iff.symm

end Utf8

end KeyValueServer
