import KeyValueServer.Proofs.Text.Utf8

/-!
# Reading a text from its bytes

`Utf8.decode` reads a character from the bytes that encode it, and no others: what a lead byte
announces (`Utf8.lead?`) leaves out the longer forms of characters that have a shorter one, the
surrogates, and the numbers past the last character.

## Main results

* `Utf8.leads_of_lead?`, `Utf8.exists_lead`: which bytes lead a character, and what they announce.
* `Utf8.decode_encoded_append`, `Utf8.eq_encoded_of_whole?`: reading and encoding are inverse.
* `Utf8.text?_eq_some_iff`: bytes are read as the text that they encode.
-/

namespace KeyValueServer.Utf8

open Bytes

/-! ### Lead bytes -/

/-- `Leads a more low high`: a lead byte of the number `a` announces so many bytes, of which the
first lies between two numbers. -/
def Leads (a more low high : Nat) : Prop :=
  (0xC2 ≤ a ∧ a ≤ 0xDF ∧ more = 1 ∧ low = 0x80 ∧ high = 0xBF) ∨
    (0xE0 ≤ a ∧ a ≤ 0xEF ∧ more = 2 ∧ (a = 0xE0 ∧ low = 0xA0 ∨ a ≠ 0xE0 ∧ low = 0x80) ∧
      (a = 0xED ∧ high = 0x9F ∨ a ≠ 0xED ∧ high = 0xBF)) ∨
    (0xF0 ≤ a ∧ a ≤ 0xF4 ∧ more = 3 ∧ (a = 0xF0 ∧ low = 0x90 ∨ a ≠ 0xF0 ∧ low = 0x80) ∧
      (a = 0xF4 ∧ high = 0x8F ∨ a ≠ 0xF4 ∧ high = 0xBF))

/-- **What `lead?` announces.** -/
theorem leads_of_lead? {a : UInt8} {lead : Lead} (h : lead? a = some lead) :
    Leads a.toNat lead.more lead.low.toNat lead.high.toNat := by
  simp only [lead?, UInt8.lt_iff_toNat_lt, UInt8.le_iff_toNat_le, ← UInt8.toNat_inj,
    UInt8.reduceToNat] at h
  rw [Leads]
  -- one case for each range of lead bytes
  repeat' split at h
  all_goals cases h
  all_goals simp only [UInt8.reduceToNat, and_true, true_and]
  all_goals omega

/-- `lead?` finds the lead bytes. -/
theorem exists_lead {a : UInt8} (hlow : 0xC2 ≤ a.toNat) (hhigh : a.toNat ≤ 0xF4) :
    ∃ lead, lead? a = some lead := by
  simp only [lead?, UInt8.lt_iff_toNat_lt, UInt8.le_iff_toNat_le, ← UInt8.toNat_inj,
    UInt8.reduceToNat]
  repeat' split
  all_goals first
    | exact ⟨_, rfl⟩
    | omega

/-- `lead?` of a byte before one that it admits. -/
theorem exists_lead_admits {a b : UInt8} (hlow : 0xC2 ≤ a.toNat) (hhigh : a.toNat ≤ 0xF4)
    (hb : 0x80 ≤ b.toNat ∧ b.toNat ≤ 0xBF) (hshort : a.toNat = 0xE0 → 0xA0 ≤ b.toNat)
    (hpair : a.toNat = 0xED → b.toNat ≤ 0x9F) (hshort' : a.toNat = 0xF0 → 0x90 ≤ b.toNat)
    (hlast : a.toNat = 0xF4 → b.toNat ≤ 0x8F) :
    ∃ lead, lead? a = some lead ∧ Leads a.toNat lead.more lead.low.toNat lead.high.toNat ∧
      lead.low ≤ b ∧ b ≤ lead.high := by
  obtain ⟨lead, hlead⟩ := exists_lead hlow hhigh
  have hleads := leads_of_lead? hlead
  refine ⟨lead, hlead, hleads, ?_⟩
  rw [Leads] at hleads
  rw [UInt8.le_iff_toNat_le, UInt8.le_iff_toNat_le]
  omega

/-! ### The bytes of a character -/

variable {n : Nat}

/-- `utf8EncodeChar` of a character of two bytes. -/
theorem utf8EncodeChar_two (hlow : 0x80 ≤ n) (hhigh : n < 0x800) :
    String.utf8EncodeChar (Char.ofNat n) =
      [UInt8.ofNat (n / 64 + 0xC0), UInt8.ofNat (n % 64 + 0x80)] := by
  have hnat : (Char.ofNat n).val.toNat = n := toNat_ofNat_of_isValidChar (.inl (by omega))
  rw [String.utf8EncodeChar, hnat]
  rw [if_neg (by omega), if_pos (by omega), Nat.mod_eq_of_lt (by omega)]

/-- `utf8EncodeChar` of a character of three bytes. -/
theorem utf8EncodeChar_three (hlow : 0x800 ≤ n) (hhigh : n < 0x10000) (hvalid : n.isValidChar) :
    String.utf8EncodeChar (Char.ofNat n) = [UInt8.ofNat (n / 4096 + 0xE0),
      UInt8.ofNat (n / 64 % 64 + 0x80), UInt8.ofNat (n % 64 + 0x80)] := by
  have hnat : (Char.ofNat n).val.toNat = n := toNat_ofNat_of_isValidChar hvalid
  rw [String.utf8EncodeChar, hnat]
  rw [if_neg (by omega), if_neg (by omega), if_pos (by omega), Nat.mod_eq_of_lt (by omega)]

/-- `utf8EncodeChar` of a character of four bytes. -/
theorem utf8EncodeChar_four (hlow : 0x10000 ≤ n) (hhigh : n < 0x110000) :
    String.utf8EncodeChar (Char.ofNat n) = [UInt8.ofNat (n / 262144 + 0xF0),
      UInt8.ofNat (n / 4096 % 64 + 0x80), UInt8.ofNat (n / 64 % 64 + 0x80),
      UInt8.ofNat (n % 64 + 0x80)] := by
  have hnat : (Char.ofNat n).val.toNat = n := toNat_ofNat_of_isValidChar (.inr ⟨by omega, hhigh⟩)
  rw [String.utf8EncodeChar, hnat]
  rw [if_neg (by omega), if_neg (by omega), if_neg (by omega), Nat.mod_eq_of_lt (by omega)]

/-- `isContinuation` by the numbers of bytes. -/
theorem isContinuation_iff {b : UInt8} :
    isContinuation b = true ↔ 0x80 ≤ b.toNat ∧ b.toNat ≤ 0xBF := by
  rw [isContinuation, Bool.and_eq_true, decide_eq_true_iff, decide_eq_true_iff,
    UInt8.le_iff_toNat_le, UInt8.le_iff_toNat_le]
  rfl

/-- The number of a byte that is made from one. -/
theorem toNat_ofNat_of_lt (h : n < 256) : (UInt8.ofNat n).toNat = n := by
  rw [UInt8.toNat_ofNat', Nat.mod_eq_of_lt h]

/-! ### Reading what is encoded -/

variable {a b c d : UInt8} {rest : Bytes}

/-- A byte from 128 on is no character of its own. -/
theorem not_lt_of_le (h : 0x80 ≤ a.toNat) : ¬ a < 0x80 :=
  Nat.not_lt.2 h

/-- `decode` of two bytes that are a character. -/
theorem decode_two (ha : 0xC2 ≤ a.toNat ∧ a.toNat ≤ 0xDF) (hb : 0x80 ≤ b.toNat ∧ b.toNat ≤ 0xBF) :
    decode (a :: b :: rest) =
      some (Char.ofNat (a.toNat % 32 * 64 + payload b)) :: decode rest := by
  obtain ⟨lead, hlead, hleads, hfirst⟩ := exists_lead_admits (a := a) (b := b) (by omega)
    (by omega) hb (by omega) (by omega) (by omega) (by omega)
  rw [Leads] at hleads
  rw [decode, if_neg (not_lt_of_le (by omega)), hlead]
  dsimp only
  rw [if_pos hfirst, if_pos (by omega)]

/-- `decode` of three bytes that are a character. -/
theorem decode_three (ha : 0xE0 ≤ a.toNat ∧ a.toNat ≤ 0xEF)
    (hb : 0x80 ≤ b.toNat ∧ b.toNat ≤ 0xBF) (hshort : a.toNat = 0xE0 → 0xA0 ≤ b.toNat)
    (hpair : a.toNat = 0xED → b.toNat ≤ 0x9F) (hc : 0x80 ≤ c.toNat ∧ c.toNat ≤ 0xBF) :
    decode (a :: b :: c :: rest) =
      some (Char.ofNat ((a.toNat % 16 * 64 + payload b) * 64 + payload c)) :: decode rest := by
  obtain ⟨lead, hlead, hleads, hfirst⟩ := exists_lead_admits (a := a) (b := b) (by omega)
    (by omega) hb (by omega) (by omega) (by omega) (by omega)
  rw [Leads] at hleads
  rw [decode, if_neg (not_lt_of_le (by omega)), hlead]
  dsimp only
  rw [if_pos hfirst, if_neg (by omega), if_pos (isContinuation_iff.2 hc), if_pos (by omega)]

/-- `decode` of four bytes that are a character. -/
theorem decode_four (ha : 0xF0 ≤ a.toNat ∧ a.toNat ≤ 0xF4)
    (hb : 0x80 ≤ b.toNat ∧ b.toNat ≤ 0xBF) (hshort : a.toNat = 0xF0 → 0x90 ≤ b.toNat)
    (hlast : a.toNat = 0xF4 → b.toNat ≤ 0x8F) (hc : 0x80 ≤ c.toNat ∧ c.toNat ≤ 0xBF)
    (hd : 0x80 ≤ d.toNat ∧ d.toNat ≤ 0xBF) :
    decode (a :: b :: c :: d :: rest) =
      some (Char.ofNat (((a.toNat % 8 * 64 + payload b) * 64 + payload c) * 64 + payload d)) ::
        decode rest := by
  obtain ⟨lead, hlead, hleads, hfirst⟩ := exists_lead_admits (a := a) (b := b) (by omega)
    (by omega) hb (by omega) (by omega) (by omega) (by omega)
  rw [Leads] at hleads
  rw [decode, if_neg (not_lt_of_le (by omega)), hlead]
  dsimp only
  rw [if_pos hfirst, if_neg (by omega), if_pos (isContinuation_iff.2 hc), if_neg (by omega),
    if_pos (isContinuation_iff.2 hd)]

/-- **`decode` reads a character from its bytes**, whatever follows them. -/
theorem decode_encoded_append (c : Char) (rest : Bytes) :
    decode (String.utf8EncodeChar c ++ rest) = some c :: decode rest := by
  obtain ⟨n, hvalid, rfl⟩ : ∃ n, n.isValidChar ∧ c = Char.ofNat n :=
    ⟨c.toNat, c.valid, c.ofNat_toNat.symm⟩
  have hrange : n < 0xD800 ∨ 0xDFFF < n ∧ n < 0x110000 := hvalid
  by_cases hone : n < 0x80
  · have ha := toNat_ofNat_of_lt (by omega : n < 256)
    have hlt : UInt8.ofNat n < 0x80 := by
      rw [UInt8.lt_iff_toNat_lt, ha]
      exact hone
    have hencode := utf8EncodeChar_ofNat hlt
    rw [ha] at hencode
    rw [hencode, List.singleton_append, decode, if_pos hlt, ha]
  by_cases htwo : n < 0x800
  · rw [utf8EncodeChar_two (by omega) htwo]
    have ha := toNat_ofNat_of_lt (by omega : n / 64 + 0xC0 < 256)
    have hb := toNat_ofNat_of_lt (by omega : n % 64 + 0x80 < 256)
    have hn : (n / 64 + 0xC0) % 32 * 64 + (n % 64 + 0x80) % 64 = n := by omega
    rw [List.cons_append, List.singleton_append, decode_two (by omega) (by omega), payload, ha, hb,
      hn]
  by_cases hthree : n < 0x10000
  · rw [utf8EncodeChar_three (by omega) hthree hvalid]
    have ha := toNat_ofNat_of_lt (by omega : n / 4096 + 0xE0 < 256)
    have hb := toNat_ofNat_of_lt (by omega : n / 64 % 64 + 0x80 < 256)
    have hc := toNat_ofNat_of_lt (by omega : n % 64 + 0x80 < 256)
    have hn : ((n / 4096 + 0xE0) % 16 * 64 + (n / 64 % 64 + 0x80) % 64) * 64 +
        (n % 64 + 0x80) % 64 = n := by omega
    rw [List.cons_append, List.cons_append, List.singleton_append,
      decode_three (by omega) (by omega) (by omega) (by omega) (by omega), payload, payload, ha, hb,
      hc, hn]
  · rw [utf8EncodeChar_four (by omega) (by omega)]
    have ha := toNat_ofNat_of_lt (by omega : n / 262144 + 0xF0 < 256)
    have hb := toNat_ofNat_of_lt (by omega : n / 4096 % 64 + 0x80 < 256)
    have hc := toNat_ofNat_of_lt (by omega : n / 64 % 64 + 0x80 < 256)
    have hd := toNat_ofNat_of_lt (by omega : n % 64 + 0x80 < 256)
    have hn : (((n / 262144 + 0xF0) % 8 * 64 + (n / 4096 % 64 + 0x80) % 64) * 64 +
        (n / 64 % 64 + 0x80) % 64) * 64 + (n % 64 + 0x80) % 64 = n := by omega
    rw [List.cons_append, List.cons_append, List.cons_append, List.singleton_append,
      decode_four (by omega) (by omega) (by omega) (by omega) (by omega) (by omega), payload,
      payload, payload, ha, hb, hc, hd, hn]

/-! ### Encoding what is read -/

/-- A byte is made from its number. -/
theorem ofNat_eq (h : n = a.toNat) : UInt8.ofNat n = a := by
  rw [h, UInt8.ofNat_toNat]

/-- Two bytes that `decode` reads as a character encode it. -/
theorem encoded_two {lead : Lead} (hlead : lead? a = some lead)
    (hb : lead.low ≤ b ∧ b ≤ lead.high) (hmore : lead.more = 1) :
    String.utf8EncodeChar (Char.ofNat (a.toNat % 32 * 64 + payload b)) = [a, b] := by
  have hleads := leads_of_lead? hlead
  rw [Leads] at hleads
  rw [UInt8.le_iff_toNat_le, UInt8.le_iff_toNat_le] at hb
  rw [payload, utf8EncodeChar_two (by omega) (by omega), ofNat_eq (a := a) (by omega),
    ofNat_eq (a := b) (by omega)]

/-- Three bytes that `decode` reads as a character encode it. -/
theorem encoded_three {lead : Lead} (hlead : lead? a = some lead)
    (hb : lead.low ≤ b ∧ b ≤ lead.high) (hc : isContinuation c = true) (hmore : lead.more = 2) :
    String.utf8EncodeChar (Char.ofNat ((a.toNat % 16 * 64 + payload b) * 64 + payload c)) =
      [a, b, c] := by
  have hleads := leads_of_lead? hlead
  rw [Leads] at hleads
  rw [UInt8.le_iff_toNat_le, UInt8.le_iff_toNat_le] at hb
  rw [isContinuation_iff] at hc
  have hvalid : ((a.toNat % 16 * 64 + b.toNat % 64) * 64 + c.toNat % 64).isValidChar := by
    change _ < 0xD800 ∨ 0xDFFF < _ ∧ _ < 0x110000
    omega
  rw [payload, payload, utf8EncodeChar_three (by omega) (by omega) hvalid,
    ofNat_eq (a := a) (by omega), ofNat_eq (a := b) (by omega), ofNat_eq (a := c) (by omega)]

/-- Four bytes that `decode` reads as a character encode it. -/
theorem encoded_four {lead : Lead} (hlead : lead? a = some lead)
    (hb : lead.low ≤ b ∧ b ≤ lead.high) (hc : isContinuation c = true)
    (hd : isContinuation d = true) (hmore : lead.more ≠ 1) (hmore' : lead.more ≠ 2) :
    String.utf8EncodeChar
        (Char.ofNat (((a.toNat % 8 * 64 + payload b) * 64 + payload c) * 64 + payload d)) =
      [a, b, c, d] := by
  have hleads := leads_of_lead? hlead
  rw [Leads] at hleads
  rw [UInt8.le_iff_toNat_le, UInt8.le_iff_toNat_le] at hb
  rw [isContinuation_iff] at hc hd
  rw [payload, payload, payload, utf8EncodeChar_four (by omega) (by omega),
    ofNat_eq (a := a) (by omega), ofNat_eq (a := b) (by omega), ofNat_eq (a := c) (by omega),
    ofNat_eq (a := d) (by omega)]

/-- `whole?` has all characters when the first is there and those after it are. -/
theorem whole?_cons_eq_some_iff {piece : Option Char} {pieces : List (Option Char)}
    {cs : List Char} :
    whole? (piece :: pieces) = some cs ↔
      ∃ ch cs', piece = some ch ∧ whole? pieces = some cs' ∧ cs = ch :: cs' := by
  cases piece with
  | none => simp [whole?]
  | some ch =>
      rw [whole?, Option.map_eq_some_iff]
      constructor
      · rintro ⟨cs', hcs, rfl⟩
        exact ⟨ch, cs', rfl, hcs, rfl⟩
      · rintro ⟨_, cs', ⟨⟩, hcs, rfl⟩
        exact ⟨cs', hcs, rfl⟩

/-- **Bytes that are read `whole?` encode what is read.** -/
theorem eq_encoded_of_whole? {bytes : Bytes} {cs : List Char}
    (h : whole? (decode bytes) = some cs) : bytes = cs.flatMap String.utf8EncodeChar := by
  fun_induction decode bytes generalizing cs with
  | case1 =>
      cases h
      rfl
  | case2 a rest ha ih =>
      obtain ⟨ch, cs, hch, hrest, rfl⟩ := whole?_cons_eq_some_iff.1 h
      cases hch
      rw [List.flatMap_cons, utf8EncodeChar_ofNat ha, ← ih hrest]
      rfl
  | case5 a ha lead hlead b rest hb hmore ih =>
      obtain ⟨ch, cs, hch, hrest, rfl⟩ := whole?_cons_eq_some_iff.1 h
      cases hch
      rw [List.flatMap_cons, encoded_two hlead hb hmore, ← ih hrest]
      rfl
  | case7 a ha lead hlead b hb hmore c rest hc hmore' ih =>
      obtain ⟨ch, cs, hch, hrest, rfl⟩ := whole?_cons_eq_some_iff.1 h
      cases hch
      rw [List.flatMap_cons, encoded_three hlead hb hc hmore', ← ih hrest]
      rfl
  | case9 a ha lead hlead b hb hmore c hc hmore' d rest hd ih =>
      obtain ⟨ch, cs, hch, hrest, rfl⟩ := whole?_cons_eq_some_iff.1 h
      cases hch
      rw [List.flatMap_cons, encoded_four hlead hb hc hd hmore hmore', ← ih hrest]
      rfl
  | case3 | case4 | case6 | case8 | case10 | case11 | case12 => cases h

/-- **`text?` is the text that bytes encode**, and `none` if they encode none. -/
theorem text?_eq_some_iff {bytes : Bytes} {text : String} :
    text? bytes = some text ↔ bytes = ofText text := by
  rw [text?, Option.map_eq_some_iff]
  constructor
  · rintro ⟨cs, hcs, rfl⟩
    rw [ofText, String.toList_ofList]
    exact eq_encoded_of_whole? hcs
  · rintro rfl
    refine ⟨text.toList, ?_, String.ofList_toList⟩
    rw [ofText]
    induction text.toList with
    | nil => rfl
    | cons ch cs ih =>
        rw [List.flatMap_cons, decode_encoded_append]
        exact whole?_cons_eq_some_iff.2 ⟨ch, cs, rfl, ih, rfl⟩

end KeyValueServer.Utf8
