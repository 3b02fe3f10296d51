import KeyValueServer.Proofs.Json.Grammar
import KeyValueServer.Proofs.Numeral
import KeyValueServer.Proofs.Text.Utf8

/-!
# What strings and numbers say

A string says a text when its code points are those of the text, where a character past U+FFFF may
also stand as its two surrogates (`Json.Spells`). A number says a natural number when it is its
decimal digits, and in no other way: a numeral with a leading zero is no number of the grammar, and
one with a sign, a fraction or an exponent is not read by `Json.naturalBelow?`.

## Main results

* `Json.textOf?_eq_some_iff`: the text that a string says.
* `Json.naturalBelow?_number_eq_some_iff`: the natural number that a number says.
* `Json.Written.of_mem_members`: a member of an object that is written is itself written.
-/

namespace KeyValueServer.Json

variable {s t literal : List Char} {points : List Nat} {cs : List Char}

/-! ### Texts -/

/-- `Spells points cs`: the code points are those of the characters, or in place of a character its
two surrogates. -/
inductive Spells : List Nat → List Char → Prop
  | nil : Spells [] []
  | char {points : List Nat} {cs : List Char} (c : Char) (h : Spells points cs) :
      Spells (c.toNat :: points) (c :: cs)
  | pair {points : List Nat} {cs : List Char} {c : Char} (hc : 0x10000 ≤ c.toNat)
      (h : Spells points cs) :
      Spells ((0xD800 + (c.toNat - 0x10000) / 0x400) :: (0xDC00 + (c.toNat - 0x10000) % 0x400) ::
        points) (c :: cs)

/-- `Spells` of the text's own code points. -/
theorem spells_map_toNat (cs : List Char) : Spells (cs.map Char.toNat) cs := by
  induction cs with
  | nil => exact .nil
  | cons c cs ih => exact .char c ih

/-- `isHighSurrogate` as numbers. -/
theorem isHighSurrogate_iff {n : Nat} : isHighSurrogate n = true ↔ 0xD800 ≤ n ∧ n ≤ 0xDBFF := by
  rw [isHighSurrogate, Bool.and_eq_true, decide_eq_true_iff, decide_eq_true_iff]

/-- `isLowSurrogate` as numbers. -/
theorem isLowSurrogate_iff {n : Nat} : isLowSurrogate n = true ↔ 0xDC00 ≤ n ∧ n ≤ 0xDFFF := by
  rw [isLowSurrogate, Bool.and_eq_true, decide_eq_true_iff, decide_eq_true_iff]

/-- `Char.ofNat` of a code point that is no surrogate. -/
theorem toNat_ofNat_of_not_surrogate {n : Nat} (hn : n < 0x110000)
    (hhigh : ¬ isHighSurrogate n = true) (hlow : ¬ isLowSurrogate n = true) :
    (Char.ofNat n).toNat = n := by
  rw [isHighSurrogate_iff] at hhigh
  rw [isLowSurrogate_iff] at hlow
  have hvalid : n.isValidChar := by
    change _ < 0xD800 ∨ 0xDFFF < _ ∧ _ < 0x110000
    omega
  exact Utf8.toNat_ofNat_of_isValidChar hvalid

/-- `Char.toNat` is no surrogate. -/
theorem not_surrogate (c : Char) :
    ¬ isHighSurrogate c.toNat = true ∧ ¬ isLowSurrogate c.toNat = true := by
  have hvalid : c.toNat < 0xD800 ∨ 0xDFFF < c.toNat ∧ c.toNat < 0x110000 := c.valid
  rw [isHighSurrogate_iff, isLowSurrogate_iff]
  omega

/-- `pairs?` reads a code point that is no surrogate by itself. -/
theorem pairs?_cons {n : Nat} (hhigh : ¬ isHighSurrogate n = true)
    (hlow : ¬ isLowSurrogate n = true) (points : List Nat) :
    pairs? (n :: points) = (pairs? points).map (Char.ofNat n :: ·) := by
  cases points with
  | nil => simp [pairs?, hhigh, hlow]
  | cons next points => rw [pairs?, if_neg hhigh, if_neg hlow]

/-- `pairs?` reads two surrogates together. -/
theorem pairs?_pair {high low : Nat} (hhigh : isHighSurrogate high = true)
    (hlow : isLowSurrogate low = true) (points : List Nat) :
    pairs? (high :: low :: points) = (pairs? points).map (Char.ofNat (paired high low) :: ·) := by
  rw [pairs?, if_pos hhigh, if_pos hlow]

/-- **`pairs?` reads a string as the characters that it `Spells`.** -/
theorem Spells.pairs?_eq (h : Spells points cs) : pairs? points = some cs := by
  induction h with
  | nil => rfl
  | char c h ih =>
      obtain ⟨hhigh, hlow⟩ := not_surrogate c
      rw [pairs?_cons hhigh hlow, ih, Option.map_some, Char.ofNat_toNat]
  | @pair points cs c hc h ih =>
      have hvalid : c.toNat < 0xD800 ∨ 0xDFFF < c.toNat ∧ c.toNat < 0x110000 := c.valid
      have hpaired : paired (0xD800 + (c.toNat - 0x10000) / 0x400)
          (0xDC00 + (c.toNat - 0x10000) % 0x400) = c.toNat := by
        rw [paired]
        omega
      rw [pairs?_pair (isHighSurrogate_iff.2 (by omega)) (isLowSurrogate_iff.2 (by omega)), ih,
        Option.map_some, hpaired, Char.ofNat_toNat]

/-- `Spells` with two surrogates for the character that they are read as. -/
theorem Spells.paired {high low : Nat} (hhigh : isHighSurrogate high = true)
    (hlow : isLowSurrogate low = true) (h : Spells points cs) :
    Spells (high :: low :: points) (Char.ofNat (paired high low) :: cs) := by
  rw [isHighSurrogate_iff] at hhigh
  rw [isLowSurrogate_iff] at hlow
  have hnat : (Char.ofNat (Json.paired high low)).toNat = Json.paired high low := by
    refine toNat_ofNat_of_not_surrogate ?_ ?_ ?_
    · rw [Json.paired]
      omega
    · rw [isHighSurrogate_iff, Json.paired]
      omega
    · rw [isLowSurrogate_iff, Json.paired]
      omega
  have hlarge : 0x10000 ≤ (Char.ofNat (Json.paired high low)).toNat := by
    rw [hnat, Json.paired]
    omega
  have hpair := Spells.pair hlarge h
  have hhigh' : 0xD800 + (Json.paired high low - 0x10000) / 0x400 = high := by
    rw [Json.paired]
    omega
  have hlow' : 0xDC00 + (Json.paired high low - 0x10000) % 0x400 = low := by
    rw [Json.paired]
    omega
  rwa [hnat, hhigh', hlow'] at hpair

/-- **What `pairs?` reads a string as, it `Spells`.** -/
theorem spells_of_pairs? (hpoints : ∀ n ∈ points, n < 0x110000) (h : pairs? points = some cs) :
    Spells points cs := by
  fun_induction pairs? points generalizing cs with
  | case1 =>
      cases h
      exact .nil
  | case2 => cases h
  | case3 n hn =>
      cases h
      rw [Bool.or_eq_true, not_or] at hn
      have hspells := Spells.char (Char.ofNat n) .nil
      rwa [toNat_ofNat_of_not_surrogate (hpoints n List.mem_cons_self) hn.1 hn.2] at hspells
  | case4 high low points hhigh hlow ih =>
      obtain ⟨cs, hcs, rfl⟩ := Option.map_eq_some_iff.1 h
      have hrest : ∀ n ∈ points, n < 0x110000 := fun n hn =>
        hpoints n (List.mem_cons_of_mem _ (List.mem_cons_of_mem _ hn))
      exact (ih hrest hcs).paired hhigh hlow
  | case5 => cases h
  | case6 => cases h
  | case7 n next points hhigh hlow ih =>
      obtain ⟨cs, hcs, rfl⟩ := Option.map_eq_some_iff.1 h
      have hrest : ∀ n ∈ next :: points, n < 0x110000 := fun n hn =>
        hpoints n (List.mem_cons_of_mem _ hn)
      have hspells := (ih hrest hcs).char (Char.ofNat n)
      rwa [toNat_ofNat_of_not_surrogate (hpoints n List.mem_cons_self) hhigh hlow] at hspells

/-- `HexDigit` has values below 16. -/
theorem HexDigit.lt {c : Char} {d : Nat} (h : HexDigit c d) : d < 16 := by
  cases h <;> omega

/-- `Body` has the code points of characters and surrogates. -/
theorem Body.forall_lt (h : Body points s) : ∀ n ∈ points, n < 0x110000 := by
  induction h with
  | nil => exact fun n hn => absurd hn List.not_mem_nil
  | @plain points s c _ _ _ _ ih =>
      have hvalid : c.toNat < 0xD800 ∨ 0xDFFF < c.toNat ∧ c.toNat < 0x110000 := c.valid
      exact List.forall_mem_cons.2 ⟨by omega, ih⟩
  | short he _ ih =>
      have hall : ∀ p ∈ escapes, p.2 < 0x110000 := by decide
      exact List.forall_mem_cons.2 ⟨hall _ he, ih⟩
  | hex ha hb hc hd _ ih =>
      have hw := ha.lt
      have hx := hb.lt
      have hy := hc.lt
      have hz := hd.lt
      exact List.forall_mem_cons.2 ⟨by omega, ih⟩

/-- **`textOf?` is the text that a string `Spells`.** -/
theorem textOf?_eq_some_iff (h : Body points s) {text : String} :
    textOf? points = some text ↔ Spells points text.toList := by
  rw [textOf?, Option.map_eq_some_iff]
  constructor
  · rintro ⟨cs, hcs, rfl⟩
    rw [String.toList_ofList]
    exact spells_of_pairs? h.forall_lt hcs
  · intro hspells
    exact ⟨text.toList, hspells.pairs?_eq, String.ofList_toList⟩

/-! ### Natural numbers -/

/-- What is read as a natural number has digits only. -/
theorem isDigit_of_denotes {n : Nat} (h : Numeral.Denotes (Bytes.ofText (String.ofList literal)) n)
    {c : Char} (hc : c ∈ literal) : c.isDigit = true := by
  obtain ⟨b, rest, hencode⟩ := List.exists_cons_of_ne_nil (String.utf8EncodeChar_ne_nil (c := c))
  have hb : b ∈ String.utf8EncodeChar c := by
    rw [hencode]
    exact List.mem_cons_self
  have hmem : b ∈ Bytes.ofText (String.ofList literal) := by
    rw [Bytes.ofText, String.toList_ofList]
    exact List.mem_flatMap_of_mem hc hb
  obtain ⟨d, hd, hdigit⟩ := h.exists_digit hmem
  have hbyte : b.toNat = 48 + d := by rw [hdigit, Numeral.toNat_digitByte hd]
  have hnat : c.toNat = b.toNat := Utf8.toNat_eq_of_mem_utf8EncodeChar hb (by omega)
  have hall : ∀ d : Fin 10, (Char.ofNat (48 + d)).isDigit = true := by decide
  have hdigit := hall ⟨d, hd⟩
  rwa [← hbyte, ← hnat, Char.ofNat_toNat] at hdigit

/-- `IsNumber` with digits only has nothing but the digits before the point. -/
theorem IsNumber.whole (h : IsNumber literal) (hdigits : ∀ c ∈ literal, c.isDigit = true) :
    Whole literal := by
  rcases h with ⟨whole, fraction, exponent, hwhole, hfraction, hexponent, rfl⟩ | ⟨rest, -, rfl⟩
  · rcases hfraction with rfl | ⟨digits, -, rfl⟩
    · rcases hexponent with rfl | ⟨e, sign, digits, he, -, -, rfl⟩
      · rwa [List.append_nil, List.append_nil]
      · have hletter : e.isDigit = true := hdigits e (by simp)
        rcases he with rfl | rfl <;> cases hletter
    · cases hdigits '.' (by simp)
  · cases hdigits '-' List.mem_cons_self

/-- **`naturalBelow?` is the natural number that a number says.** -/
theorem naturalBelow?_number_eq_some_iff (h : IsNumber literal) {bound n : Nat} :
    naturalBelow? bound (.number literal) = some n ↔ literal = Nat.toDigits 10 n ∧ n < bound := by
  rw [naturalBelow?, Numeral.naturalBelow?_eq_filter, Option.filter_eq_some_iff,
    Numeral.natural?_eq_some_iff, decide_eq_true_iff]
  refine and_congr_left fun _ => ⟨fun hdenotes => ?_, ?_⟩
  · have hwhole := h.whole fun c hc => isDigit_of_denotes hdenotes hc
    have hfront : (Bytes.ofText (String.ofList literal)).head? = some 48 →
        Bytes.ofText (String.ofList literal) = [48] := by
      intro hhead
      rcases hwhole with rfl | ⟨⟨hne, -⟩, hzero⟩
      · rfl
      · obtain ⟨c, rest, rfl⟩ := List.exists_cons_of_ne_nil hne
        rw [Bytes.ofText, String.toList_ofList, List.flatMap_cons, List.head?_append,
          Option.or_of_isSome (List.isSome_head?.2 String.utf8EncodeChar_ne_nil)] at hhead
        have hnat : c.toNat = 48 :=
          Utf8.toNat_eq_of_mem_utf8EncodeChar (List.mem_of_mem_head? hhead) (by decide)
        refine absurd ?_ hzero
        rw [List.head?_cons, ← c.ofNat_toNat, hnat]
    exact String.ofList_injective (Bytes.ofText_injective (hdenotes.eq_decimalBytes hfront))
  · rintro rfl
    exact Numeral.denotes_decimal n

/-! ### Members -/

/-- **`Written` of a member of an object that is written.** -/
theorem Written.of_mem_members {ms : List (List Nat × Json)} (h : Written (.members ms) t)
    {m : List Nat × Json} (hm : m ∈ ms) :
    (∃ s, Body m.1 s) ∧ ∃ s, Written (.value m.2) s := by
  induction ms generalizing t with
  | nil => cases hm
  | cons first ms ih =>
      have hfirst : (∃ s, Body first.1 s) ∧ ∃ s, Written (.padded first.2) s := by
        cases h with
        | lastMember hn hv =>
            obtain ⟨_, body, _, _, hbody, _⟩ := hn
            exact ⟨⟨body, hbody⟩, _, hv⟩
        | member hn hv _ =>
            obtain ⟨_, body, _, _, hbody, _⟩ := hn
            exact ⟨⟨body, hbody⟩, _, hv⟩
      rcases List.mem_cons.1 hm with rfl | hmem
      · obtain ⟨hname, _, hpadded⟩ := hfirst
        cases hpadded with
        | padded _ hvalue _ => exact ⟨hname, _, hvalue⟩
      · cases h with
        | lastMember => cases hmem
        | member _ _ hrest => exact ih hrest hmem

end KeyValueServer.Json
