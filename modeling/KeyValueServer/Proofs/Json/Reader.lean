import Mathlib.Data.List.Basic
import KeyValueServer.Json.Reader
import KeyValueServer.Proofs.Json.Grammar

/-!
# The readers follow the grammar

Each reader takes what is written in front of it and leaves the rest, so it is described by two
facts: what it takes is `Json.Written` there, and what is written there is taken. The first
(`Json.ReadsWritten`) holds at any depth, by induction on it. The second (`Json.IsRead`) needs a
depth of two for each character, and something behind a number with which the number cannot go on;
it is an induction on how the text is written.

## Main results

* `Json.readString_sound`, `Json.readString_append`: strings.
* `Json.readNumber_sound`, `Json.readNumber_append`: numbers.
* `Json.readsWritten`, `Json.Written.isRead`: values, items and members.
* `Json.parse?_eq_some_iff`: a whole text is read exactly as the grammar says.
* `Json.Written.unique`: the grammar is unambiguous.
-/

namespace KeyValueServer.Json

variable {s t rest : List Char} {points : List Nat}

/-! ### Blanks -/

/-- `isBlank` holds of `blanks`. -/
theorem isBlank_iff {c : Char} : isBlank c = true ↔ c ∈ blanks := by
  simp [isBlank, blanks, or_assoc]
  tauto

/-- `Unpadded s`: what is left begins with no blank. -/
def Unpadded (s : List Char) : Prop := ∀ c ∈ s.head?, c ∉ blanks

/-- `skipBlanks` takes as many blanks as there are. -/
theorem skipBlanks_append (ht : Blanks t) (hs : Unpadded s) : skipBlanks (t ++ s) = s := by
  rw [skipBlanks, List.dropWhile_append_of_pos fun c hc => isBlank_iff.2 (ht c hc)]
  cases s with
  | nil => rfl
  | cons c s => rw [List.dropWhile_cons_of_neg (mt isBlank_iff.1 (hs c rfl))]

/-- `skipBlanks` takes blanks only. -/
theorem exists_skipBlanks (s : List Char) :
    ∃ t, Blanks t ∧ Unpadded (skipBlanks s) ∧ s = t ++ skipBlanks s := by
  refine ⟨s.takeWhile isBlank, fun c hc => ?_, fun c hc => ?_, ?_⟩
  · exact isBlank_iff.1 (List.all_eq_true.1 List.all_takeWhile c hc)
  · have hhead := List.head?_dropWhile_not isBlank s
    rw [skipBlanks] at hc
    rw [hc] at hhead
    exact fun hmem => Bool.false_ne_true (hhead.symm.trans (isBlank_iff.2 hmem))
  · exact List.takeWhile_append_dropWhile.symm

/-! ### Strings -/

/-- `digitOf?` in base sixteen is `HexDigit`. -/
theorem digitOf?_eq_some_iff {c : Char} {d : Nat} :
    Numeral.digitOf? 16 c = some d ↔ HexDigit c d := by
  constructor
  · intro h
    have hrange : ∀ base n, base ≤ c.toNat → c.toNat < base + n →
        ∃ d < n, c.toNat = base + d ∧ c = Char.ofNat (base + d) := by
      intro base n hlow hhigh
      have hsum : base + (c.toNat - base) = c.toNat := Nat.add_sub_cancel' hlow
      exact ⟨c.toNat - base, by omega, hsum.symm, by rw [hsum, Char.ofNat_toNat]⟩
    rw [Numeral.digitOf?, Option.ite_none_right_eq_some, Option.some.injEq] at h
    obtain ⟨hlt, rfl⟩ := h
    revert hlt
    split
    · rename_i hc
      obtain ⟨d, hd, hnat, rfl⟩ := hrange 48 10 hc.1 (Nat.lt_succ_of_le hc.2)
      rw [hnat, Nat.add_sub_cancel_left]
      exact fun _ => .decimal hd
    · split
      · rename_i hc
        obtain ⟨d, hd, hnat, rfl⟩ := hrange 97 6 hc.1 (Nat.lt_succ_of_le hc.2)
        have hvalue : 97 + d - 87 = 10 + d := by omega
        rw [hnat, hvalue]
        exact fun _ => .small hd
      · split
        · rename_i hc
          obtain ⟨d, hd, hnat, rfl⟩ := hrange 65 6 hc.1 (Nat.lt_succ_of_le hc.2)
          have hvalue : 65 + d - 55 = 10 + d := by omega
          rw [hnat, hvalue]
          exact fun _ => .capital hd
        · exact fun hlt => absurd hlt (Nat.lt_irrefl 16)
  · rintro (h | h | h)
    · have hall : ∀ d : Fin 10, Numeral.digitOf? 16 (Char.ofNat (48 + d)) = some d.val := by decide
      exact hall ⟨d, h⟩
    · rename_i d
      have hall : ∀ d : Fin 6, Numeral.digitOf? 16 (Char.ofNat (97 + d)) = some (10 + d.val) := by
        decide
      exact hall ⟨d, h⟩
    · rename_i d
      have hall : ∀ d : Fin 6, Numeral.digitOf? 16 (Char.ofNat (65 + d)) = some (10 + d.val) := by
        decide
      exact hall ⟨d, h⟩

/-- `shortEscape?` looks up `escapes`. -/
theorem shortEscape?_eq_some_iff {c : Char} {point : Nat} :
    shortEscape? c = some point ↔ (c, point) ∈ escapes := by
  rw [shortEscape?]
  simp only [escapes, List.mem_cons, Prod.mk.injEq, List.not_mem_nil, or_false]
  constructor
  · intro h
    repeat' split at h
    all_goals simp_all
    rename_i hc
    rcases hc with rfl | rfl | rfl <;> simp [← h]
  · intro h
    have hall : ∀ p ∈ escapes, shortEscape? p.1 = some p.2 := by decide
    exact hall (c, point) (by simpa [escapes] using h)

/-- `hexFour?` reads four `HexDigit`s. -/
theorem hexFour?_eq_some_iff {a b c d : Char} {point : Nat} :
    hexFour? a b c d = some point ↔ ∃ w x y z, HexDigit a w ∧ HexDigit b x ∧ HexDigit c y ∧
      HexDigit d z ∧ point = ((w * 16 + x) * 16 + y) * 16 + z := by
  simp only [hexFour?, Option.bind_eq_some_iff, digitOf?_eq_some_iff, Option.some.injEq,
    Option.bind_eq_bind]
  constructor
  · rintro ⟨w, hw, x, hx, y, hy, z, hz, rfl⟩
    exact ⟨w, x, y, z, hw, hx, hy, hz, rfl⟩
  · rintro ⟨w, x, y, z, hw, hx, hy, hz, rfl⟩
    exact ⟨w, hw, x, hx, y, hy, z, hz, rfl⟩

/-- **`readString` reads what is a `Body`.** -/
theorem readString_sound (h : readString s = some (points, rest)) :
    ∃ t, Body points t ∧ s = t ++ '\x22' :: rest := by
  fun_induction readString s generalizing points rest with
  | case1 => cases h
  | case2 s =>
      cases h
      exact ⟨[], .nil, rfl⟩
  | case3 a b c d s ih =>
      simp only [Option.bind_eq_bind, Option.bind_eq_some_iff, hexFour?_eq_some_iff] at h
      obtain ⟨point, ⟨w, x, y, z, hw, hx, hy, hz, rfl⟩, ⟨points, rest⟩, hread, h⟩ := h
      cases h
      obtain ⟨t, ht, rfl⟩ := ih hread
      exact ⟨_, .hex hw hx hy hz ht, rfl⟩
  | case4 e s _ ih =>
      simp only [Option.bind_eq_bind, Option.bind_eq_some_iff, shortEscape?_eq_some_iff] at h
      obtain ⟨point, he, ⟨points, rest⟩, hread, h⟩ := h
      cases h
      obtain ⟨t, ht, rfl⟩ := ih hread
      exact ⟨_, .short he ht, rfl⟩
  | case5 => cases h
  | case6 c s hquote _ _ hplain ih =>
      simp only [Option.bind_eq_bind, Option.bind_eq_some_iff] at h
      obtain ⟨⟨points, rest⟩, hread, h⟩ := h
      cases h
      obtain ⟨t, ht, rfl⟩ := ih hread
      rw [not_or, Nat.not_lt] at hplain
      exact ⟨_, .plain hplain.1 hquote hplain.2 ht, rfl⟩

/-- **`readString` reads every `Body`.** -/
theorem readString_append (h : Body points t) (rest : List Char) :
    readString (t ++ '\x22' :: rest) = some (points, rest) := by
  induction h with
  | nil => rfl
  | @plain points s c hc hquote hback hs ih =>
      have hplain : ¬ (c.toNat < 32 ∨ c = '\\') := not_or.2 ⟨Nat.not_lt.2 hc, hback⟩
      rw [List.cons_append, readString.eq_5 c _ hquote (fun _ _ _ _ _ h => absurd h hback)
        (fun _ _ h => absurd h hback), if_neg hplain, ih]
      rfl
  | @short points s e point he hs ih =>
      have hletters : ∀ p ∈ escapes, p.1 ≠ 'u' := by decide
      have hletter : e ≠ 'u' := hletters _ he
      rw [List.cons_append, List.cons_append,
        readString.eq_4 e _ fun _ _ _ _ _ h => absurd h hletter, shortEscape?_eq_some_iff.2 he, ih]
      rfl
  | hex ha hb hc hd hs ih =>
      have hpoint := hexFour?_eq_some_iff.2 ⟨_, _, _, _, ha, hb, hc, hd, rfl⟩
      simp only [List.cons_append, readString, hpoint, ih]
      rfl

/-! ### Numbers -/

/-- `Stops s`: a number cannot go on with what follows it. -/
def Stops (s : List Char) : Prop :=
  ∀ c ∈ s.head?, c.isDigit = false ∧ c ≠ '.' ∧ c ≠ 'e' ∧ c ≠ 'E'

variable {digits whole fraction exponent : List Char}

/-- `readDigits` reads `Digits`. -/
theorem readDigits_sound (h : readDigits s = some (digits, rest)) :
    Digits digits ∧ s = digits ++ rest := by
  rw [readDigits] at h
  split at h
  · cases h
  · rename_i hne
    cases h
    exact ⟨⟨hne, fun c hc => List.all_eq_true.1 List.all_takeWhile c hc⟩,
      List.takeWhile_append_dropWhile.symm⟩

/-- `readDigits` reads all `Digits`. -/
theorem readDigits_append (h : Digits digits) (hrest : ∀ c ∈ rest.head?, c.isDigit = false) :
    readDigits (digits ++ rest) = some (digits, rest) := by
  obtain ⟨hne, hdigits⟩ := h
  have hnone : rest.takeWhile Char.isDigit = [] ∧ rest.dropWhile Char.isDigit = rest := by
    cases rest with
    | nil => exact ⟨rfl, rfl⟩
    | cons c rest =>
        have hc := hrest c rfl
        exact ⟨List.takeWhile_cons_of_neg (by simp [hc]), List.dropWhile_cons_of_neg (by simp [hc])⟩
  rw [readDigits, List.takeWhile_append_of_pos hdigits, List.dropWhile_append_of_pos hdigits,
    hnone.1, hnone.2, List.append_nil]
  split
  · exact absurd rfl hne
  · rfl

/-- `readWhole` reads what is `Whole`. -/
theorem readWhole_sound (h : readWhole s = some (whole, rest)) :
    Whole whole ∧ s = whole ++ rest := by
  rw [readWhole.eq_def] at h
  split at h
  · cases h
    exact ⟨.inl rfl, rfl⟩
  · rename_i hzero
    obtain ⟨hdigits, rfl⟩ := readDigits_sound h
    refine ⟨.inr ⟨hdigits, fun hhead => ?_⟩, rfl⟩
    cases whole with
    | nil => cases hhead
    | cons c whole =>
        cases hhead
        exact hzero _ rfl

/-- `readWhole` reads all that is `Whole`. -/
theorem readWhole_append (h : Whole whole) (hrest : ∀ c ∈ rest.head?, c.isDigit = false) :
    readWhole (whole ++ rest) = some (whole, rest) := by
  rcases h with rfl | ⟨hdigits, hzero⟩
  · rfl
  · rw [readWhole.eq_def]
    split
    · rename_i heq
      cases whole with
      | nil => exact absurd rfl hdigits.1
      | cons c whole =>
          cases heq
          exact absurd rfl hzero
    · exact readDigits_append hdigits hrest

/-- `readFraction` reads a `Fraction`. -/
theorem readFraction_sound (h : readFraction s = some (fraction, rest)) :
    Fraction fraction ∧ s = fraction ++ rest := by
  rw [readFraction.eq_def] at h
  split at h
  · simp only [Option.bind_eq_bind, Option.bind_eq_some_iff] at h
    obtain ⟨⟨digits, rest⟩, hread, h⟩ := h
    cases h
    obtain ⟨hdigits, rfl⟩ := readDigits_sound hread
    exact ⟨.inr ⟨digits, hdigits, rfl⟩, rfl⟩
  · cases h
    exact ⟨.inl rfl, rfl⟩

/-- `readFraction` reads every `Fraction`. -/
theorem readFraction_append (h : Fraction fraction)
    (hrest : ∀ c ∈ rest.head?, c.isDigit = false ∧ c ≠ '.') :
    readFraction (fraction ++ rest) = some (fraction, rest) := by
  rcases h with rfl | ⟨digits, hdigits, rfl⟩
  · rw [List.nil_append, readFraction.eq_def]
    split
    · exact absurd rfl (hrest '.' rfl).2
    · rfl
  · rw [List.cons_append, readFraction, readDigits_append hdigits fun c hc => (hrest c hc).1]
    rfl

/-- `readExponent` reads an `Exponent`. -/
theorem readExponent_sound (h : readExponent s = some (exponent, rest)) :
    Exponent exponent ∧ s = exponent ++ rest := by
  rw [readExponent.eq_def] at h
  split at h
  · rename_i e s
    split at h
    · rename_i he
      simp only [Option.bind_eq_bind, Option.bind_eq_some_iff] at h
      obtain ⟨⟨digits, rest⟩, hread, h⟩ := h
      cases h
      obtain ⟨hdigits, hrest⟩ := readDigits_sound hread
      have hsign : ((readSign s).1 = [] ∨ (readSign s).1 = ['+'] ∨ (readSign s).1 = ['-']) ∧
          s = (readSign s).1 ++ (readSign s).2 := by
        rw [readSign.eq_def]
        split <;> simp
      refine ⟨.inr ⟨e, _, digits, he, hsign.1, hdigits, rfl⟩, congrArg (e :: ·) ?_⟩
      calc s = (readSign s).1 ++ (readSign s).2 := hsign.2
        _ = (readSign s).1 ++ (digits ++ rest) := congrArg _ hrest
        _ = (readSign s).1 ++ digits ++ rest := (List.append_assoc ..).symm
    · cases h
      exact ⟨.inl rfl, rfl⟩
  · cases h
    exact ⟨.inl rfl, rfl⟩

/-- `readExponent` reads every `Exponent`. -/
theorem readExponent_append (h : Exponent exponent)
    (hrest : ∀ c ∈ rest.head?, c.isDigit = false ∧ c ≠ 'e' ∧ c ≠ 'E') :
    readExponent (exponent ++ rest) = some (exponent, rest) := by
  rcases h with rfl | ⟨e, sign, digits, he, hsign, hdigits, rfl⟩
  · cases rest with
    | nil => rfl
    | cons c rest =>
        obtain ⟨-, hsmall, hcapital⟩ := hrest c rfl
        rw [List.nil_append, readExponent, if_neg (not_or.2 ⟨hsmall, hcapital⟩)]
  · have hread := readDigits_append hdigits fun c hc => (hrest c hc).1
    have hreadSign : readSign (sign ++ digits ++ rest) = (sign, digits ++ rest) := by
      rcases hsign with rfl | rfl | rfl
      · -- digits begin with no sign
        obtain ⟨hne, hall⟩ := hdigits
        cases digits with
        | nil => exact absurd rfl hne
        | cons d digits =>
            rw [List.nil_append, List.cons_append, readSign.eq_def]
            split
            · rename_i heq
              cases heq
              exact absurd (hall '+' List.mem_cons_self) (by decide)
            · rename_i heq
              cases heq
              exact absurd (hall '-' List.mem_cons_self) (by decide)
            · rfl
      · rfl
      · rfl
    rw [List.cons_append, readExponent, if_pos he, hreadSign]
    dsimp only
    rw [hread]
    rfl

/-- What follows an `Exponent`, seen from before it. -/
theorem Exponent.head? (h : Exponent exponent) (hrest : Stops rest) :
    ∀ c ∈ (exponent ++ rest).head?, c.isDigit = false ∧ c ≠ '.' := by
  rcases h with rfl | ⟨e, sign, digits, rfl | rfl, -, -, rfl⟩
  · exact fun c hc => ⟨(hrest c hc).1, (hrest c hc).2.1⟩
  · rintro c ⟨⟩
    decide
  · rintro c ⟨⟩
    decide

/-- `readMagnitude` reads what `IsMagnitude`. -/
theorem readMagnitude_sound (h : readMagnitude s = some (t, rest)) :
    IsMagnitude t ∧ s = t ++ rest := by
  simp only [readMagnitude, Option.bind_eq_bind, Option.bind_eq_some_iff] at h
  obtain ⟨⟨whole, s₁⟩, hwhole, ⟨fraction, s₂⟩, hfraction, ⟨exponent, s₃⟩, hexponent, h⟩ := h
  cases h
  obtain ⟨hw, rfl⟩ := readWhole_sound hwhole
  obtain ⟨hf, rfl⟩ := readFraction_sound hfraction
  obtain ⟨he, rfl⟩ := readExponent_sound hexponent
  refine ⟨⟨whole, fraction, exponent, hw, hf, he, rfl⟩, ?_⟩
  rw [List.append_assoc, List.append_assoc]

/-- `readMagnitude` reads all that `IsMagnitude`. -/
theorem readMagnitude_append (h : IsMagnitude t) (hrest : Stops rest) :
    readMagnitude (t ++ rest) = some (t, rest) := by
  obtain ⟨whole, fraction, exponent, hw, hf, he, rfl⟩ := h
  have hafter := he.head? hrest
  have hdigit : ∀ c ∈ (fraction ++ (exponent ++ rest)).head?, c.isDigit = false := by
    rcases hf with rfl | ⟨digits, -, rfl⟩
    · exact fun c hc => (hafter c hc).1
    · rintro c ⟨⟩
      rfl
  have hexponent := readExponent_append he fun c hc =>
    ⟨(hrest c hc).1, (hrest c hc).2.2⟩
  rw [List.append_assoc, List.append_assoc, readMagnitude, readWhole_append hw hdigit]
  simp only [Option.bind_eq_bind, Option.bind_some, readFraction_append hf hafter, hexponent,
    List.append_assoc]

/-- **`readNumber` reads what `IsNumber`.** -/
theorem readNumber_sound (h : readNumber s = some (t, rest)) : IsNumber t ∧ s = t ++ rest := by
  rw [readNumber.eq_def] at h
  split at h
  · simp only [Option.bind_eq_bind, Option.bind_eq_some_iff] at h
    obtain ⟨⟨magnitude, rest⟩, hread, h⟩ := h
    cases h
    obtain ⟨hmagnitude, rfl⟩ := readMagnitude_sound hread
    exact ⟨.inr ⟨magnitude, hmagnitude, rfl⟩, rfl⟩
  · obtain ⟨hmagnitude, rfl⟩ := readMagnitude_sound h
    exact ⟨.inl hmagnitude, rfl⟩

/-- `IsMagnitude` begins with a digit. -/
theorem IsMagnitude.exists_cons (h : IsMagnitude t) : ∃ d s, d.isDigit = true ∧ t = d :: s := by
  obtain ⟨whole, fraction, exponent, hw, -, -, rfl⟩ := h
  rcases hw with rfl | ⟨⟨hne, hall⟩, -⟩
  · exact ⟨'0', _, rfl, rfl⟩
  · cases whole with
    | nil => exact absurd rfl hne
    | cons d whole => exact ⟨d, _, hall d List.mem_cons_self, rfl⟩

/-- **`readNumber` reads all that `IsNumber`**, if it cannot go on there. -/
theorem readNumber_append (h : IsNumber t) (hrest : Stops rest) :
    readNumber (t ++ rest) = some (t, rest) := by
  rcases h with hmagnitude | ⟨t, hmagnitude, rfl⟩
  · obtain ⟨d, s, hd, heq⟩ := hmagnitude.exists_cons
    rw [readNumber.eq_def]
    split
    · rename_i hminus
      rw [heq] at hminus
      cases hminus
      exact absurd hd (by decide)
    · exact readMagnitude_append hmagnitude hrest
  · rw [List.cons_append, readNumber, readMagnitude_append hmagnitude hrest]
    rfl

/-! ### Values where they are read -/

/-- `after?` takes a given beginning off. -/
theorem after?_eq_some_iff {front : List Char} :
    after? front s = some rest ↔ s = front ++ rest := by
  induction front generalizing s with
  | nil => simp [after?]
  | cons a front ih =>
      cases s with
      | nil => simp [after?]
      | cons b s =>
          rw [after?, Option.ite_none_right_eq_some, ih]
          simp [eq_comm]

/-- `skipBlanks` leaves what is `Unpadded`. -/
theorem Unpadded.skipBlanks_eq (h : Unpadded s) : skipBlanks s = s :=
  skipBlanks_append (fun _ hc => absurd hc List.not_mem_nil) h

/-- `skipBlanks` is idempotent. -/
theorem skipBlanks_skipBlanks (s : List Char) : skipBlanks (skipBlanks s) = skipBlanks s := by
  obtain ⟨-, -, hs, -⟩ := exists_skipBlanks s
  exact hs.skipBlanks_eq

/-- `readValue` reads behind blanks. -/
theorem readValue_skipBlanks (depth : Nat) (s : List Char) :
    readValue depth (skipBlanks s) = readValue depth s := by
  cases depth with
  | zero => rfl
  | succ depth => rw [readValue, readValue, skipBlanks_skipBlanks]

/-- `readItems` reads behind blanks. -/
theorem readItems_skipBlanks (depth : Nat) (s : List Char) :
    readItems depth (skipBlanks s) = readItems depth s := by
  cases depth with
  | zero => rfl
  | succ depth => rw [readItems, readItems, readValue_skipBlanks]

/-- `readMembers` reads behind blanks. -/
theorem readMembers_skipBlanks (depth : Nat) (s : List Char) :
    readMembers depth (skipBlanks s) = readMembers depth s := by
  cases depth with
  | zero => rfl
  | succ depth => rw [readMembers, readMembers, skipBlanks_skipBlanks]

/-- `ReadsWritten depth`: what is read at the depth is `Written` there. -/
structure ReadsWritten (depth : Nat) : Prop where
  value : ∀ {s v rest}, readValue depth s = some (v, rest) →
    ∃ before t, Blanks before ∧ Written (.value v) t ∧ s = before ++ (t ++ rest)
  items : ∀ {s vs rest}, readItems depth s = some (vs, rest) →
    ∃ t, Written (.items vs) t ∧ s = t ++ ']' :: rest
  members : ∀ {s ms rest}, readMembers depth s = some (ms, rest) →
    ∃ t, Written (.members ms) t ∧ s = t ++ '\x7d' :: rest

variable {depth : Nat} {v : Json} {vs : List Json} {ms : List (List Nat × Json)}

/-- `ReadsWritten` for a value at the next depth, behind blanks. -/
theorem ReadsWritten.value_succ (ih : ReadsWritten depth)
    (h : readValue (depth + 1) s = some (v, rest)) :
    ∃ t, Written (.value v) t ∧ skipBlanks s = t ++ rest := by
  rw [readValue] at h
  split at h
  · cases h
  · rename_i s₁ hs₁
    simp only [Option.bind_eq_bind, Option.bind_eq_some_iff] at h
    obtain ⟨⟨points, s₂⟩, hread, h⟩ := h
    cases h
    obtain ⟨t, ht, rfl⟩ := readString_sound hread
    exact ⟨_, .string ht, by simpa using hs₁⟩
  · rename_i s₁ hs₁
    obtain ⟨before, hbefore, -, hskip⟩ := exists_skipBlanks s₁
    split at h
    · rename_i s₂ hs₂
      cases h
      rw [hs₂] at hskip
      exact ⟨_, .emptyArray hbefore, by simp [hs₁, hskip]⟩
    · simp only [Option.bind_eq_bind, Option.bind_eq_some_iff, readItems_skipBlanks] at h
      obtain ⟨⟨vs, s₂⟩, hread, h⟩ := h
      cases h
      obtain ⟨t, ht, rfl⟩ := ih.items hread
      exact ⟨_, .array ht, by simp [hs₁]⟩
  · rename_i s₁ hs₁
    obtain ⟨before, hbefore, -, hskip⟩ := exists_skipBlanks s₁
    split at h
    · rename_i s₂ hs₂
      cases h
      rw [hs₂] at hskip
      exact ⟨_, .emptyObject hbefore, by simp [hs₁, hskip]⟩
    · simp only [Option.bind_eq_bind, Option.bind_eq_some_iff, readMembers_skipBlanks] at h
      obtain ⟨⟨ms, s₂⟩, hread, h⟩ := h
      cases h
      obtain ⟨t, ht, rfl⟩ := ih.members hread
      exact ⟨_, .object ht, by simp [hs₁]⟩
  · rename_i s₁ hs₁
    obtain ⟨s₂, hafter, h⟩ := Option.map_eq_some_iff.1 h
    cases h
    rw [hs₁, after?_eq_some_iff.1 hafter]
    exact ⟨_, .nullWord, rfl⟩
  · rename_i s₁ hs₁
    obtain ⟨s₂, hafter, h⟩ := Option.map_eq_some_iff.1 h
    cases h
    rw [hs₁, after?_eq_some_iff.1 hafter]
    exact ⟨_, .trueWord, rfl⟩
  · rename_i s₁ hs₁
    obtain ⟨s₂, hafter, h⟩ := Option.map_eq_some_iff.1 h
    cases h
    rw [hs₁, after?_eq_some_iff.1 hafter]
    exact ⟨_, .falseWord, rfl⟩
  · simp only [Option.bind_eq_bind, Option.bind_eq_some_iff] at h
    obtain ⟨⟨literal, s₂⟩, hread, h⟩ := h
    cases h
    obtain ⟨hnumber, hs⟩ := readNumber_sound hread
    exact ⟨_, .number hnumber, hs⟩

/-- `ReadsWritten` for a value with the blanks around it. -/
theorem ReadsWritten.exists_padded (ih : ReadsWritten depth)
    (h : readValue depth s = some (v, rest)) :
    ∃ t, Written (.padded v) t ∧ s = t ++ skipBlanks rest := by
  obtain ⟨before, t, hbefore, ht, rfl⟩ := ih.value h
  obtain ⟨after, hafter, -, hskip⟩ := exists_skipBlanks rest
  refine ⟨_, .padded hbefore ht hafter, ?_⟩
  rw [List.append_assoc, List.append_assoc, ← hskip]

/-- `ReadsWritten` for items at the next depth. -/
theorem ReadsWritten.items_succ (ih : ReadsWritten depth)
    (h : readItems (depth + 1) s = some (vs, rest)) :
    ∃ t, Written (.items vs) t ∧ s = t ++ ']' :: rest := by
  simp only [readItems, Option.bind_eq_bind, Option.bind_eq_some_iff] at h
  obtain ⟨⟨v, s₁⟩, hread, h⟩ := h
  obtain ⟨t, ht, rfl⟩ := ih.exists_padded hread
  dsimp only at h
  split at h
  · rename_i s₂ hs₂
    obtain ⟨⟨vs, s₃⟩, hrest, h⟩ := Option.bind_eq_some_iff.1 h
    cases h
    obtain ⟨t', ht', rfl⟩ := ih.items hrest
    exact ⟨_, .item ht ht', by simp [hs₂]⟩
  · rename_i s₂ hs₂
    cases h
    exact ⟨_, .lastItem ht, by rw [hs₂]⟩
  · cases h

/-- `ReadsWritten` for members at the next depth. -/
theorem ReadsWritten.members_succ (ih : ReadsWritten depth)
    (h : readMembers (depth + 1) s = some (ms, rest)) :
    ∃ t, Written (.members ms) t ∧ s = t ++ '\x7d' :: rest := by
  obtain ⟨before, hbefore, -, hskip⟩ := exists_skipBlanks s
  rw [readMembers] at h
  split at h
  · rename_i s₁ hs₁
    simp only [Option.bind_eq_bind, Option.bind_eq_some_iff] at h
    obtain ⟨⟨name, s₂⟩, hname, h⟩ := h
    obtain ⟨body, hbody, rfl⟩ := readString_sound hname
    obtain ⟨after, hafter, -, hskip'⟩ := exists_skipBlanks s₂
    dsimp only at h
    split at h
    · rename_i s₃ hs₃
      have hnamed : Named name _ := ⟨before, body, after, hbefore, hbody, hafter, rfl⟩
      have hs : s = before ++ '\x22' :: (body ++ '\x22' :: after) ++ ':' :: s₃ := by
        rw [hskip, hs₁, hskip', hs₃]
        simp
      obtain ⟨⟨v, s₄⟩, hread, hnext⟩ := Option.bind_eq_some_iff.1 h
      obtain ⟨t, ht, rfl⟩ := ih.exists_padded hread
      dsimp only at hnext
      split at hnext
      · rename_i s₅ hs₅
        obtain ⟨⟨ms, s₆⟩, hrest, hnext⟩ := Option.bind_eq_some_iff.1 hnext
        cases hnext
        obtain ⟨t', ht', rfl⟩ := ih.members hrest
        exact ⟨_, .member hnamed ht ht', by simp [hs, hs₅]⟩
      · rename_i s₅ hs₅
        cases hnext
        exact ⟨_, .lastMember hnamed ht, by simp [hs, hs₅]⟩
      · cases hnext
    · cases h
  · cases h

/-- **`ReadsWritten` at any depth.** -/
theorem readsWritten (depth : Nat) : ReadsWritten depth := by
  induction depth with
  | zero =>
      constructor
      · intro s v rest h
        rw [readValue] at h
        cases h
      · intro s vs rest h
        rw [readItems] at h
        cases h
      · intro s ms rest h
        rw [readMembers] at h
        cases h
  | succ depth ih =>
      refine ⟨fun {s v rest} h => ?_, ih.items_succ, ih.members_succ⟩
      obtain ⟨before, hbefore, -, hskip⟩ := exists_skipBlanks s
      obtain ⟨t, ht, hs⟩ := ih.value_succ h
      exact ⟨before, t, hbefore, ht, by rw [← hs, ← hskip]⟩

/-! ### Values where they are written -/

/-- `Ends s`: what follows a value is no more than a blank, a comma or a bracket that closes. -/
def Ends (s : List Char) : Prop := ∀ c ∈ s.head?, c ∈ ',' :: ']' :: '\x7d' :: blanks

/-- `Closes s`: what follows the blanks after a value is a comma or a bracket that closes. -/
def Closes (s : List Char) : Prop := ∀ c ∈ s.head?, c ∈ [',', ']', '\x7d']

/-- `Ends` allows no number to go on. -/
theorem Ends.stops (h : Ends s) : Stops s := by
  have hall : ∀ c ∈ ',' :: ']' :: '\x7d' :: blanks,
      c.isDigit = false ∧ c ≠ '.' ∧ c ≠ 'e' ∧ c ≠ 'E' := by simp [blanks, Char.isDigit]
  exact fun c hc => hall c (h c hc)

/-- `Closes` allows no blank. -/
theorem Closes.unpadded (h : Closes s) : Unpadded s := by
  have hall : ∀ c ∈ [',', ']', '\x7d'], c ∉ blanks := by simp [blanks]
  exact fun c hc => hall c (h c hc)

/-- `Closes` with blanks in front `Ends`. -/
theorem Closes.ends_append (h : Closes s) (ht : Blanks t) : Ends (t ++ s) := by
  cases t with
  | nil =>
      have hall : ∀ c ∈ [',', ']', '\x7d'], c ∈ ',' :: ']' :: '\x7d' :: blanks := by simp
      exact fun c hc => hall c (h c hc)
  | cons b t =>
      rintro c ⟨⟩
      simp [ht b List.mem_cons_self]

/-- `Closes` with a comma or a bracket that closes. -/
theorem closes_cons {c : Char} (hc : c ∈ [',', ']', '\x7d']) (s : List Char) : Closes (c :: s) := by
  rintro d ⟨⟩
  exact hc

/-- `IsRead part t`: the part is read where it is written, at a depth of two for each character or
more, and what follows it is left. -/
def IsRead : Part → List Char → Prop
  | .value v, t => ∀ depth rest, 2 * t.length ≤ depth → Ends rest →
      readValue depth (t ++ rest) = some (v, rest)
  | .padded v, t => ∀ depth rest, 2 * t.length ≤ depth → Closes rest →
      ∃ s, readValue depth (t ++ rest) = some (v, s) ∧ skipBlanks s = rest
  | .items vs, t => ∀ depth rest, 2 * t.length + 1 ≤ depth →
      readItems depth (t ++ ']' :: rest) = some (vs, rest)
  | .members ms, t => ∀ depth rest, 2 * t.length + 1 ≤ depth →
      readMembers depth (t ++ '\x7d' :: rest) = some (ms, rest)

/-- `IsNumber` begins with a digit or a minus sign. -/
theorem IsNumber.exists_cons (h : IsNumber t) :
    ∃ c s, (c.isDigit = true ∨ c = '-') ∧ t = c :: s := by
  rcases h with hmagnitude | ⟨s, -, rfl⟩
  · obtain ⟨d, s, hd, rfl⟩ := hmagnitude.exists_cons
    exact ⟨d, s, .inl hd, rfl⟩
  · exact ⟨'-', s, .inr rfl, rfl⟩

/-- `IsNumber` begins with no other character. -/
theorem IsNumber.head_ne {c : Char} (h : IsNumber (c :: s)) {d : Char} (hd : d.isDigit = false)
    (hminus : d ≠ '-') : c ≠ d := by
  obtain ⟨c', s', hc, heq⟩ := h.exists_cons
  cases heq
  rintro rfl
  rcases hc with hc | hc
  · exact absurd (hc.symm.trans hd) (by decide)
  · exact hminus hc

/-- `Written` values begin with no blank. -/
theorem Written.unpadded (h : Written (.value v) t) (s : List Char) : Unpadded (t ++ s) := by
  cases h with
  | number h =>
      obtain ⟨c, s', -, rfl⟩ := h.exists_cons
      rintro d ⟨⟩ hd
      have hall : ∀ d ∈ blanks, d.isDigit = false ∧ d ≠ '-' := by simp [blanks, Char.isDigit]
      exact h.head_ne (hall c hd).1 (hall c hd).2 rfl
  | _ =>
      rintro d ⟨⟩
      decide

/-- `readItems` reads none that begin with the closing bracket. -/
theorem readItems_bracket (depth : Nat) (s : List Char) : readItems depth (']' :: s) = none := by
  cases depth with
  | zero => rw [readItems]
  | succ depth =>
      cases depth with
      | zero => rw [readItems, readValue]; rfl
      | succ depth => rw [readItems, readValue]; rfl

/-- `readMembers` reads none that begin with the closing brace. -/
theorem readMembers_brace (depth : Nat) (s : List Char) :
    readMembers depth ('\x7d' :: s) = none := by
  cases depth with
  | zero => rw [readMembers]
  | succ depth => rw [readMembers]; rfl

/-- `readValue` of a number. -/
theorem readValue_number (h : IsNumber t) (hrest : Ends rest) (depth : Nat) :
    readValue (depth + 1) (t ++ rest) = some (.number t, rest) := by
  have hunpadded : Unpadded (t ++ rest) := (Written.number h).unpadded rest
  have hread := readNumber_append h hrest.stops
  obtain ⟨c, s, -, rfl⟩ := h.exists_cons
  rw [readValue, hunpadded.skipBlanks_eq, List.cons_append]
  have hne := fun {d : Char} => @IsNumber.head_ne s c h d
  split
  · rename_i heq; cases heq
  -- each other kind of value has a first character of its own
  iterate 6
    · rename_i heq; cases heq; exact absurd rfl (hne (by decide) (by decide))
  · rw [← List.cons_append, hread]
    rfl

/-- A depth for what has a character is no zero. -/
theorem exists_depth {c : Char} (h : 2 * (c :: s).length ≤ depth) :
    ∃ depth', depth = depth' + 1 ∧ 2 * s.length + 1 ≤ depth' := by
  rw [List.length_cons] at h
  exact ⟨depth - 1, by omega, by omega⟩

/-- `readValue` of what begins with a quote is `readString`. -/
theorem readValue_quote (depth : Nat) (s : List Char) :
    readValue (depth + 1) ('\x22' :: s) =
      (readString s).bind fun p => some (.string p.1, p.2) := by
  rw [readValue]
  rfl

/-- `readValue` of what begins with a bracket is `readItems`. -/
theorem readValue_bracket (depth : Nat) (s : List Char) :
    readValue (depth + 1) ('[' :: s) =
      match skipBlanks s with
      | ']' :: rest => some (.array [], rest)
      | rest => (readItems depth rest).bind fun p => some (.array p.1, p.2) := by
  rw [readValue]
  rfl

/-- `readValue` of what begins with a brace is `readMembers`. -/
theorem readValue_brace (depth : Nat) (s : List Char) :
    readValue (depth + 1) ('\x7b' :: s) =
      match skipBlanks s with
      | '\x7d' :: rest => some (.object [], rest)
      | rest => (readMembers depth rest).bind fun p => some (.object p.1, p.2) := by
  rw [readValue]
  rfl

/-- `readValue` of an array that has an item. -/
theorem readValue_array (h : readItems depth s = some (vs, rest)) :
    readValue (depth + 1) ('[' :: s) = some (.array vs, rest) := by
  rw [← readItems_skipBlanks] at h
  rw [readValue_bracket]
  split
  · rename_i heq
    rw [heq, readItems_bracket] at h
    cases h
  · rw [h]
    rfl

/-- `readValue` of an object that has a member. -/
theorem readValue_object (h : readMembers depth s = some (ms, rest)) :
    readValue (depth + 1) ('\x7b' :: s) = some (.object ms, rest) := by
  rw [← readMembers_skipBlanks] at h
  rw [readValue_brace]
  split
  · rename_i heq
    rw [heq, readMembers_brace] at h
    cases h
  · rw [h]
    rfl

/-- `Named` is read up to the colon behind it. -/
theorem Named.exists_read {name : List Nat} {n : List Char} (h : Named name n) (s : List Char) :
    ∃ s₁ s₂, skipBlanks (n ++ ':' :: s) = '\x22' :: s₁ ∧ readString s₁ = some (name, s₂) ∧
      skipBlanks s₂ = ':' :: s := by
  obtain ⟨before, body, after, hbefore, hbody, hafter, rfl⟩ := h
  have hquote : Unpadded ('\x22' :: (body ++ '\x22' :: (after ++ ':' :: s))) := by
    rintro c ⟨⟩
    decide
  have hcolon : Unpadded (':' :: s) := by
    rintro c ⟨⟩
    decide
  refine ⟨_, _, ?_, readString_append hbody _, skipBlanks_append hafter hcolon⟩
  rw [← skipBlanks_append hbefore hquote]
  simp

/-- **`Written` is read.** -/
theorem Written.isRead {part : Part} (h : Written part t) : IsRead part t := by
  induction h with
  | nullWord | trueWord | falseWord =>
      intro depth rest hdepth hrest
      obtain ⟨depth, rfl, -⟩ := exists_depth hdepth
      rw [readValue]
      rfl
  | number h =>
      intro depth rest hdepth hrest
      obtain ⟨c, s, -, rfl⟩ := h.exists_cons
      obtain ⟨depth, rfl, -⟩ := exists_depth hdepth
      exact readValue_number h hrest depth
  | string h =>
      intro depth rest hdepth hrest
      obtain ⟨depth, rfl, -⟩ := exists_depth hdepth
      rw [List.cons_append, List.append_assoc, List.singleton_append, readValue_quote,
        readString_append h]
      rfl
  | emptyArray h =>
      intro depth rest hdepth hrest
      obtain ⟨depth, rfl, -⟩ := exists_depth hdepth
      have hcloses : Closes (']' :: rest) := closes_cons (by decide) rest
      rw [List.cons_append, List.append_assoc, List.singleton_append, readValue_bracket,
        skipBlanks_append h hcloses.unpadded]
      rfl
  | @array vs s h ih =>
      intro depth rest hdepth hrest
      obtain ⟨depth, rfl, hdeep⟩ := exists_depth hdepth
      rw [List.length_append] at hdeep
      rw [List.cons_append, List.append_assoc]
      exact readValue_array (ih depth rest (by omega))
  | emptyObject h =>
      intro depth rest hdepth hrest
      obtain ⟨depth, rfl, -⟩ := exists_depth hdepth
      have hcloses : Closes ('\x7d' :: rest) := closes_cons (by decide) rest
      rw [List.cons_append, List.append_assoc, List.singleton_append, readValue_brace,
        skipBlanks_append h hcloses.unpadded]
      rfl
  | object h ih =>
      intro depth rest hdepth hrest
      obtain ⟨depth, rfl, hdeep⟩ := exists_depth hdepth
      rw [List.length_append] at hdeep
      rw [List.cons_append, List.append_assoc]
      exact readValue_object (ih depth rest (by omega))
  | @padded v before s after hbefore h hafter ih =>
      intro depth rest hdepth hrest
      refine ⟨after ++ rest, ?_, skipBlanks_append hafter hrest.unpadded⟩
      rw [← readValue_skipBlanks, List.append_assoc, List.append_assoc,
        skipBlanks_append hbefore (h.unpadded _)]
      rw [List.length_append, List.length_append] at hdepth
      exact ih depth _ (by omega) (hrest.ends_append hafter)
  | lastItem h ih =>
      intro depth rest hdepth
      obtain ⟨depth, rfl⟩ := Nat.exists_eq_add_of_le' (Nat.le_of_add_left_le hdepth)
      obtain ⟨s, hread, hskip⟩ := ih depth (']' :: rest) (by omega) (closes_cons (by decide) rest)
      rw [readItems, hread]
      simp only [Option.bind_eq_bind, Option.bind_some, hskip]
  | item h ht ih iht =>
      intro depth rest hdepth
      obtain ⟨depth, rfl⟩ := Nat.exists_eq_add_of_le' (Nat.le_of_add_left_le hdepth)
      rw [List.length_append, List.length_cons] at hdepth
      obtain ⟨s, hread, hskip⟩ := ih depth (',' :: _) (by omega) (closes_cons (by decide) _)
      rw [List.append_assoc, List.cons_append, readItems, hread]
      simp only [Option.bind_eq_bind, Option.bind_some, hskip]
      rw [iht depth rest (by omega)]
      rfl
  | @lastMember name v n s hn h ih =>
      intro depth rest hdepth
      obtain ⟨depth, rfl⟩ := Nat.exists_eq_add_of_le' (Nat.le_of_add_left_le hdepth)
      rw [List.length_append, List.length_cons] at hdepth
      have hcloses : Closes ('\x7d' :: rest) := closes_cons (by decide) rest
      obtain ⟨s', hread, hskip⟩ := ih depth ('\x7d' :: rest) (by omega) hcloses
      obtain ⟨s₁, s₂, hopen, hname, hcolon⟩ := hn.exists_read (s ++ '\x7d' :: rest)
      rw [List.append_assoc, List.cons_append, readMembers, hopen]
      simp only [hname, hcolon, hread, hskip, Option.bind_eq_bind, Option.bind_some]
  | @member name v ms n s t hn h ht ih iht =>
      intro depth rest hdepth
      obtain ⟨depth, rfl⟩ := Nat.exists_eq_add_of_le' (Nat.le_of_add_left_le hdepth)
      rw [List.length_append, List.length_cons, List.length_append, List.length_cons] at hdepth
      have hcloses : Closes (',' :: (t ++ '\x7d' :: rest)) := closes_cons (by decide) _
      obtain ⟨s', hread, hskip⟩ := ih depth (',' :: (t ++ '\x7d' :: rest)) (by omega) hcloses
      obtain ⟨s₁, s₂, hopen, hname, hcolon⟩ := hn.exists_read (s ++ ',' :: (t ++ '\x7d' :: rest))
      rw [List.append_assoc, List.cons_append, List.append_assoc, List.cons_append, readMembers,
        hopen]
      simp only [hname, hcolon, hread, hskip, Option.bind_eq_bind, Option.bind_some,
        iht depth rest (by omega)]

/-- **`Json.parse?` reads a text as a value** exactly when it is `Written` for it, with blanks
around it. -/
theorem parse?_eq_some_iff {text : String} :
    parse? text = some v ↔ Written (.padded v) text.toList := by
  simp only [parse?, Option.bind_eq_bind, Option.bind_eq_some_iff]
  constructor
  · rintro ⟨⟨v', rest⟩, hread, h⟩
    obtain ⟨hnone, h⟩ := Option.ite_none_right_eq_some.1 h
    cases h
    obtain ⟨t, ht, hs⟩ := (readsWritten _).exists_padded hread
    rw [List.isEmpty_iff.1 hnone, List.append_nil] at hs
    rwa [hs]
  · intro h
    obtain ⟨s, hread, hskip⟩ := h.isRead (2 * text.toList.length + 1) [] (Nat.le_add_right _ 1)
      fun _ hc => by cases hc
    rw [List.append_nil] at hread
    exact ⟨(v, s), hread, by simp [hskip]⟩

/-- `Written` for one value at most. -/
theorem Written.unique {v' : Json} (h : Written (.padded v) t) (h' : Written (.padded v') t) :
    v = v' := by
  have hparse := (@parse?_eq_some_iff v (String.ofList t)).2 (by rwa [String.toList_ofList])
  have hparse' := (@parse?_eq_some_iff v' (String.ofList t)).2 (by rwa [String.toList_ofList])
  exact Option.some.inj (hparse.symm.trans hparse')

end KeyValueServer.Json
