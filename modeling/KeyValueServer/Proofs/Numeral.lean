import Mathlib.Algebra.Group.Int.Defs
import Mathlib.Algebra.Group.Nat.Defs
import Mathlib.Data.List.Induction
import KeyValueServer.Numeral

/-!
# What decimal numerals denote

A numeral is a digit, or a numeral with a digit behind it (`Numeral.Denotes`). This says which byte
strings are numerals, and of which numbers, without reading them from the front with an accumulator
as `Numeral.natural?` does.

## Main results

* `Numeral.natural?_eq_some_iff`, `word?_eq_some_iff`, `int64?_eq_some_iff`: the readers accept
  numerals, and nothing else.
* `Numeral.denotes_decimal`: the shortest numeral of a number denotes it.
-/

namespace KeyValueServer

namespace Numeral

/-! ### Digits -/

/-- `digitByte d` is the ASCII byte of a digit. -/
def digitByte (d : Nat) : UInt8 := UInt8.ofNat (48 + d)

/-- `digitByte` is a number that is 48 higher. -/
theorem toNat_digitByte {d : Nat} (h : d < 10) : (digitByte d).toNat = 48 + d := by
  rw [digitByte, UInt8.toNat_ofNat']
  exact Nat.mod_eq_of_lt (by omega)

/-- **`digit?` reads a byte** exactly when it is the `digitByte` of a digit. -/
theorem digit?_eq_some_iff {b : UInt8} {d : Nat} :
    digit? b = some d ↔ d < 10 ∧ b = digitByte d := by
  have hrange : (48 ≤ b ∧ b ≤ 57) ↔ 48 ≤ b.toNat ∧ b.toNat ≤ 57 := Iff.rfl
  rw [digit?]
  constructor
  · intro h
    split at h
    · rename_i hb
      rw [hrange] at hb
      cases h
      refine ⟨by omega, ?_⟩
      refine UInt8.toNat_inj.1 ?_
      rw [toNat_digitByte (by omega)]
      omega
    · cases h
  · rintro ⟨hd, rfl⟩
    have hb := toNat_digitByte hd
    rw [if_pos (hrange.2 (by omega)), hb]
    congr 1
    omega

/-! ### Numerals -/

/-- `Denotes bytes n`: the bytes are one or more decimal digits, which denote `n`. -/
inductive Denotes : Bytes → Nat → Prop
  | digit {d : Nat} (h : d < 10) : Denotes [digitByte d] d
  | more {bytes : Bytes} {n d : Nat} (hs : Denotes bytes n) (h : d < 10) :
      Denotes (bytes ++ [digitByte d]) (n * 10 + d)

/-- `IsNumber bytes n`: the bytes are decimal digits that denote `n`, or a plus sign and such
digits. -/
def IsNumber (bytes : Bytes) (n : Nat) : Prop :=
  Denotes bytes n ∨ ∃ digits, bytes = 43 :: digits ∧ Denotes digits n

variable {bytes : Bytes} {n : Nat}

/-- `Denotes` needs a digit. -/
theorem Denotes.ne_nil (h : Denotes bytes n) : bytes ≠ [] := by
  cases h with
  | digit => exact List.cons_ne_nil _ _
  | more => exact List.append_ne_nil_of_right_ne_nil _ (List.cons_ne_nil _ _)

/-- `Denotes` has bytes of digits only. -/
theorem Denotes.exists_digit (h : Denotes bytes n) {b : UInt8} (hb : b ∈ bytes) :
    ∃ d, d < 10 ∧ b = digitByte d := by
  induction h with
  | digit h =>
      rw [List.mem_singleton] at hb
      exact ⟨_, h, hb⟩
  | more _ h ih =>
      rcases List.mem_append.1 hb with hfront | hlast
      · exact ih hfront
      · rw [List.mem_singleton] at hlast
        exact ⟨_, h, hlast⟩

/-- `Denotes` has no byte that is no digit. -/
theorem Denotes.notMem (h : Denotes bytes n) {b : UInt8} (hb : b.toNat < 48) : b ∉ bytes := by
  intro hmem
  obtain ⟨d, hd, rfl⟩ := h.exists_digit hmem
  rw [toNat_digitByte hd] at hb
  omega

/-! ### Reading -/

/-- `natural?` of a byte behind others takes it as the last digit. -/
theorem natural?_append_singleton (hne : bytes ≠ []) (b : UInt8) :
    natural? (bytes ++ [b]) =
      (natural? bytes).bind fun n => (digit? b).map fun d => n * 10 + d := by
  have hnatural : ∀ {bytes : Bytes}, bytes ≠ [] →
      natural? bytes = (digits? bytes).map (continued 10 0) := by
    intro bytes hne
    cases bytes with
    | nil => exact absurd rfl hne
    | cons => rfl
  rw [hnatural hne, hnatural (List.append_ne_nil_of_left_ne_nil hne _), digits?, List.mapM_append,
    ← digits?]
  cases digits? bytes with
  | none => rfl
  | some digits =>
      cases hb : digit? b with
      | none => simp [hb]
      | some d => simp [hb, continued]

/-- **`natural?` reads the number that digits denote**, and nothing else. -/
theorem natural?_eq_some_iff : natural? bytes = some n ↔ Denotes bytes n := by
  constructor
  · intro h
    induction bytes using List.reverseRecOn generalizing n with
    | nil => cases h
    | append_singleton bytes b ih =>
        by_cases hne : bytes = []
        · subst hne
          have hdigit : digit? b = some n := by
            cases hb : digit? b with
            | none => simp [natural?, digits?, hb] at h
            | some d => simpa [natural?, digits?, hb, continued] using h
          obtain ⟨hn, rfl⟩ := digit?_eq_some_iff.1 hdigit
          exact .digit hn
        · rw [natural?_append_singleton hne] at h
          simp only [Option.bind_eq_some_iff, Option.map_eq_some_iff] at h
          obtain ⟨front, hfront, d, hdigit, rfl⟩ := h
          obtain ⟨hd, rfl⟩ := digit?_eq_some_iff.1 hdigit
          exact .more (ih hfront) hd
  · intro h
    induction h with
    | digit h =>
        have hdigit := digit?_eq_some_iff.2 ⟨h, rfl⟩
        simp [natural?, digits?, hdigit, continued]
    | more hs h ih =>
        rw [natural?_append_singleton hs.ne_nil, ih, digit?_eq_some_iff.2 ⟨h, rfl⟩]
        rfl

/-- `unsigned` skips a plus sign in front of a numeral. -/
theorem natural?_unsigned_eq_some_iff : natural? (unsigned bytes) = some n ↔ IsNumber bytes n := by
  rw [natural?_eq_some_iff, IsNumber]
  constructor
  · intro h
    unfold unsigned at h
    split at h
    · exact .inr ⟨_, rfl, h⟩
    · exact .inl h
  · rintro (h | ⟨digits, rfl, h⟩)
    · unfold unsigned
      split
      · exact absurd List.mem_cons_self (h.notMem (by decide))
      · exact h
    · exact h

/-- **`word?` reads numbers** as long as they are words. -/
theorem word?_eq_some_iff : word? bytes = some n ↔ IsNumber bytes n ∧ n < UInt64.size := by
  rw [word?, below?, naturalBelow?_eq_filter, Option.filter_eq_some_iff,
    natural?_unsigned_eq_some_iff, decide_eq_true_iff]

/-! ### Signed numerals -/

/-- `DenotesInt bytes n`: the bytes are decimal digits with at most one sign, which denote `n`. -/
inductive DenotesInt : Bytes → Int → Prop
  | unsigned {digits : Bytes} {n : Nat} (h : Denotes digits n) : DenotesInt digits n
  | plus {digits : Bytes} {n : Nat} (h : Denotes digits n) : DenotesInt (43 :: digits) n
  | minus {digits : Bytes} {n : Nat} (h : Denotes digits n) : DenotesInt (45 :: digits) (-n)

/-- `InInt64 n`: the number is in the range of a signed 64-bit integer. -/
def InInt64 (n : Int) : Prop := -2 ^ 63 ≤ n ∧ n < 2 ^ 63

instance : DecidablePred InInt64 := fun n =>
  inferInstanceAs (Decidable (-2 ^ 63 ≤ n ∧ n < 2 ^ 63))

/-- `integer?` turns the number behind a minus sign round. -/
theorem integer?_minus (digits : Bytes) :
    integer? (45 :: digits) = (natural? digits).map fun n : Nat => -(n : Int) := by
  rw [integer?]
  cases natural? digits <;> rfl

/-- **`integer?` reads the number that a signed numeral denotes**, and nothing else. -/
theorem integer?_eq_some_iff {i : Int} : integer? bytes = some i ↔ DenotesInt bytes i := by
  constructor
  · intro h
    unfold integer? at h
    split at h
    · obtain ⟨n, hn, rfl⟩ := Option.map_eq_some_iff.1 h
      exact .plus (natural?_eq_some_iff.1 hn)
    · rename_i digits
      change integer? (45 :: digits) = some i at h
      rw [integer?_minus] at h
      obtain ⟨n, hn, rfl⟩ := Option.map_eq_some_iff.1 h
      exact .minus (natural?_eq_some_iff.1 hn)
    · obtain ⟨n, hn, rfl⟩ := Option.map_eq_some_iff.1 h
      exact .unsigned (natural?_eq_some_iff.1 hn)
  · intro h
    cases h with
    | @unsigned _ n h =>
        have hn := natural?_eq_some_iff.2 h
        unfold integer?
        -- digits begin with no sign
        split
        · exact absurd List.mem_cons_self (h.notMem (by decide : (43 : UInt8).toNat < 48))
        · exact absurd List.mem_cons_self (h.notMem (by decide : (45 : UInt8).toNat < 48))
        · rw [hn]
          rfl
    | @plus digits n h =>
        rw [integer?, natural?_eq_some_iff.2 h]
        rfl
    | @minus digits n h =>
        rw [integer?_minus, natural?_eq_some_iff.2 h]
        rfl

/-- `integerBelow?` loses nothing below its bound. -/
theorem integerBelow?_eq_filter (bound : Nat) (bytes : Bytes) :
    integerBelow? bound bytes = (integer? bytes).filter (·.natAbs < bound) := by
  unfold integerBelow? integer?
  split
  all_goals
    rw [naturalBelow?_eq_filter]
    generalize natural? _ = number?
    cases number? with
    | none => rfl
    | some n => by_cases hn : n < bound <;> simp [Option.filter_some, hn]

/-- `InInt64` of the values of signed 64-bit integers. -/
theorem inInt64_toInt (m : Int64) : InInt64 m.toInt := ⟨m.le_toInt, m.toInt_lt⟩

/-- **`narrow?` is the 64-bit integer of the same value**, if there is one. -/
theorem narrow?_eq_some_iff {i : Int} {m : Int64} : narrow? i = some m ↔ m.toInt = i := by
  rw [narrow?, Int64.toInt_minValue, Int64.toInt_maxValue]
  constructor
  · intro h
    split at h
    · rename_i hi
      cases h
      exact Int64.toInt_ofInt_of_le hi.1 (by omega)
    · cases h
  · rintro rfl
    have hrange := inInt64_toInt m
    rw [InInt64] at hrange
    rw [if_pos (by omega), Int64.ofInt_toInt]

/-- `narrow?` of each number in range. -/
theorem exists_narrow? {i : Int} (h : InInt64 i) : ∃ m, narrow? i = some m :=
  ⟨Int64.ofInt i, narrow?_eq_some_iff.2 (Int64.toInt_ofInt_of_le h.1 h.2)⟩

/-- **`int64?` reads the numerals that denote signed 64-bit integers**, and nothing else. -/
theorem int64?_eq_some_iff {m : Int64} : int64? bytes = some m ↔ DenotesInt bytes m.toInt := by
  rw [int64?, integerBelow?_eq_filter, Option.bind_eq_some_iff]
  constructor
  · rintro ⟨i, hi, hm⟩
    rw [narrow?_eq_some_iff] at hm
    rw [hm]
    exact integer?_eq_some_iff.1 (Option.filter_eq_some_iff.1 hi).1
  · intro h
    have hrange := inInt64_toInt m
    rw [InInt64] at hrange
    refine ⟨m.toInt, Option.filter_eq_some_iff.2 ⟨integer?_eq_some_iff.2 h, ?_⟩,
      narrow?_eq_some_iff.2 rfl⟩
    rw [Int64.toInt_minValue, decide_eq_true_iff]
    omega

/-! ### Writing -/

/-- `decimalBytes n` are the bytes of the shortest numeral of a number. -/
def decimalBytes (n : Nat) : Bytes := Bytes.ofText (decimal n)

/-- `digitChar` is encoded as `digitByte`. -/
theorem utf8EncodeChar_digitChar {d : Nat} (h : d < 10) :
    String.utf8EncodeChar (Nat.digitChar d) = [digitByte d] := by
  have hall : ∀ d : Fin 10, String.utf8EncodeChar (Nat.digitChar d) = [digitByte d] := by decide
  exact hall ⟨d, h⟩

/-- `decimalBytes` has the last digit behind the others, if there are any. -/
theorem decimalBytes_eq (n : Nat) :
    decimalBytes n = (if n < 10 then [] else decimalBytes (n / 10)) ++ [digitByte (n % 10)] := by
  simp only [decimalBytes, decimal, Bytes.ofText, String.toList_ofList]
  rw [Nat.toDigits_eq_if (by decide)]
  split
  · rename_i h
    rw [List.flatMap_singleton, utf8EncodeChar_digitChar h, Nat.mod_eq_of_lt h]
    rfl
  · rw [List.flatMap_append, List.flatMap_singleton,
      utf8EncodeChar_digitChar (Nat.mod_lt n (by decide))]

/-- **`decimalBytes`** denotes its number. -/
theorem denotes_decimal (n : Nat) : Denotes (decimalBytes n) n := by
  induction n using Nat.strongRecOn with
  | _ n ih =>
    rw [decimalBytes_eq]
    split
    · rename_i h
      rw [Nat.mod_eq_of_lt h]
      exact .digit h
    · have hdigit := Denotes.more (ih (n / 10) (by omega)) (Nat.mod_lt n (by decide : 0 < 10))
      rwa [Nat.div_add_mod'] at hdigit

/-- A numeral that begins with a zero only if it is one is `decimalBytes` of its number. -/
theorem Denotes.eq_decimalBytes (h : Denotes bytes n)
    (hfront : bytes.head? = some 48 → bytes = [48]) : bytes = decimalBytes n := by
  induction h with
  | digit h =>
      rw [decimalBytes_eq, if_pos h, Nat.mod_eq_of_lt h]
      rfl
  | @more bytes n d hs h ih =>
      have hzero : bytes.head? ≠ some 48 := by
        intro hhead
        obtain ⟨b, rest, rfl⟩ := List.exists_cons_of_ne_nil hs.ne_nil
        have hlength := congrArg List.length (hfront hhead)
        simp at hlength
      have hbytes := ih fun hhead => absurd hhead hzero
      have hpos : 0 < n := by
        rcases Nat.eq_zero_or_pos n with rfl | hpos
        · exact absurd (congrArg List.head? hbytes) hzero
        · exact hpos
      have hfront' : (n * 10 + d) / 10 = n := by omega
      have hlast : (n * 10 + d) % 10 = d := by omega
      rw [decimalBytes_eq, if_neg (by omega), hfront', hlast, ← hbytes]

/-- `decimalBytes` has no more digits than numbers of so many digits. -/
theorem length_decimalBytes_le {k : Nat} (hk : 0 < k) (h : n < 10 ^ k) :
    (decimalBytes n).length ≤ k := by
  induction k generalizing n with
  | zero => omega
  | succ k ih =>
      rw [decimalBytes_eq]
      split
      · exact hk
      · have hlt : n / 10 < 10 ^ k := by
          rw [Nat.pow_succ] at h
          omega
        have hpos : 0 < k := by
          rcases Nat.eq_zero_or_pos k with rfl | hpos
          · omega
          · exact hpos
        have hlength := ih hpos hlt
        rw [List.length_append, List.length_singleton]
        omega

/-- `decimalBytes` has no fewer digits than that of a lesser number. -/
theorem length_decimalBytes_mono {m : Nat} (h : m ≤ n) :
    (decimalBytes m).length ≤ (decimalBytes n).length := by
  induction n using Nat.strongRecOn generalizing m with
  | _ n ih =>
    rw [decimalBytes_eq m, decimalBytes_eq n, List.length_append, List.length_append,
      List.length_singleton, List.length_singleton]
    by_cases hm : m < 10
    · rw [if_pos hm]
      simp
    · have hn : ¬ n < 10 := by omega
      have hfront := ih (n / 10) (by omega) (Nat.div_le_div_right h : m / 10 ≤ n / 10)
      rw [if_neg hm, if_neg hn]
      omega

end Numeral

end KeyValueServer
