import KeyValueServer.Json.Writer
import KeyValueServer.Proofs.Json.Grammar
import KeyValueServer.Proofs.Numeral

/-!
# What is written follows the grammar

`Json.escaped` writes a character that may not stand in a string as an escape that stands for it,
and the digits of `Json.naturalText` begin with a zero only where they are one.

## Main results

* `Json.body_escaped`: a text is written as a string of its own characters.
* `Json.isNumber_naturalText`: a natural number is written as a number.
* `Json.written_objectText`: an object of members that are written is written.
-/

namespace KeyValueServer.Json

variable {points : List Nat} {s : List Char}

/-! ### Strings -/

/-- `digitChar` is a `HexDigit` of numbers below 16. -/
theorem hexDigit_digitChar {d : Nat} (h : d < 16) : HexDigit (Nat.digitChar d) d := by
  have hdecimal : ∀ d : Fin 10, Nat.digitChar d = Char.ofNat (48 + d) := by decide
  have hsmall : ∀ d : Fin 6, Nat.digitChar (10 + d) = Char.ofNat (97 + d) := by decide
  by_cases hten : d < 10
  · have hdigit := HexDigit.decimal hten
    rwa [← hdecimal ⟨d, hten⟩] at hdigit
  · obtain ⟨d, rfl⟩ := Nat.exists_eq_add_of_le (Nat.le_of_not_lt hten)
    have hsix : d < 6 := by omega
    have hdigit := HexDigit.small hsix
    rwa [← hsmall ⟨d, hsix⟩] at hdigit

/-- **`escaped` writes a character** in front of a string. -/
theorem body_escaped_append (c : Char) (h : Body points s) :
    Body (c.toNat :: points) (escaped c ++ s) := by
  rw [escaped]
  split
  · rename_i hc
    rw [hc]
    exact .short (by decide) h
  rename_i hquote
  split
  · rename_i hc
    rw [hc]
    exact .short (by decide) h
  rename_i hback
  -- five control characters have a letter of their own
  iterate 5
    split
    · rename_i hc
      rw [hc]
      exact .short (by decide) h
  split
  · rename_i hlow
    have hzero : HexDigit '0' 0 := hexDigit_digitChar (by decide : 0 < 16)
    have hhigh : HexDigit (Nat.digitChar (c.toNat / 16)) (c.toNat / 16) :=
      hexDigit_digitChar (by omega)
    have hdigit : HexDigit (Nat.digitChar (c.toNat % 16)) (c.toNat % 16) :=
      hexDigit_digitChar (Nat.mod_lt _ (by decide))
    have hnumber : ((0 * 16 + 0) * 16 + c.toNat / 16) * 16 + c.toNat % 16 = c.toNat := by omega
    have hbody := Body.hex hzero hzero hhigh hdigit h
    rwa [hnumber] at hbody
  · rename_i hlow
    exact .plain (Nat.le_of_not_lt hlow) hquote hback h

/-- **`escaped` writes a text** as a string of its characters. -/
theorem body_escaped (cs : List Char) : Body (cs.map Char.toNat) (cs.flatMap escaped) := by
  induction cs with
  | nil => exact .nil
  | cons c cs ih => exact body_escaped_append c ih

/-! ### Numbers -/

/-- `toDigits` of a number that is not zero does not begin with a zero. -/
theorem head?_toDigits_ne {n : Nat} (h : 0 < n) : (Nat.toDigits 10 n).head? ≠ some '0' := by
  induction n using Nat.strongRecOn with
  | _ n ih =>
    rw [Nat.toDigits_eq_if (by decide)]
    split
    · rename_i hten
      have hall : ∀ d : Fin 10, 0 < d.val → Nat.digitChar d ≠ '0' := by decide
      exact fun hhead => hall ⟨n, hten⟩ h (Option.some.inj hhead)
    · have hfront := ih (n / 10) (by omega) (by omega)
      obtain ⟨d, digits, hdigits⟩ :=
        List.exists_cons_of_ne_nil (Nat.toDigits_ne_nil : Nat.toDigits 10 (n / 10) ≠ [])
      rw [hdigits] at hfront ⊢
      exact hfront

/-- **`naturalText` is a number.** -/
theorem isNumber_naturalText (n : Nat) : IsNumber (naturalText n) := by
  have hwhole : Whole (naturalText n) := by
    by_cases hzero : n = 0
    · exact .inl (by rw [hzero]; rfl)
    · have hpos : 0 < n := Nat.pos_of_ne_zero hzero
      refine .inr ⟨⟨Nat.toDigits_ne_nil, fun c hc => ?_⟩, head?_toDigits_ne hpos⟩
      exact Nat.isDigit_of_mem_toDigits (by decide) (by decide) hc
  exact .inl ⟨_, [], [], hwhole, .inl rfl, .inl rfl, by simp⟩

/-! ### Objects -/

/-- A value is `Written` without blanks around it. -/
theorem Written.bare {v : Json} (h : Written (.value v) s) : Written (.padded v) s := by
  have hnone : Blanks [] := fun _ hc => absurd hc List.not_mem_nil
  have hpadded := Written.padded hnone h hnone
  rwa [List.append_nil] at hpadded

/-- `quoted` writes a text as a name. -/
theorem named_quoted (name : String) : Named (name.toList.map Char.toNat) (quoted name) :=
  ⟨[], _, [], fun _ hc => absurd hc List.not_mem_nil, body_escaped name.toList,
    fun _ hc => absurd hc List.not_mem_nil, rfl⟩

/-- A `WrittenMember` of an object has a value and how it is written. -/
structure WrittenMember where
  /-- The name. -/
  name : String
  /-- The value. -/
  value : Json
  /-- The characters of the value. -/
  text : List Char
  /-- They are written for it. -/
  written : Written (.value value) text

/-- `e.member` is the member in a syntax tree. -/
def WrittenMember.member (e : WrittenMember) : List Nat × Json :=
  (e.name.toList.map Char.toNat, e.value)

/-- `commaSeparated` members are `Written`. -/
theorem written_commaSeparated (e : WrittenMember) (rest : List WrittenMember) :
    Written (.members ((e :: rest).map WrittenMember.member))
      (commaSeparated ((e :: rest).map fun e => memberText e.name e.text)) := by
  induction rest generalizing e with
  | nil => exact .lastMember (named_quoted e.name) e.written.bare
  | cons next rest ih =>
      have hmember := Written.member (named_quoted e.name) e.written.bare (ih next)
      rw [← List.cons_append, ← List.append_assoc] at hmember
      exact hmember

/-- **`objectText`** of members that are written is `Written`. -/
theorem written_objectText (e : WrittenMember) (rest : List WrittenMember) :
    Written (.value (.object ((e :: rest).map WrittenMember.member)))
      (objectText ((e :: rest).map fun e => (e.name, e.text))) := by
  have hobject := Written.object (written_commaSeparated e rest)
  rw [objectText, List.map_map]
  exact hobject

end KeyValueServer.Json
