import Intake.Json.Writer

/-!
# Escapes of JSON strings

Reading resolves the escapes that writing introduces.  A written string has no escape for
half a surrogate pair, since no character is one.

* `unescape?_flatMap_writeChar`: resolving the escapes of a written text gives its characters.
* `joinPairs?_map_toNat`: the codes of characters are never joined.
* `decodeText?_flatMap_writeChar`: the body of a written string stands for its text.
-/

namespace Intake.Json

open Number

variable {c : Char} {rest : List Char}

/-! ### Hexadecimal digits -/

theorem hexValue?_hexDigit : ∀ n < 16, hexValue? (hexDigit n) = some n := by
  decide

/-! ### Resolving escapes -/

theorem unescape?_cons (hc : c ≠ '\\') (rest : List Char) :
    unescape? (c :: rest) = (unescape? rest).map (c.toNat :: ·) := by
  rw [unescape?]
  · rw [if_neg hc]
    cases unescape? rest <;> rfl
  · intro _ _ _ _ _ h
    exact absurd h hc
  · intro _ _ h
    exact absurd h hc

theorem unescape?_simple {code : Nat} (hcode : escapeCode? c = some code) (rest : List Char) :
    unescape? ('\\' :: c :: rest) = (unescape? rest).map (code :: ·) := by
  rw [unescape?, hcode]
  · cases unescape? rest <;> rfl
  · rintro _ _ _ _ _ rfl
    cases hcode

theorem unescape?_hex {n : Nat} (hn : n < 0x20) (rest : List Char) :
    unescape? ('\\' :: 'u' :: '0' :: '0' :: hexDigit (n / 16) :: hexDigit (n % 16) :: rest) =
      (unescape? rest).map (n :: ·) := by
  have hzero : hexValue? '0' = some 0 := by decide
  have hhigh := hexValue?_hexDigit (n / 16) (by omega)
  have hlow := hexValue?_hexDigit (n % 16) (by omega)
  have hcode : ((0 * 16 + 0) * 16 + n / 16) * 16 + n % 16 = n := by omega
  rw [unescape?, hzero, hhigh, hlow]
  simp only [Option.bind_eq_bind, Option.bind_some]
  rw [hcode]
  cases unescape? rest <;> rfl

/-- **Resolving the escapes of a written character** gives its code. -/
theorem unescape?_writeChar (c : Char) (rest : List Char) :
    unescape? (writeChar c ++ rest) = (unescape? rest).map (c.toNat :: ·) := by
  unfold writeChar
  split
  · rename_i hc
    rw [hc]
    exact unescape?_simple rfl rest
  · split
    · rename_i hc
      rw [hc]
      exact unescape?_simple rfl rest
    · rename_i hc
      split
      · rename_i hcontrol
        exact unescape?_hex hcontrol rest
      · exact unescape?_cons hc rest

theorem unescape?_flatMap_writeChar (cs : List Char) :
    unescape? (cs.flatMap writeChar) = some (cs.map Char.toNat) := by
  induction cs with
  | nil => rfl
  | cons c rest ih =>
    rw [List.flatMap_cons, unescape?_writeChar, ih]
    rfl

/-! ### Surrogate pairs -/

/-- No character is half a surrogate pair. -/
theorem not_half_toNat (c : Char) : (isLeading c.toNat || isTrailing c.toNat) = false := by
  have hvalid : c.toNat < 0xD800 ∨ 0xDFFF < c.toNat ∧ c.toNat < 0x110000 := c.valid
  unfold isLeading isTrailing
  rw [Bool.eq_false_iff]
  simp only [ne_eq, Bool.or_eq_true, Bool.and_eq_true, decide_eq_true_eq]
  omega

theorem joinPairs?_map_toNat (cs : List Char) : joinPairs? (cs.map Char.toNat) = some cs := by
  induction cs with
  | nil => rfl
  | cons c rest ih =>
    have hhalf := not_half_toNat c
    cases rest with
    | nil =>
      show joinPairs? [c.toNat] = _
      rw [joinPairs?, hhalf, Char.ofNat_toNat]
      rfl
    | cons d rest =>
      obtain ⟨hleading, htrailing⟩ := Bool.or_eq_false_iff.1 hhalf
      have hjoin : joinPairs? (c.toNat :: (d :: rest).map Char.toNat) =
          (joinPairs? ((d :: rest).map Char.toNat)).map (Char.ofNat c.toNat :: ·) := by
        rw [List.map_cons, joinPairs?, hleading, htrailing]
        rfl
      rw [List.map_cons, hjoin, ih, Char.ofNat_toNat]
      rfl

/-- **The body of a written string stands for its text.** -/
theorem decodeText?_flatMap_writeChar (s : String) :
    decodeText? (s.toList.flatMap writeChar) = some (.text s) := by
  rw [decodeText?, unescape?_flatMap_writeChar, Option.map_some, joinPairs?_map_toNat]
  show some (Leaf.text (String.ofList s.toList)) = _
  rw [String.ofList_toList]

end Intake.Json
