import FilterSql.Proofs.Literals

/-!
# The form of a literal

Three functions look at the text of a literal: one says whether it is a literal at all, one infers its
kind, and one gives its value. Each of them tries the readers for numbers, truth values and timestamps
in an order of its own, and the first does not try the one for integers. They agree because a truth
value does not look like a number, and because an integer of 64 bits is also read as a decimal whose
nearest double is finite.

## Main statements

* `Binary64.ofRatio_lt_infinity`: a ratio of moderate size has a finite nearest double.
* `Literal.hasForm`: kind, value and literalness of a text all come from one form.
* `Literal.value_kind_agree`: they agree on every text.
-/

namespace FilterSql

open Text

/-! ## Finite doubles -/

namespace Decimal

theorem twoTo_add (m n : Nat) : twoTo (m + n) = twoTo m * twoTo n := Nat.pow_add 2 m n

theorem twoTo_le_twoTo {m n : Nat} (h : m ≤ n) : twoTo m ≤ twoTo n :=
  Nat.pow_le_pow_right (by decide) h

theorem twoTo_pos (n : Nat) : 0 < twoTo n := Nat.two_pow_pos n

end Decimal

namespace Binary64

open Decimal

theorem roundRatio_le (num den : Nat) : roundRatio num den ≤ num / den + 1 := by
  unfold roundRatio
  dsimp only
  split
  · exact Nat.le_refl _
  · exact Nat.le_succ _

/-- The exponent of a ratio is the one where its mantissa has 53 bits, up to one, unless that is too
small. -/
theorem exponentFor_bounds (num den : Nat) :
    (num.log2 : Int) - den.log2 - 53 ≤ exponentFor num den ∧
      exponentFor num den ≤ max minExponent (num.log2 - den.log2 - 52) := by
  unfold exponentFor
  dsimp only
  split <;> omega

theorem scaled_lt {num den : Nat} (nonzero : den ≠ 0) {exponent : Int}
    (large : (num.log2 : Int) - den.log2 - 53 ≤ exponent) :
    (scale num den exponent).1 / (scale num den exponent).2 < twoTo 54 := by
  have positive : 0 < den * twoTo exponent.toNat :=
    Nat.mul_pos (Nat.pos_of_ne_zero nonzero) (twoTo_pos _)
  have top : num < twoTo (num.log2 + 1) := Nat.lt_log2_self
  have bottom : twoTo den.log2 ≤ den := Nat.log2_self_le nonzero
  have exponents : num.log2 + 1 + (-exponent).toNat ≤ 54 + (den.log2 + exponent.toNat) := by omega
  rw [scale, Nat.div_lt_iff_lt_mul positive]
  calc num * twoTo (-exponent).toNat
      < twoTo (num.log2 + 1) * twoTo (-exponent).toNat :=
        Nat.mul_lt_mul_of_pos_right top (twoTo_pos _)
    _ = twoTo (num.log2 + 1 + (-exponent).toNat) := (twoTo_add _ _).symm
    _ ≤ twoTo (54 + (den.log2 + exponent.toNat)) := twoTo_le_twoTo exponents
    _ = twoTo 54 * (twoTo den.log2 * twoTo exponent.toNat) := by rw [twoTo_add, twoTo_add]
    _ ≤ twoTo 54 * (den * twoTo exponent.toNat) :=
        Nat.mul_le_mul_left _ (Nat.mul_le_mul_right _ bottom)

/-- A ratio whose top is at most a thousand bits longer than its bottom has a finite nearest double. -/
theorem ofRatio_lt_infinity {num den : Nat} (nonzero : den ≠ 0)
    (small : num.log2 ≤ den.log2 + 1000) : ofRatio num den < infinity := by
  unfold ofRatio
  split
  · decide
  · obtain ⟨low, high⟩ := exponentFor_bounds num den
    have mantissa := scaled_lt nonzero low
    have rounded := roundRatio_le (scale num den (exponentFor num den)).1
      (scale num den (exponentFor num den)).2
    have steps : (exponentFor num den - minExponent).toNat ≤ 2022 := by
      unfold minExponent at *
      omega
    have product := Nat.mul_le_mul_right (twoTo 52) steps
    have size : twoTo 54 = 4 * twoTo 52 := by decide
    have bound : infinity = 2047 * twoTo 52 := by decide
    have positive := twoTo_pos 52
    refine Nat.lt_of_le_of_lt (Nat.min_le_right _ _) ?_
    dsimp only [scale] at mantissa rounded
    omega

/-- A whole number is as many ones as it says. -/
theorem ofScaled_zero (digits : Nat) : ofScaled digits 0 = ofRatio digits 1 := by
  have whole : tenTo (0 : Int).toNat = 1 ∧ tenTo (-(0 : Int)).toNat = 1 := by decide
  unfold ofScaled
  split
  · next zero => simp [zero, ofRatio]
  · rw [if_neg (by omega), if_neg (by decide), whole.1, whole.2, Nat.mul_one]

end Binary64

/-! ## Integers as decimals -/

namespace Decimal

/-- A text of digits is a decimal without places. -/
theorem readWritten?_of_readNat? {cs : List Char} {n : Nat}
    (h : readNat? (takeSign cs).2 = some n) :
    readWritten? cs = some ⟨(takeSign cs).1, n, 0⟩ := by
  unfold readNat? at h
  split at h
  · cases h
  · next digits =>
    cases h
    simp only [Bool.or_eq_true, Bool.not_eq_true', not_or, Bool.not_eq_true, Bool.not_eq_false]
      at digits
    obtain ⟨nonempty, all⟩ := digits
    have stop : ∀ c ∈ ([] : List Char).head?, c.isDigit = false := nofun
    have whole := takeWhile_append_eq_left (List.all_eq_true.1 all) stop
    have rest := dropWhile_append_eq_right (List.all_eq_true.1 all) stop
    rw [List.append_nil] at whole rest
    simp [readWritten?, whole, rest, nonempty, readExponent?]

theorem readBoundedInt?_eq_some {low high n : Int} {cs : List Char}
    (h : readBoundedInt? low high cs = some n) :
    ∃ digits : Nat, readNat? (takeSign cs).2 = some digits ∧ n.natAbs = digits ∧
      low ≤ n ∧ n ≤ high := by
  unfold readBoundedInt? at h
  cases read : readNat? (takeSign cs).2 with
  | none => simp [read] at h
  | some digits =>
    simp only [read, Option.bind_eq_bind, Option.bind_some, Option.pure_def, Option.map_some,
      Option.filter_eq_some_iff, Option.some.injEq, Bool.and_eq_true, decide_eq_true_eq] at h
    obtain ⟨rfl, inRange⟩ := h
    exact ⟨digits, rfl, by split <;> omega, inRange⟩

/-- An integer of 64 bits is read as a decimal too, and its nearest double is finite. -/
theorem readWritten?_of_readInt64? {cs : List Char} {n : Int} (h : readInt64? cs = some n) :
    ∃ d, readWritten? cs = some d ∧ d.magnitude < Binary64.infinity := by
  obtain ⟨digits, read, absolute, low, high⟩ := readBoundedInt?_eq_some h
  have small : digits < 2 ^ 64 := by
    unfold minInt64 at low
    unfold maxInt64 at high
    omega
  have bits : digits.log2 ≤ 1000 := by
    by_cases zero : digits = 0
    · simp [zero]
    · have := (Nat.log2_lt zero).2 small
      omega
  refine ⟨_, readWritten?_of_readNat? read, ?_⟩
  rw [Written.magnitude, Binary64.ofScaled_zero]
  exact Binary64.ofRatio_lt_infinity (by decide) (Nat.le_trans bits (Nat.le_add_left _ _))

end Decimal

/-! ## Forms -/

namespace Filter.Literal

theorem readDecimal?_of_readInt? {s : String} {n : Int} (h : readInt? s = some n) :
    (readDecimal? s).isSome = true := by
  unfold readInt? at h
  split at h
  · next numeric =>
    obtain ⟨d, read, finite⟩ := Decimal.readWritten?_of_readInt64? h
    simp [readDecimal?, numeric, read, finite]
  · cases h

theorem looksNumeric_of_readBool? {s : String} {b : Bool} (h : readBool? s = some b) :
    looksNumeric s.toList = false := by
  have word {w : String} (same : sameName s w = true)
      (plain : looksNumeric (foldCase w).toList = false) : looksNumeric s.toList = false := by
    rw [← looksNumeric_foldCase, foldCase_congr same, plain]
  unfold readBool? at h
  split at h
  · next same => exact word same (by decide)
  · split at h
    · next same => exact word same (by decide)
    · cases h

/-- The forms of a text, each with the kind and the value of such a text and with whether it is a
literal. -/
inductive HasForm (text : String) : Edm.Kind → Sql.Value → Bool → Prop
  | quoted : isQuoted (trim text) = true →
    HasForm text (if isSpatial (trim text) then .geography none else .string)
      (.string (unquote (trim text))) true
  | truth {b : Bool} : isQuoted (trim text) = false → readBool? (trim text) = some b →
    HasForm text .boolean (.bool b) true
  | integer {n : Int} : isQuoted (trim text) = false → readInt? (trim text) = some n →
    HasForm text (if Decimal.fitsInt32 n then .int32 else .int64) (.int n) true
  | decimal {d : Decimal.Written} : isQuoted (trim text) = false → readInt? (trim text) = none →
    readDecimal? (trim text) = some d → HasForm text .double (.double d.toFloat) true
  | timestamp {t : Calendar.Timestamp} : isQuoted (trim text) = false →
    readTimestamp? (trim text) = some t → HasForm text .dateTimeOffset (.dateTime t) true
  | plain : isQuoted (trim text) = false → HasForm text .string (.string (trim text)) (isNull text)

/-- The kind and the value of a text, and whether it is a literal, come from one form. -/
theorem hasForm (text : String) : HasForm text (kind text) (value text) (isLiteral text) := by
  have null : isNull (trim text) = isNull text := by rw [isNull, trim_trim, isNull]
  unfold kind value isLiteral
  simp only [null]
  cases quoted : isQuoted (trim text) with
  | true => simpa using HasForm.quoted quoted
  | false =>
    cases truth : readBool? (trim text) with
    | some b =>
      -- a truth value is no number, so it does not matter which is tried first
      have numeric := looksNumeric_of_readBool? truth
      simpa [readInt?, readDecimal?, numeric] using HasForm.truth quoted truth
    | none =>
      cases integer : readInt? (trim text) with
      | some n => simpa [readDecimal?_of_readInt? integer] using HasForm.integer quoted integer
      | none =>
        cases decimal : readDecimal? (trim text) with
        | some d => simpa using HasForm.decimal quoted integer decimal
        | none =>
          cases timestamp : readTimestamp? (trim text) with
          | some t => simpa using HasForm.timestamp quoted timestamp
          | none => simpa using HasForm.plain quoted

/-- The value of a text has the type of its kind, and a text is a literal exactly if it is quoted, or
`null`, or its value is something else than a string. -/
theorem value_kind_agree (text : String) :
    ((∃ n, value text = .int n) ↔ kind text = .int32 ∨ kind text = .int64) ∧
      ((∃ x, value text = .double x) ↔ kind text = .double) ∧
      ((∃ b, value text = .bool b) ↔ kind text = .boolean) ∧
      ((∃ t, value text = .dateTime t) ↔ kind text = .dateTimeOffset) ∧
      ((∃ s, value text = .string s) ↔ kind text = .string ∨ kind text = .geography none) ∧
      (isLiteral text = true ↔ isQuoted (trim text) = true ∨ sameName (trim text) "null" = true ∨
        ∀ s, value text ≠ .string s) := by
  have form := hasForm text
  generalize kind text = k, value text = v, isLiteral text = literal at *
  cases form with
  | quoted quoted =>
    split <;> simp [quoted]
  | integer unquoted read =>
    split <;> simp
  | truth unquoted read => simp
  | decimal unquoted other read => simp
  | timestamp unquoted read => simp
  | plain unquoted => simp [unquoted, isNull]

end Filter.Literal

end FilterSql
