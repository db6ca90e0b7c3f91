import FilterSql.Filter.FunctionNames
import FilterSql.Filter.Token
import FilterSql.Proofs.Text

/-!
# Texts that differ in the case of ASCII letters

Two texts have the same name if they agree once `A` to `Z` are made small. The classes of characters
that tokens are made of hold a capital together with its small letter, so a text in another case is
cut in the same places.

## Main statements

* `ignoresCase_of_capitals`: a class is checked capital by capital.
* `toLower_eq_foldCase`: lower-casing changes no more than the case of ASCII letters in an ASCII text.
-/

namespace FilterSql.Text

/-! ## Capitals -/

/-- A character is small already, or it is one of the 26 capitals. -/
theorem toLower_cases (c : Char) :
    c.toLower = c ∨ ∃ n < 26, c = Char.ofNat (65 + n) ∧ c.toLower = Char.ofNat (97 + n) := by
  by_cases capital : c.val ≥ 'A'.val ∧ c.val ≤ 'Z'.val
  · have low : 65 ≤ c.toNat := UInt32.le_iff_toNat_le.1 capital.1
    have high : c.toNat ≤ 90 := UInt32.le_iff_toNat_le.1 capital.2
    have code : c = Char.ofNat (65 + (c.toNat - 65)) := by
      rw [Nat.add_sub_cancel' low, Char.ofNat_toNat]
    have small : ∀ n < 26, (Char.ofNat (65 + n)).toLower = Char.ofNat (97 + n) := by decide
    refine .inr ⟨c.toNat - 65, by omega, code, ?_⟩
    rw [← small _ (by omega), ← code]
  · exact .inl (dif_neg capital)

/-- A class of characters that a capital belongs to if its small letter does. -/
def IgnoresCase (p : Char → Bool) : Prop := ∀ c, p c.toLower = p c

theorem ignoresCase_of_capitals {p : Char → Bool}
    (h : ∀ n < 26, p (Char.ofNat (97 + n)) = p (Char.ofNat (65 + n))) : IgnoresCase p := by
  intro c
  rcases toLower_cases c with same | ⟨n, lt, capital, small⟩
  · rw [same]
  · rw [small, h n lt, ← capital]

theorem ignoresCase_isBlank : IgnoresCase isBlank := ignoresCase_of_capitals (by decide)

theorem ignoresCase_isDigit : IgnoresCase Char.isDigit := ignoresCase_of_capitals (by decide)

theorem ignoresCase_isAscii : IgnoresCase fun c => c.toNat < 0x80 :=
  ignoresCase_of_capitals (by decide)

theorem toLower_toLower (c : Char) : c.toLower.toLower = c.toLower := by
  rcases toLower_cases c with same | ⟨n, lt, -, small⟩
  · rw [same, same]
  · have fixed : ∀ n < 26, (Char.ofNat (97 + n)).toLower = Char.ofNat (97 + n) := by decide
    rw [small, fixed n lt]

/-- A character that is no letter is the only one with its small form. -/
theorem toLower_eq_iff {c d : Char} (h : IgnoresCase (· == d)) : c.toLower = d ↔ c = d := by
  have same : (c.toLower == d) = (c == d) := h c
  rw [← beq_iff_eq, same, beq_iff_eq]

/-- Only letters have more than one form. -/
theorem isAlpha_of_toLower_eq {c d : Char} (same : c.toLower = d.toLower) (ne : c ≠ d) :
    c.isAlpha = true := by
  have letters : ∀ n < 26, (Char.ofNat (65 + n)).isAlpha = true ∧
      (Char.ofNat (97 + n)).isAlpha = true := by decide
  rcases toLower_cases c with small | ⟨n, lt, capital, -⟩
  · rcases toLower_cases d with small' | ⟨n, lt, -, small'⟩
    · exact absurd (small.symm.trans (same.trans small')) ne
    · rw [← small, same, small']
      exact (letters n lt).2
  · rw [capital]
    exact (letters n lt).1

theorem toLower_of_isDigit {c : Char} (h : c.isDigit = true) : c.toLower = c :=
  forall_isDigit (P := fun c => c.toLower = c) (by decide) h

/-! ## Runs of characters -/

section Runs

variable {p : Char → Bool} {cs ds : List Char}

theorem takeWhile_map_toLower (h : IgnoresCase p) (cs : List Char) :
    (cs.map Char.toLower).takeWhile p = (cs.takeWhile p).map Char.toLower := by
  have same : p ∘ Char.toLower = p := funext h
  rw [List.takeWhile_map, same]

theorem dropWhile_map_toLower (h : IgnoresCase p) (cs : List Char) :
    (cs.map Char.toLower).dropWhile p = (cs.dropWhile p).map Char.toLower := by
  have same : p ∘ Char.toLower = p := funext h
  rw [List.dropWhile_map, same]

/-- Texts in two cases belong to the same classes, character by character. -/
theorem forall_mem_of_map_toLower (h : IgnoresCase p)
    (same : cs.map Char.toLower = ds.map Char.toLower) (all : ∀ c ∈ cs, p c = true) :
    ∀ d ∈ ds, p d = true := by
  intro d member
  have small : d.toLower ∈ cs.map Char.toLower := same ▸ List.mem_map_of_mem member
  obtain ⟨c, member', eq⟩ := List.mem_map.1 small
  rw [← h d, ← eq, h c]
  exact all c member'

theorem head?_map_toLower (h : IgnoresCase p)
    (same : cs.map Char.toLower = ds.map Char.toLower) (stop : ∀ c ∈ cs.head?, p c = false) :
    ∀ d ∈ ds.head?, p d = false := by
  intro d head
  have first := congrArg List.head? same
  rw [List.head?_map, List.head?_map, Option.mem_def.1 head, Option.map_some,
    Option.map_eq_some_iff] at first
  obtain ⟨c, head', eq⟩ := first
  rw [← h d, ← eq, h c]
  exact stop c head'

theorem map_toLower_beq_some {d : Char} (h : IgnoresCase (· == d)) (c : Option Char) :
    (c.map Char.toLower == some d) = (c == some d) := by
  cases c with
  | none => rfl
  | some c => exact h c

end Runs

/-! ## Names -/

theorem sameName_iff {s t : String} :
    sameName s t = true ↔ s.toList.map Char.toLower = t.toList.map Char.toLower := by
  simp [sameName]

theorem sameName_refl (s : String) : sameName s s = true := sameName_iff.2 rfl

theorem sameName_symm {s t : String} (h : sameName s t = true) : sameName t s = true :=
  sameName_iff.2 (sameName_iff.1 h).symm

/-- Texts of the same name have the same name as any third text, or both have another one. -/
theorem sameName_congr {s t : String} (h : sameName s t = true) (u : String) :
    sameName s u = sameName t u := by
  simp only [sameName, sameName_iff.1 h]

theorem sameName_congr_right {s t : String} (h : sameName s t = true) (u : String) :
    sameName u s = sameName u t := by
  simp only [sameName, sameName_iff.1 h]

theorem sameName_append {s s' t t' : String} (h : sameName s s' = true) (g : sameName t t' = true) :
    sameName (s ++ t) (s' ++ t') = true := by
  simp only [sameName_iff, String.toList_append, List.map_append] at h g ⊢
  rw [h, g]

theorem sameName_foldCase (s : String) : sameName s (foldCase s) = true := by
  rw [sameName_iff, foldCase, String.toList_ofList, List.map_map]
  exact List.map_congr_left fun c _ => (toLower_toLower c).symm

theorem foldCase_congr {s t : String} (h : sameName s t = true) : foldCase s = foldCase t := by
  rw [foldCase, foldCase, sameName_iff.1 h]

/-- A text of ASCII characters. -/
def isAscii (s : String) : Bool := s.toList.all (·.toNat < 0x80)

theorem isAscii_of_sameName {s t : String} (h : sameName s t = true) (ascii : isAscii s = true) :
    isAscii t = true :=
  List.all_eq_true.2 (forall_mem_of_map_toLower ignoresCase_isAscii (sameName_iff.1 h)
    (List.all_eq_true.1 ascii))

theorem dropName?_append {name before : List Char}
    (same : before.map Char.toLower = name.map Char.toLower) (rest : List Char) :
    dropName? name (before ++ rest) = some rest := by
  induction name generalizing before with
  | nil =>
    obtain rfl : before = [] := by simpa using same
    rfl
  | cons c name ih =>
    cases before with
    | nil => simp at same
    | cons d before =>
      simp only [List.map_cons, List.cons.injEq] at same
      simp [dropName?, same.1, ih same.2]

theorem lowerAfter_of_ascii {cs : List Char} (ascii : ∀ c ∈ cs, c.toNat < 0x80)
    (before : List Char) : lowerAfter before cs = cs.map Char.toLower := by
  induction cs generalizing before with
  | nil => rfl
  | cons c cs ih =>
    obtain ⟨first, others⟩ := List.forall_mem_cons.1 ascii
    have notSigma : c ≠ 'Σ' := by
      rintro rfl
      exact absurd first (by decide)
    have notDotted : c ≠ 'İ' := by
      rintro rfl
      exact absurd first (by decide)
    simp [lowerAfter, notSigma, notDotted, lowerChar, first, ih others]

theorem toLower_eq_foldCase {s : String} (ascii : isAscii s = true) : toLower s = foldCase s := by
  have all : ∀ c ∈ s.toList, c.toNat < 0x80 := by simpa [isAscii] using ascii
  rw [toLower, lowerAfter_of_ascii all, foldCase]

end FilterSql.Text

namespace FilterSql.Filter

open Text

/-! ## The characters of tokens -/

theorem ignoresCase_isWordStart : IgnoresCase isWordStart :=
  ignoresCase_of_capitals (by decide +kernel)

theorem ignoresCase_isWordChar : IgnoresCase isWordChar :=
  ignoresCase_of_capitals (by decide +kernel)

theorem ignoresCase_isNumberChar : IgnoresCase isNumberChar :=
  ignoresCase_of_capitals (by decide +kernel)

theorem ignoresCase_isNameChar : IgnoresCase isNameChar :=
  ignoresCase_of_capitals (by decide +kernel)

end FilterSql.Filter
