import FilterSql.Proofs.AsciiCase

/-!
# Small letters beyond ASCII

Names are compared ignoring the case of ASCII letters, but lower-casing knows the capitals of all
scripts. So a lower-cased name is the same name only if it has no capitals beyond ASCII. It is a word
still, with one exception: the dot of a capital I becomes a mark that no word has.

## Main statements

* `lowers_lowerAfter`: what lower-casing makes of each character.
* `sameName_toLower_iff`: the names that lower-casing leaves the same.
-/

namespace FilterSql.Text

/-! ## The table of capitals -/

/-- The letters with those of ASCII. -/
def allLetterRanges : List (Nat × Nat) := (0x41, 0x5A) :: (0x61, 0x7A) :: letterRanges

/-- Whether all codes between two of them are those of letters. -/
def areLetters (first last : Nat) : Bool :=
  allLetterRanges.any fun r => r.1.ble first && last.ble r.2

theorem letterRanges_scalars : letterRanges.all (fun r =>
    0x80 ≤ r.1 && (r.2 < 0xD800 || (0xE000 ≤ r.1 && r.2 < 0x110000))) = true := by
  decide +kernel

theorem toNat_ofNat {n : Nat} (h : n.isValidChar) : (Char.ofNat n).toNat = n := by
  rw [Char.ofNat, dif_pos h]
  rfl

theorem isLetter_of_areLetters {first last n : Nat} (h : areLetters first last = true)
    (low : first ≤ n) (high : n ≤ last) : isLetter (Char.ofNat n) = true ∧
      (Char.ofNat n).toNat = n := by
  obtain ⟨r, member, within⟩ := List.any_eq_true.1 h
  simp only [Bool.and_eq_true, Nat.ble_eq] at within
  have ascii : ∀ n < 26, isLetter (Char.ofNat (0x41 + n)) = true ∧
      isLetter (Char.ofNat (0x61 + n)) = true := by decide
  rcases List.mem_cons.1 member with rfl | member
  · have letter := (ascii (n - 0x41) (by omega)).1
    rw [Nat.add_sub_cancel' (by omega)] at letter
    exact ⟨letter, toNat_ofNat (.inl (by omega))⟩
  rcases List.mem_cons.1 member with rfl | member
  · have letter := (ascii (n - 0x61) (by omega)).2
    rw [Nat.add_sub_cancel' (by omega)] at letter
    exact ⟨letter, toNat_ofNat (.inl (by omega))⟩
  · have scalar := List.all_eq_true.1 letterRanges_scalars r member
    simp only [Bool.or_eq_true, Bool.and_eq_true, decide_eq_true_eq] at scalar
    have code : (Char.ofNat n).toNat = n := by
      refine toNat_ofNat ?_
      rcases scalar with ⟨-, below | above⟩
      · exact .inl (by omega)
      · exact .inr ⟨by omega, by omega⟩
    refine ⟨?_, code⟩
    rw [isLetter, code, if_neg (by omega)]
    exact List.any_eq_true.2 ⟨r, member, by simp; omega⟩

/-- The code at a distance, as the table gives it. -/
def shift (n : Nat) (distance : Int) : Nat := (n + distance).toNat

theorem lowerRuns_areLetters : lowerRuns.all (fun r =>
    areLetters (shift r.1 r.2.2.2) (shift r.2.1 r.2.2.2)) = true := by
  decide +kernel

/-- Only the sign for Kelvin has a small letter in ASCII. -/
theorem lowerRuns_foreign : lowerRuns.all (fun r =>
    r.1 == 0x212A && r.2.1 == 0x212A || Nat.ble 0x80 (shift r.1 r.2.2.2)) = true := by
  decide +kernel

/-- Beyond ASCII a character is small already, or it becomes a letter beyond ASCII, or it is the sign
for Kelvin. -/
theorem lowerChar_cases {c : Char} (foreign : 0x80 ≤ c.toNat) :
    lowerChar c = c ∨ isLetter (lowerChar c) = true ∧
      (0x80 ≤ (lowerChar c).toNat ∨ c = '\u212A') := by
  have notAscii : ¬c.toNat < 0x80 := by omega
  unfold lowerChar
  rw [if_neg notAscii]
  split
  · next first last step distance found =>
    have member := List.mem_of_find?_eq_some found
    have within := List.find?_some found
    simp only [Bool.and_eq_true, decide_eq_true_eq] at within
    obtain ⟨⟨low, high⟩, -⟩ := within
    have letters := List.all_eq_true.1 lowerRuns_areLetters _ member
    have outside := List.all_eq_true.1 lowerRuns_foreign _ member
    obtain ⟨letter, code⟩ := isLetter_of_areLetters (n := (c.toNat + distance).toNat) letters
      (by simp only [shift]; omega) (by simp only [shift]; omega)
    refine .inr ⟨letter, ?_⟩
    rw [code]
    simp only [Bool.or_eq_true, Bool.and_eq_true, beq_iff_eq, Nat.ble_eq, shift] at outside
    rcases outside with ⟨rfl, rfl⟩ | outside
    · refine .inr ?_
      rw [← Char.ofNat_toNat c, show c.toNat = 0x212A by omega]
    · exact .inl (by omega)
  · exact .inl rfl

theorem lowerChar_of_ascii {c : Char} (ascii : c.toNat < 0x80) : lowerChar c = c.toLower :=
  if_pos ascii

/-! ## Lower-casing character by character -/

/-- The forms that a character may take in a lower-cased text. -/
inductive SmallForm : Char → List Char → Prop
  | lower {c : Char} : c ≠ 'İ' → SmallForm c [lowerChar c]
  | finalSigma : SmallForm 'Σ' ['ς']
  | dotted : SmallForm 'İ' ['i', '\u0307']

/-- The second text is the first one with some characters in a small form. -/
inductive Lowers : List Char → List Char → Prop
  | nil : Lowers [] []
  | keep (c : Char) {cs cs' : List Char} : Lowers cs cs' → Lowers (c :: cs) (c :: cs')
  | change {c : Char} {ds cs cs' : List Char} : SmallForm c ds → Lowers cs cs' →
    Lowers (c :: cs) (ds ++ cs')

theorem lowers_refl (cs : List Char) : Lowers cs cs := by
  induction cs with
  | nil => exact .nil
  | cons c cs ih => exact .keep c ih

theorem Lowers.append {cs cs' ds ds' : List Char} (h : Lowers cs cs') (g : Lowers ds ds') :
    Lowers (cs ++ ds) (cs' ++ ds') := by
  induction h with
  | nil => exact g
  | keep c _ ih => exact .keep c ih
  | change form _ ih =>
    rw [List.append_assoc]
    exact .change form ih

theorem lowerAfter_cons (before : List Char) (c : Char) (rest : List Char) :
    ∃ ds, lowerAfter before (c :: rest) = ds ++ lowerAfter (c :: before) rest ∧ SmallForm c ds := by
  refine ⟨_, rfl, ?_⟩
  split
  · next sigma =>
    obtain rfl : c = 'Σ' := by simpa using sigma
    split
    · exact .finalSigma
    · exact .lower (by decide)
  · split
    · next dotted =>
      obtain rfl : c = 'İ' := by simpa using dotted
      exact .dotted
    · next plain => exact .lower (by simpa using plain)

theorem lowers_lowerAfter (before cs : List Char) : Lowers cs (lowerAfter before cs) := by
  induction cs generalizing before with
  | nil => exact .nil
  | cons c rest ih =>
    obtain ⟨ds, eq, form⟩ := lowerAfter_cons before c rest
    rw [eq]
    exact .change form (ih (c :: before))

/-! ## Capitals beyond ASCII -/

/-- A character beyond ASCII that lower-casing changes. -/
def isForeignCapital (c : Char) : Bool :=
  0x80 ≤ c.toNat && (c == 'İ' || lowerChar c != c)

theorem eq_of_toLower_eq {c d : Char} (foreign : 0x80 ≤ d.toNat) (same : c.toLower = d) : c = d := by
  rcases toLower_cases c with small | ⟨n, lt, -, small⟩
  · rw [← same, small]
  · have ascii : ∀ n < 26, (Char.ofNat (97 + n)).toNat < 0x80 := by decide
    have := ascii n lt
    rw [← small, same] at this
    omega

theorem toLower_of_foreign {c : Char} (foreign : 0x80 ≤ c.toNat) : c.toLower = c := by
  have ascii : ∀ n < 26, (Char.ofNat (65 + n)).toNat < 0x80 := by decide
  rcases toLower_cases c with small | ⟨n, lt, capital, -⟩
  · exact small
  · have := ascii n lt
    rw [← capital] at this
    omega

/-- A character that is no capital beyond ASCII changes in ASCII case only. -/
theorem SmallForm.map_toLower {c : Char} {ds : List Char} (h : SmallForm c ds)
    (plain : isForeignCapital c = false) : ds.map Char.toLower = [c.toLower] := by
  cases h with
  | lower =>
    by_cases foreign : 0x80 ≤ c.toNat
    · have same : lowerChar c = c := by simp_all [isForeignCapital]
      rw [same, List.map_singleton]
    · rw [lowerChar_of_ascii (by omega), List.map_singleton, toLower_toLower]
  | finalSigma | dotted => exact absurd plain (by decide)

theorem Lowers.map_toLower {cs cs' : List Char} (h : Lowers cs cs')
    (plain : ∀ c ∈ cs, isForeignCapital c = false) : cs'.map Char.toLower = cs.map Char.toLower := by
  induction h with
  | nil => rfl
  | keep c _ ih =>
    rw [List.map_cons, List.map_cons, ih (List.forall_mem_cons.1 plain).2]
  | change form _ ih =>
    obtain ⟨first, others⟩ := List.forall_mem_cons.1 plain
    rw [List.map_append, form.map_toLower first, ih others]
    rfl

theorem length_le_lowerAfter (before cs : List Char) : cs.length ≤ (lowerAfter before cs).length := by
  induction cs generalizing before with
  | nil => exact Nat.le_refl _
  | cons c rest ih =>
    obtain ⟨ds, eq, form⟩ := lowerAfter_cons before c rest
    have := ih (c :: before)
    rw [eq, List.length_append, List.length_cons]
    cases form <;> simp <;> omega

/-- A text that changes in ASCII case only has no capitals beyond ASCII. -/
theorem not_isForeignCapital_of_lowerAfter {before cs : List Char}
    (same : (lowerAfter before cs).map Char.toLower = cs.map Char.toLower) :
    ∀ c ∈ cs, isForeignCapital c = false := by
  induction cs generalizing before with
  | nil => simp
  | cons c rest ih =>
    obtain ⟨ds, eq, form⟩ := lowerAfter_cons before c rest
    rw [eq, List.map_append, List.map_cons] at same
    have longer := length_le_lowerAfter (c :: before) rest
    have lengths := congrArg List.length same
    cases form with
    | dotted =>
      simp at lengths
      omega
    | finalSigma =>
      exact absurd (List.cons.inj same).1 (by decide)
    | lower notDotted =>
      obtain ⟨first, others⟩ := List.cons.inj same
      refine List.forall_mem_cons.2 ⟨?_, ih others⟩
      by_cases foreign : 0x80 ≤ c.toNat
      · rw [toLower_of_foreign foreign] at first
        simp [isForeignCapital, eq_of_toLower_eq foreign first, notDotted]
      · simp [isForeignCapital, foreign]

theorem sameName_toLower_iff {s : String} :
    sameName s (toLower s) = true ↔ ∀ c ∈ s.toList, isForeignCapital c = false := by
  rw [sameName_iff, toLower, String.toList_ofList]
  exact ⟨fun same => not_isForeignCapital_of_lowerAfter same.symm,
    fun plain => ((lowers_lowerAfter [] s.toList).map_toLower plain).symm⟩

/-! ## Words in ASCII -/

/-- Apart from `k`, no ASCII letter is the small form of a character beyond ASCII. -/
theorem toLower_lowerChar_eq_iff {c x : Char} (ascii : x.toNat < 0x80) (notK : x ≠ 'k') :
    (lowerChar c).toLower = x ↔ c.toLower = x := by
  by_cases foreign : 0x80 ≤ c.toNat
  · have other : c.toLower ≠ x := by
      rw [toLower_of_foreign foreign]
      rintro rfl
      omega
    refine iff_of_false ?_ other
    rintro rfl
    rcases lowerChar_cases foreign with same | ⟨-, foreign' | rfl⟩
    · rw [same] at other
      exact other rfl
    · rw [toLower_of_foreign foreign'] at ascii
      omega
    · exact notK (by decide)
  · rw [lowerChar_of_ascii (by omega), toLower_toLower]

/-- Lower-casing neither makes a word of ASCII letters other than `k`, nor changes more of it than its
case. -/
theorem Lowers.map_toLower_eq_iff {cs cs' word : List Char} (h : Lowers cs cs')
    (plain : ∀ x ∈ word, x.toNat < 0x80 ∧ x ≠ 'k') :
    cs'.map Char.toLower = word ↔ cs.map Char.toLower = word := by
  induction h generalizing word with
  | nil => rfl
  | keep c _ ih =>
    cases word with
    | nil => simp
    | cons x word =>
      simp only [List.map_cons, List.cons.injEq, ih (List.forall_mem_cons.1 plain).2]
  | @change c ds cs cs' form _ ih =>
    cases word with
    | nil => cases form <;> simp
    | cons x word =>
      obtain ⟨⟨ascii, notK⟩, others⟩ := List.forall_mem_cons.1 plain
      cases form with
      | lower =>
        simp only [List.cons_append, List.nil_append, List.map_cons, List.cons.injEq, ih others,
          toLower_lowerChar_eq_iff ascii notK]
      | finalSigma =>
        have foreign : ¬ 'ς'.toLower.toNat < 0x80 ∧ ¬ 'Σ'.toLower.toNat < 0x80 := by decide
        constructor
        · intro same
          exact absurd ((List.cons.inj same).1 ▸ ascii) foreign.1
        · intro same
          exact absurd ((List.cons.inj same).1 ▸ ascii) foreign.2
      | dotted =>
        have foreign : ¬ '\u0307'.toLower.toNat < 0x80 ∧ ¬ 'İ'.toLower.toNat < 0x80 := by decide
        constructor
        · intro same
          have mark : '\u0307'.toLower ∈ word := by
            rw [← (List.cons.inj same).2]
            simp
          exact absurd (others _ mark).1 foreign.1
        · intro same
          exact absurd ((List.cons.inj same).1 ▸ ascii) foreign.2

end FilterSql.Text

namespace FilterSql.Filter

open Text

/-- A class that holds the letters and does not tell the cases of ASCII letters apart holds the small
form of each of its characters. -/
theorem lowerChar_of_isLetter {p : Char → Bool} (ignores : IgnoresCase p)
    (letters : ∀ c, isLetter c = true → p c = true) {c : Char} (h : p c = true) :
    p (lowerChar c) = true := by
  by_cases foreign : 0x80 ≤ c.toNat
  · rcases lowerChar_cases foreign with same | ⟨letter, -⟩
    · rw [same, h]
    · exact letters _ letter
  · rw [lowerChar_of_ascii (by omega), ignores, h]

theorem isWordStart_of_isLetter {c : Char} (h : isLetter c = true) : isWordStart c = true := by
  simp [isWordStart, h]

theorem isWordChar_of_isLetter {c : Char} (h : isLetter c = true) : isWordChar c = true := by
  simp [isWordChar, isLetterOrNumber, h]

/-- Of the characters of a word lower-casing makes such characters, and the mark for a dot. -/
theorem isWordChar_of_lowers {cs cs' : List Char} (h : Lowers cs cs')
    (chars : ∀ c ∈ cs, isWordChar c = true) : ∀ d ∈ cs', isWordChar d = true ∨ d = '\u0307' := by
  induction h with
  | nil => simp
  | keep c _ ih =>
    obtain ⟨first, others⟩ := List.forall_mem_cons.1 chars
    exact List.forall_mem_cons.2 ⟨.inl first, ih others⟩
  | change form _ ih =>
    obtain ⟨first, others⟩ := List.forall_mem_cons.1 chars
    refine List.forall_mem_append.2 ⟨?_, ih others⟩
    cases form with
    | lower =>
      have lower := lowerChar_of_isLetter ignoresCase_isWordChar (fun _ => isWordChar_of_isLetter) first
      simpa using .inl lower
    | finalSigma =>
      have small : isWordChar 'ς' = true := by decide
      simp [small]
    | dotted =>
      have small : isWordChar 'i' = true := by decide
      simp [small]

theorem exists_of_lowers_cons {c : Char} {cs cs' : List Char} (h : Lowers (c :: cs) cs')
    (start : isWordStart c = true) : ∃ d ds, cs' = d :: ds ∧ isWordStart d = true := by
  cases h with
  | keep => exact ⟨c, _, rfl, start⟩
  | change form _ =>
    cases form with
    | lower =>
      exact ⟨_, _, rfl,
        lowerChar_of_isLetter ignoresCase_isWordStart (fun _ => isWordStart_of_isLetter) start⟩
    | finalSigma | dotted => exact ⟨_, _, rfl, by decide⟩

end FilterSql.Filter
