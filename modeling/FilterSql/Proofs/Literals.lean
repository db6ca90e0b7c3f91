import FilterSql.Proofs.AsciiCase
import FilterSql.Proofs.Lexing

/-!
# The texts of literals

What is read from a text is the same in another case, with one exception: the mark between a date and
a time without an offset is a capital. A text of that form has nothing but digits, blanks and a point
after its last colon.

A word is a literal only if it is `null` or a truth value. A quoted text stands for the text inside,
with its doubled quotes made single.

## Main statements

* `Literal.isLiteral_of_sameName`: texts of the same name are both literals or both not.
* `Literal.unquote_quote`: a quoted text stands for what was quoted.
-/

namespace FilterSql

open Text

/-! ## Numbers -/

namespace Decimal

theorem takeWhile_isDigit_map_toLower (cs : List Char) :
    (cs.map Char.toLower).takeWhile Char.isDigit = cs.takeWhile Char.isDigit := by
  rw [takeWhile_map_toLower ignoresCase_isDigit]
  refine (List.map_congr_left fun c member => ?_).trans (List.map_id _)
  exact toLower_of_isDigit (List.all_eq_true.1 List.all_takeWhile c member)

theorem takeSign_map_toLower (cs : List Char) :
    takeSign (cs.map Char.toLower) = ((takeSign cs).1, (takeSign cs).2.map Char.toLower) := by
  have minus : IgnoresCase (· == '-') := ignoresCase_of_capitals (by decide)
  have plus : IgnoresCase (· == '+') := ignoresCase_of_capitals (by decide)
  cases cs with
  | nil => rfl
  | cons c cs =>
    by_cases isMinus : c = '-'
    · subst isMinus
      rfl
    by_cases isPlus : c = '+'
    · subst isPlus
      rfl
    have isMinus' : c.toLower ≠ '-' := fun eq => isMinus ((toLower_eq_iff minus).1 eq)
    have isPlus' : c.toLower ≠ '+' := fun eq => isPlus ((toLower_eq_iff plus).1 eq)
    simp [takeSign, isMinus, isPlus, isMinus', isPlus']

theorem readNat?_map_toLower (cs : List Char) : readNat? (cs.map Char.toLower) = readNat? cs := by
  have all : (cs.map Char.toLower).all Char.isDigit = cs.all Char.isDigit := by
    rw [List.all_map]
    exact congrArg cs.all (funext ignoresCase_isDigit)
  cases digits : cs.all Char.isDigit with
  | false => simp [readNat?, all, digits]
  | true =>
    have same : cs.map Char.toLower = cs :=
      (List.map_congr_left fun c member =>
        toLower_of_isDigit (List.all_eq_true.1 digits c member)).trans (List.map_id _)
    rw [same]

theorem readExponent?_map_toLower (cs : List Char) :
    readExponent? (cs.map Char.toLower) = readExponent? cs := by
  have mark : IgnoresCase fun c => c == 'e' || c == 'E' := ignoresCase_of_capitals (by decide)
  cases cs with
  | nil => rfl
  | cons c cs =>
    have same : (c.toLower == 'e' || c.toLower == 'E') = (c == 'e' || c == 'E') := mark c
    simp only [List.map_cons, readExponent?, same, takeSign_map_toLower, readNat?_map_toLower]

theorem readWritten?_map_toLower (cs : List Char) :
    readWritten? (cs.map Char.toLower) = readWritten? cs := by
  have point : IgnoresCase (· == '.') := ignoresCase_of_capitals (by decide)
  have drop (cs : List Char) : (cs.map Char.toLower).dropWhile Char.isDigit =
      (cs.dropWhile Char.isDigit).map Char.toLower := dropWhile_map_toLower ignoresCase_isDigit cs
  simp only [readWritten?, takeSign_map_toLower, takeWhile_isDigit_map_toLower, drop]
  generalize (takeSign cs).2.dropWhile Char.isDigit = after
  cases after with
  | nil => rfl
  | cons c after =>
    by_cases isPoint : c = '.'
    · subst isPoint
      have small : '.'.toLower = '.' := rfl
      simp only [List.map_cons, small, takeWhile_isDigit_map_toLower, drop,
        readExponent?_map_toLower]
    · have isPoint' : c.toLower ≠ '.' := fun eq => isPoint ((toLower_eq_iff point).1 eq)
      have rest := readExponent?_map_toLower (c :: after)
      rw [List.map_cons] at rest
      simp [isPoint, isPoint', rest]

end Decimal

/-! ## Timestamps -/

namespace Calendar

theorem takeNumber_map_toLower (least most : Nat) (cs : List Char) :
    takeNumber least most (cs.map Char.toLower) =
      (takeNumber least most cs).map (Prod.map id (List.map Char.toLower)) := by
  simp only [takeNumber, ← List.map_take, Decimal.takeWhile_isDigit_map_toLower, ← List.map_drop]
  split <;> rfl

theorem takeLooseNumber_map_toLower (most : Nat) (cs : List Char) :
    takeLooseNumber most (cs.map Char.toLower) =
      (takeLooseNumber most cs).map (Prod.map id (List.map Char.toLower)) := by
  rw [takeLooseNumber, dropBlanks, dropWhile_map_toLower ignoresCase_isBlank,
    takeNumber_map_toLower]
  rfl

theorem takeMark_map_toLower {marks : List Char} (h : IgnoresCase marks.contains)
    (cs : List Char) :
    takeMark marks (cs.map Char.toLower) = (takeMark marks cs).map (List.map Char.toLower) := by
  cases cs with
  | nil => rfl
  | cons c cs =>
    simp only [List.map_cons, takeMark, h c]
    split <;> rfl

theorem takeFraction_map_toLower (cs : List Char) :
    takeFraction (cs.map Char.toLower) =
      (takeFraction cs).map (Prod.map id (List.map Char.toLower)) := by
  have point : IgnoresCase (· == '.') := ignoresCase_of_capitals (by decide)
  cases cs with
  | nil => rfl
  | cons c cs =>
    by_cases isPoint : c = '.'
    · subst isPoint
      have small : '.'.toLower = '.' := rfl
      simp only [List.map_cons, small, takeFraction, Decimal.takeWhile_isDigit_map_toLower,
        ← List.map_drop]
      split <;> rfl
    · have isPoint' : c.toLower ≠ '.' := fun eq => isPoint ((toLower_eq_iff point).1 eq)
      simp [takeFraction, isPoint, isPoint']

theorem takeOffset_map_toLower (cs : List Char) :
    takeOffset (cs.map Char.toLower) =
      (takeOffset cs).map (Prod.map id (List.map Char.toLower)) := by
  have colon : IgnoresCase [':'].contains := ignoresCase_of_capitals (by decide)
  cases cs with
  | nil => rfl
  | cons c cs =>
    have universal : (c.toLower == 'Z' || c.toLower == 'z') = (c == 'Z' || c == 'z') :=
      ignoresCase_of_capitals (p := fun c => c == 'Z' || c == 'z') (by decide) c
    have plus : (c.toLower == '+') = (c == '+') :=
      ignoresCase_of_capitals (p := (· == '+')) (by decide) c
    have hyphen : (c.toLower == '-') = (c == '-') :=
      ignoresCase_of_capitals (p := (· == '-')) (by decide) c
    have minus : (c.toLower == '−') = (c == '−') :=
      ignoresCase_of_capitals (p := (· == '−')) (by decide) c
    simp only [List.map_cons, takeOffset, universal, plus, hyphen, minus, Option.bind_eq_bind,
      takeNumber_map_toLower, Option.bind_map, Function.comp_def, Prod.map_fst, Prod.map_snd, id,
      takeMark_map_toLower colon]
    split
    · rfl
    split
    · simp only [Option.map_bind, Function.comp_def, apply_ite (Option.map _), Option.map_some,
        Option.map_none, Prod.map, id]
    · rfl

theorem takeLooseDate_map_toLower (cs : List Char) :
    takeLooseDate (cs.map Char.toLower) =
      (takeLooseDate cs).map (Prod.map id (List.map Char.toLower)) := by
  have dash : IgnoresCase ['-'].contains := ignoresCase_of_capitals (by decide)
  simp only [takeLooseDate, Option.bind_eq_bind, takeLooseNumber_map_toLower, Option.bind_map,
    Function.comp_def, Prod.map, id, takeMark_map_toLower dash, Option.map_bind, Option.map_some]

/-- What comes after a part that was read need not see the case of the rest. -/
theorem bind_map_toLower {α β : Type} {x x' : Option (α × List Char)}
    (h : x' = x.map (Prod.map id (List.map Char.toLower))) {f : α × List Char → Option β}
    (next : ∀ a cs, f (a, cs.map Char.toLower) = f (a, cs)) : (x' >>= f) = (x >>= f) := by
  cases x with
  | none => simp [h]
  | some r =>
    simp only [h, Option.map_some, Option.bind_eq_bind, Option.bind_some]
    exact next r.1 r.2

theorem bind_map_toLower_rest {β : Type} {x x' : Option (List Char)}
    (h : x' = x.map (List.map Char.toLower)) {f : List Char → Option β}
    (next : ∀ cs, f (cs.map Char.toLower) = f cs) : (x' >>= f) = (x >>= f) := by
  cases x with
  | none => simp [h]
  | some cs =>
    simp only [h, Option.map_some, Option.bind_eq_bind, Option.bind_some]
    exact next cs

theorem readFull?_map_toLower (cs : List Char) :
    readFull? (cs.map Char.toLower) = readFull? cs := by
  have dash : IgnoresCase ['-'].contains := ignoresCase_of_capitals (by decide)
  have colon : IgnoresCase [':'].contains := ignoresCase_of_capitals (by decide)
  have time : IgnoresCase ['T', 't', ' '].contains := ignoresCase_of_capitals (by decide)
  refine bind_map_toLower (takeNumber_map_toLower 4 4 cs) fun year cs => ?_
  refine bind_map_toLower_rest (takeMark_map_toLower dash cs) fun cs => ?_
  refine bind_map_toLower (takeNumber_map_toLower 2 2 cs) fun month cs => ?_
  refine bind_map_toLower_rest (takeMark_map_toLower dash cs) fun cs => ?_
  refine bind_map_toLower (takeNumber_map_toLower 2 2 cs) fun day cs => ?_
  refine bind_map_toLower_rest (takeMark_map_toLower time cs) fun cs => ?_
  refine bind_map_toLower (takeNumber_map_toLower 2 2 cs) fun hour cs => ?_
  refine bind_map_toLower_rest (takeMark_map_toLower colon cs) fun cs => ?_
  refine bind_map_toLower (takeNumber_map_toLower 2 2 cs) fun minute cs => ?_
  refine bind_map_toLower_rest (takeMark_map_toLower colon cs) fun cs => ?_
  refine bind_map_toLower (takeNumber_map_toLower 2 2 cs) fun second cs => ?_
  refine bind_map_toLower (takeFraction_map_toLower cs) fun nanosecond cs => ?_
  refine bind_map_toLower (takeOffset_map_toLower cs) fun offset cs => ?_
  simp only [checked, List.isEmpty_map]

theorem readDate?_map_toLower (cs : List Char) :
    readDate? (cs.map Char.toLower) = readDate? cs := by
  simp only [readDate?, Option.bind_eq_bind, takeLooseDate_map_toLower, Option.bind_map,
    Function.comp_def, Prod.map_fst, Prod.map_snd, id, checked, List.isEmpty_map]

/-- The mark of the local form is a capital. -/
theorem readLocal?_map_toLower (cs : List Char) : readLocal? (cs.map Char.toLower) = none := by
  have mark (cs : List Char) : takeMark ['T'] (cs.map Char.toLower) = none := by
    cases cs with
    | nil => rfl
    | cons c cs =>
      have small : c.toLower ≠ 'T' := fun eq => absurd (toLower_toLower c) (by rw [eq]; decide)
      simp [takeMark, small]
  simp only [readLocal?, Option.bind_eq_bind, takeLooseDate_map_toLower, Option.bind_map,
    Function.comp_def, Prod.map_snd, mark, Option.bind_none, Option.bind_fun_none]

/-! The local form, from its first colon on, has no letters. -/

theorem takeMark_eq_some {marks cs rest : List Char} (h : takeMark marks cs = some rest) :
    ∃ c ∈ marks, cs = c :: rest := by
  cases cs with
  | nil => cases h
  | cons c cs =>
    simp only [takeMark] at h
    split at h
    · next mark =>
      cases h
      exact ⟨c, List.contains_iff_mem.1 mark, rfl⟩
    · cases h

theorem takeLooseNumber_eq_some {most n : Nat} {cs rest : List Char}
    (h : takeLooseNumber most cs = some (n, rest)) :
    ∃ number, cs = number ++ rest ∧ ∀ c ∈ number, c.isAlpha = false := by
  simp only [takeLooseNumber, takeNumber] at h
  split at h
  · cases h
  · cases h
    have run : ((dropBlanks cs).take most).takeWhile Char.isDigit <+: dropBlanks cs :=
      (List.takeWhile_prefix _).trans (List.take_prefix _ _)
    refine ⟨cs.takeWhile isBlank ++ ((dropBlanks cs).take most).takeWhile Char.isDigit, ?_, ?_⟩
    · rw [List.append_assoc, List.prefix_iff_eq_append.1 run]
      exact List.takeWhile_append_dropWhile.symm
    · intro c member
      rcases List.mem_append.1 member with blank | digit
      · exact forall_isBlank (P := fun c => c.isAlpha = false) (by decide)
          (List.all_eq_true.1 List.all_takeWhile c blank)
      · exact forall_isDigit (P := fun c => c.isAlpha = false) (by decide)
          (List.all_eq_true.1 List.all_takeWhile c digit)

theorem takeFraction_eq_some {n : Nat} {cs rest : List Char} (h : takeFraction cs = some (n, rest)) :
    ∃ fraction, cs = fraction ++ rest ∧ ∀ c ∈ fraction, c.isAlpha = false := by
  unfold takeFraction at h
  split at h
  · next cs =>
    dsimp only at h
    split at h
    · cases h
    · cases h
      refine ⟨'.' :: cs.takeWhile Char.isDigit, ?_, ?_⟩
      · rw [List.cons_append, List.prefix_iff_eq_append.1 (List.takeWhile_prefix _)]
      · refine List.forall_mem_cons.2 ⟨rfl, fun c digit => ?_⟩
        exact forall_isDigit (P := fun c => c.isAlpha = false) (by decide)
          (List.all_eq_true.1 List.all_takeWhile c digit)
  · cases h
    exact ⟨[], rfl, nofun⟩

theorem suffix_of_takeLooseDate {date : Date} {cs rest : List Char}
    (h : takeLooseDate cs = some (date, rest)) : rest <:+ cs := by
  simp only [takeLooseDate, Option.bind_eq_bind, Option.bind_eq_some_iff] at h
  obtain ⟨_, readYear, _, dash, _, readMonth, _, dash', _, readDay, eq⟩ := h
  obtain ⟨year, rfl, -⟩ := takeLooseNumber_eq_some readYear
  obtain ⟨c, -, rest₁⟩ := takeMark_eq_some dash
  obtain ⟨month, rfl, -⟩ := takeLooseNumber_eq_some readMonth
  obtain ⟨c', -, rest₂⟩ := takeMark_eq_some dash'
  obtain ⟨day, rfl, -⟩ := takeLooseNumber_eq_some readDay
  cases eq
  rw [rest₁, rest₂]
  exact ⟨year ++ c :: (month ++ c' :: day), by simp⟩

theorem readLocal?_eq_some {cs : List Char} {t : Timestamp} (h : readLocal? cs = some t) :
    ∃ before after, cs = before ++ ':' :: after ∧ ∀ c ∈ after, c.isAlpha = false := by
  simp only [readLocal?, Option.bind_eq_bind, Option.bind_eq_some_iff] at h
  obtain ⟨_, readDate, _, mark, _, readHour, _, colon, _, readMinute, _, colon', _, readSecond,
    ⟨_, rest⟩, readFraction, used⟩ := h
  obtain ⟨before, rfl⟩ := suffix_of_takeLooseDate readDate
  obtain ⟨c, -, rest₁⟩ := takeMark_eq_some mark
  obtain ⟨hour, rfl, -⟩ := takeLooseNumber_eq_some readHour
  obtain ⟨c', isColon, rest₂⟩ := takeMark_eq_some colon
  obtain ⟨minute, rfl, inMinute⟩ := takeLooseNumber_eq_some readMinute
  obtain ⟨c'', isColon', rest₃⟩ := takeMark_eq_some colon'
  obtain ⟨second, rfl, inSecond⟩ := takeLooseNumber_eq_some readSecond
  obtain ⟨fraction, eq, inFraction⟩ := takeFraction_eq_some readFraction
  obtain rfl : c' = ':' := by simpa using isColon
  obtain rfl : c'' = ':' := by simpa using isColon'
  have nothing : rest = [] := by
    simp only [checked] at used
    split at used
    · next all => simp_all
    · cases used
  refine ⟨before ++ c :: hour, minute ++ ':' :: (second ++ fraction), ?_, ?_⟩
  · simp [rest₁, rest₂, rest₃, eq, nothing]
  · simp only [List.mem_append, List.mem_cons]
    rintro d (member | rfl | member | member)
    · exact inMinute d member
    · rfl
    · exact inSecond d member
    · exact inFraction d member

/-- Only letters without a colon after them: that is no local form. -/
theorem readLocal?_eq_none {before after : List Char} {c : Char} (letter : c.isAlpha = true)
    (noColon : ':' ∉ after) : readLocal? (before ++ c :: after) = none := by
  rw [Option.eq_none_iff_forall_ne_some]
  intro t read
  obtain ⟨before', after', eq, noLetter⟩ := readLocal?_eq_some read
  have other : c ≠ ':' := by
    rintro rfl
    exact absurd letter (by decide)
  rcases List.append_eq_append_iff.1 eq with ⟨mid, -, eq⟩ | ⟨mid, -, eq⟩
  · cases mid with
    | nil => exact other (List.cons.inj eq).1
    | cons d mid => exact noColon (by simp [(List.cons.inj eq).2])
  · cases mid with
    | nil => exact other (List.cons.inj eq).1.symm
    | cons d mid =>
      have member : c ∈ after' := by simp [(List.cons.inj eq).2]
      rw [noLetter c member] at letter
      cases letter

end Calendar

namespace Text

theorem dropName?_map_toLower (name cs : List Char) :
    dropName? name (cs.map Char.toLower) = (dropName? name cs).map (List.map Char.toLower) := by
  fun_induction dropName? name cs with
  | case1 => rfl
  | case2 => rfl
  | case3 h name c cs same ih => simpa [dropName?, toLower_toLower, same] using ih
  | case4 h name c cs other =>
    simp only [List.map_cons, dropName?, toLower_toLower, other]
    rfl

theorem trim_eq_self_of_not_blank {s : String} (h : ∀ c ∈ s.toList, isBlank c = false) :
    trim s = s :=
  trim_eq_self (fun c head => h c (List.mem_of_mem_head? head))
    fun c last => h c (List.mem_of_mem_getLast? last)

theorem trim_foldCase (s : String) : trim (foldCase s) = foldCase (trim s) := by
  simp only [trim, foldCase, String.toList_ofList, dropBlanks, dropBlanksEnd,
    dropWhile_map_toLower ignoresCase_isBlank, ← List.map_reverse]

end Text

namespace Filter.Literal

/-! ## Literals in another case -/

theorem isNull_foldCase (s : String) : isNull (foldCase s) = isNull s := by
  rw [isNull, trim_foldCase, sameName_congr (sameName_symm (sameName_foldCase _)), isNull]

theorem quotedPart_map_toLower (cs : List Char) :
    quotedPart (cs.map Char.toLower) = (quotedPart cs).map Char.toLower := by
  have quote : IgnoresCase (· == '\'') := ignoresCase_of_capitals (by decide)
  have part (name : String) :
      ((dropName? name.toList (cs.map Char.toLower)).filter (·.head? == some '\'')) =
        ((dropName? name.toList cs).filter (·.head? == some '\'')).map (List.map Char.toLower) := by
    rw [dropName?_map_toLower]
    rcases dropName? name.toList cs with _ | rest
    · rfl
    · cases rest with
      | nil => rfl
      | cons c rest =>
        have same : (c.toLower == '\'') = (c == '\'') := quote c
        by_cases isQuote : c = '\'' <;> simp_all [Option.filter]
  have spatial : dropSpatialName? (cs.map Char.toLower) =
      (dropSpatialName? cs).map (List.map Char.toLower) := by
    rw [dropSpatialName?, dropSpatialName?, List.map_findSome?]
    exact congrArg (List.findSome? · _) (funext part)
  rw [quotedPart, spatial, quotedPart]
  cases dropSpatialName? cs <;> rfl

theorem isBetween_map_toLower {mark : Char} (h : IgnoresCase (· == mark)) (cs : List Char) :
    isBetween mark (cs.map Char.toLower) = isBetween mark cs := by
  simp only [isBetween, List.length_map, List.head?_map, List.getLast?_map, map_toLower_beq_some h]

theorem isQuoted_foldCase (s : String) : isQuoted (foldCase s) = isQuoted s := by
  have single : IgnoresCase (· == '\'') := ignoresCase_of_capitals (by decide)
  have double : IgnoresCase (· == '"') := ignoresCase_of_capitals (by decide)
  simp only [isQuoted, foldCase, String.toList_ofList, quotedPart_map_toLower,
    isBetween_map_toLower single, isBetween_map_toLower double]

theorem looksNumeric_foldCase (s : String) :
    looksNumeric (foldCase s).toList = looksNumeric s.toList := by
  have digit : IgnoresCase fun c => c.isDigit || c == '.' := ignoresCase_of_capitals (by decide)
  simp only [looksNumeric, foldCase, String.toList_ofList, Decimal.takeSign_map_toLower]
  cases (Decimal.takeSign s.toList).2 with
  | nil => rfl
  | cons c cs => exact digit c

theorem readDecimal?_foldCase (s : String) : readDecimal? (foldCase s) = readDecimal? s := by
  simp only [readDecimal?, looksNumeric_foldCase]
  simp only [foldCase, String.toList_ofList, Decimal.readWritten?_map_toLower]

theorem readTimestamp?_foldCase {s : String} (h : Calendar.readLocal? s.toList = none) :
    readTimestamp? (foldCase s) = readTimestamp? s := by
  have full := Calendar.readFull?_map_toLower s.toList
  have date := Calendar.readDate?_map_toLower s.toList
  have noLocal := Calendar.readLocal?_map_toLower s.toList
  simp only [readTimestamp?, foldCase, String.toList_ofList]
  generalize s.toList = cs at h full date noLocal ⊢
  cases cs with
  | nil => rfl
  | cons c cs =>
    simp only [List.map_cons] at full date noLocal
    simp only [List.map_cons, Calendar.readTimestamp?, ignoresCase_isDigit c, full, date, noLocal, h]

theorem isLiteral_foldCase {s : String} (h : Calendar.readLocal? (trim s).toList = none) :
    isLiteral (foldCase s) = isLiteral s := by
  have bool : readBool? (foldCase (trim s)) = readBool? (trim s) := by
    simp only [readBool?, sameName_congr (sameName_symm (sameName_foldCase (trim s)))]
  simp only [isLiteral, trim_foldCase, isQuoted_foldCase, isNull_foldCase, bool,
    readDecimal?_foldCase, readTimestamp?_foldCase h]

/-- Texts of the same name are both literals or both not, if none is a local timestamp. -/
theorem isLiteral_of_sameName {s t : String} (same : sameName s t = true)
    (hs : Calendar.readLocal? (trim s).toList = none)
    (ht : Calendar.readLocal? (trim t).toList = none) : isLiteral s = isLiteral t := by
  rw [← isLiteral_foldCase hs, ← isLiteral_foldCase ht, foldCase_congr same]

theorem isLiteral_of_isNull {s : String} (h : isNull s = true) : isLiteral s = true := by
  have letters : IgnoresCase fun c => !isBlank c := fun c => congrArg (!·) (ignoresCase_isBlank c)
  have unblank : ∀ c ∈ "null".toList, (!isBlank c) = true := List.all_eq_true.1 (by decide)
  have notBlank := forall_mem_of_map_toLower letters (sameName_iff.1 h).symm unblank
  have null : isNull (trim s) = true := by
    rwa [isNull, trim_eq_self_of_not_blank (by simpa using notBlank)]
  simp [isLiteral, null]

/-! ## Quoted texts -/

theorem isSpatialName_iff {cs : List Char} :
    isSpatialName cs = true ↔
      ∃ name ∈ ["geography", "geometry"], cs.map Char.toLower = name.toList.map Char.toLower := by
  simp [isSpatialName, sameName_iff]

theorem exists_cons_of_isSpatialName {name : List Char} (spatial : isSpatialName name = true) :
    ∃ c cs, name = c :: cs ∧ c.toLower = 'g' := by
  obtain ⟨known, isKnown, lower⟩ := isSpatialName_iff.1 spatial
  have all : ∀ known ∈ ["geography", "geometry"],
      (known.toList.map Char.toLower).head? = some 'g' := by decide
  have head := all known isKnown
  rw [← lower, List.head?_map, Option.map_eq_some_iff] at head
  obtain ⟨c, head, small⟩ := head
  obtain ⟨cs, rfl⟩ := List.head?_eq_some_iff.1 head
  exact ⟨c, cs, rfl, small⟩

/-- The two names differ in their fourth letter, so a text starts with one of them at most. -/
theorem append_inj_of_isSpatialName {name name' rest rest' : List Char}
    (spatial : isSpatialName name = true) (spatial' : isSpatialName name' = true)
    (eq : name ++ rest = name' ++ rest') : name = name' ∧ rest = rest' := by
  obtain ⟨known, isKnown, lower⟩ := isSpatialName_iff.1 spatial
  obtain ⟨known', isKnown', lower'⟩ := isSpatialName_iff.1 spatial'
  have decided : ∀ known ∈ ["geography", "geometry"], ∀ known' ∈ ["geography", "geometry"],
      (known.toList.map Char.toLower).take 4 = (known'.toList.map Char.toLower).take 4 →
        known = known' := by decide
  have long : ∀ known ∈ ["geography", "geometry"], 4 ≤ (known.toList.map Char.toLower).length := by
    decide
  have start : (name.map Char.toLower).take 4 = (name'.map Char.toLower).take 4 := by
    have start := congrArg (fun cs => (cs.map Char.toLower).take 4) eq
    simp only [List.map_append] at start
    rwa [List.take_append_of_le_length, List.take_append_of_le_length] at start
    · rw [lower']
      exact long known' isKnown'
    · rw [lower]
      exact long known isKnown
  rw [lower, lower'] at start
  obtain rfl := decided known isKnown known' isKnown' start
  have length := congrArg List.length (lower.trans lower'.symm)
  rw [List.length_map, List.length_map] at length
  exact List.append_inj eq length

theorem dropSpatialName?_eq_some_iff {cs rest : List Char} :
    dropSpatialName? cs = some rest ↔
      ∃ name, isSpatialName name = true ∧ cs = name ++ rest ∧ rest.head? = some '\'' := by
  have inversion {rest : List Char} (h : dropSpatialName? cs = some rest) :
      ∃ name, isSpatialName name = true ∧ cs = name ++ rest ∧ rest.head? = some '\'' := by
    obtain ⟨known, isKnown, found⟩ := List.exists_of_findSome?_eq_some h
    obtain ⟨dropped, quote⟩ := Option.filter_eq_some_iff.1 found
    obtain ⟨name, eq, lower⟩ := dropName?_eq_some dropped
    exact ⟨name, isSpatialName_iff.2 ⟨known, isKnown, lower⟩, eq, by simpa using quote⟩
  refine ⟨inversion, ?_⟩
  rintro ⟨name, spatial, rfl, quote⟩
  obtain ⟨known, isKnown, lower⟩ := isSpatialName_iff.1 spatial
  have found : (dropSpatialName? (name ++ rest)).isSome = true := by
    refine List.findSome?_isSome_iff.2 ⟨known, isKnown, ?_⟩
    simp [dropName?_append lower, Option.filter, quote]
  obtain ⟨rest', eq⟩ := Option.isSome_iff_exists.1 found
  obtain ⟨name', spatial', same, -⟩ := inversion eq
  rw [eq, (append_inj_of_isSpatialName spatial spatial' same).2]

/-- A quoted text ends with a quote, and starts with a quote or with the name of a spatial type. -/
theorem ends_of_isQuoted {text : String} (h : isQuoted text = true) :
    (∀ c ∈ text.toList.head?, isBlank c = false) ∧
      ∃ quote, (quote = '\'' ∨ quote = '"') ∧ text.toList.getLast? = some quote := by
  obtain ⟨quote, isQuote, first, last⟩ : ∃ quote, (quote = '\'' ∨ quote = '"') ∧
      (quotedPart text.toList).head? = some quote ∧
        (quotedPart text.toList).getLast? = some quote := by
    simp only [isQuoted, isBetween, Bool.or_eq_true, Bool.and_eq_true, beq_iff_eq] at h
    rcases h with h | h
    · exact ⟨'\'', .inl rfl, h.1.2, h.2⟩
    · exact ⟨'"', .inr rfl, h.1.2, h.2⟩
  have notBlank : isBlank quote = false := by
    rcases isQuote with rfl | rfl <;> decide
  cases spatial : dropSpatialName? text.toList with
  | none =>
    simp only [quotedPart, spatial, Option.getD_none] at first last
    refine ⟨fun c head => ?_, quote, isQuote, last⟩
    rw [first] at head
    cases head
    exact notBlank
  | some rest =>
    simp only [quotedPart, spatial, Option.getD_some] at first last
    obtain ⟨name, isName, eq, -⟩ := dropSpatialName?_eq_some_iff.1 spatial
    obtain ⟨c, cs, rfl, small⟩ := exists_cons_of_isSpatialName isName
    refine ⟨fun d member => ?_, quote, isQuote, by rw [eq, List.getLast?_append, last]; rfl⟩
    rw [eq] at member
    cases member
    rw [Bool.eq_false_iff]
    intro blank
    exact forall_isBlank (P := fun c => c.toLower ≠ 'g') (by decide) blank small

theorem trim_of_isQuoted {text : String} (h : isQuoted text = true) : trim text = text := by
  obtain ⟨first, quote, isQuote, last⟩ := ends_of_isQuoted h
  refine trim_eq_self first fun c member => ?_
  rw [last] at member
  cases member
  rcases isQuote with rfl | rfl <;> decide

theorem isLiteral_of_isQuoted {text : String} (h : isQuoted text = true) :
    isLiteral text = true := by
  simp [isLiteral, trim_of_isQuoted h, h]

/-- The literal that stands for a text: in single quotes, with those inside doubled. -/
def quote (s : String) : String := String.ofList ('\'' :: (doubled s.toList ++ ['\'']))

theorem toList_quote (s : String) : (quote s).toList = '\'' :: (doubled s.toList ++ ['\'']) :=
  String.toList_ofList

theorem undouble_cons {c : Char} (other : c ≠ '\'') (cs : List Char) :
    undouble (c :: cs) = c :: undouble cs := by
  cases cs with
  | nil => rfl
  | cons d cs => simp [undouble, other]

theorem undouble_doubled (cs : List Char) : undouble (doubled cs) = cs := by
  induction cs with
  | nil => rfl
  | cons c cs ih =>
    by_cases isQuote : c = '\''
    · simp [doubled, undouble, isQuote, ih]
    · rw [doubled, if_neg isQuote, undouble_cons isQuote, ih]

theorem quotedPart_quote (s : String) : quotedPart (quote s).toList = (quote s).toList := by
  simp [quotedPart, quote, dropSpatialName?, dropName?]

theorem quotedPart_spatial {name : List Char} (spatial : isSpatialName name = true) (s : String) :
    quotedPart (name ++ (quote s).toList) = (quote s).toList := by
  have found : dropSpatialName? (name ++ (quote s).toList) = some (quote s).toList :=
    dropSpatialName?_eq_some_iff.2 ⟨name, spatial, rfl, by rw [toList_quote]; rfl⟩
  rw [quotedPart, found, Option.getD_some]

theorem isQuoted_of_quotedPart {text s : String}
    (part : quotedPart text.toList = (quote s).toList) : isQuoted text = true := by
  have last : (quote s).toList.getLast? = some '\'' := by
    rw [toList_quote, ← List.cons_append, List.getLast?_concat]
  rw [isQuoted, part]
  simp only [isBetween, last]
  simp [toList_quote]

/-- The name of a spatial type in front of the quotes is not part of what was quoted. -/
theorem unquote_of_quotedPart {text s : String}
    (part : quotedPart text.toList = (quote s).toList) : unquote text = s := by
  have isQuoted := isQuoted_of_quotedPart part
  have inner : ((quote s).toList.drop 1).dropLast = doubled s.toList := by simp [toList_quote]
  have first : (quote s).toList.head? = some '\'' := by simp [toList_quote]
  simp only [unquote, trim_of_isQuoted isQuoted, isQuoted, part, inner, first, if_true, BEq.rfl,
    undouble_doubled, String.ofList_toList]

theorem isQuoted_quote (s : String) : isQuoted (quote s) = true :=
  isQuoted_of_quotedPart (quotedPart_quote s)

/-- A quoted text stands for what was quoted. -/
theorem unquote_quote (s : String) : unquote (quote s) = s :=
  unquote_of_quotedPart (quotedPart_quote s)

theorem value_quote (s : String) : value (quote s) = .string s := by
  simp [value, trim_of_isQuoted (isQuoted_quote s), isQuoted_quote, unquote_quote]

/-! ## Words -/

theorem isWordChar_of_isWordStart {c : Char} (h : isWordStart c = true) : isWordChar c = true := by
  simp only [isWordStart, isWordChar, isLetterOrNumber, Bool.or_eq_true] at h ⊢
  rcases h with h | h <;> simp [h]

/-- The text of a word. -/
def IsWord (s : String) : Prop := ∃ c run, s.toList = c :: run ∧ IsWordText c run

namespace IsWord

variable {s t : String}

theorem isWordChar (h : IsWord s) : ∀ c ∈ s.toList, isWordChar c = true := by
  obtain ⟨c, run, eq, starts, all⟩ := h
  rw [eq]
  exact List.forall_mem_cons.2 ⟨isWordChar_of_isWordStart starts, all⟩

theorem trim_eq (h : IsWord s) : trim s = s := by
  refine trim_eq_self_of_not_blank fun c member => ?_
  rw [Bool.eq_false_iff]
  intro blank
  have notWord := isWordChar_of_endsToken (c := c) (by simp [endsToken, blank])
  rw [h.isWordChar c member] at notWord
  cases notWord

theorem isQuoted_eq (h : IsWord s) : isQuoted s = false := by
  rw [Bool.eq_false_iff]
  intro quoted
  obtain ⟨-, quote, isQuote, last⟩ := ends_of_isQuoted quoted
  have isChar := h.isWordChar quote (List.mem_of_mem_getLast? last)
  rcases isQuote with rfl | rfl <;> exact absurd isChar (by decide)

theorem looksNumeric_eq (h : IsWord s) : looksNumeric s.toList = false := by
  obtain ⟨c, run, eq, text⟩ := h
  have digit : c.isDigit = false := by simpa [startsNumber] using text.not_startsNumber []
  have other : c ≠ '-' ∧ c ≠ '+' ∧ c ≠ '.' := by
    refine ⟨?_, ?_, ?_⟩ <;> rintro rfl <;> exact absurd text.1 (by decide)
  simp [looksNumeric, eq, Decimal.takeSign, other, digit]

theorem readTimestamp?_eq (h : IsWord s) : readTimestamp? s = none := by
  obtain ⟨c, run, eq, text⟩ := h
  have digit : c.isDigit = false := by simpa [startsNumber] using text.not_startsNumber []
  simp [readTimestamp?, Calendar.readTimestamp?, eq, digit]

/-- A word is a literal only if it is `null` or a truth value. -/
theorem isLiteral_eq (h : IsWord s) : isLiteral s = (isNull s || (readBool? s).isSome) := by
  simp [isLiteral, h.trim_eq, h.isQuoted_eq, readDecimal?, h.looksNumeric_eq, h.readTimestamp?_eq]

theorem value_eq (h : IsWord s) : value s = (readBool? s).elim (.string s) .bool := by
  simp only [value, h.trim_eq, h.isQuoted_eq, readInt?, readDecimal?, h.looksNumeric_eq,
    h.readTimestamp?_eq]
  cases readBool? s <;> rfl

theorem kind_eq (h : IsWord s) :
    kind s = if (readBool? s).isSome then .boolean else .string := by
  simp [kind, h.trim_eq, h.isQuoted_eq, readInt?, readDecimal?, h.looksNumeric_eq,
    h.readTimestamp?_eq]

end IsWord

end Filter.Literal

end FilterSql
