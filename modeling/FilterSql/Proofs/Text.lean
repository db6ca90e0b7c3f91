import FilterSql.Text.AsciiCase
import FilterSql.Text.Blank
import FilterSql.Text.Split

/-!
# Characters, runs and replaced texts

Blanks and digits are few, so what holds of each of them is checked one by one. A run of characters
ends before the first one that does not belong to it. Replacing one text by another leaves every
other character where it is, so a replaced text can be cut at such a character like the text before.
-/

namespace FilterSql.Text

/-! ## Blanks and digits -/

/-- The code points of the blanks. -/
def blankCodes : List Nat :=
  [0x09, 0x0A, 0x0B, 0x0C, 0x0D, 0x20, 0x85, 0xA0, 0x1680, 0x2000, 0x2001, 0x2002, 0x2003, 0x2004,
    0x2005, 0x2006, 0x2007, 0x2008, 0x2009, 0x200A, 0x2028, 0x2029, 0x202F, 0x205F, 0x3000]

theorem toNat_mem_blankCodes {c : Char} (h : isBlank c = true) : c.toNat ∈ blankCodes := by
  simp only [isBlank, Bool.or_eq_true, Bool.and_eq_true, beq_iff_eq, decide_eq_true_eq] at h
  simp only [blankCodes, List.mem_cons, List.not_mem_nil, or_false]
  omega

/-- What holds of the blanks one by one holds of every blank. -/
theorem forall_isBlank {P : Char → Prop} (h : ∀ n ∈ blankCodes, P (Char.ofNat n)) {c : Char}
    (blank : isBlank c = true) : P c := by
  have code := h c.toNat (toNat_mem_blankCodes blank)
  rwa [Char.ofNat_toNat] at code

theorem isBlank_of_mem_space : ∀ c ∈ " ".toList, isBlank c = true :=
  List.forall_mem_singleton.2 rfl

/-- What holds of the digits one by one holds of every digit. -/
theorem forall_isDigit {P : Char → Prop} (h : ∀ n < 10, P (Char.ofNat (48 + n))) {c : Char}
    (digit : c.isDigit = true) : P c := by
  simp only [Char.isDigit, Bool.and_eq_true, decide_eq_true_eq, UInt32.le_iff_toNat_le,
    ge_iff_le] at digit
  have low : 48 ≤ c.toNat := digit.1
  have high : c.toNat ≤ 57 := digit.2
  have code := h (c.toNat - 48) (by omega)
  rwa [Nat.add_sub_cancel' low, Char.ofNat_toNat] at code

/-! ## Runs -/

section Runs

variable {α : Type} {p : α → Bool} {xs ys : List α}

theorem takeWhile_append_eq_left (all : ∀ x ∈ xs, p x = true) (stop : ∀ y ∈ ys.head?, p y = false) :
    (xs ++ ys).takeWhile p = xs := by
  rw [List.takeWhile_append_of_pos all]
  cases ys with
  | nil => simp
  | cons y ys => simp [stop y rfl]

theorem dropWhile_append_eq_right (all : ∀ x ∈ xs, p x = true)
    (stop : ∀ y ∈ ys.head?, p y = false) : (xs ++ ys).dropWhile p = ys := by
  rw [List.dropWhile_append_of_pos all]
  cases ys with
  | nil => rfl
  | cons y ys => simp [stop y rfl]

theorem stop_of_dropWhile : ∀ x ∈ (xs.dropWhile p).head?, p x = false := by
  intro x head
  have not := List.head?_dropWhile_not p xs
  rwa [Option.mem_def.1 head] at not

/-- A list starts with a run of members of a class that goes on as far as it can. -/
theorem exists_takeWhile (p : α → Bool) (xs : List α) :
    ∃ run rest, xs = run ++ rest ∧ (∀ x ∈ run, p x = true) ∧ ∀ y ∈ rest.head?, p y = false :=
  ⟨xs.takeWhile p, xs.dropWhile p, List.takeWhile_append_dropWhile.symm,
    fun x member => List.all_eq_true.1 List.all_takeWhile x member, stop_of_dropWhile⟩

end Runs

/-- Trimming takes blanks off both ends. -/
theorem exists_blanks_around (cs : List Char) :
    ∃ before after, cs = before ++ (dropBlanksEnd (dropBlanks cs) ++ after) ∧
      (∀ c ∈ before, isBlank c = true) ∧ ∀ c ∈ after, isBlank c = true := by
  have all : ∀ (xs : List Char), ∀ c ∈ xs.takeWhile isBlank, isBlank c = true :=
    fun xs c member => List.all_eq_true.1 List.all_takeWhile c member
  have front : cs = cs.takeWhile isBlank ++ dropBlanks cs := List.takeWhile_append_dropWhile.symm
  have back : dropBlanks cs = dropBlanksEnd (dropBlanks cs) ++
      ((dropBlanks cs).reverse.takeWhile isBlank).reverse := by
    rw [dropBlanksEnd, ← List.reverse_append, List.takeWhile_append_dropWhile, List.reverse_reverse]
  refine ⟨cs.takeWhile isBlank, ((dropBlanks cs).reverse.takeWhile isBlank).reverse, ?_, all cs, ?_⟩
  · rw [← back]
    exact front
  · intro c member
    exact all _ c (List.mem_reverse.1 member)

theorem trim_eq_self {text : String} (first : ∀ c ∈ text.toList.head?, isBlank c = false)
    (last : ∀ c ∈ text.toList.getLast?, isBlank c = false) : trim text = text := by
  have front : dropBlanks text.toList = text.toList := by
    have run : ([] ++ text.toList).dropWhile isBlank = text.toList :=
      dropWhile_append_eq_right nofun first
    simpa [dropBlanks] using run
  have back : text.toList.reverse.dropWhile isBlank = text.toList.reverse := by
    have stop : ∀ c ∈ text.toList.reverse.head?, isBlank c = false := by simpa using last
    have run : ([] ++ text.toList.reverse).dropWhile isBlank = text.toList.reverse :=
      dropWhile_append_eq_right nofun stop
    simpa using run
  rw [trim, front, dropBlanksEnd, back, List.reverse_reverse, String.ofList_toList]

theorem isBlank_head?_trim (s : String) : ∀ c ∈ (trim s).toList.head?, isBlank c = false := by
  intro c head
  have parts : dropBlanks s.toList = dropBlanksEnd (dropBlanks s.toList) ++
      ((dropBlanks s.toList).reverse.takeWhile isBlank).reverse := by
    rw [dropBlanksEnd, ← List.reverse_append, List.takeWhile_append_dropWhile, List.reverse_reverse]
  have first : c ∈ (dropBlanks s.toList).head? := by
    rw [trim, String.toList_ofList] at head
    rw [parts, List.head?_append, Option.mem_def.1 head]
    rfl
  exact stop_of_dropWhile c first

theorem trim_trim (s : String) : trim (trim s) = trim s := by
  refine trim_eq_self (isBlank_head?_trim s) fun c last => ?_
  rw [trim, String.toList_ofList, dropBlanksEnd, List.getLast?_reverse] at last
  exact stop_of_dropWhile c last

theorem dropName?_eq_some {name cs rest : List Char} (h : dropName? name cs = some rest) :
    ∃ before, cs = before ++ rest ∧ before.map Char.toLower = name.map Char.toLower := by
  induction name generalizing cs with
  | nil =>
    cases h
    exact ⟨[], rfl, rfl⟩
  | cons d name ih =>
    cases cs with
    | nil => cases h
    | cons c cs =>
      simp only [dropName?] at h
      split at h
      · next same =>
        obtain ⟨before, rfl, eq⟩ := ih h
        have same : d.toLower = c.toLower := by simpa using same
        exact ⟨c :: before, rfl, by simp [same, eq]⟩
      · cases h

/-! ## Replaced texts -/

section Replaced

variable {old new : List Char}

theorem replaceFrom_eq_drop (skip : Nat) (cs : List Char) :
    replaceFrom old new skip cs = replaceFrom old new 0 (cs.drop skip) := by
  induction cs generalizing skip with
  | nil => simp [replaceFrom]
  | cons c cs ih =>
    cases skip with
    | zero => rfl
    | succ skip => simpa [replaceFrom] using ih skip

theorem replaceFrom_old_append (nonempty : old ≠ []) (cs : List Char) :
    replaceFrom old new 0 (old ++ cs) = new ++ replaceFrom old new 0 cs := by
  obtain ⟨c, tail, rfl⟩ := List.exists_cons_of_ne_nil nonempty
  have first : (c :: tail).isPrefixOf (c :: (tail ++ cs)) = true := by
    simp [List.isPrefixOf_iff_prefix]
  rw [List.cons_append, replaceFrom, if_pos first, replaceFrom_eq_drop]
  simp

theorem replaceFrom_cons {c : Char} {cs : List Char} (other : ¬old <+: c :: cs) :
    replaceFrom old new 0 (c :: cs) = c :: replaceFrom old new 0 cs := by
  rw [replaceFrom, if_neg (by simpa [List.isPrefixOf_iff_prefix] using other)]

/-- Induction along the replacement of a text: it starts with the old text, or with a character that
is kept. -/
theorem replace_induction (nonempty : old ≠ []) {P : List Char → Prop} (nil : P [])
    (occurrence : ∀ rest, P rest → P (old ++ rest))
    (other : ∀ c rest, ¬old <+: c :: rest → P rest → P (c :: rest)) (cs : List Char) : P cs := by
  induction length : cs.length using Nat.strongRecOn generalizing cs with
  | ind n ih =>
    cases cs with
    | nil => exact nil
    | cons c rest =>
      by_cases first : old <+: c :: rest
      · obtain ⟨rest', eq⟩ := first
        have shorter : rest'.length < n := by
          have total := congrArg List.length eq
          have positive := List.length_pos_iff.2 nonempty
          simp only [List.length_append] at total
          omega
        rw [← eq]
        exact occurrence rest' (ih _ shorter rest' rfl)
      · exact other c rest first (ih rest.length (by simp [← length]) rest rfl)

theorem prefix_of_prefix_append_cons {xs ys : List Char} {d : Char} (notMem : d ∉ old)
    (h : old <+: xs ++ d :: ys) : old <+: xs := by
  by_cases length : old.length ≤ xs.length
  · exact List.prefix_of_prefix_length_le h (List.prefix_append xs _) length
  · have whole : xs ++ [d] <+: xs ++ d :: ys := ⟨ys, by simp⟩
    have longer : xs ++ [d] <+: old :=
      List.prefix_of_prefix_length_le whole h (by simp; omega)
    exact absurd (longer.subset (by simp)) notMem

/-- A character that the old text does not have is kept. -/
theorem replaceFrom_append_cons (nonempty : old ≠ []) {d : Char} (notMem : d ∉ old)
    (xs ys : List Char) :
    replaceFrom old new 0 (xs ++ d :: ys) =
      replaceFrom old new 0 xs ++ d :: replaceFrom old new 0 ys := by
  induction xs using replace_induction nonempty with
  | nil =>
    have other : ¬old <+: [] ++ d :: ys := fun first =>
      nonempty (List.prefix_nil.1 (prefix_of_prefix_append_cons notMem first))
    exact replaceFrom_cons other
  | occurrence rest ih =>
    rw [List.append_assoc, replaceFrom_old_append nonempty, replaceFrom_old_append nonempty, ih,
      List.append_assoc]
  | other c rest first ih =>
    have first' : ¬old <+: c :: (rest ++ d :: ys) := fun h =>
      first (prefix_of_prefix_append_cons notMem h)
    rw [List.cons_append, replaceFrom_cons first', replaceFrom_cons first, ih, List.cons_append]

/-- A character that the new text does not have stood in the text before. -/
theorem exists_of_replaceFrom_eq (nonempty : old ≠ []) {d : Char} (notMem : d ∉ new)
    {cs xs ys : List Char} (h : replaceFrom old new 0 cs = xs ++ d :: ys) :
    ∃ xs' ys', cs = xs' ++ d :: ys' ∧ replaceFrom old new 0 xs' = xs ∧
      replaceFrom old new 0 ys' = ys := by
  induction cs using replace_induction nonempty generalizing xs with
  | nil => simp [replaceFrom] at h
  | occurrence rest ih =>
    rw [replaceFrom_old_append nonempty] at h
    obtain ⟨after, rfl, eq⟩ : ∃ after, xs = new ++ after ∧ replaceFrom old new 0 rest =
        after ++ d :: ys := by
      rcases List.append_eq_append_iff.1 h with ⟨after, rfl, eq⟩ | ⟨after, rfl, eq⟩
      · exact ⟨after, rfl, eq⟩
      · cases after with
        | nil => exact ⟨[], by simp, by simpa using eq.symm⟩
        | cons c after =>
          obtain ⟨rfl, -⟩ := List.cons.inj eq
          exact absurd (by simp) notMem
    obtain ⟨xs', ys', rfl, rfl, rfl⟩ := ih eq
    exact ⟨old ++ xs', ys', by simp, replaceFrom_old_append nonempty xs', rfl⟩
  | other c rest first ih =>
    rw [replaceFrom_cons first] at h
    cases xs with
    | nil =>
      obtain ⟨rfl, rfl⟩ := List.cons.inj h
      exact ⟨[], rest, rfl, rfl, rfl⟩
    | cons c' xs =>
      obtain ⟨rfl, eq⟩ := List.cons.inj h
      obtain ⟨xs', ys', rfl, rfl, rfl⟩ := ih eq
      refine ⟨c :: xs', ys', rfl, replaceFrom_cons fun within => first ?_, rfl⟩
      exact within.trans (List.prefix_append (c :: xs') (d :: ys'))

/-- A text is kept as it is, or the new text stands somewhere in it. -/
theorem replaceFrom_eq_self_or_infix (nonempty : old ≠ []) (cs : List Char) :
    (replaceFrom old new 0 cs = cs ∧ ¬old <:+: cs) ∨
      (old <:+: cs ∧ new <:+: replaceFrom old new 0 cs) := by
  induction cs using replace_induction nonempty with
  | nil => exact .inl ⟨rfl, fun within => nonempty (List.infix_nil.1 within)⟩
  | occurrence rest _ =>
    rw [replaceFrom_old_append nonempty]
    exact .inr ⟨(List.prefix_append old rest).isInfix, (List.prefix_append new _).isInfix⟩
  | other c rest first ih =>
    rw [replaceFrom_cons first]
    rcases ih with ⟨same, absent⟩ | ⟨within, within'⟩
    · refine .inl ⟨by rw [same], fun within => ?_⟩
      rcases List.infix_cons_iff.1 within with start | later
      · exact first start
      · exact absent later
    · exact .inr ⟨within.trans (List.suffix_cons c rest).isInfix,
        within'.trans (List.suffix_cons c _).isInfix⟩

end Replaced

end FilterSql.Text
