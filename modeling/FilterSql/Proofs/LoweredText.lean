import FilterSql.Proofs.Literals

/-!
# Lower-casing the names in a text

Lower-casing goes through a text from left to right. Quoted texts and the marks between tokens stay as
they are, and so does a name that no parenthesis follows. A name may start in the middle of a number,
and then it may go on beyond the end of that number; everywhere else names end where tokens end.

What is changed is described by a relation that does not tell which of the two texts was lower-cased,
so that what is shown for one of them holds for the other one too.

## Main statements

* `lowerCalls_run`: a run of characters is lower-cased by itself, if no name goes on after it.
* `recased_lowerCalls`: lower-casing changes the case of letters in names before a parenthesis only.
-/

namespace FilterSql.Filter

open Text

variable {known : List String}

/-! ## One step -/

@[simp] theorem lowerCalls_nil (quoted : Bool) : lowerCalls known quoted [] = [] := by
  rw [lowerCalls]

theorem lowerCalls_cons {c : Char} (notQuote : c ≠ '\'') (notName : startsName c = false)
    (rest : List Char) : lowerCalls known false (c :: rest) = c :: lowerCalls known false rest := by
  rw [lowerCalls]
  simp [notQuote, notName]

theorem isNameChar_of_startsName {c : Char} (h : startsName c = true) : isNameChar c = true := by
  simp only [startsName, isNameChar, isLetterOrNumber, Bool.or_eq_true] at h ⊢
  exact h.imp_left .inl

/-- The name as it is written in front of `after`. -/
def loweredName (known : List String) (after : List Char) (name : String) : String :=
  if opensCall after && known.any (sameName · name) then toLower name else name

theorem lowerCalls_name {c : Char} {name after : List Char} (starts : startsName c = true)
    (nameChars : ∀ d ∈ name, isNameChar d = true) (stop : ∀ d ∈ after.head?, isNameChar d = false) :
    lowerCalls known false (c :: (name ++ after)) =
      (loweredName known after (String.ofList (c :: name))).toList ++
        lowerCalls known false after := by
  have notQuote : c ≠ '\'' := by
    rintro rfl
    exact absurd starts (by decide)
  rw [lowerCalls]
  simp [notQuote, starts, takeWhile_append_eq_left nameChars stop,
    dropWhile_append_eq_right nameChars stop, loweredName]

theorem loweredName_of_not_opensCall {after : List Char} (plain : opensCall after = false)
    (name : String) : loweredName known after name = name := by
  simp [loweredName, plain]

theorem sameName_loweredName (ascii : ∀ name ∈ known, isAscii name = true) (after : List Char)
    (name : String) : sameName name (loweredName known after name) = true := by
  unfold loweredName
  split
  · next isCall =>
    obtain ⟨other, member, same⟩ := List.any_eq_true.1 (Bool.and_eq_true_iff.1 isCall).2
    rw [toLower_eq_foldCase (isAscii_of_sameName same (ascii other member))]
    exact sameName_foldCase name
  · exact sameName_refl name

theorem lowerCalls_append {cs : List Char} (others : ∀ c ∈ cs, c ≠ '\'' ∧ startsName c = false)
    (rest : List Char) :
    lowerCalls known false (cs ++ rest) = cs ++ lowerCalls known false rest := by
  induction cs with
  | nil => rfl
  | cons c cs ih =>
    obtain ⟨⟨notQuote, notName⟩, others⟩ := List.forall_mem_cons.1 others
    rw [List.cons_append, lowerCalls_cons notQuote notName, ih others, List.cons_append]

theorem lowerCalls_blanks {gap : List Char} (blank : ∀ c ∈ gap, isBlank c = true)
    (rest : List Char) :
    lowerCalls known false (gap ++ rest) = gap ++ lowerCalls known false rest := by
  refine lowerCalls_append (fun c member => ⟨?_, ?_⟩) rest
  · exact forall_isBlank (P := (· ≠ '\'')) (by decide +kernel) (blank c member)
  · exact isWordStart_of_isBlank (blank c member)

theorem lowerCalls_open (rest : List Char) :
    lowerCalls known false ('\'' :: rest) = '\'' :: lowerCalls known true rest := by
  rw [lowerCalls]
  simp

theorem lowerCalls_quoted (s : List Char) {rest : List Char} (stop : ∀ d ∈ rest.head?, d ≠ '\'') :
    lowerCalls known true (doubled s ++ '\'' :: rest) =
      doubled s ++ '\'' :: lowerCalls known false rest := by
  induction s with
  | nil =>
    have single : rest.head? ≠ some '\'' := fun head => stop '\'' head rfl
    rw [doubled, List.nil_append, lowerCalls]
    simp [single]
  | cons c s ih =>
    by_cases isQuote : c = '\''
    · subst isQuote
      rw [doubled, if_pos rfl, List.cons_append, List.cons_append, lowerCalls]
      simp [ih]
    · rw [doubled, if_neg isQuote, List.cons_append, lowerCalls]
      simp [isQuote, ih]

theorem lowerCalls_literal (known : List String) (s : List Char) {rest : List Char}
    (stop : ∀ d ∈ rest.head?, d ≠ '\'') :
    lowerCalls known false ('\'' :: (doubled s ++ '\'' :: rest)) =
      '\'' :: (doubled s ++ '\'' :: lowerCalls known false rest) := by
  rw [lowerCalls_open, lowerCalls_quoted s stop]

theorem lowerCalls_unclosed {cs : List Char} (h : quotedLength? cs = none) :
    lowerCalls known true cs = cs := by
  fun_induction quotedLength? cs with
  | case1 => exact lowerCalls_nil true
  | case2 => cases h
  | case3 c notQuote =>
    rw [lowerCalls]
    simp_all
  | case4 c d cs quote quote' ih =>
    rw [lowerCalls]
    simp_all
  | case5 => cases h
  | case6 c d cs notQuote ih =>
    rw [lowerCalls]
    simp_all

/-! ## Runs of characters -/

theorem opensCall_cons {c : Char} (ends : endsToken c = false) (cs : List Char) :
    opensCall (c :: cs) = false := by
  simp only [endsToken, Bool.or_eq_false_iff] at ends
  simp [opensCall, dropBlanks, List.dropWhile, ends]

/-- A run without blanks, parentheses and quotes is lower-cased by itself, if no name goes on after
it. It stays as it is if no parenthesis follows. -/
theorem lowerCalls_run (known : List String) {run rest : List Char}
    (inside : ∀ c ∈ run, endsToken c = false ∧ c ≠ '\'')
    (stop : ∀ d ∈ rest.head?, isNameChar d = false) :
    ∃ run', lowerCalls known false (run ++ rest) = run' ++ lowerCalls known false rest ∧
      (opensCall rest = false → run' = run) ∧
      ((∀ name ∈ known, isAscii name = true) →
        run'.map Char.toLower = run.map Char.toLower) := by
  induction length : run.length using Nat.strongRecOn generalizing run with
  | ind n ih =>
    cases run with
    | nil => exact ⟨[], rfl, fun _ => rfl, fun _ => rfl⟩
    | cons c run =>
      obtain ⟨⟨-, notQuote⟩, inside'⟩ := List.forall_mem_cons.1 inside
      cases starts : startsName c with
      | false =>
        obtain ⟨run', eq, kept, same⟩ := ih run.length (by simp [← length]) inside' rfl
        refine ⟨c :: run', ?_, fun plain => by rw [kept plain], fun ascii => by simp [same ascii]⟩
        rw [List.cons_append, lowerCalls_cons notQuote starts, eq, List.cons_append]
      | true =>
        obtain ⟨name, after, rfl, nameChars, nameEnds⟩ := exists_takeWhile isNameChar run
        have inside'' : ∀ d ∈ after, endsToken d = false ∧ d ≠ '\'' :=
          fun d member => inside' d (List.mem_append_right name member)
        -- the name ends within the run, before a mark that opens no call, or where the run ends
        have ends : (∀ d ∈ (after ++ rest).head?, isNameChar d = false) ∧
            (opensCall rest = false → opensCall (after ++ rest) = false) := by
          cases after with
          | nil => exact ⟨stop, id⟩
          | cons d after => exact ⟨nameEnds, fun _ => opensCall_cons (inside'' d (by simp)).1 _⟩
        have shorter : after.length < n := by
          rw [← length, List.length_cons, List.length_append]
          omega
        obtain ⟨after', eq, kept, same⟩ := ih after.length shorter inside'' rfl
        have lowered : lowerCalls known false (c :: (name ++ (after ++ rest))) = _ :=
          lowerCalls_name starts nameChars ends.1
        refine ⟨(loweredName known (after ++ rest) (String.ofList (c :: name))).toList ++ after',
          ?_, fun plain => ?_, fun ascii => ?_⟩
        · rw [List.cons_append, List.append_assoc, lowered, eq, List.append_assoc]
        · rw [loweredName_of_not_opensCall (ends.2 plain), kept plain, String.toList_ofList,
            List.cons_append]
        · have sameName := sameName_loweredName ascii (after ++ rest) (String.ofList (c :: name))
          rw [sameName_iff, String.toList_ofList] at sameName
          rw [List.map_append, ← sameName, same ascii, ← List.map_append, List.cons_append]

theorem lowerCalls_run_of_not_opensCall {run rest : List Char}
    (inside : ∀ c ∈ run, endsToken c = false ∧ c ≠ '\'')
    (stop : ∀ d ∈ rest.head?, isNameChar d = false) (plain : opensCall rest = false) :
    lowerCalls known false (run ++ rest) = run ++ lowerCalls known false rest := by
  obtain ⟨run', eq, kept, -⟩ := lowerCalls_run known inside stop
  rw [eq, kept plain]

/-! ## Texts with names in another case -/

/-- The second text is the first one with the case of letters changed, in names before a parenthesis
only. The names start anywhere outside quotes. -/
inductive Recased : List Char → List Char → Prop
  | nil : Recased [] []
  | keep {c : Char} {cs cs' : List Char} : c ≠ '\'' → Recased cs cs' → Recased (c :: cs) (c :: cs')
  | change {c c' : Char} {cs cs' : List Char} : c.toLower = c'.toLower → isNameChar c = true →
    opensCall (cs.dropWhile isNameChar) = true → Recased cs cs' → Recased (c :: cs) (c' :: cs')
  | quoted (s : List Char) {rest rest' : List Char} : (∀ d ∈ rest.head?, d ≠ '\'') →
    Recased rest rest' →
    Recased ('\'' :: (doubled s ++ '\'' :: rest)) ('\'' :: (doubled s ++ '\'' :: rest'))
  | unclosed {cs : List Char} : quotedLength? cs = none → Recased ('\'' :: cs) ('\'' :: cs)

theorem Recased.map_toLower {cs cs' : List Char} (h : Recased cs cs') :
    cs.map Char.toLower = cs'.map Char.toLower := by
  induction h with
  | nil => rfl
  | keep _ _ ih => rw [List.map_cons, List.map_cons, ih]
  | change same _ _ _ ih => rw [List.map_cons, List.map_cons, ih, same]
  | quoted s _ _ ih => simp [ih]
  | unclosed _ => rfl

theorem opensCall_dropWhile_congr {cs cs' : List Char}
    (same : cs.map Char.toLower = cs'.map Char.toLower) :
    opensCall (cs.dropWhile isNameChar) = opensCall (cs'.dropWhile isNameChar) := by
  have folded (cs : List Char) : opensCall ((cs.map Char.toLower).dropWhile isNameChar) =
      opensCall (cs.dropWhile isNameChar) := by
    rw [dropWhile_map_toLower ignoresCase_isNameChar, opensCall, dropBlanks,
      dropWhile_map_toLower ignoresCase_isBlank, List.head?_map,
      map_toLower_beq_some (ignoresCase_of_capitals (by decide))]
    rfl
  rw [← folded cs, same, folded cs']

theorem Recased.symm {cs cs' : List Char} (h : Recased cs cs') : Recased cs' cs := by
  have quote : IgnoresCase (· == '\'') := ignoresCase_of_capitals (by decide)
  induction h with
  | nil => exact .nil
  | keep notQuote _ ih => exact .keep notQuote ih
  | @change c c' cs cs' same isName opens h ih =>
    refine .change same.symm ?_ ?_ ih
    · rw [← ignoresCase_isNameChar, ← same, ignoresCase_isNameChar, isName]
    · rw [← opensCall_dropWhile_congr h.map_toLower, opens]
  | @quoted s rest rest' stop h ih =>
    refine .quoted s (fun d head => ?_) ih
    have other := head?_map_toLower quote h.map_toLower (by simpa using stop) d head
    simpa using other
  | unclosed open' => exact .unclosed open'

/-- A name may change its case as a whole, if a parenthesis follows. -/
theorem Recased.name {name name' after after' : List Char}
    (nameChars : ∀ c ∈ name, isNameChar c = true) (stop : ∀ d ∈ after.head?, isNameChar d = false)
    (same : name.map Char.toLower = name'.map Char.toLower)
    (calls : name' ≠ name → opensCall after = true) (h : Recased after after') :
    Recased (name ++ after) (name' ++ after') := by
  by_cases eq : name' = name
  · subst eq
    clear same calls
    induction name' with
    | nil => exact h
    | cons c name ih =>
      obtain ⟨nameChar, nameChars⟩ := List.forall_mem_cons.1 nameChars
      refine .keep ?_ (ih nameChars)
      rintro rfl
      exact absurd nameChar (by decide)
  · have opens := calls eq
    clear calls eq
    induction name generalizing name' with
    | nil =>
      obtain rfl : name' = [] := by simpa using same.symm
      exact h
    | cons c name ih =>
      cases name' with
      | nil => simp at same
      | cons c' name' =>
        obtain ⟨nameChar, nameChars⟩ := List.forall_mem_cons.1 nameChars
        simp only [List.map_cons, List.cons.injEq] at same
        have opens' : opensCall ((name ++ after).dropWhile isNameChar) = true := by
          rw [dropWhile_append_eq_right nameChars stop, opens]
        exact .change same.1 nameChar opens' (ih nameChars same.2)

theorem recased_lowerCalls (ascii : ∀ name ∈ known, isAscii name = true) (cs : List Char) :
    Recased cs (lowerCalls known false cs) := by
  induction length : cs.length using Nat.strongRecOn generalizing cs with
  | ind n ih =>
    cases cs with
    | nil =>
      rw [lowerCalls_nil]
      exact .nil
    | cons c cs =>
      by_cases isQuote : c = '\''
      · subst isQuote
        cases closed : quotedLength? cs with
        | none =>
          rw [lowerCalls_open, lowerCalls_unclosed closed]
          exact .unclosed closed
        | some m =>
          obtain ⟨s, rest, rfl, -, stop⟩ := exists_doubled_of_quotedLength? closed
          rw [lowerCalls_literal known s stop]
          have shorter : rest.length < n := by
            rw [← length, List.length_cons, List.length_append, List.length_cons]
            omega
          exact .quoted s stop (ih rest.length shorter rest rfl)
      · cases starts : startsName c with
        | false =>
          rw [lowerCalls_cons isQuote starts]
          exact .keep isQuote (ih cs.length (by simp [← length]) cs rfl)
        | true =>
          obtain ⟨name, after, rfl, nameChars, nameEnds⟩ := exists_takeWhile isNameChar cs
          have nameChars' : ∀ d ∈ c :: name, isNameChar d = true :=
            List.forall_mem_cons.2 ⟨isNameChar_of_startsName starts, nameChars⟩
          have same := sameName_loweredName ascii after (String.ofList (c :: name))
          rw [sameName_iff, String.toList_ofList] at same
          rw [lowerCalls_name starts nameChars nameEnds, ← List.cons_append]
          have shorter : after.length < n := by
            rw [← length, List.length_cons, List.length_append]
            omega
          refine .name nameChars' nameEnds same (fun changed => ?_)
            (ih after.length shorter after rfl)
          rw [← Bool.not_eq_false]
          intro plain
          rw [loweredName_of_not_opensCall plain, String.toList_ofList] at changed
          exact changed rfl

end FilterSql.Filter
