import FilterSql.Proofs.InStep
import FilterSql.Proofs.Lexing

/-!
# Where tokens stand

A scan that keeps the blanks in front of each token says as much as one that counts bytes: each token
stands where the bytes before it end. So a filter may be read from its tokens with their gaps, and
where the text of a call is cut out of the filter, its tokens can be written one after the other.

## Main statements

* `tokenize_eq`: tokens with gaps, placed in the text.
* `Span.holds_placedFrom`: a run of tokens is cut out of the text by the places of its first and last
  tokens.
* `Expr.parse_eq`: a filter is read from its tokens with gaps.
-/

namespace FilterSql.Filter

open Text

/-! ## Counting bytes -/

theorem utf8ByteSize_ofList_cons (c : Char) (cs : List Char) :
    (String.ofList (c :: cs)).utf8ByteSize = c.utf8Size + (String.ofList cs).utf8ByteSize := by
  rw [String.ofList_cons, String.utf8ByteSize_append, String.utf8ByteSize_singleton]

namespace Cursor

theorem skipBlanks_eq (offset : Nat) (cs : List Char) :
    skipBlanks offset cs =
      ⟨offset + (String.ofList (cs.takeWhile isBlank)).utf8ByteSize, cs.dropWhile isBlank⟩ := by
  induction cs generalizing offset with
  | nil => rfl
  | cons c cs ih =>
    rw [skipBlanks]
    split
    · next blank =>
      rw [ih, List.takeWhile_cons_of_pos blank, List.dropWhile_cons_of_pos blank,
        utf8ByteSize_ofList_cons, Nat.add_assoc]
    · next notBlank =>
      rw [List.takeWhile_cons_of_neg notBlank, List.dropWhile_cons_of_neg notBlank]
      rfl

theorem skipBlanks_append {gap cs : List Char} (offset : Nat) (blank : ∀ d ∈ gap, isBlank d = true)
    (stop : ∀ d ∈ cs.head?, isBlank d = false) :
    skipBlanks offset (gap ++ cs) = ⟨offset + (String.ofList gap).utf8ByteSize, cs⟩ := by
  rw [skipBlanks_eq, takeWhile_append_eq_left blank stop, dropWhile_append_eq_right blank stop]

theorem bumps_eq (offset n : Nat) (cs : List Char) :
    bumps ⟨offset, cs⟩ n = ⟨offset + (String.ofList (cs.take n)).utf8ByteSize, cs.drop n⟩ := by
  induction n generalizing offset cs with
  | zero => rfl
  | succ n ih =>
    cases cs with
    | nil => simpa [bumps, bump] using ih offset []
    | cons c cs =>
      rw [bumps, bump, ih, List.take_succ_cons, utf8ByteSize_ofList_cons, Nat.add_assoc,
        List.drop_succ_cons]

end Cursor

/-! ## Cutting out of a text -/

theorem pos?_eq_some_iff {text : String} {offset : String.Pos.Raw} {p : text.Pos} :
    text.pos? offset = some p ↔ p.offset = offset := by
  unfold String.pos? String.Slice.pos?
  constructor
  · intro h
    split at h
    · cases h
      rfl
    · cases h
  · rintro rfl
    have valid : String.Pos.Raw.isValidForSlice text.toSlice p.offset = true :=
      String.Pos.Raw.isValidForSlice_eq_true_iff.2 p.toSlice.isValidForSlice
    rw [dif_pos valid]
    rfl

/-- The span lies in the text, both its ends stand between characters, and the part is what it
cuts out. -/
def Span.Holds {text : String} (span : Span text) (part : String) : Prop :=
  ∃ first last : text.Pos, first.offset.byteIdx = span.start ∧ last.offset.byteIdx = span.stop ∧
    first ≤ last ∧ text.extract first last = part

theorem Span.Holds.cut_eq {text part : String} {span : Span text} (h : span.Holds part) :
    span.cut = part := by
  obtain ⟨first, last, start, stop, le, rfl⟩ := h
  have found : text.pos? ⟨span.start⟩ = some first := pos?_eq_some_iff.2 (by rw [← start])
  have found' : text.pos? ⟨span.stop⟩ = some last := pos?_eq_some_iff.2 (by rw [← stop])
  simp [cut, part?, found, found', le]

theorem Span.holds_of_eq_append {text before part after : String}
    (h : text = before ++ part ++ after) :
    Holds (⟨before.utf8ByteSize, (before ++ part).utf8ByteSize⟩ : Span text) part := by
  have first := String.Pos.splits_ofEqAppend (h.trans (String.append_assoc ..))
  have last := String.Pos.splits_ofEqAppend h
  obtain ⟨le, eq⟩ := String.copy_slice_eq_iff_splits.2 ⟨before, after, first, last⟩
  refine ⟨_, _, ?_, ?_, le, (String.extract_eq_copy_slice _ _ le).trans eq⟩
  · rw [first.offset_eq_rawEndPos]
    rfl
  · rw [last.offset_eq_rawEndPos]
    rfl

/-! ## The scan -/

/-- The places of tokens in a text, where the gap of the first one starts at the offset. -/
def placedFrom (text : String) (offset : Nat) : List (Token Gap) → List (Token (Span text))
  | [] => []
  | t :: ts =>
    let start := offset + t.place.utf8ByteSize
    let stop := start + t.text.utf8ByteSize
    ⟨⟨start, stop⟩, t.kind, t.text⟩ :: placedFrom text stop ts

/-- The token without its place. -/
def Token.lexeme {π : Type} (t : Token π) : TokenKind × String := (t.kind, t.text)

@[simp]
theorem map_lexeme_placedFrom (text : String) (offset : Nat) (ts : List (Token Gap)) :
    (placedFrom text offset ts).map Token.lexeme = ts.map Token.lexeme := by
  induction ts generalizing offset with
  | nil => rfl
  | cons t ts ih => simp [placedFrom, Token.lexeme, ih]

theorem exists_mem_of_mem_placedFrom {text : String} {offset : Nat} {ts : List (Token Gap)}
    {t : Token (Span text)} (h : t ∈ placedFrom text offset ts) :
    ∃ u ∈ ts, u.kind = t.kind ∧ u.text = t.text := by
  have member := List.mem_map_of_mem (f := Token.lexeme) h
  rw [map_lexeme_placedFrom] at member
  obtain ⟨u, member, same⟩ := List.mem_map.1 member
  exact ⟨u, member, Prod.mk.inj same⟩

/-- The tokens after the blanks at a point in a text. -/
theorem scan_of_skipBlanks {text : String} {k start : Cursor}
    (h : Cursor.skipBlanks k.offset k.rest = start) :
    scan text k = match start.rest with
      | [] => .ok []
      | c :: rest => (tokenAt c rest).bind fun (kind, n) =>
        let span : Span text := ⟨start.offset, (start.bumps (n + 1)).offset⟩
        (scan text (start.bumps (n + 1))).map (⟨span, kind, span.cut⟩ :: ·) := by
  rw [scan, h]
  split
  · next eq => rw [eq]
  · next c rest eq =>
    simp only [eq]
    rcases tokenAt c rest with e | ⟨kind, n⟩
    · rfl
    · dsimp only [Except.bind]
      cases scan text (start.bumps (n + 1)) <;> rfl

/-- The byte count of the scan is the size of what it has read, so the places are right. -/
theorem scan_eq {text before : String} {cs : List Char} (h : text = before ++ String.ofList cs) :
    scan text ⟨before.utf8ByteSize, cs⟩ =
      (spacedScan cs).map fun r => placedFrom text before.utf8ByteSize r.1 := by
  induction cs using token_induction generalizing before with
  | done gap blank =>
    have start : Cursor.skipBlanks before.utf8ByteSize (gap ++ []) = _ :=
      Cursor.skipBlanks_append _ blank nofun
    rw [List.append_nil] at start
    rw [scan_of_skipBlanks start, spacedScan_blank blank]
    rfl
  | stray gap c cs e blank notBlank read =>
    have start : Cursor.skipBlanks before.utf8ByteSize (gap ++ c :: cs) = _ :=
      Cursor.skipBlanks_append _ blank (by simpa using notBlank)
    rw [scan_of_skipBlanks start, spacedScan_error blank notBlank read]
    dsimp only
    rw [read]
    rfl
  | token gap c tail rest kind blank notBlank read ih =>
    have start : Cursor.skipBlanks before.utf8ByteSize (gap ++ c :: (tail ++ rest)) = _ :=
      Cursor.skipBlanks_append _ blank (by simpa using notBlank)
    have parts : text = before ++ String.ofList gap ++ String.ofList (c :: tail) ++
        String.ofList rest := by
      simp [h, ← String.toList_inj]
    have cut := (Span.holds_of_eq_append parts).cut_eq
    have following := ih parts
    simp only [String.utf8ByteSize_append] at cut following
    rw [scan_of_skipBlanks start, spacedScan_token blank notBlank read]
    simp only [read, Except.bind, Cursor.bumps_eq, List.take_succ_cons, List.drop_succ_cons,
      List.take_left, List.drop_left, cut, following]
    cases spacedScan rest <;> rfl

theorem tokenize_eq (text : String) :
    tokenize text = (spacedTokens text).map (placedFrom text 0) := by
  have scanned : scan text ⟨"".utf8ByteSize, text.toList⟩ = _ := scan_eq (by simp)
  rw [tokenize, spacedTokens]
  refine scanned.trans ?_
  cases spacedScan text.toList <;> rfl

theorem tokenize_eq_ok_iff {text : String} {ts : List (Token (Span text))} :
    tokenize text = .ok ts ↔ ∃ us, spacedTokens text = .ok us ∧ placedFrom text 0 us = ts := by
  rw [tokenize_eq]
  cases spacedTokens text <;> simp [Except.map]

/-! ## Runs of tokens in a text -/

section Runs

variable {text before after : String} {t : Token Gap} {ts : List (Token Gap)}

theorem take_placedFrom (text : String) (offset n : Nat) (ts : List (Token Gap)) :
    (placedFrom text offset ts).take n = placedFrom text offset (ts.take n) := by
  induction ts generalizing offset n with
  | nil => simp [placedFrom]
  | cons t ts ih =>
    cases n with
    | zero => rfl
    | succ n => simp [placedFrom, ih]

/-- The last token of a run ends where its source does. -/
theorem getLast_placedFrom (text : String) (offset : Nat) (t : Token Gap) (ts : List (Token Gap))
    (nonempty : placedFrom text offset (t :: ts) ≠ []) :
    ((placedFrom text offset (t :: ts)).getLast nonempty).place.stop =
      offset + (Token.sourceOf (t :: ts)).utf8ByteSize := by
  induction ts generalizing offset t with
  | nil => simp [placedFrom, Token.sourceOf_cons, Nat.add_assoc]
  | cons u us ih =>
    have next := ih (offset + t.place.utf8ByteSize + t.text.utf8ByteSize) u (List.cons_ne_nil _ _)
    rw [Token.sourceOf_cons, String.utf8ByteSize_append, String.utf8ByteSize_append, ← Nat.add_assoc,
      ← Nat.add_assoc, ← next]
    rfl

/-- A run of tokens is cut out from the start of its first token to the end of its last one. -/
theorem Span.holds_placedFrom (h : text = before ++ Token.sourceOf (t :: ts) ++ after)
    (nonempty : placedFrom text before.utf8ByteSize (t :: ts) ≠ []) :
    Holds (⟨before.utf8ByteSize + t.place.utf8ByteSize,
      ((placedFrom text before.utf8ByteSize (t :: ts)).getLast nonempty).place.stop⟩ : Span text)
      (t.text ++ Token.sourceOf ts) := by
  have parts : text = before ++ t.place ++ (t.text ++ Token.sourceOf ts) ++ after := by
    simpa only [Token.sourceOf_cons, String.append_assoc] using h
  have holds := holds_of_eq_append parts
  rw [String.utf8ByteSize_append] at holds
  rw [getLast_placedFrom, Token.sourceOf_cons]
  simpa [Nat.add_assoc] using holds

theorem textOf_placedFrom (h : text = before ++ Token.sourceOf (t :: ts) ++ after) :
    Place.textOf (placedFrom text before.utf8ByteSize (t :: ts)) = t.text ++ Token.sourceOf ts :=
  (Span.holds_placedFrom h (List.cons_ne_nil _ _)).cut_eq

end Runs

/-! ## Reading tokens where they stand -/

/-- The tokens stand in the text one after the other. -/
def StandIn (text : String) (ts : List (Token Gap)) (ts' : List (Token (Span text))) : Prop :=
  ∃ before after, text = before ++ Token.sourceOf ts ++ after ∧
    ts' = placedFrom text before.utf8ByteSize ts

theorem correspond_standIn (text : String) : Correspond (· = ·) (· = ·) (StandIn text) where
  nil := by
    rintro _ ⟨before, after, -, rfl⟩
    rfl
  cons := by
    rintro t ts _ ⟨before, after, source, rfl⟩
    refine ⟨_, _, rfl, ⟨rfl, sameName_refl t.text⟩, rfl, before ++ t.place ++ t.text, after, ?_, ?_⟩
    · simpa only [Token.sourceOf_cons, String.append_assoc] using source
    · simp only [String.utf8ByteSize_append]
  text := by
    rintro t ts _ _ ⟨before, after, source, eq⟩ n
    have run : text = before ++ Token.sourceOf (t :: ts.take n) ++
        (Token.sourceOf (ts.drop n) ++ after) := by
      have whole : t :: ts = t :: ts.take n ++ ts.drop n := by simp
      rw [source, whole, Token.sourceOf_append]
      simp only [String.append_assoc]
    have taken := congrArg (List.take (n + 1)) eq
    rw [take_placedFrom, List.take_succ_cons, List.take_succ_cons] at taken
    rw [taken, textOf_placedFrom run]
    rfl

theorem SameOutcome.eq {x y : Except SyntaxError Expr}
    (h : SameOutcome (· = ·) (Expr.Alike (· = ·) (· = ·) (· = ·)) x y) : x = y := by
  cases h with
  | ok alike => rw [alike.eq]
  | error alike =>
    cases alike with
    | unexpectedToken same => rw [same]
    | failedToParse | tooDeep => rfl

namespace Expr

/-- A filter is read from its tokens with the blanks in front of them. -/
theorem parse_eq (text : String) :
    parse text = (spacedTokens (dropFilterName text)).bind ofTokens := by
  rw [parse, tokenize_eq, spacedTokens]
  rcases scanned : spacedScan (dropFilterName text).toList with e | ⟨ts, blanks⟩
  · rfl
  · have source : dropFilterName text = "" ++ Token.sourceOf ts ++ blanks := by
      simpa [← String.toList_inj] using (standBefore_of_spacedScan scanned).1
    have stand : StandIn (dropFilterName text) ts (placedFrom _ 0 ts) := ⟨"", blanks, source, rfl⟩
    exact (ofTokens_inStep (correspond_standIn _) stand).eq.symm

theorem parse_eq_ok_iff {text : String} {e : Expr} :
    parse text = .ok e ↔ ∃ ts blanks, spacedScan (dropFilterName text).toList = .ok (ts, blanks) ∧
      IsExpr ts e ∧ e.nesting ≤ maxDepth := by
  rw [parse_eq, spacedTokens]
  rcases spacedScan (dropFilterName text).toList with err | ⟨ts, blanks⟩
  · simp [Except.map, Except.bind]
  · simp [Except.map, Except.bind, ofTokens_eq_ok_iff]

theorem parse_of_isExpr {text : String} {ts : List (Token Gap)} {e : Expr}
    (tokens : spacedTokens (dropFilterName text) = .ok ts) (phrase : IsExpr ts e)
    (nesting : e.nesting ≤ maxDepth) : parse text = .ok e := by
  obtain ⟨blanks, scanned⟩ := exists_scan_of_spacedTokens tokens
  exact parse_eq_ok_iff.2 ⟨ts, blanks, scanned, phrase, nesting⟩

end Expr

end FilterSql.Filter
