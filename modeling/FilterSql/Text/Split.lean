/-!
# Cutting and joining texts

Segments of a text between separators, a fixed text at the start, and replacing every occurrence of
one text by another.
-/

namespace FilterSql.Text

/-- The parts of `cs` between occurrences of `sep`; there is always at least one. -/
def segmentsOf (sep : Char) : List Char → List (List Char)
  | [] => [[]]
  | c :: cs =>
    if c == sep then [] :: segmentsOf sep cs
    else
      match segmentsOf sep cs with
      | first :: others => (c :: first) :: others
      | [] => [[c]]

/-- The parts of a text between occurrences of `sep`. -/
def segments (sep : Char) (s : String) : List String :=
  (segmentsOf sep s.toList).map String.ofList

/-- What follows `head` at the start of `cs`. -/
def dropPrefix? : List Char → List Char → Option (List Char)
  | [], cs => some cs
  | _ :: _, [] => none
  | h :: head, c :: cs => if h == c then dropPrefix? head cs else none

/-- Passes over `skip` characters, then replaces the occurrences of `old` from left to right. -/
def replaceFrom (old new : List Char) : Nat → List Char → List Char
  | _, [] => []
  | skip + 1, _ :: cs => replaceFrom old new skip cs
  | 0, c :: cs =>
    if old.isPrefixOf (c :: cs) then new ++ replaceFrom old new (old.length - 1) cs
    else c :: replaceFrom old new 0 cs

/-- Replaces the occurrences of a non-empty text, which do not overlap, from left to right. -/
def replace (old new : String) (s : String) : String :=
  String.ofList (replaceFrom old.toList new.toList 0 s.toList)

end FilterSql.Text
