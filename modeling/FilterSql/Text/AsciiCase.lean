/-!
# Comparison ignoring ASCII case

Names are compared ignoring the case of the letters `A` to `Z` only; every other character counts
as it is.
-/

namespace FilterSql.Text

/-- The text with `A` to `Z` made small. -/
def foldCase (s : String) : String := String.ofList (s.toList.map Char.toLower)

/-- Whether two texts differ at most in the case of ASCII letters. -/
def sameName (a b : String) : Bool := a.toList.map Char.toLower == b.toList.map Char.toLower

/-- What follows `head` at the start of `cs`, ignoring ASCII case. -/
def dropName? : List Char → List Char → Option (List Char)
  | [], cs => some cs
  | _ :: _, [] => none
  | h :: head, c :: cs => if h.toLower == c.toLower then dropName? head cs else none

end FilterSql.Text
