import FilterSql.Text.AsciiCase
import FilterSql.Text.Blank
import FilterSql.Text.Letter
import FilterSql.Text.LowerCase

/-!
# Function names in small letters

Names of functions may be written in any case. Before a filter is read, every known name that is
followed by an opening parenthesis is lower-cased; text inside single quotes is left alone.
-/

namespace FilterSql.Filter

open Text

/-- The functions that are known without a catalog. -/
def standardFunctions : List String :=
  ["contains", "startswith", "endswith", "tolower", "toupper", "length", "indexof", "substring",
    "trim", "now", "year", "month", "day", "hour", "minute", "second", "date", "time", "floor",
    "ceiling", "round", "abs", "distance", "intersects"]

def startsName (c : Char) : Bool := isLetter c || c == '_'

def isNameChar (c : Char) : Bool := isLetterOrNumber c || c == '_'

/-- Whether an opening parenthesis follows, after any blanks. -/
def opensCall (cs : List Char) : Bool := (dropBlanks cs).head? == some '('

/-- Lower-cases the known names in `cs`, which starts inside quotes if `quoted`. -/
def lowerCalls (known : List String) (quoted : Bool) (cs : List Char) : List Char :=
  match cs with
  | [] => []
  | c :: rest =>
    if c == '\'' then
      if quoted && rest.head? == some '\'' then '\'' :: '\'' :: lowerCalls known true (rest.drop 1)
      else '\'' :: lowerCalls known (!quoted) rest
    else if quoted || !startsName c then c :: lowerCalls known quoted rest
    else
      let name := String.ofList (c :: rest.takeWhile isNameChar)
      let after := rest.dropWhile isNameChar
      let written := if opensCall after && known.any (sameName · name) then toLower name else name
      written.toList ++ lowerCalls known quoted after
termination_by cs.length
decreasing_by
  all_goals simp only [List.length_cons, List.length_drop]
  all_goals have := (List.dropWhile_suffix (l := rest) isNameChar).length_le
  all_goals omega

/-- The filter with the names of known functions in small letters. -/
def lowerFunctionNames (known : List String) (text : String) : String :=
  String.ofList (lowerCalls known false text.toList)

end FilterSql.Filter
