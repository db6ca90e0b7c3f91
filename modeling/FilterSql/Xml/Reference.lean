import FilterSql.Text.Hex

/-!
# Character references

In text and attribute values `&name;` stands for a character: one of five names, or the code point of
the character after `#`, in hexadecimal after `#x`.
-/

namespace FilterSql.Xml

open Text

/-- The character of a code point, which is neither zero nor a surrogate. -/
def ofCode? (code : Nat) : Option Char :=
  if code ≠ 0 ∧ code.isValidChar then some (Char.ofNat code) else none

/-- The character that a name between `&` and `;` stands for. -/
def named? (name : List Char) : Option Char :=
  match name with
  | ['l', 't'] => some '<'
  | ['g', 't'] => some '>'
  | ['a', 'm', 'p'] => some '&'
  | ['a', 'p', 'o', 's'] => some '\''
  | ['q', 'u', 'o', 't'] => some '"'
  | '#' :: 'x' :: digits => (readDigits? 16 digits).bind ofCode?
  | '#' :: digits => (readDigits? 10 digits).bind ofCode?
  | _ => none

/-- Resolves the references in what follows; `name` is what was read of a reference, backwards. -/
def resolveFrom : (name : Option (List Char)) → List Char → Option (List Char)
  | none, [] => some []
  | some _, [] => none
  | none, c :: rest =>
    if c == '&' then resolveFrom (some []) rest else (resolveFrom none rest).map (c :: ·)
  | some name, c :: rest =>
    if c == ';' then (named? name.reverse).bind fun r => (resolveFrom none rest).map (r :: ·)
    else if c == '&' then none
    else resolveFrom (some (c :: name)) rest

/-- The characters that are meant. A reference that does not end, or whose name is not known, makes
the text unreadable. -/
def resolve? (cs : List Char) : Option (List Char) := resolveFrom none cs

end FilterSql.Xml
