import FilterSql.Decimal.Reader
import FilterSql.Sql.Clause
import FilterSql.Text.Blank

/-!
# Templates

A template is a text with placeholders `{n}` for arguments, counted from zero. Filling it is a single
pass: the arguments are copied as they are and not looked at again. A placeholder without an argument,
and a brace that starts no placeholder, are copied too.
-/

namespace FilterSql.Sql.Template

/-- The number of a placeholder whose opening brace has been read, and how many characters it takes
after that brace. -/
def slot? (cs : List Char) : Option (Nat × Nat) :=
  let inner := cs.takeWhile (· != '\x7d')
  if inner.length = cs.length then none
  else
    (Decimal.readBoundedNat? Decimal.maxNat64 (Text.dropBlanksEnd (Text.dropBlanks inner))).map
      fun index => (index, inner.length + 1)

/-- Passes over `skip` characters, then fills the placeholders. -/
def fillFrom (args : List Clause) : Nat → List Char → Clause
  | _, [] => []
  | skip + 1, _ :: cs => fillFrom args skip cs
  | 0, c :: cs =>
    if c = '\x7b' then
      match slot? cs with
      | none => .char c :: fillFrom args 0 cs
      | some (index, width) =>
        match args[index]? with
        | some arg => arg ++ fillFrom args width cs
        | none => .char c :: fillFrom args 0 cs
    else .char c :: fillFrom args 0 cs

/-- The template with its placeholders replaced by the arguments. -/
def fill (template : String) (args : List Clause) : Clause := fillFrom args 0 template.toList

end FilterSql.Sql.Template
