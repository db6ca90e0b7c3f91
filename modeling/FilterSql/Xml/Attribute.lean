import FilterSql.Xml.Reference
import FilterSql.Xml.Token

/-!
# Attributes

After its name a start tag holds a row of entries. An entry is an attribute, with quotes of either kind
around its value, or a mistake; the entries after a mistake can still be found.
-/

namespace FilterSql.Xml

inductive Entry where
  | attribute (name value : List Char)
  /-- A name and `=` without a quoted value. -/
  | unquoted (name : List Char)
  /-- A name without `=`. -/
  | bare
deriving Repr, DecidableEq

def endsName (c : Char) : Bool := c == '=' || isBlank c

/-- The entry that starts with the character `first`, and what follows it. -/
def entry (first : Char) (cs : List Char) : Entry × List Char :=
  let name := first :: cs.takeWhile (!endsName ·)
  match (cs.dropWhile (!endsName ·)).dropWhile isBlank with
  | '=' :: afterEq =>
    match afterEq.dropWhile isBlank with
    | [] => (.unquoted name, [])
    | q :: rest =>
      if q == '"' || q == '\'' then
        match rest.dropWhile (· != q) with
        | _ :: after => (.attribute name (rest.takeWhile (· != q)), after)
        | [] => (.unquoted name, [])
      else (.unquoted name, rest.dropWhile (!isBlank ·))
  | rest => (.bare, rest)

theorem length_dropWhile_le (p : Char → Bool) (cs : List Char) :
    (cs.dropWhile p).length ≤ cs.length :=
  (List.dropWhile_suffix p).length_le

theorem length_entry_le (first : Char) (cs : List Char) : (entry first cs).2.length ≤ cs.length := by
  have name := length_dropWhile_le (!endsName ·) cs
  have gap := length_dropWhile_le isBlank (cs.dropWhile (!endsName ·))
  simp only [entry]
  split
  · next afterEq eq =>
    have gap' := length_dropWhile_le isBlank afterEq
    rw [eq, List.length_cons] at gap
    split
    · simp
    · next q rest quote =>
      rw [quote, List.length_cons] at gap'
      split
      · have value := length_dropWhile_le (· != q) rest
        split
        · next after last =>
          rw [last, List.length_cons] at value
          simp only
          omega
        · simp
      · have value := length_dropWhile_le (!isBlank ·) rest
        simp only
        omega
  · simp only
    omega

/-- The entries of a row. -/
def entries (cs : List Char) : List Entry :=
  match _h : cs.dropWhile isBlank with
  | [] => []
  | first :: after => (entry first after).1 :: entries (entry first after).2
termination_by cs.length
decreasing_by
  have row := length_dropWhile_le isBlank cs
  have rest := length_entry_le first after
  rw [_h, List.length_cons] at row
  omega

def Tag.entries (t : Tag) : List Entry := Xml.entries t.rest

structure Attribute where
  name : List Char
  /-- The value as it is written, with its references. -/
  written : List Char
deriving Repr, DecidableEq

/-- The name that an entry gives a value to. -/
def Entry.name? : Entry → Option (List Char)
  | .attribute name _ | .unquoted name => some name
  | .bare => none

def Entry.attribute? : Entry → Option Attribute
  | .attribute name value => some ⟨name, value⟩
  | _ => none

/-- The entries as attributes, without those that are mistakes: an entry after one of the same name is
one, too. -/
def attributesOf (seen : List (List Char)) : List Entry → List (Option Attribute)
  | [] => []
  | e :: rest =>
    match e.name? with
    | none => none :: attributesOf seen rest
    | some name =>
      (if seen.contains name then none else e.attribute?) :: attributesOf (name :: seen) rest

/-- The attributes of a tag without mistakes. -/
def Tag.attributes? (t : Tag) : Option (List Attribute) := (attributesOf [] t.entries).mapM id

/-- The attributes of a tag, whatever else it holds. -/
def Tag.attributes (t : Tag) : List Attribute := (attributesOf [] t.entries).filterMap id

/-! ## Names -/

/-- The part of a name after its first colon, or all of it. -/
def localName (name : List Char) : List Char :=
  match name.dropWhile (· != ':') with
  | _ :: rest => rest
  | [] => name

/-- The part of a name before its first colon. -/
def qualifier? (name : List Char) : Option (List Char) :=
  if name.contains ':' then some (name.takeWhile (· != ':')) else none

def Tag.isNamed (t : Tag) (name : String) : Bool := localName t.name == name.toList

/-- What a name declares a namespace for: `xmlns` for names without a qualifier, `xmlns:q` for names
with the qualifier `q`. -/
inductive Declared where
  | unqualified
  | qualified (by_ : List Char)
deriving Repr, DecidableEq

def declared? (name : List Char) : Option Declared :=
  if name == "xmlns".toList then some .unqualified
  else if "xmlns:".toList.isPrefixOf name then some (.qualified (name.drop 6))
  else none

/-- The values of attributes by their local names, for the names asked for. An attribute that declares
a namespace has no local name. Two attributes with the same local name make the tag unreadable. -/
def valuesOf? (names : List String) : List Attribute → Option (List (String × String))
  | [] => some []
  | a :: rest => do
    let others ← valuesOf? names rest
    let name := String.ofList (localName a.name)
    if (declared? a.name).isSome || !names.contains name then some others
    else if (others.lookup name).isSome then none
    else return (name, String.ofList (← resolve? a.written)) :: others

end FilterSql.Xml
