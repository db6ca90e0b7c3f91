import FilterSql.Text.AsciiCase

/-!
# Markup tokens

Cutting the text of a markup document into tags, text and document type declarations; comments and
processing instructions leave no token. The text is read one character at a time; a `Mode` says where
in a token it stands. What is between the angle brackets of a tag is kept as it is written, to be
looked at only where it is needed.
-/

namespace FilterSql.Xml

open Text

/-- The four characters that count as blank in markup. -/
def isBlank (c : Char) : Bool := c == ' ' || c == '\t' || c == '\n' || c == '\r'

/-- What is between the brackets of a start tag: the name, up to the first blank, and the rest. -/
structure Tag where
  name : List Char
  rest : List Char
deriving Repr, DecidableEq

def Tag.ofChars (cs : List Char) : Tag := ⟨cs.takeWhile (!isBlank ·), cs.dropWhile (!isBlank ·)⟩

inductive Token where
  /-- `<name rest>` -/
  | opening (tag : Tag)
  /-- `</name>` -/
  | closing (name : List Char)
  /-- Characters outside markup, with their references. -/
  | text (cs : List Char)
  /-- Characters of a `CDATA` section, in which nothing is a reference. -/
  | verbatim (cs : List Char)
  | documentType
  /-- Markup that does not end or is of no known kind. Nothing is read after it. -/
  | malformed
deriving Repr, DecidableEq

/-- A name without the blanks after it. Blanks alone are a name of their own. -/
def closingName (cs : List Char) : List Char :=
  if cs.all isBlank then cs else (cs.reverse.dropWhile isBlank).reverse

/-- The tokens of the characters between the brackets of a tag. A tag that ends with `/` opens its
element and closes it. -/
def Token.ofTag (cs : List Char) : List Token :=
  match cs, cs.getLast? with
  | '/' :: name, _ => [.closing (closingName name)]
  | _, some '/' =>
    let tag := Tag.ofChars cs.dropLast
    [.opening tag, .closing tag.name]
  | _, _ => [.opening (.ofChars cs)]

/-- Where in a token the next character stands. What was read of the token since its `<` is kept
backwards. -/
inductive Mode where
  | text (read : List Char)
  /-- After `<`. -/
  | opened
  /-- In a tag, possibly inside a quotation. -/
  | tag (quote : Option Char) (read : List Char)
  /-- After `<!`. -/
  | declaration
  | comment (read : List Char)
  | verbatim (read : List Char)
  /-- In a document type declaration, with the number of brackets open in it. -/
  | documentType (depth : Nat) (read : List Char)
  | instruction (read : List Char)
  | failed
deriving Repr, DecidableEq

/-- Text between two tags is a token unless it is empty. -/
def textTokens (read : List Char) : List Token :=
  if read.isEmpty then [] else [.text read.reverse]

/-- What a piece of markup gives when it ends: `tokens` if it began as its kind has to. -/
def ending (wellBegun : Bool) (tokens : List Token) : Mode × List Token :=
  if wellBegun then (.text [], tokens) else (.failed, [.malformed])

def stepTag (quote : Option Char) (read : List Char) (c : Char) : Mode × List Token :=
  match quote with
  | some q => (.tag (if c == q then none else some q) (c :: read), [])
  | none =>
    if c == '>' then (.text [], Token.ofTag read.reverse)
    else if c == '"' || c == '\'' then (.tag (some c) (c :: read), [])
    else (.tag none (c :: read), [])

/-- A comment ends with `-->`, of which the opening `<!--` is no part. -/
def stepComment (read : List Char) (c : Char) : Mode × List Token :=
  if c == '>' && 4 < read.length && read.take 2 == ['-', '-'] then
    ending ("!--".toList.isPrefixOf read.reverse) []
  else (.comment (c :: read), [])

def stepVerbatim (read : List Char) (c : Char) : Mode × List Token :=
  if c == '>' && read.take 2 == [']', ']'] then
    let written := (read.drop 2).reverse
    ending ("![CDATA[".toList.isPrefixOf written) [.verbatim (written.drop 8)]
  else (.verbatim (c :: read), [])

/-- A document type declaration names the type of the document. Its first word may be in any case. -/
def stepDocumentType (depth : Nat) (read : List Char) (c : Char) : Mode × List Token :=
  if c == '<' then (.documentType (depth + 1) (c :: read), [])
  else if c == '>' then
    if depth == 0 then
      let written := read.reverse
      ending (sameName (String.ofList (written.take 8)) "!DOCTYPE" &&
        (written.drop 8).any (!isBlank ·)) [.documentType]
    else (.documentType (depth - 1) (c :: read), [])
  else (.documentType depth (c :: read), [])

/-- A processing instruction ends with `?>`, of which the opening `<?` is no part. -/
def stepInstruction (read : List Char) (c : Char) : Mode × List Token :=
  if c == '>' && read.head? == some '?' then ending (1 < read.length) []
  else (.instruction (c :: read), [])

/-- Reads one character: the new mode and the tokens that end with it. -/
def Mode.step (mode : Mode) (c : Char) : Mode × List Token :=
  match mode with
  | .text read => if c == '<' then (.opened, textTokens read) else (.text (c :: read), [])
  | .opened =>
    if c == '!' then (.declaration, [])
    else if c == '?' then (.instruction [c], [])
    else stepTag none [] c
  | .tag quote read => stepTag quote read c
  | .declaration =>
    if c == '[' then (.verbatim [c, '!'], [])
    else if c == '-' then (.comment [c, '!'], [])
    else if c == 'D' || c == 'd' then (.documentType 0 [c, '!'], [])
    else (.failed, [.malformed])
  | .comment read => stepComment read c
  | .verbatim read => stepVerbatim read c
  | .documentType depth read => stepDocumentType depth read c
  | .instruction read => stepInstruction read c
  | .failed => (.failed, [])

/-- The tokens due at the end of the text. -/
def Mode.finish : Mode → List Token
  | .text read => textTokens read
  | .failed => []
  | _ => [.malformed]

def tokensFrom (mode : Mode) : List Char → List Token
  | [] => mode.finish
  | c :: rest => (mode.step c).2 ++ tokensFrom (mode.step c).1 rest

/-- The tokens of a document. A byte order mark at its start is no part of it. -/
def tokenize (text : String) : List Token :=
  match text.toList with
  | '\ufeff' :: rest => tokensFrom (.text []) rest
  | cs => tokensFrom (.text []) cs

end FilterSql.Xml
