import FilterSql.Xml.Scope

/-!
# Going through a document

A document is read from front to back, one event at a time, and what is not needed is skipped. A
`Source` delivers the events: it checks that tags match, keeps the namespaces in scope, and drops blanks
at the start of text. A `Cursor` is one event ahead of what was read, so that it can join the pieces of a
text and drop blanks at its end.

Skipping looks at tags only: what is skipped may have any attributes, and it is passed over without
entering or leaving the scopes of its elements.
-/

namespace FilterSql.Xml

inductive Event where
  | start (tag : Tag)
  | stop (name : List Char)
  | text (cs : List Char)
  | verbatim (cs : List Char)
  | documentType
  | finish
  | failed
deriving Repr, DecidableEq

/-- Whether an event is a piece of text. -/
def Event.isText : Event → Bool
  | .text _ | .verbatim _ => true
  | _ => false

structure Source where
  tokens : List Token
  /-- The names of the open elements, innermost first. -/
  opened : List (List Char) := []
  scope : Scope := {}
  /-- Whether the scope of an element that has ended is still to be left. -/
  leaving : Bool := false
  /-- Whether blanks at the start of the next text are dropped: not after another piece of text. -/
  trimming : Bool := true
deriving Repr, DecidableEq

namespace Source

/-- Leaves the scope of an element that has ended. -/
def settle (s : Source) : Source :=
  if s.leaving then { s with scope := s.scope.leave, leaving := false } else s

/-- The first event of some tokens, and the source after it. -/
def eventOf (s : Source) : List Token → Event × Source
  | [] => (.finish, { s with tokens := [], trimming := true })
  | .text cs :: rest =>
    let kept := if s.trimming then cs.dropWhile isBlank else cs
    if kept.isEmpty then s.eventOf rest
    else (.text kept, { s with tokens := rest, trimming := false })
  | .verbatim cs :: rest => (.verbatim cs, { s with tokens := rest, trimming := false })
  | .documentType :: rest => (.documentType, { s with tokens := rest, trimming := true })
  | .malformed :: rest => (.failed, { s with tokens := rest })
  | .opening tag :: rest =>
    match s.scope.enter tag with
    | none => (.failed, { s with tokens := rest })
    | some scope =>
      (.start tag,
        { s with tokens := rest, opened := tag.name :: s.opened, scope := scope, trimming := true })
  | .closing name :: rest =>
    match s.opened with
    | [] => (.failed, { s with tokens := rest })
    | last :: outer =>
      if last == name then
        (.stop name, { s with tokens := rest, opened := outer, leaving := true, trimming := true })
      else (.failed, { s with tokens := rest })

def next (s : Source) : Event × Source := s.settle.eventOf s.tokens

/-- Passes over tokens up to the end of an open element, `depth` elements of its name within it. -/
def tokensAfter (name : List Char) :
    (depth : Nat) → (opened : List (List Char)) → List Token →
      Option (List (List Char) × List Token)
  | _, _, [] => none
  | depth, opened, .opening tag :: rest =>
    tokensAfter name (if tag.name == name then depth + 1 else depth) (tag.name :: opened) rest
  | depth, last :: outer, .closing closed :: rest =>
    if last != closed then none
    else if closed != name then tokensAfter name depth outer rest
    else
      match depth with
      | 0 => some (outer, rest)
      | depth + 1 => tokensAfter name depth outer rest
  | _, [], .closing _ :: _ => none
  | _, _, .malformed :: _ => none
  | depth, opened, .text _ :: rest => tokensAfter name depth opened rest
  | depth, opened, .verbatim _ :: rest => tokensAfter name depth opened rest
  | depth, opened, .documentType :: rest => tokensAfter name depth opened rest

/-- Skips up to the end of an open element. -/
def skip? (s : Source) (name : List Char) : Option Source :=
  (tokensAfter name 0 s.opened s.tokens).map fun (opened, tokens) =>
    { s with opened := opened, tokens := tokens }

end Source

/-- What a reader of a document sees. -/
inductive Item where
  | start (tag : Tag)
  | stop
  | text (cs : List Char)
  | finish
deriving Repr, DecidableEq

structure Cursor where
  source : Source
  /-- The event after what was read. -/
  ahead : Event
  /-- An item that was looked at without being taken. -/
  peeked : Option Item := none
deriving Repr, DecidableEq

namespace Cursor

def ofSource (s : Source) : Cursor := ⟨s.next.2, s.next.1, none⟩

def ofText (text : String) : Cursor := ofSource { tokens := tokenize text }

/-- The cursor one event on. -/
def advance (c : Cursor) : Cursor := { ofSource c.source with peeked := c.peeked }

/-- A bound on the events that are left. -/
def fuel (c : Cursor) : Nat := c.source.tokens.length + 2

def trimEnd (cs : List Char) : List Char := (cs.reverse.dropWhile isBlank).reverse

/-- Takes the pieces of text that follow, and gives them after what was `read`. -/
def joinText : (fuel : Nat) → (read : List Char) → Cursor → Option (List Char × Cursor)
  | 0, _, _ => none
  | fuel + 1, read, c =>
    match c.ahead with
    | .text cs =>
      let c := c.advance
      (resolve? (if c.ahead.isText then cs else trimEnd cs)).bind fun cs =>
        joinText fuel (read ++ cs) c
    | .verbatim cs => joinText fuel (read ++ cs) c.advance
    | _ => some (read, c)

/-- The next item, and the cursor after it. Text that is blank up to its end is none. -/
def item? : (fuel : Nat) → Cursor → Option (Item × Cursor)
  | 0, _ => none
  | fuel + 1, c =>
    let textItem (read : Option (List Char)) (c : Cursor) :=
      (read.bind (joinText c.fuel · c)).map fun (cs, c) => (.text cs, c)
    match c.ahead with
    | .start tag => some (.start tag, c.advance)
    | .stop _ => some (.stop, c.advance)
    | .finish => some (.finish, c.advance)
    | .failed => none
    | .documentType => item? fuel c.advance
    | .verbatim cs => textItem (some cs) c.advance
    | .text cs =>
      let c := c.advance
      if c.ahead.isText then textItem (resolve? cs) c
      else if cs.all isBlank then item? fuel c
      else textItem (resolve? (trimEnd cs)) c

/-- Skips up to the end of an open element. The event ahead may already be that end, or the start of
an element of the same name. -/
def skip? (c : Cursor) (name : List Char) : Option Cursor :=
  let onward (s : Source) : Cursor := { c with source := s }.advance
  match c.ahead with
  | .start tag =>
    if tag.name == name then ((c.source.skip? name).bind (·.skip? name)).map onward
    else (c.source.skip? name).map onward
  | .stop closed => if closed == name then some c.advance else (c.source.skip? name).map onward
  | .failed => none
  | _ => (c.source.skip? name).map onward

end Cursor

/-! ## Readers -/

/-- A reader of a part of a document, which fails if the document cannot be read. -/
abbrev Pull := StateT Cursor Option

namespace Pull

variable {α σ : Type}

def fail : Pull α := fun _ => none

def ofOption (a : Option α) : Pull α := fun c => a.map (·, c)

/-- Takes the next item. -/
def next : Pull Item := fun c =>
  match c.peeked with
  | some item => some (item, { c with peeked := none })
  | none => c.item? c.fuel

/-- Looks at the next item. -/
def peek : Pull Item := fun c =>
  match c.peeked with
  | some item => some (item, c)
  | none => (c.item? c.fuel).map fun (item, c) => (item, { c with peeked := some item })

/-- Skips what is left of an element whose start was taken. The first item is still read. -/
def skip (tag : Tag) : Pull Unit := do
  let rest (name : List Char) : Pull Unit := fun c => (c.skip? name).map ((), ·)
  match ← next with
  | .stop => return
  | .start inner => rest inner.name; rest tag.name
  | .text _ | .finish => rest tag.name

/-- The text of an element whose start was taken, and which holds nothing else. -/
def textOnly : Pull String := do
  match ← next with
  | .stop => return ""
  | .text cs =>
    match ← next with
    | .stop => return String.ofList cs
    | _ => fail
  | _ => fail

/-- Whether a tag says that its element is nil, as far as namespaces are known. -/
def isNil (tag : Tag) : Pull Bool := do return (← get).source.scope.isNil tag

/-- Reads an element that is optional, when its start is next. It counts as missing if it is nil or
its `parent` is. -/
def optional (parent : Tag) (read : Tag → Pull α) : Pull (Option α) := do
  match ← peek with
  | .start tag =>
    let absent := (← isNil parent) || (← isNil tag)
    let _ ← next
    if absent then
      skip tag
      return none
    else return some (← read tag)
  | _ => fail

/-- Reads elements that suit, as long as they follow each other. There is no text between or after
them. -/
def elementsFrom (suits : Tag → Bool) (read : Tag → Pull α) : (fuel : Nat) → Pull (List α)
  | 0 => fail
  | fuel + 1 => do
    match ← peek with
    | .start tag =>
      if suits tag then
        let _ ← next
        let first ← read tag
        return first :: (← elementsFrom suits read fuel)
      else return []
    | .stop => return []
    | .text _ | .finish => fail

def elements (suits : Tag → Bool) (read : Tag → Pull α) : Pull (List α) := do
  elementsFrom suits read (← get).fuel

/-- Goes through the content of an element up to its end. -/
def contentFrom (onText : σ → Pull σ) (onElement : σ → Tag → Pull σ) : (fuel : Nat) → σ → Pull σ
  | 0, _ => fail
  | fuel + 1, read => do
    match ← peek with
    | .stop =>
      let _ ← next
      return read
    | .finish => fail
    | .text _ => contentFrom onText onElement fuel (← onText read)
    | .start tag => contentFrom onText onElement fuel (← onElement read tag)

def content (onText : σ → Pull σ) (onElement : σ → Tag → Pull σ) (initial : σ) : Pull σ := do
  contentFrom onText onElement (← get).fuel initial

end Pull

end FilterSql.Xml
