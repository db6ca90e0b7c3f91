import FilterSql.Geometry.Basic
import FilterSql.Geometry.Wkt.Token
import FilterSql.Parser
import FilterSql.Text.Blank

/-!
# Reading well-known text

A geometry is a keyword, an optional tag for further dimensions, and `EMPTY` or a body in parentheses.
Positions have two numbers, and more with a tag; only the first two are kept. Text after the geometry
is ignored.

A failure carries no detail.
-/

namespace FilterSql.Geometry.Wkt

abbrev Reader (α : Type) := Parser Token Unit α

/-- Drops `count` numbers. -/
def dropNumbers : Nat → List Token → Option (List Token)
  | 0, ts => some ts
  | count + 1, .number _ :: ts => dropNumbers count ts
  | _ + 1, _ => none

theorem length_of_dropNumbers {count : Nat} {ts rest : List Token}
    (h : dropNumbers count ts = some rest) : rest.length ≤ ts.length := by
  fun_induction dropNumbers count ts with
  | case1 => simp_all
  | case2 _ _ _ ih =>
    have := ih h
    simp only [List.length_cons]
    omega
  | case3 => simp at h

/-- A position with `extra` numbers after the first two. -/
def position (extra : Nat) : Reader Position where
  run
    | .number x :: .number y :: ts =>
      match dropNumbers extra ts with
      | some rest => .ok (⟨x, y⟩, rest)
      | none => .error ()
    | _ => .error ()
  consumes {ts a rest} h := by
    split at h
    · split at h
      · next rest' dropped =>
        have := length_of_dropNumbers dropped
        simp only [Except.ok.injEq, Prod.mk.injEq] at h
        simp only [List.length_cons]
        grind
      · simp at h
    · simp at h

def isComma : Token → Bool
  | .comma => true
  | _ => false

/-- One or more items with commas between them. -/
def list {α : Type} (item : Reader α) : Reader (List α) :=
  (Parser.separated isComma item).map fun (first, others) => first :: others

/-- `EMPTY`, or a body in parentheses. -/
def body {α : Type} (empty : α) (inner : Reader α) : Reader α where
  run
    | .word w :: ts => if w == "EMPTY" then .ok (empty, ts) else .error ()
    | .openParen :: ts =>
      match inner.run ts with
      | .ok (a, .closeParen :: rest) => .ok (a, rest)
      | _ => .error ()
    | _ => .error ()
  consumes {ts a rest} h := by
    split at h
    · split at h
      · simp only [Except.ok.injEq, Prod.mk.injEq] at h
        simp [h.2]
      · simp at h
    · split at h
      · next a' rest' ran =>
        have := inner.consumes ran
        simp only [Except.ok.injEq, Prod.mk.injEq] at h
        simp only [List.length_cons] at *
        grind
      · simp at h
    · simp at h

/-- A position that may stand in parentheses. -/
def loosePosition (extra : Nat) : Reader Position where
  run
    | .openParen :: ts =>
      match (position extra).run ts with
      | .ok (a, .closeParen :: rest) => .ok (a, rest)
      | _ => .error ()
    | ts => (position extra).run ts
  consumes {ts a rest} h := by
    split at h
    · split at h
      · next a' rest' ran =>
        have := (position extra).consumes ran
        simp only [Except.ok.injEq, Prod.mk.injEq] at h
        simp only [List.length_cons] at *
        grind
      · simp at h
    · exact (position extra).consumes h

def positions (extra : Nat) : Reader (List Position) := body [] (list (position extra))

def rings (extra : Nat) : Reader (List (List Position)) := body [] (list (positions extra))

/-- The kinds of geometry that a keyword can name. -/
inductive Keyword
  | point
  | lineString
  | linearRing
  | polygon
  | multiPoint
  | multiLineString
  | multiPolygon
  | collection
deriving Repr, DecidableEq

def Keyword.text : Keyword → String
  | .point => "POINT"
  | .lineString => "LINESTRING"
  | .linearRing => "LINEARRING"
  | .polygon => "POLYGON"
  | .multiPoint => "MULTIPOINT"
  | .multiLineString => "MULTILINESTRING"
  | .multiPolygon => "MULTIPOLYGON"
  | .collection => "GEOMETRYCOLLECTION"

def Keyword.all : List Keyword :=
  [.point, .lineString, .linearRing, .polygon, .multiPoint, .multiLineString, .multiPolygon,
    .collection]

/-- The tags for further dimensions, and how many numbers they add to a position. -/
def tags : List (String × Nat) := [("Z", 1), ("M", 1), ("ZM", 2)]

/-- The keyword of a word, and the numbers that a tag glued to it adds. -/
def keyword? (word : String) : Option (Keyword × Option Nat) :=
  match Keyword.all.find? (·.text == word) with
  | some k => some (k, none)
  | none =>
    Keyword.all.findSome? fun k =>
      if k = .linearRing then none
      else (tags.find? fun tag => k.text ++ tag.1 == word).map fun tag => (k, some tag.2)

/-- A tag as a word of its own, if there is one. -/
def takeTag : List Token → Nat × List Token
  | .word w :: ts =>
    match tags.lookup w with
    | some extra => (extra, ts)
    | none => (0, .word w :: ts)
  | ts => (0, ts)

theorem length_of_takeTag (ts : List Token) : (takeTag ts).2.length ≤ ts.length := by
  unfold takeTag
  split
  · split <;> simp
  · simp

/-- What follows the keyword of a geometry. `member` reads the members of a collection. -/
def content (member : Reader (Geometry Position)) (k : Keyword) (extra : Nat) :
    Reader (Geometry Position) :=
  match k with
  | .point => body (.multiPoint []) ((position extra).map .point)
  | .lineString | .linearRing => (positions extra).map .lineString
  | .polygon => (rings extra).map fun rs => .polygon (.ofRings rs)
  | .multiPoint => (body [] (list (loosePosition extra))).map .multiPoint
  | .multiLineString => (rings extra).map .multiLineString
  | .multiPolygon =>
    (body [] (list (rings extra))).map fun ps => .multiPolygon (ps.map .ofRings)
  | .collection => (body [] (list member)).map .collection

/-- A geometry, given a reader for the members of a collection. -/
def geometryWith (member : Reader (Geometry Position)) : Reader (Geometry Position) where
  run
    | .word w :: ts =>
      match keyword? w with
      | none => .error ()
      | some (k, some extra) => (content member k extra).run ts
      | some (k, none) => (content member k (takeTag ts).1).run (takeTag ts).2
    | _ => .error ()
  consumes {ts a rest} h := by
    split at h
    · next w ts =>
      have := length_of_takeTag ts
      split at h
      · simp at h
      · have := (content _ _ _).consumes h
        simp only [List.length_cons]
        omega
      · have := (content _ _ _).consumes h
        simp only [List.length_cons]
        omega
    · simp at h

/-- The reader that always fails. -/
def nothing : Reader (Geometry Position) where
  run _ := .error ()
  consumes h := by simp at h

/-- A geometry with collections nested at most `depth` deep. -/
def geometry : Nat → Reader (Geometry Position)
  | 0 => nothing
  | depth + 1 => geometryWith (geometry depth)

/-- Reads a geometry in any case. A collection takes tokens of its own, so there are fewer levels of
nesting than tokens. -/
def read? (text : String) : Option (Geometry Position) :=
  let ts := tokens ((Text.trim text).toList.map Char.toUpper)
  match (geometry (ts.length + 1)).run ts with
  | .ok (g, _) => some g
  | .error _ => none

end FilterSql.Geometry.Wkt
