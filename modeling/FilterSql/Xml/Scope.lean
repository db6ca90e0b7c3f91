import FilterSql.Xml.Attribute

/-!
# Namespaces in scope

Every start tag may bind qualifiers to namespaces, which hold up to the end of its element. Two
qualifiers are bound once and for all, and nothing else may be bound to their namespaces. Namespaces
matter for one thing only: an element may say of itself that it is nil.
-/

namespace FilterSql.Xml

structure Binding where
  /-- The depth of the element that binds. -/
  depth : Nat
  qualifier : List Char
  space : List Char
deriving Repr, DecidableEq

/-- The bindings in scope, innermost first, and the number of elements entered. -/
structure Scope where
  depth : Nat := 0
  bindings : List Binding := []
deriving Repr, DecidableEq

/-- The name of a namespace of the standard. -/
def standardSpace (path : List String) : List Char :=
  ("/".intercalate (["http:", "", "www.w3.org"] ++ path)).toList

/-- The namespace of the qualifier `xml`. -/
def xmlSpace : List Char := standardSpace ["XML", "1998", "namespace"]

/-- The namespace of the qualifier `xmlns`. -/
def xmlnsSpace : List Char := standardSpace ["2000", "xmlns", ""]

/-- The namespace of what an element may say of itself. -/
def instanceSpace : List Char := standardSpace ["2001", "XMLSchema-instance"]

namespace Scope

/-- The scope with what an attribute binds, unless it must not be bound. -/
def bind (s : Scope) (a : Attribute) : Option Scope :=
  match declared? a.name with
  | none | some .unqualified => some s
  | some (.qualified q) =>
    if q == "xml".toList then if a.written == xmlSpace then some s else none
    else if q == "xmlns".toList || a.written == xmlSpace || a.written == xmlnsSpace then none
    else if q.isEmpty then some s
    else some { s with bindings := ⟨s.depth, q, a.written⟩ :: s.bindings }

/-- The attributes before the first mistake in a row. -/
def leading : List Entry → List Attribute
  | .attribute name value :: rest => ⟨name, value⟩ :: leading rest
  | _ => []

/-- The scope inside an element. -/
def enter (s : Scope) (tag : Tag) : Option Scope :=
  (leading tag.entries).foldlM bind { s with depth := s.depth + 1 }

/-- The scope after an element. -/
def leave (s : Scope) : Scope where
  depth := s.depth - 1
  bindings := s.bindings.dropWhile (s.depth - 1 < ·.depth)

/-- The namespace of a qualified name. -/
def spaceOf? (s : Scope) (name : List Char) : Option (List Char) :=
  (qualifier? name).bind fun q => (s.bindings.find? (·.qualifier == q)).map (·.space)

/-- Whether a tag says that its element is nil. -/
def isNil (s : Scope) (tag : Tag) : Bool :=
  tag.attributes.any fun a =>
    localName a.name == "nil".toList && s.spaceOf? a.name == some instanceSpace &&
      (a.written == "1".toList || a.written == "true".toList)

end Scope

end FilterSql.Xml
