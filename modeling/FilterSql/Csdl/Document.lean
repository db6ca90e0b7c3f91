import FilterSql.Xml.Cursor

/-!
# Schema documents

What a schema document declares, before anything is required of it: every attribute may be missing,
and items that do not count are still there. A document is read from its markup, from front to back.
What is in an item that does not count is skipped; in places that list the elements they allow, any
other element makes the document unreadable, and so does text. An attribute may also be written as an
element, with `@` before its name.
-/

namespace FilterSql.Csdl

open Xml

structure PropertyDecl where
  name : Option String
  typeName : Option String
  nullable : Option String
  defaultValue : Option String
  maxLength : Option String
  precision : Option String
  scale : Option String
deriving Repr, DecidableEq

/-- An item in the content of a type. -/
inductive TypeItem where
  | property (p : PropertyDecl)
  | navigationProperty
  | note
deriving Repr, DecidableEq

structure KeyReference where
  name : Option String
deriving Repr, DecidableEq

structure KeyDecl where
  references : List KeyReference
deriving Repr, DecidableEq

structure EntityTypeDecl where
  name : Option String
  key : Option KeyDecl
  items : List TypeItem
deriving Repr, DecidableEq

structure ComplexTypeDecl where
  name : Option String
  items : List TypeItem
deriving Repr, DecidableEq

structure ParameterDecl where
  name : Option String
  typeName : Option String
deriving Repr, DecidableEq

structure ReturnTypeDecl where
  typeName : Option String
deriving Repr, DecidableEq

structure FunctionDecl where
  name : Option String
  parameters : List ParameterDecl
  returnType : Option ReturnTypeDecl
deriving Repr, DecidableEq

structure EntitySetDecl where
  name : Option String
  entityType : Option String
deriving Repr, DecidableEq

/-- An item in a container. -/
inductive ContainerItem where
  | entitySet (s : EntitySetDecl)
  | singleton
  | functionImport
  | actionImport
  | note
deriving Repr, DecidableEq

structure ContainerDecl where
  name : Option String
  items : List ContainerItem
deriving Repr, DecidableEq

/-- An item in a schema. -/
inductive SchemaItem where
  | container (c : ContainerDecl)
  | entityType (t : EntityTypeDecl)
  | complexType (t : ComplexTypeDecl)
  | function (f : FunctionDecl)
  | enumType
  | typeDefinition
  | action
  | term
  | note
  | notes
deriving Repr, DecidableEq

structure SchemaDecl where
  items : List SchemaItem
deriving Repr, DecidableEq

structure DataServices where
  schemas : List SchemaDecl
deriving Repr, DecidableEq

structure Document where
  dataServices : Option DataServices
deriving Repr, DecidableEq

/-! ## Reading the markup -/

variable {α σ : Type}

/-- The values of the attributes of an element, by name. An attribute that is written as an element may
be there and have none. -/
abbrev Values := List (String × Option String)

def Values.get (v : Values) (name : String) : Option String := (v.lookup name).join

/-- The attribute that an element is written for. -/
def attributeOf? (names : List String) (tag : Tag) : Option String :=
  names.find? fun name => tag.isNamed ("@" ++ name)

/-- Reads what may occur once. -/
def once (found : Option α) (read : Pull α) : Pull (Option α) :=
  if found.isSome then Pull.fail else return some (← read)

/-- Reads an element whose start was taken: the attributes of the given names, and the content. -/
def record (names : List String) (onText : σ → Pull σ) (onElement : σ → Tag → Pull σ) (initial : σ)
    (tag : Tag) : Pull (Values × σ) := do
  let written ← Pull.ofOption (tag.attributes?.bind (valuesOf? names))
  let values : Values := written.map fun (name, value) => (name, some value)
  let onAny (read : Values × σ) (child : Tag) : Pull (Values × σ) :=
    match attributeOf? names child with
    | none => return (read.1, ← onElement read.2 child)
    | some name =>
      if (read.1.lookup name).isSome then Pull.fail
      else return ((name, ← Pull.optional tag fun _ => Pull.textOnly) :: read.1, read.2)
  Pull.content (fun read => return (read.1, ← onText read.2)) onAny (values, initial)

def ignoreText (read : σ) : Pull σ := do
  let _ ← Pull.next
  return read

def refuseText (_ : σ) : Pull σ := Pull.fail

def skipElement (read : σ) (tag : Tag) : Pull σ := do
  let _ ← Pull.next
  Pull.skip tag
  return read

/-- Reads an element of which only attributes count. -/
def attributesOnly (names : List String) (tag : Tag) : Pull Values :=
  return (← record names ignoreText skipElement () tag).1

/-- Reads an element that holds elements of one name, all of them next to each other. -/
def listOf (name : String) (read : Tag → Pull α) (found : Option (List α)) (tag : Tag) :
    Pull (Option (List α)) :=
  if tag.isNamed name then once found (Pull.elements (·.name == tag.name) read)
  else skipElement found tag

/-- Reads the elements of a content that lists what it allows, up to one of the `others`. -/
def allowed (others : List String) (read : Tag → Pull α) (found : Option (List α)) :
    Pull (Option (List α)) :=
  once found (Pull.elements (fun tag => !others.any tag.isNamed) read)

/-- Reads an element as the item for its name, and skips what is in it. -/
def skipAs (items : List (String × α)) (tag : Tag) : Pull α :=
  match items.find? (tag.isNamed ·.1) with
  | none => Pull.fail
  | some (_, item) => do
    Pull.skip tag
    return item

def property (tag : Tag) : Pull PropertyDecl := do
  let values ← attributesOnly
    ["Name", "Type", "Nullable", "DefaultValue", "MaxLength", "Precision", "Scale"] tag
  return {
    name := values.get "Name"
    typeName := values.get "Type"
    nullable := values.get "Nullable"
    defaultValue := values.get "DefaultValue"
    maxLength := values.get "MaxLength"
    precision := values.get "Precision"
    scale := values.get "Scale" }

def typeItem (tag : Tag) : Pull TypeItem := do
  if tag.isNamed "Property" then return .property (← property tag)
  else skipAs [("NavigationProperty", .navigationProperty), ("Annotation", .note)] tag

def key (tag : Tag) : Pull KeyDecl := do
  let reference (tag : Tag) : Pull KeyReference :=
    return ⟨(← attributesOnly ["Name"] tag).get "Name"⟩
  return ⟨(← record [] ignoreText (listOf "PropertyRef" reference) none tag).2.getD []⟩

/-- The parts of an entity type: its key and its items. -/
abbrev EntityParts := Option (Option KeyDecl) × Option (List TypeItem)

/-- The key of an entity type stands before or after its items. -/
def entityType (tag : Tag) : Pull EntityTypeDecl := do
  let part (read : EntityParts) (child : Tag) : Pull EntityParts := do
    if child.isNamed "Key" then return (← once read.1 (Pull.optional tag key), read.2)
    else if child.isNamed "$value" then Pull.fail
    else return (read.1, ← allowed ["@Name", "Key", "$value"] typeItem read.2)
  let (values, key, items) ← record ["Name"] refuseText part (none, none) tag
  return { name := values.get "Name", key := key.join, items := items.getD [] }

/-- Reads an element that lists what it allows. -/
def listing (names : List String) (read : Tag → Pull α) (tag : Tag) :
    Pull (Values × List α) := do
  let others := "$value" :: names.map ("@" ++ ·)
  let item (found : Option (List α)) (child : Tag) : Pull (Option (List α)) :=
    if child.isNamed "$value" then Pull.fail else allowed others read found
  let (values, items) ← record names refuseText item none tag
  return (values, items.getD [])

def complexType (tag : Tag) : Pull ComplexTypeDecl := do
  let (values, items) ← listing ["Name"] typeItem tag
  return { name := values.get "Name", items }

def parameter (tag : Tag) : Pull ParameterDecl := do
  let values ← attributesOnly ["Name", "Type"] tag
  return { name := values.get "Name", typeName := values.get "Type" }

/-- The parts of a function: its parameters and its return type. -/
abbrev FunctionParts := Option (List ParameterDecl) × Option (Option ReturnTypeDecl)

def function (tag : Tag) : Pull FunctionDecl := do
  let result (tag : Tag) : Pull ReturnTypeDecl :=
    return ⟨(← attributesOnly ["Type"] tag).get "Type"⟩
  let part (read : FunctionParts) (child : Tag) : Pull FunctionParts := do
    if child.isNamed "ReturnType" then
      return (read.1, ← once read.2 (Pull.optional tag result))
    else return (← listOf "Parameter" parameter read.1 child, read.2)
  let (values, parameters, returnType) ← record ["Name"] ignoreText part (none, none) tag
  return {
    name := values.get "Name"
    parameters := parameters.getD []
    returnType := returnType.join }

def containerItem (tag : Tag) : Pull ContainerItem := do
  if tag.isNamed "EntitySet" then
    let values ← attributesOnly ["Name", "EntityType"] tag
    return .entitySet { name := values.get "Name", entityType := values.get "EntityType" }
  else
    skipAs [("Singleton", .singleton), ("FunctionImport", .functionImport),
      ("ActionImport", .actionImport), ("Annotation", .note)] tag

def container (tag : Tag) : Pull ContainerDecl := do
  let (values, items) ← listing ["Name"] containerItem tag
  return { name := values.get "Name", items }

def schemaItem (tag : Tag) : Pull SchemaItem := do
  if tag.isNamed "EntityContainer" then return .container (← container tag)
  else if tag.isNamed "EntityType" then return .entityType (← entityType tag)
  else if tag.isNamed "ComplexType" then return .complexType (← complexType tag)
  else if tag.isNamed "Function" then return .function (← function tag)
  else
    skipAs [("EnumType", .enumType), ("TypeDefinition", .typeDefinition), ("Action", .action),
      ("Term", .term), ("Annotation", .note), ("Annotations", .notes)] tag

def schema (tag : Tag) : Pull SchemaDecl := return ⟨(← listing [] schemaItem tag).2⟩

def dataServices (tag : Tag) : Pull DataServices := do
  return ⟨(← record [] ignoreText (listOf "Schema" schema) none tag).2.getD []⟩

/-- The document in the root element of its markup, whose name does not count. -/
def document : Pull Document := do
  match ← Pull.next with
  | .start root =>
    let part (found : Option (Option DataServices)) (child : Tag) :
        Pull (Option (Option DataServices)) :=
      if child.isNamed "DataServices" then once found (Pull.optional root dataServices)
      else skipElement found child
    return ⟨(← record [] ignoreText part none root).2.join⟩
  | _ => Pull.fail

/-- The document of a text. What follows its root element is not read. -/
def Document.ofText? (text : String) : Option Document :=
  (StateT.run document (Cursor.ofText text)).map (·.1)

end FilterSql.Csdl
