import FilterSql.Proofs.ListedChains
import FilterSql.Proofs.StringLiterals

/-!
# Filters on leaves

A leaf of an entity type is listed with its path. If the names of a schema are identifiers, that path
can be filtered on as it is: it is one token, the check finds its way along it, and the columns made
of the leaves have one of its name.

## Main statements

* `Pipeline.process_leaf`: a leaf can be compared with `null`, whatever the catalog is.
-/

namespace FilterSql

open Text FilterSql.Filter Schema Catalog Sql

/-! ## Identifiers -/

namespace Text

def isIdentifierStart (c : Char) : Bool := c.isAlpha || c == '_'

def isIdentifierChar (c : Char) : Bool := c.isAlphanum || c == '_'

/-- ASCII letters, digits and underscores, the first of them no digit. -/
def isIdentifier (s : String) : Bool :=
  s.toList.head?.any isIdentifierStart && s.toList.all isIdentifierChar

theorem isAscii_of_isIdentifierChar {c : Char} (h : isIdentifierChar c = true) :
    c.toNat < 0x80 := by
  rcases Bool.or_eq_true_iff.1 h with letter | underscore
  · -- each class ends below the limit
    rcases Bool.or_eq_true_iff.1 letter with alpha | digit
    · rcases Bool.or_eq_true_iff.1 alpha with upper | lower
      · have le : c.toNat ≤ 90 := UInt32.le_iff_toNat_le.1 (of_decide_eq_true upper).2
        omega
      · have le : c.toNat ≤ 122 :=
          UInt32.le_iff_toNat_le.1 (of_decide_eq_true (Bool.and_eq_true_iff.1 lower).2)
        omega
    · have le : c.toNat ≤ 57 :=
        UInt32.le_iff_toNat_le.1 (of_decide_eq_true (Bool.and_eq_true_iff.1 digit).2)
      omega
  · cases eq_of_beq underscore
    decide

theorem isWordStart_of_isIdentifierStart {c : Char} (h : isIdentifierStart c = true) :
    isWordStart c = true := by
  rcases Bool.or_eq_true_iff.1 h with letter | underscore
  · have ascii : c.toNat < 0x80 :=
      isAscii_of_isIdentifierChar (by simp [isIdentifierChar, Char.isAlphanum, letter])
    simp [isWordStart, isLetter, ascii, letter]
  · simp [isWordStart, underscore]

theorem isWordChar_of_isIdentifierChar {c : Char} (h : isIdentifierChar c = true) :
    isWordChar c = true := by
  have ascii := isAscii_of_isIdentifierChar h
  rcases Bool.or_eq_true_iff.1 h with letter | underscore
  · have either : isLetterOrNumber c = true := by
      simpa [isLetterOrNumber, isLetter, isNumber, ascii, Char.isAlphanum] using letter
    simp [isWordChar, either]
  · simp [isWordChar, underscore]

end Text

/-! ## The words of paths -/

namespace Filter

theorem isRead_of_isWord {s : String} (h : Literal.IsWord s) : Token.IsRead ⟨"", .word, s⟩ := by
  obtain ⟨c, run, eq, text⟩ := h
  refine ⟨nofun, ?_⟩
  rw [eq]
  exact text.exists_lexeme

/-- A word is no literal, if it is neither `null` nor a truth value. -/
theorem isLiteral_of_isWord {s : String} (h : Literal.IsWord s)
    (notLiteral : ∀ word ∈ ["true", "false", "null"], sameName s word = false) :
    Literal.isLiteral s = false := by
  have isTrue := notLiteral "true" (by decide)
  have isFalse := notLiteral "false" (by decide)
  have isNull := notLiteral "null" (by decide)
  simp [h.isLiteral_eq, Literal.isNull, h.trim_eq, Literal.readBool?, isTrue, isFalse, isNull]

end Filter

namespace Schema

/-- The properties of a type have identifiers for names, which differ in more than case and are no
literals; there are no blanks around the names of their types, and they have the kinds of these, as
every property has that is made plain or read from a document. -/
structure StructuredType.WellNamed (t : StructuredType) : Prop where
  identifiers : ∀ p ∈ t.properties, isIdentifier p.name = true
  distinct : t.properties.Pairwise fun p q => sameName p.name q.name = false
  notLiteral : ∀ p ∈ t.properties, ∀ word ∈ ["true", "false", "null"], sameName p.name word = false
  trimmed : ∀ p ∈ t.properties, trim p.typeName = p.typeName
  kinds : ∀ p ∈ t.properties, p.kind = .ofTypeName p.typeName

/-- All types of a schema are well named. -/
structure Model.WellNamed (m : Model) : Prop where
  entityTypes : ∀ t ∈ m.entityTypes, t.toStructuredType.WellNamed
  complexTypes : ∀ t ∈ m.complexTypes, t.WellNamed

instance (t : StructuredType) : Decidable t.WellNamed :=
  decidable_of_iff
    ((∀ p ∈ t.properties, isIdentifier p.name = true) ∧
      (t.properties.Pairwise fun p q => sameName p.name q.name = false) ∧
      (∀ p ∈ t.properties, ∀ word ∈ ["true", "false", "null"], sameName p.name word = false) ∧
      (∀ p ∈ t.properties, trim p.typeName = p.typeName) ∧
      ∀ p ∈ t.properties, p.kind = .ofTypeName p.typeName)
    ⟨fun ⟨identifiers, distinct, notLiteral, trimmed, kinds⟩ =>
      ⟨identifiers, distinct, notLiteral, trimmed, kinds⟩,
      fun h => ⟨h.identifiers, h.distinct, h.notLiteral, h.trimmed, h.kinds⟩⟩

instance (m : Model) : Decidable m.WellNamed :=
  decidable_of_iff
    ((∀ t ∈ m.entityTypes, t.toStructuredType.WellNamed) ∧ ∀ t ∈ m.complexTypes, t.WellNamed)
    ⟨fun ⟨entityTypes, complexTypes⟩ => ⟨entityTypes, complexTypes⟩,
      fun h => ⟨h.entityTypes, h.complexTypes⟩⟩

theorem exists_cons_of_isIdentifier {s : String} (h : isIdentifier s = true) :
    ∃ c run, s.toList = c :: run ∧ isIdentifierStart c = true ∧
      ∀ d ∈ c :: run, isIdentifierChar d = true := by
  obtain ⟨starts, all⟩ := Bool.and_eq_true_iff.1 h
  cases eq : s.toList with
  | nil => simp [eq] at starts
  | cons c run =>
    rw [eq] at starts all
    exact ⟨c, run, rfl, by simpa using starts, List.all_eq_true.1 all⟩

theorem isWord_of_isIdentifier {s : String} (h : isIdentifier s = true) : Literal.IsWord s := by
  obtain ⟨c, run, eq, starts, all⟩ := exists_cons_of_isIdentifier h
  exact ⟨c, run, eq, isWordStart_of_isIdentifierStart starts, fun d member =>
    isWordChar_of_isIdentifierChar (all d (List.mem_cons_of_mem c member))⟩

theorem StructuredType.WellNamed.navigable {t : StructuredType} (h : t.WellNamed) :
    t.Navigable where
  distinct := h.distinct
  notLiteral p member :=
    isLiteral_of_isWord (isWord_of_isIdentifier (h.identifiers p member)) (h.notLiteral p member)
  trimmed := h.trimmed
  kinds := h.kinds

/-- The path along a chain starts like an identifier and goes on with identifiers and slashes. -/
theorem pathOf_chars {p : Property} {chain : List Property}
    (h : ∀ q ∈ p :: chain, isIdentifier q.name = true) :
    ∃ c run, (pathOf (p :: chain)).toList = c :: run ∧ isIdentifierStart c = true ∧
      ∀ d ∈ c :: run, isIdentifierChar d = true ∨ d = '/' := by
  obtain ⟨c, run, eq, starts, all⟩ := exists_cons_of_isIdentifier (h p List.mem_cons_self)
  induction chain generalizing p c run with
  | nil => exact ⟨c, run, by simpa [pathOf] using eq, starts, fun d member => .inl (all d member)⟩
  | cons q chain ih =>
    have others : ∀ q' ∈ q :: chain, isIdentifier q'.name = true :=
      fun q' member => h q' (List.mem_cons_of_mem p member)
    obtain ⟨c', run', eq', starts', all'⟩ :=
      exists_cons_of_isIdentifier (others q List.mem_cons_self)
    obtain ⟨d, rest, path, -, chars⟩ := ih others c' run' eq' starts' all'
    refine ⟨c, run ++ '/' :: d :: rest, by simp [pathOf_cons, eq, path], starts, ?_⟩
    intro x member
    rcases List.mem_append.1 (List.cons_append ▸ member : x ∈ (c :: run) ++ '/' :: d :: rest) with
      member | member
    · exact .inl (all x member)
    · rcases List.mem_cons.1 member with rfl | member
      · exact .inr rfl
      · exact chars x member

theorem isWord_pathOf {p : Property} {chain : List Property}
    (h : ∀ q ∈ p :: chain, isIdentifier q.name = true) :
    Literal.IsWord (pathOf (p :: chain)) := by
  obtain ⟨c, run, eq, starts, all⟩ := pathOf_chars h
  refine ⟨c, run, eq, isWordStart_of_isIdentifierStart starts, fun d member => ?_⟩
  rcases all d (List.mem_cons_of_mem c member) with isChar | rfl
  · exact isWordChar_of_isIdentifierChar isChar
  · decide

theorem isAscii_pathOf {p : Property} {chain : List Property}
    (h : ∀ q ∈ p :: chain, isIdentifier q.name = true) : isAscii (pathOf (p :: chain)) = true := by
  obtain ⟨c, run, eq, -, all⟩ := pathOf_chars h
  refine List.all_eq_true.2 fun d member => decide_eq_true ?_
  rw [eq] at member
  rcases all d member with isChar | rfl
  · exact isAscii_of_isIdentifierChar isChar
  · decide

/-- The names on a chain are the segments of its path. -/
theorem segments_pathOf {p : Property} {chain : List Property}
    (h : ∀ q ∈ p :: chain, isIdentifier q.name = true) :
    (segments '/' (pathOf (p :: chain))).map trim = (p :: chain).map (·.name) := by
  have isWord : ∀ q ∈ p :: chain, Literal.IsWord q.name :=
    fun q member => isWord_of_isIdentifier (h q member)
  have plain : ∀ name ∈ (p :: chain).map (·.name), '/' ∉ name.toList := by
    intro name member slash
    obtain ⟨q, declared, rfl⟩ := List.mem_map.1 member
    obtain ⟨c, run, eq, -, all⟩ := exists_cons_of_isIdentifier (h q declared)
    exact absurd (all '/' (eq ▸ slash)) (by decide)
  have cut : segments '/' (pathOf (p :: chain)) = (p :: chain).map (·.name) :=
    segments_intercalate plain
  rw [cut, List.map_map]
  exact List.map_congr_left fun q member => (isWord q member).trim_eq

end Schema

/-! ## The columns of leaves -/

namespace Catalog

/-- The name of a column for a path: its letters made small, and an underscore for each slash. -/
def columnName (path : String) : String :=
  String.ofList (path.toList.map fun c => if c == '/' then '_' else c.toLower)

theorem columnName_eq (path : String) :
    columnName path =
      foldCase (String.ofList (path.toList.map fun c => if c == '/' then '_' else c)) := by
  rw [columnName, foldCase, String.toList_ofList, List.map_map]
  refine congrArg String.ofList (List.map_congr_left fun c _ => ?_)
  by_cases slash : c = '/' <;> simp [slash]

theorem columnName_congr {s t : String} (same : sameName s t = true) :
    columnName s = columnName t := by
  have slash : IgnoresCase (· == '/') := ignoresCase_of_capitals (by decide)
  have small (path : String) : columnName path =
      String.ofList ((path.toList.map Char.toLower).map fun c => if c == '/' then '_' else c) := by
    rw [columnName, List.map_map]
    refine congrArg String.ofList (List.map_congr_left fun c _ => ?_)
    simp only [Function.comp_apply, slash c]
  rw [small, small, sameName_iff.1 same]

theorem Column.filterSql_ofLeaf {leaf : Leaf} (ascii : isAscii leaf.path = true) :
    (Column.ofLeaf leaf).filterSql = columnName leaf.path := by
  have underscored : isAscii
      (String.ofList (leaf.path.toList.map fun c => if c == '/' then '_' else c)) = true := by
    simp only [isAscii, String.toList_ofList, List.all_map, List.all_eq_true] at ascii ⊢
    intro c member
    by_cases slash : c = '/'
    · simp [slash]
    · simpa [slash] using ascii c member
  rw [columnName_eq, ← toLower_eq_foldCase underscored]
  rfl

/-- Every leaf has a column, perhaps that of another leaf whose path differs in case only. -/
theorem ColumnMap.get?_ofLeaves {leaves : List Leaf} {leaf : Leaf} (member : leaf ∈ leaves)
    (ascii : ∀ leaf ∈ leaves, isAscii leaf.path = true) :
    ∃ column, (ofLeaves leaves).get? leaf.path = some column ∧
      column.filterSql = columnName leaf.path := by
  cases found : (ofLeaves leaves).get? leaf.path with
  | none =>
    have other := List.find?_eq_none.1 found (Column.ofLeaf leaf) (List.mem_map_of_mem member)
    exact absurd (sameName_refl leaf.path) other
  | some column =>
    obtain ⟨first, member, rfl⟩ := List.mem_map.1 (List.mem_of_find?_eq_some found)
    have same : sameName (Column.ofLeaf first).path leaf.path = true := by
      simpa using List.find?_some found
    exact ⟨_, rfl, (Column.filterSql_ofLeaf (ascii first member)).trans (columnName_congr same)⟩

end Catalog

/-! ## The whole way -/

namespace Schema

variable {m : Model} {name : String} {entity : EntityType} {leaf : Leaf}

/-- A leaf of an entity type is the end of a chain of properties with identifiers for names, along which
the check of its path goes. -/
theorem Model.WellNamed.exists_chain (h : m.WellNamed) (named : m.entityType? name = some entity)
    (member : leaf ∈ m.leaves name none) :
    ∃ p rest, p ∈ entity.properties ∧ leaf.path = pathOf (p :: rest) ∧
      (∀ q ∈ p :: rest, isIdentifier q.name = true) ∧
      Validation.walkPath m entity leaf.path = .ok (p :: rest).getLast? := by
  obtain ⟨chain, ⟨names, descends, -⟩, path, -⟩ := (mem_leaves_iff named).1 member
  have wellNamed := h.entityTypes entity (List.mem_of_find?_eq_some named)
  have identifiers : ∀ q ∈ chain.map (·.1), isIdentifier q.name = true :=
    descends.forall_mem (fun x member => wellNamed.identifiers _ (List.fst_mem_of_mem_zipIdx member))
      fun t member => (h.complexTypes t member).identifiers
  have walked := descends.walk_eq (fun t member => (h.complexTypes t member).navigable)
    wellNamed.navigable none
  obtain ⟨x, others, rfl, declared⟩ := descends.exists_cons
  rw [List.map_cons] at path identifiers walked
  refine ⟨x.1, others.map Prod.fst, List.fst_mem_of_mem_zipIdx declared, path, identifiers, ?_⟩
  rw [Validation.walkPath, path]
  exact (segments_pathOf identifiers).symm ▸ walked

/-- A path with a slash in it is no keyword, and one without has the name of a property. -/
theorem Model.WellNamed.isLiteral_eq (h : m.WellNamed) {p : Property} {chain : List Property}
    (member : entity ∈ m.entityTypes) (declared : p ∈ entity.properties)
    (identifiers : ∀ q ∈ p :: chain, isIdentifier q.name = true) :
    Literal.isLiteral (pathOf (p :: chain)) = false := by
  refine isLiteral_of_isWord (isWord_pathOf identifiers) fun word isWord => ?_
  cases chain with
  | nil => simpa [pathOf] using (h.entityTypes entity member).notLiteral p declared word isWord
  | cons q rest =>
    rw [Bool.eq_false_iff]
    intro same
    have plain : ["true", "false", "null"].all (·.toList.all (· != '/')) = true := by decide
    have noSlash : IgnoresCase (· != '/') := ignoresCase_of_capitals (by decide)
    have slash := forall_mem_of_map_toLower noSlash (sameName_iff.1 same).symm
      (List.all_eq_true.1 (List.all_eq_true.1 plain word isWord)) '/' (by simp [pathOf_cons])
    cases slash

end Schema

namespace Pipeline

/-- Every leaf of an entity type can be compared with `null`, if names are identifiers other than
keywords and constants: the filter passes each stage, and is one condition on the leaf's column. The
catalog and the other options do not matter. -/
theorem process_leaf {p : Pipeline} {set name : String} {entity : EntityType} {leaf : Leaf}
    (wellNamed : p.schema.WellNamed) (resolved : p.schema.entityTypeOfSet? set = some entity)
    (named : p.schema.entityType? name = some entity)
    (columns : p.columns = .ofLeaves (p.schema.leaves name none))
    (member : leaf ∈ p.schema.leaves name none)
    (notReserved : ∀ word ∈ ["and", "or", "not", "in"], sameName leaf.path word = false)
    (short : (leaf.path ++ " eq null").length ≤ p.options.maxLength) :
    p.process (leaf.path ++ " eq null") set =
      .ok ⟨some (columnName leaf.path ++ " IS NULL"), .empty⟩ := by
  obtain ⟨q, rest, declared, path, identifiers, walked⟩ := wellNamed.exists_chain named member
  have isWord : Literal.IsWord leaf.path := path ▸ isWord_pathOf identifiers
  have notLiteral : Literal.isLiteral leaf.path = false :=
    path ▸ wellNamed.isLiteral_eq (List.mem_of_find?_eq_some named) declared identifiers
  have isName : Token.IsName ⟨"", .word, leaf.path⟩ :=
    Token.isName_word "" (by simpa [reservedWords] using notReserved)
  have valid : p.validator.validate (equality leaf.path "null") set = .ok () := by
    have checkedPath : p.validator.check entity (.primary leaf.path) = .ok () := by
      simp [Validator.check, notLiteral, validator, walked, Except.map]
    have checkedNull : p.validator.check entity (.primary "null") = .ok () := by
      simp [Validator.check, Literal.isLiteral_of_isNull (s := "null") (by decide)]
    exact Validator.validate_eq_ok.2
      ⟨entity, resolved, Validator.bind_eq_ok.2 ⟨checkedPath, checkedNull⟩⟩
  have ascii : ∀ leaf ∈ p.schema.leaves name none, isAscii leaf.path = true := by
    intro leaf member
    obtain ⟨q, rest, -, path, identifiers, -⟩ := wellNamed.exists_chain named member
    exact path ▸ isAscii_pathOf identifiers
  obtain ⟨column, mapped, sql⟩ := ColumnMap.get?_ofLeaves member ascii
  rw [← columns] at mapped
  have text : leaf.path ++ " eq null" = leaf.path ++ " eq " ++ "null" := by
    simp [← String.toList_inj]
  rw [text] at short ⊢
  rw [process_equality (isRead_of_isWord isWord) isName isOperand_null,
    if_neg (Nat.not_lt.2 short), ← sql]
  exact finish_eq_ok.2 ⟨valid, Compiler.compile_null notLiteral mapped⟩

/-- Filters on the leaves of an entity type. -/
def ofLeaves (schema : Model) (entityType : String) : Pipeline where
  schema := schema
  catalog := Compiler.shop.catalog
  columns := .ofLeaves (schema.leaves entityType none)
  options := Compiler.shop.options

/-- Persons with an address, in a region that may lie in another one. -/
def people : Model where
  entityTypes := [⟨⟨"Person", [.plain "Name" "Edm.String", .plain "Home" "Demo.Address"]⟩, []⟩]
  complexTypes := [⟨"Address", [.plain "City" "Edm.String", .plain "Region" "Demo.Region"]⟩,
    ⟨"Region", [.plain "Code" "Edm.Int32", .plain "Parent" "Demo.Region"]⟩]
  functions := []
  containers := [⟨"Demo", [⟨"People", "Demo.Person"⟩]⟩]

theorem process_leaf_nested :
    people.WellNamed ∧ ⟨"Home/Region/Code", "Edm.Int32"⟩ ∈ people.leaves "Demo.Person" none ∧
      (ofLeaves people "Demo.Person").process ("Home/Region/Code" ++ " eq null") "people" =
        .ok ⟨some ("home_region_code" ++ " IS NULL"), .empty⟩ := by
  have wellNamed : people.WellNamed := by decide +kernel
  obtain ⟨entity, named, properties⟩ : ∃ entity, people.entityType? "Demo.Person" = some entity ∧
      entity.properties = [.plain "Name" "Edm.String", .plain "Home" "Demo.Address"] :=
    ⟨_, rfl, rfl⟩
  have resolved : people.entityTypeOfSet? "people" = some entity := named
  have address : people.complexType? (trim (Property.plain "Home" "Demo.Address").typeName) =
      some ⟨"Address", [.plain "City" "Edm.String", .plain "Region" "Demo.Region"]⟩ := by
    decide +kernel
  have region : people.complexType? (trim (Property.plain "Region" "Demo.Region").typeName) =
      some ⟨"Region", [.plain "Code" "Edm.Int32", .plain "Parent" "Demo.Region"]⟩ := by
    decide +kernel
  have code : people.Descends [(.plain "Code" "Edm.Int32", 0), (.plain "Parent" "Demo.Region", 1)]
      [(.plain "Code" "Edm.Int32", 0)] [] := .leaf (by decide) (by decide +kernel)
  have chain : people.IsAcyclicChain entity.toStructuredType
      [(.plain "Home" "Demo.Address", 1), (.plain "Region" "Demo.Region", 1),
        (.plain "Code" "Edm.Int32", 0)] := by
    refine ⟨["Address", "Region"], ?_, by decide⟩
    rw [properties]
    exact .enter (by decide) (by decide +kernel) (by decide +kernel) address
      (.enter (by decide) (by decide +kernel) (by decide +kernel) region code)
  have member : ⟨"Home/Region/Code", "Edm.Int32"⟩ ∈ people.leaves "Demo.Person" none :=
    (Model.mem_leaves_iff named).2 ⟨_, chain, by decide +kernel, by decide +kernel⟩
  have accepted := process_leaf (p := ofLeaves people "Demo.Person") wellNamed resolved named rfl
    member (by decide +kernel) (by decide +kernel)
  have column : columnName "Home/Region/Code" = "home_region_code" := by decide +kernel
  exact ⟨wellNamed, member, column ▸ accepted⟩

/-- Flags whose names are words of filters in capitals. -/
def flags : Model where
  entityTypes := [⟨⟨"Flag", [.plain "AND" "Edm.String", .plain "TRUE" "Edm.String"]⟩, []⟩]
  complexTypes := []
  functions := []
  containers := [⟨"Demo", [⟨"Flags", "Flag"⟩]⟩]

/-- Names must differ from the words of filters in more than case: a reserved word in capitals is not
read as a path, and a truth value in capitals is bound as a value. -/
theorem process_leaf_capitals :
    (∀ t ∈ flags.entityTypes, ∀ p ∈ t.properties, isIdentifier p.name = true ∧
      p.name ∉ ["true", "false", "null"] ∧ p.name ∉ ["and", "or", "not", "in"]) ∧
    flags.leaves "Flag" none = [⟨"AND", "Edm.String"⟩, ⟨"TRUE", "Edm.String"⟩] ∧
    (ofLeaves flags "Flag").process "AND eq null" "flags" =
      .error (.unreadable (.unexpectedToken "AND")) ∧
    (ofLeaves flags "Flag").process "TRUE eq null" "flags" =
      .ok ⟨some "@p1 IS NULL", ⟨[("@p1", .bool true)]⟩⟩ := by
  refine ⟨by decide +kernel, ?_, ?_, ?_⟩
  · have named : flags.entityType? "Flag" =
        some ⟨⟨"Flag", [.plain "AND" "Edm.String", .plain "TRUE" "Edm.String"]⟩, []⟩ := rfl
    have trimmed : trim "Edm.String" = "Edm.String" := by decide +kernel
    have primitive : isPrimitiveName "Edm.String" = true := by decide +kernel
    simp [Model.leaves, named, Model.leavesBelow, Property.plain, trimmed, primitive, childPath]
  · have body : trim (dropFilterName "AND eq null") = "AND eq null" := by decide +kernel
    have lowered : lowerFunctionNames (ofLeaves flags "Flag").knownFunctions "AND eq null" =
        "AND eq null" := by decide +kernel
    have tokens : spacedTokens (dropFilterName "AND eq null") =
        .ok [⟨"", .word, "AND"⟩, ⟨" ", .word, "eq"⟩, ⟨" ", .word, "null"⟩] :=
      eq_ok_of_toOption (by decide +kernel)
    have parsed : Expr.parse "AND eq null" = .error (.unexpectedToken "AND") := by
      simp only [Expr.parse_eq, tokens]
      rfl
    simp only [process, body, lowered, parsed]
    rfl
  · have read : Token.IsRead ⟨"", .word, "TRUE"⟩ := isRead_of_isPlainWord (by decide +kernel)
      (by simp)
    have text : "TRUE eq null" = "TRUE" ++ " eq " ++ "null" := rfl
    rw [text, process_equality read ⟨rfl, by decide⟩ isOperand_null, if_neg (by decide)]
    exact finish_eq_ok.2 ⟨rfl, rfl⟩

end Pipeline

end FilterSql
