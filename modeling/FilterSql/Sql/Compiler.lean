import FilterSql.Catalog.Column
import FilterSql.Catalog.Function
import FilterSql.Filter.Parser
import FilterSql.Geodesy.Reprojection
import FilterSql.Sql.Options
import FilterSql.Sql.Table
import FilterSql.Sql.Template

/-!
# Compiling filters to SQL

Every literal of a filter is bound to a parameter of its own; of all literals only `null` is written
into the text, as the keyword `NULL`. Parameters are numbered from one in the order in which they are
bound.

Spatial literals are reprojected to the storage system. A literal that cannot be reprojected is bound
as it stands.
-/

namespace FilterSql.Sql

open FilterSql.Filter Catalog

inductive CompileError
  | unknownProperty (path : String)
  | unknownFunction (name : String)
  | argumentCount (function : String) (expected actual : Nat)
  | unknownOperator (token : String)
  | nullComparison (token : String)
  | notALiteral (text : String)
  | inTypeMismatch (value path : String)
deriving Repr, DecidableEq

def CompileError.message : CompileError → String
  | .unknownProperty path => s!"Unknown property '{path}'."
  | .unknownFunction name => s!"Unknown function '{name}'."
  | .argumentCount function expected actual =>
    s!"Function '{function}' expects {expected} arguments, but {actual} were provided."
  | .unknownOperator token => s!"Unknown operator '{token}'."
  | .nullComparison token => s!"Operator '{token}' cannot be used to compare with null."
  | .notALiteral text => s!"'{text}' must be a literal value."
  | .inTypeMismatch value path =>
    s!"Type mismatch in IN clause: '{value}' does not match type of '{path}'"

inductive ComparisonOperator
  | eq
  | ne
  | gt
  | ge
  | lt
  | le
deriving Repr, DecidableEq

/-- The operator of a keyword in any case. -/
def ComparisonOperator.ofToken? (token : String) : Option ComparisonOperator :=
  [("eq", .eq), ("ne", .ne), ("gt", .gt), ("ge", .ge), ("lt", .lt), ("le", .le)].lookup
    (Text.foldCase token)

def ComparisonOperator.sql : ComparisonOperator → String
  | .eq => "="
  | .ne => "<>"
  | .gt => ">"
  | .ge => ">="
  | .lt => "<"
  | .le => "<="

/-- The parameters bound so far, and how many have been numbered. -/
structure Bindings where
  count : Nat
  table : Table Nat Value

def Bindings.empty : Bindings := ⟨0, .empty⟩

/-- A step of a compilation: it may bind parameters, and it may fail. -/
abbrev Compile := StateT Bindings (Except CompileError)

/-- A compiled operand. The unit of a distance is the parameter bound to its second argument. -/
structure Operand where
  fragment : Fragment
  unit : Option Nat := none

/-- A condition and the values of its parameters; no condition for an empty filter. -/
structure Predicate where
  sql : Option String
  parameters : Table String Value

def Predicate.empty : Predicate := ⟨none, .empty⟩

structure Compiler where
  columns : ColumnMap
  catalog : FunctionCatalog
  options : Options

/-- Metres in one degree at the equator. -/
def metersPerDegree : Nat := 111320

/-- Binds a value to the next parameter. -/
def bindValue (value : Value) : Compile Fragment := fun b =>
  .ok (.param (b.count + 1), ⟨b.count + 1, b.table.insert (b.count + 1) value⟩)

/-- The condition that an operand is or is not null. Only equality can be tested. -/
def nullTest (op : ComparisonOperator) (token : String) (operand : Fragment) :
    Except CompileError Clause :=
  match op with
  | .eq => .ok (operand.toClause ++ .ofString " IS NULL")
  | .ne => .ok (operand.toClause ++ .ofString " IS NOT NULL")
  | _ => .error (.nullComparison token)

/-- The comparison of two operands; a comparison with `NULL` is a null test of the other one. -/
def compareFragments (token : String) (left right : Fragment) : Except CompileError Clause :=
  match ComparisonOperator.ofToken? token with
  | none => .error (.unknownOperator token)
  | some op =>
    match left, right with
    | l, .null => nullTest op token l
    | .null, r => nullTest op token r
    | l, r => .ok (l.toClause ++ .ofString (" " ++ op.sql ++ " ") ++ r.toClause)

/-- Drops the parameter of a unit, and expresses a threshold in metres in degrees. -/
def convertThreshold (unit : Nat) (threshold : Fragment) : Compile Fragment := fun b =>
  let name := ((b.table.get? unit).map (·.text)).getD ""
  let table := b.table.erase unit
  if !Text.sameName name "m" then .ok (threshold, { b with table })
  else
    match threshold with
    | .null => .ok (.null, { b with table })
    | .param n =>
      match (table.get? n).bind (·.toFloat?) with
      | some meters =>
        let degrees := meters / Float.ofNat metersPerDegree
        .ok (.param n, { b with table := table.insert n (.double degrees) })
      | none => .ok (.param n, { b with table })
    | .clause c =>
      let divided := c ++ .ofString (" / " ++ toString metersPerDegree ++ ".0")
      .ok (.clause divided.parenthesized, { b with table })

/-- Adds the wildcard of a function to a pattern: to the value of a parameter, or by concatenation in
SQL. -/
def wildcard (f : SqlFunction) (pattern : Fragment) : Compile Fragment := fun b =>
  match pattern with
  | .param n =>
    match b.table.get? n with
    | some value =>
      let table := b.table.insert n (.string (f.applyWildcard value.text))
      .ok (.param n, { b with table })
    | none => .ok (concatenated, b)
  | _ => .ok (concatenated, b)
where
  concatenated : Fragment :=
    let symbol := Clause.ofString ("'" ++ Text.replace "'" "''" f.symbol ++ "'")
    let bars := Clause.ofString " || "
    let c := pattern.toClause
    match f.wildcardSide with
    | some .right => .clause (c ++ bars ++ symbol)
    | some .left => .clause (symbol ++ bars ++ c)
    | some .both => .clause (symbol ++ bars ++ c ++ bars ++ symbol)
    | none => .clause c

/-- The wildcard goes to the second of several arguments. -/
def wildcardArguments (f : SqlFunction) : List Fragment → Compile (List Fragment)
  | first :: second :: others =>
    if f.wildcardSide.isSome then do
      let pattern ← wildcard f second
      return first :: pattern :: others
    else return first :: second :: others
  | args => return args

/-- The text of an operand that is a quoted literal. -/
def quoted? : Expr → Option String
  | .primary text => if Literal.isQuoted text then some text else none
  | _ => none

namespace Compiler

/-- Binds a literal. A quoted geometry is reprojected to the storage system. -/
def literal (c : Compiler) (text : String) : Compile Fragment :=
  if Literal.isQuoted text && Literal.isSpatial text then
    let written := Literal.unquote text
    match Geodesy.reprojectText c.options.sourceSrid Geodesy.storageSrid written with
    | .ok moved => bindValue (.string moved)
    | .error _ => bindValue (.string written)
  else bindValue (Literal.value text)

def primary (c : Compiler) (text : String) : Compile Fragment :=
  if Literal.isNull text then return .null
  else if Literal.isLiteral text then c.literal text
  else
    match c.columns.get? text with
    | some column => return .clause (.ofString column.filterSql)
    | none => throw (.unknownProperty text)

/-- Binds a quoted argument. Where a string is expected it is bound as written. -/
def argumentLiteral (c : Compiler) (f : SqlFunction) (index : Nat) (text : String) :
    Compile Fragment :=
  if f.argumentFamily index = .string then bindValue (Literal.value text) else c.literal text

/-- The arguments of a call, or the one quoted argument that only its text shows. -/
def recoverArguments (c : Compiler) (f : SqlFunction) (raw : String) (args : List Fragment) :
    Compile (List Fragment) :=
  if args.isEmpty && f.arity == 1 then
    match (Expr.recoveredArgument? raw).filter Literal.isQuoted with
    | some text => do return [← c.argumentLiteral f 0 text]
    | none => return args
  else return args

/-- The SQL of a call with compiled arguments. -/
def callClause (f : SqlFunction) (args : List Fragment) : Clause :=
  let template := Text.replace "@srid" (toString Geodesy.storageSrid) f.template
  let filled := Template.fill template (args.map (·.toClause))
  if f.returnsBoolean then (filled.parenthesized ++ .ofString " = 1").parenthesized else filled

/-- The parameter that holds the unit of a distance. -/
def unitOf (f : SqlFunction) : List Fragment → Option Nat
  | _ :: .param n :: _ => if f.isDistance then some n else none
  | _ => none

/-- Completes a call once its arguments are compiled. -/
def finishCall (c : Compiler) (f : SqlFunction) (name raw : String) (args : List Fragment) :
    Compile Operand := do
  let args ← c.recoverArguments f raw args
  if args.length ≠ f.arity then throw (.argumentCount name f.arity args.length)
  let args ← wildcardArguments f args
  return ⟨.clause (callClause f args), unitOf f args⟩

/-- Binds the values of a list, which must be literals of the declared kind. -/
def listValues (declared : Option Edm.Kind) (path : String) : List String → Compile (List Clause)
  | [] => return []
  | value :: rest => do
    if !Literal.isLiteral value then throw (.notALiteral value)
    if !(declared.all (Literal.fits · value)) then
      throw (.inTypeMismatch (Literal.unquote value) path)
    let first ← bindValue (Literal.value value)
    return first.toClause :: (← listValues declared path rest)

/-- The kind declared for the left side of a list. -/
def declaredKind (c : Compiler) : Expr → Option Edm.Kind
  | .primary path => (c.columns.get? path).map (·.kind)
  | _ => none

/-- A connective puts connectives below it in parentheses. -/
def connected (e : Expr) (f : Fragment) : Clause :=
  if e.isLogical then f.toClause.parenthesized else f.toClause

mutual

/-- Compiles an expression. On the left side of a comparison, where `leading` is set, groups around a
call are dropped. -/
def operand (c : Compiler) (leading : Bool) : Expr → Compile Operand
  | .primary text => return ⟨← c.primary text, none⟩
  | .call name args raw =>
    match c.catalog.get? name with
    | none => throw (.unknownFunction name)
    | some f => do
      let args ← c.arguments f 0 args
      c.finishCall f name raw args
  | .not e => do
    let inner ← c.operand false e
    return ⟨.clause (.ofString "NOT " ++ inner.fragment.toClause.parenthesized), none⟩
  | .group e =>
    if leading && e.ungrouped.isCall then c.operand true e
    else do
      let inner ← c.operand false e
      return ⟨.clause inner.fragment.toClause.parenthesized, none⟩
  | .comparison op l r => do
    let left ← c.operand true l
    let right ← c.operand false r
    let right ← match left.unit with
      | some unit => convertThreshold unit right.fragment
      | none => pure right.fragment
    return ⟨.clause (← compareFragments op left.fragment right), none⟩
  | .logical op l r => do
    let left ← c.operand false l
    let right ← c.operand false r
    let joined := connected l left.fragment ++ .ofString (" " ++ op.sql ++ " ") ++
      connected r right.fragment
    return ⟨.clause joined, none⟩
  | .inList l values => do
    let left ← c.operand false l
    let values ← listValues (c.declaredKind l) l.text values
    let joined : Clause := List.intercalate (Clause.ofString ",") values
    return ⟨.clause (left.fragment.toClause ++ .ofString " IN " ++ joined.parenthesized), none⟩

/-- Compiles the arguments of a call, the first of which has the given index. -/
def arguments (c : Compiler) (f : SqlFunction) (index : Nat) : List Expr → Compile (List Fragment)
  | [] => return []
  | e :: es => do
    let first ← match quoted? e with
      | some text => c.argumentLiteral f index text
      | none => (·.fragment) <$> c.operand false e
    return first :: (← c.arguments f (index + 1) es)

end

/-- Compiles an expression to a condition with the values of its parameters. -/
def compile (c : Compiler) (e : Expr) : Except CompileError Predicate := do
  let (operand, bindings) ← (c.operand false e).run .empty
  return ⟨some (operand.fragment.toClause.render c.options.sigil),
    bindings.table.mapKeys (parameterName c.options.sigil)⟩

end Compiler

end FilterSql.Sql
