import FilterSql.Calendar.Reader
import FilterSql.Calendar.Timestamp
import FilterSql.Catalog.Column
import FilterSql.Catalog.Function
import FilterSql.Cli.Argument
import FilterSql.Cli.Help
import FilterSql.Cli.Invocation
import FilterSql.Cli.Run
import FilterSql.Config.Basic
import FilterSql.Config.Layers
import FilterSql.Config.Variable
import FilterSql.Csdl.Document
import FilterSql.Csdl.Reader
import FilterSql.Decimal.Binary64
import FilterSql.Decimal.Layout
import FilterSql.Decimal.Reader
import FilterSql.Decimal.Shortest
import FilterSql.Decimal.Width
import FilterSql.Edm.Kind
import FilterSql.Filter.Expr
import FilterSql.Filter.FunctionNames
import FilterSql.Filter.Literal
import FilterSql.Filter.Parser
import FilterSql.Filter.Token
import FilterSql.Geodesy.Angle
import FilterSql.Geodesy.Datum
import FilterSql.Geodesy.Mercator
import FilterSql.Geodesy.ObliqueStereographic
import FilterSql.Geodesy.ReferenceSystem
import FilterSql.Geodesy.Reprojection
import FilterSql.Geodesy.TransverseMercator
import FilterSql.Geometry.Basic
import FilterSql.Geometry.Wkt.Outline
import FilterSql.Geometry.Wkt.Printer
import FilterSql.Geometry.Wkt.Reader
import FilterSql.Geometry.Wkt.Token
import FilterSql.Json.Catalog
import FilterSql.Json.Predicate
import FilterSql.Json.Reader
import FilterSql.Json.Record
import FilterSql.Json.Value
import FilterSql.Main
import FilterSql.Parser
import FilterSql.Pipeline
import FilterSql.Proofs.Acceptance
import FilterSql.Proofs.AlikeCompilation
import FilterSql.Proofs.AlikeFilters
import FilterSql.Proofs.AlikePhrases
import FilterSql.Proofs.AlikeTokens
import FilterSql.Proofs.Arithmetic
import FilterSql.Proofs.AsciiCase
import FilterSql.Proofs.BooleanStructure
import FilterSql.Proofs.CallText
import FilterSql.Proofs.CalledNames
import FilterSql.Proofs.CaseInsensitivity
import FilterSql.Proofs.Compile
import FilterSql.Proofs.DeclaredValues
import FilterSql.Proofs.DocumentSchemas
import FilterSql.Proofs.Expr
import FilterSql.Proofs.FilteredLeaves
import FilterSql.Proofs.FirstErrors
import FilterSql.Proofs.Grammar
import FilterSql.Proofs.InStep
import FilterSql.Proofs.Leaves
import FilterSql.Proofs.Lexing
import FilterSql.Proofs.ListedChains
import FilterSql.Proofs.ListsAndEqualities
import FilterSql.Proofs.LiteralForms
import FilterSql.Proofs.LiteralIndependence
import FilterSql.Proofs.LiteralOccurrences
import FilterSql.Proofs.LiteralParameters
import FilterSql.Proofs.Literals
import FilterSql.Proofs.LocatedErrors
import FilterSql.Proofs.LoweredNames
import FilterSql.Proofs.LoweredText
import FilterSql.Proofs.MappedGeometries
import FilterSql.Proofs.MirroredComparisons
import FilterSql.Proofs.Misfits
import FilterSql.Proofs.NullComparisons
import FilterSql.Proofs.NullEntries
import FilterSql.Proofs.OrderedTables
import FilterSql.Proofs.ParameterAccounts
import FilterSql.Proofs.PathTypes
import FilterSql.Proofs.Phrases
import FilterSql.Proofs.PlacedTokens
import FilterSql.Proofs.PrintedText
import FilterSql.Proofs.Printing
import FilterSql.Proofs.Reading
import FilterSql.Proofs.RecasedTokens
import FilterSql.Proofs.Renumbering
import FilterSql.Proofs.ResolvedCalls
import FilterSql.Proofs.SinglePass
import FilterSql.Proofs.SmallLetters
import FilterSql.Proofs.SqlGrammar
import FilterSql.Proofs.SqlTokens
import FilterSql.Proofs.StringLiterals
import FilterSql.Proofs.SyntaxErrors
import FilterSql.Proofs.Table
import FilterSql.Proofs.Template
import FilterSql.Proofs.Text
import FilterSql.Proofs.Thresholds
import FilterSql.Proofs.TokenTexts
import FilterSql.Proofs.ValidatedFilters
import FilterSql.Proofs.Visits
import FilterSql.Proofs.WrittenParameters
import FilterSql.Schema.Leaf
import FilterSql.Schema.Model
import FilterSql.Sql.Clause
import FilterSql.Sql.Compiler
import FilterSql.Sql.Options
import FilterSql.Sql.Table
import FilterSql.Sql.Template
import FilterSql.Sql.Value
import FilterSql.Text.AsciiCase
import FilterSql.Text.Blank
import FilterSql.Text.Hex
import FilterSql.Text.Letter
import FilterSql.Text.LowerCase
import FilterSql.Text.Split
import FilterSql.Validation
import FilterSql.Xml.Attribute
import FilterSql.Xml.Cursor
import FilterSql.Xml.Reference
import FilterSql.Xml.Scope
import FilterSql.Xml.Token
import FilterSql.Yaml.Block
import FilterSql.Yaml.Flow
import FilterSql.Yaml.Scalar
