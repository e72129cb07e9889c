import QueryShield.Text.Ranges
import QueryShield.Text.Fold
import QueryShield.Text.WordChar
import QueryShield.Text.Digit
import QueryShield.Text.Blank
import QueryShield.Text.Base64
import QueryShield.Guard.Lexicon
import QueryShield.Guard.Verdict
import QueryShield.Guard.Recognise
import QueryShield.Guard.Screen
import QueryShield.Guard.Sample
import QueryShield.Number.Binary64
import QueryShield.Json.Value
import QueryShield.Decode.Mismatch
import QueryShield.Json.Reader
import QueryShield.Json.Decoder
import QueryShield.Data.Datum
import QueryShield.Data.Tables
import QueryShield.Data.Selectors
import QueryShield.Data.Schema
import QueryShield.Clock.Stamp
import QueryShield.Clock.Instant
import QueryShield.Clause.Lexeme
import QueryShield.Clause.Bound
import QueryShield.Name.Quote
import QueryShield.Ddl.TriggerText
import QueryShield.Digest.Sha256
import QueryShield.Json.Canonical
import QueryShield.Cache.Glob
import QueryShield.Cache.Category
import QueryShield.Cache.Key
import QueryShield.Cache.ExpiringMap
import QueryShield.Cache.Fault
import QueryShield.Yaml.Syntax
import QueryShield.Yaml.Scanner
import QueryShield.Yaml.Parser
import QueryShield.Yaml.Decode
import QueryShield.Settings.Basic
import QueryShield.Settings.FromYaml
import QueryShield.Text.Shown
import QueryShield.Text.Utf8
import QueryShield.Url.Reading
import QueryShield.Settings.ConnectionUrl
import QueryShield.Ddl.ColumnType
import QueryShield.Cache.Binding
import QueryShield.Query.Fault
import QueryShield.Query.Front
import QueryShield.Query.Statements
import QueryShield.Query.Talk
import QueryShield.Rehearsal.StandIns
import QueryShield.Rehearsal.Stage
import QueryShield.Toml.Tree
import QueryShield.Toml.Lexer
import QueryShield.Toml.Reader
import QueryShield.Toml.Decode
import QueryShield.Settings.FromToml
import QueryShield.Cli.Failure
import QueryShield.Cli.Similar
import QueryShield.Cli.Spec
import QueryShield.Cli.Help
import QueryShield.Cli.Parse
import QueryShield.Cli.Interface
import QueryShield.Cli.Commands
import QueryShield.Cli.Program
import QueryShield.Main
import QueryShield.Proofs.Conversation
import QueryShield.Proofs.Clause.Lexemes
import QueryShield.Proofs.Guard.Prefilters
import QueryShield.Proofs.Guard.Searches
import QueryShield.Proofs.Guard.Semicolon
import QueryShield.Proofs.Clause.Grammar
import QueryShield.Proofs.StatementSafety
import QueryShield.Proofs.Ddl.TriggerCheck
import QueryShield.Proofs.Cache.WriteInvalidation
import QueryShield.Proofs.Cache.PatternCoverage
import QueryShield.Proofs.Cache.GlobLanguage
import QueryShield.Proofs.Cache.KeyAgreement
import QueryShield.Proofs.RefusalBeforeWrite
import QueryShield.Proofs.Clause.Folding
import QueryShield.Proofs.Ddl.BlockBalance
import QueryShield.Proofs.Clause.Relexing
import QueryShield.Proofs.Clause.Spans
import QueryShield.Proofs.Clause.Rejoining
import QueryShield.Proofs.Clause.Binding
import QueryShield.Proofs.Clause.Checks
import QueryShield.Proofs.Clause.Fragments
import QueryShield.Proofs.Clause.Composition
import QueryShield.Proofs.Clause.Parameters
import QueryShield.Proofs.Number.Rounding
import QueryShield.Proofs.Number.Shortest
import QueryShield.Proofs.Number.ExchangeText
import QueryShield.Proofs.Json.CompactText
import QueryShield.Proofs.Json.CanonicalForm
import QueryShield.Proofs.ParameterPlacement
import QueryShield.Proofs.UpsertIndexing
import QueryShield.Proofs.Clause.Literals
import QueryShield.Proofs.Clause.InlineRoundTrip
import QueryShield.Proofs.Clause.Numerals
import QueryShield.Proofs.Clause.ColumnNames
import QueryShield.Proofs.Guard.FamilyUnion
import QueryShield.Proofs.Cache.ExpiringStore
import QueryShield.Proofs.Cache.BindingProtocol
import QueryShield.Proofs.Cache.DeadlineRange
import QueryShield.Proofs.Number.DigitBound
import QueryShield.Proofs.Json.ReadSteps
import QueryShield.Proofs.Json.NumberText
import QueryShield.Proofs.Json.DoubleText
import QueryShield.Proofs.Json.ValueReading
import QueryShield.Proofs.Json.TypedReading
import QueryShield.Proofs.Json.RecordReading
import QueryShield.Proofs.Cache.PayloadRoundTrip
import QueryShield.Proofs.Cache.Transparency
