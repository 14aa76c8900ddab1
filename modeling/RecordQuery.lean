import RecordQuery.Execute
import RecordQuery.Wire.Query
import RecordQuery.Proofs.Calendar.FiscalPeriod
import RecordQuery.Proofs.Calendar.NamedYears
import RecordQuery.Proofs.ColumnChoice
import RecordQuery.Proofs.Delivery
import RecordQuery.Proofs.Distinct
import RecordQuery.Proofs.EarlyFilter
import RecordQuery.Proofs.Example
import RecordQuery.Proofs.History
import RecordQuery.Proofs.Join.AliasMap
import RecordQuery.Proofs.Join.Placement
import RecordQuery.Proofs.Join.Siblings
import RecordQuery.Proofs.Join.Strategy
import RecordQuery.Proofs.Join.Unmatched
import RecordQuery.Proofs.Join.UnreadKeys
import RecordQuery.Proofs.LetterCase
import RecordQuery.Proofs.Narrowing
import RecordQuery.Proofs.Ordering
import RecordQuery.Proofs.PageWalk
import RecordQuery.Proofs.Query.CodeSets
import RecordQuery.Proofs.Query.Contexts
import RecordQuery.Proofs.Query.Days
import RecordQuery.Proofs.Query.FiscalOperators
import RecordQuery.Proofs.Query.IgnoredCase
import RecordQuery.Proofs.Query.RefreshedParts
import RecordQuery.Proofs.Query.Relations
import RecordQuery.Proofs.Query.Reshaped
import RecordQuery.Proofs.Query.Settled
import RecordQuery.Proofs.Query.Spans
import RecordQuery.Proofs.Query.Steps
import RecordQuery.Proofs.Query.Turns
import RecordQuery.Proofs.Query.WrittenInstants
import RecordQuery.Proofs.RowContents
import RecordQuery.Proofs.Schema.Declarations
import RecordQuery.Proofs.Schema.Registration
import RecordQuery.Proofs.Schema.Versions
import RecordQuery.Proofs.StrictMode
import RecordQuery.Proofs.Text.Escaped
import RecordQuery.Proofs.Text.Language
import RecordQuery.Proofs.Windowing
import RecordQuery.Proofs.Wire.Query
import RecordQuery.Proofs.Wire.Schema
