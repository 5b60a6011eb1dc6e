import Timespan.Calendar.Lemmas
import Timespan.Main
import Timespan.Proofs.Clock.Utc
import Timespan.Proofs.Term.Form
import Timespan.Proofs.Zone.Change
import Timespan.Service.Response
import Timespan.Session
import Timespan.Text.Lemmas
import Timespan.Proofs.Calendar.Width
import Timespan.Proofs.Clock.Gap
import Timespan.Proofs.Term.Nonempty
import Timespan.Proofs.Calendar.Bounds
import Timespan.Proofs.Term.Overlong
import Timespan.Proofs.Answer
import Timespan.Proofs.Term.Read
import Timespan.Proofs.Calendar.Unit
import Timespan.Proofs.Term.Denotation
import Timespan.Proofs.Zone.Pass
import Timespan.Proofs.Zone.Readings
import Timespan.Proofs.Clock.Cycle
import Timespan.Proofs.Clock.RoundTrip
import Timespan.Proofs.Zone.Yearly
import Timespan.Proofs.Clock.Membership
import Timespan.Proofs.Term.Period
import Timespan.Proofs.Term.Partition
import Timespan.Proofs.Term.Succession
import Timespan.Proofs.Text.Plain
import Timespan.Proofs.Expression.Resolution
import Timespan.Proofs.Expression.Composition
import Timespan.Proofs.Expression.Spelling
import Timespan.Proofs.Expression.Inversion
import Timespan.Proofs.Clock.Fixed
import Timespan.Proofs.Expression.Translation
import Timespan.Proofs.Clock.Rollover
import Timespan.Proofs.Text.Decimal
import Timespan.Proofs.Timestamp.Read
import Timespan.Proofs.Timestamp.RoundTrip
import Timespan.Proofs.Settings.Load
import Timespan.Proofs.CommandLine.Override
import Timespan.Proofs.CommandLine.Write
import Timespan.Proofs.Service.Agreement
import Timespan.Proofs.Clock.Comparison
import Timespan.Proofs.Term.Inheritance
import Timespan.Proofs.Term.Validation
import Timespan.Proofs.Calendar.Count
import Timespan.Proofs.Clock.Arithmetic
import Timespan.Proofs.Zone.Recurrence
import Timespan.Proofs.Clock.Detour
import Timespan.Proofs.Term.Split
import Timespan.Proofs.Term.Grammar
import Timespan.Proofs.Expression.Scan
import Timespan.Proofs.Span.Symmetry
import Timespan.Proofs.Span.Widening
import Timespan.Proofs.Timestamp.Designator
import Timespan.Proofs.Settings.Failure
import Timespan.Proofs.Timestamp.Written
import Timespan.Proofs.Settings.File
import Timespan.Proofs.Timestamp.Naive
import Timespan.Proofs.Calendar.Week
import Timespan.Proofs.Calendar.Quarter
import Timespan.Proofs.Text.Projection
import Timespan.Proofs.Session
