import CrmQuery.Api.Route
import CrmQuery.Capabilities
import CrmQuery.Json.Writer
import CrmQuery.Session
import CrmQuery.Vocabulary.Bands
import CrmQuery.Proofs.Text.Blank
import CrmQuery.Proofs.Text.Numerals
import CrmQuery.Proofs.Text.Pieces
import CrmQuery.Proofs.Text.Quiet
import CrmQuery.Proofs.Text.Words
import CrmQuery.Proofs.Decimal.Doubles
import CrmQuery.Proofs.Decimal.Nearest
import CrmQuery.Proofs.Decimal.Decimals
import CrmQuery.Proofs.Decimal.Shortest
import CrmQuery.Proofs.Calendar.Days
import CrmQuery.Proofs.Calendar.Months
import CrmQuery.Proofs.Calendar.Zones
import CrmQuery.Proofs.Calendar.Instants
import CrmQuery.Proofs.Calendar.Clocks
import CrmQuery.Proofs.Calendar.Iso
import CrmQuery.Proofs.Json.Quoted
import CrmQuery.Proofs.Json.Scalars
import CrmQuery.Proofs.Json.Doubles
import CrmQuery.Proofs.Json.Writable
import CrmQuery.Proofs.Json.ReadBack
import CrmQuery.Proofs.Pattern.Fits
import CrmQuery.Proofs.Pattern.Words
import CrmQuery.Proofs.Pattern.Ends
import CrmQuery.Proofs.Pattern.Reading
import CrmQuery.Proofs.Pattern.WholeWords
import CrmQuery.Proofs.Pattern.Extension
import CrmQuery.Proofs.Pattern.Greedy
import CrmQuery.Proofs.Pattern.Phrases
import CrmQuery.Proofs.Pattern.Finite
import CrmQuery.Proofs.Vocabulary.Amounts
import CrmQuery.Proofs.Vocabulary.WrittenNumbers
import CrmQuery.Proofs.Vocabulary.Bounds
import CrmQuery.Proofs.Vocabulary.Times
import CrmQuery.Proofs.Vocabulary.Countries
import CrmQuery.Proofs.Sql.Drafts
import CrmQuery.Proofs.Sql.Rendering
import CrmQuery.Proofs.Sql.Layout
import CrmQuery.Proofs.Sql.Numbering
import CrmQuery.Proofs.Sql.Scope
import CrmQuery.Proofs.Sql.Binding
import CrmQuery.Proofs.Sql.Noninterference
import CrmQuery.Proofs.Sql.Safety
import CrmQuery.Proofs.Sql.Denylist
import CrmQuery.Proofs.Sql.Refusals
import CrmQuery.Proofs.Sql.Columns
import CrmQuery.Proofs.Question.Compilation
import CrmQuery.Proofs.Question.Normal
import CrmQuery.Proofs.Question.Budget
import CrmQuery.Proofs.Question.Numbers
import CrmQuery.Proofs.Question.WholeNumbers
import CrmQuery.Proofs.Question.Mentions
import CrmQuery.Proofs.Question.ReadBack
import CrmQuery.Proofs.Question.Window
import CrmQuery.Proofs.Question.Classify
import CrmQuery.Proofs.Question.Timeframe
import CrmQuery.Proofs.Question.Monotone
import CrmQuery.Proofs.Question.Hint
import CrmQuery.Proofs.Question.Failure
import CrmQuery.Proofs.Question.Past
import CrmQuery.Proofs.Question.Units
import CrmQuery.Proofs.Question.Moments
import CrmQuery.Proofs.Question.Countries
import CrmQuery.Proofs.Interpretation
import CrmQuery.Proofs.Interpretation.Coherence
import CrmQuery.Proofs.Session.Fetching
import CrmQuery.Proofs.Session.Snapshot
import CrmQuery.Proofs.Api.Tenants
import CrmQuery.Proofs.Validation.Checks
import CrmQuery.Proofs.Validation.NormalForms
import CrmQuery.Proofs.Validation.Records
