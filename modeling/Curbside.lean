import Curbside.Cache.Clocked
import Curbside.Calendar.Count
import Curbside.Decision.Record
import Curbside.Fine.Catalog
import Curbside.Json.Reader
import Curbside.Json.Writer
import Curbside.Record.Checked
import Curbside.Rule.Record
import Curbside.Scan.Record
import Curbside.Service.Endpoint
import Curbside.Service.Model
import Curbside.Session
import Curbside.Settings.Record
import Curbside.Sign.Confirm
import Curbside.Sign.Extract
import Curbside.Tariff.Record
import Curbside.Text.Printable
import Curbside.Timer.Record
import Curbside.Verdict.Record
import Curbside.Window.Boundaries
import Curbside.Proofs.Attempt
import Curbside.Proofs.Boundaries
import Curbside.Proofs.NextChange
import Curbside.Proofs.Occurrence
import Curbside.Proofs.WallClock
import Curbside.Proofs.Restriction
import Curbside.Proofs.Stay
import Curbside.Proofs.Reading
import Curbside.Proofs.Rounding
import Curbside.Proofs.Spelling
import Curbside.Proofs.Confidence
import Curbside.Proofs.Conversion
import Curbside.Proofs.Extraction
import Curbside.Proofs.Scanning
import Curbside.Proofs.Posting
import Curbside.Proofs.TimedMap
import Curbside.Proofs.Numerals
import Curbside.Proofs.Amount
import Curbside.Proofs.Shortest
import Curbside.Proofs.JsonText
import Curbside.Proofs.JsonProper
import Curbside.Proofs.JsonNumber
import Curbside.Proofs.Checking
import Curbside.Proofs.RuleRecord
import Curbside.Proofs.RoundTrip
import Curbside.Proofs.Staging
import Curbside.Proofs.Composition
import Curbside.Proofs.LocalTime
import Curbside.Proofs.Years
import Curbside.Proofs.ZoneTime
import Curbside.Proofs.RealTime
import Curbside.Proofs.Deadlines
import Curbside.Proofs.Answering
import Curbside.Proofs.Serving
import Curbside.Proofs.Catalogs
import Curbside.Proofs.Products
import Curbside.Proofs.Pricing
import Curbside.Proofs.Layout
import Curbside.Proofs.Phrases
import Curbside.Proofs.Separation
import Curbside.Proofs.Gathering
import Curbside.Proofs.Weighing
import Curbside.Proofs.Horizon
import Curbside.Proofs.Annotation
import Curbside.Proofs.Quality
import Curbside.Proofs.Cutting
import Curbside.Proofs.DayPhrases
import Curbside.Proofs.Preference
import Curbside.Proofs.Seams
import Curbside.Proofs.RangeLines
import Curbside.Proofs.TimesOfDay
import Curbside.Proofs.Borrowing
import Curbside.Proofs.DayItems
import Curbside.Proofs.DayLists
import Curbside.Proofs.DayWords
import Curbside.Proofs.Wording
import Curbside.Proofs.Quotients
import Curbside.Proofs.BilledUnits
import Curbside.Proofs.LongerStays
import Curbside.Proofs.Confirming
import Curbside.Proofs.Countdown
import Curbside.Proofs.Elapsed
import Curbside.Proofs.Searching
import Curbside.Proofs.LimitNumbers
import Curbside.Proofs.FineAmounts
import Curbside.Proofs.PaidTimes
import Curbside.Proofs.CalendarEnds
import Curbside.Proofs.Hops
import Curbside.Proofs.Bookkeeping
import Curbside.Proofs.LetterCase
import Curbside.Proofs.Squeezing
import Curbside.Proofs.Airing
