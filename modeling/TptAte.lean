import TptAte.Stdf.BigEndian
import TptAte.Stdf.RoundTrip
import TptAte.Stdf.FirstRecord
import TptAte.Stdf.Truncated
import TptAte.Stdf.Lossless
import TptAte.Stdf.Reencode
import TptAte.Stdf.Chunking
import TptAte.Stdf.Declared
import TptAte.Stdf.RecLen
import TptAte.Secs.Item
import TptAte.Secs.ItemLaws
import TptAte.Secs.ItemCanonical
import TptAte.Secs.Hsms
import TptAte.Secs.Crossing
import TptAte.Secs.Framing
import TptAte.Secs.Operations
import TptAte.Secs.Selected
import TptAte.Secs.Transparent
import TptAte.Secs.Echo
import TptAte.Secs.ItemPrefix
import TptAte.Secs.GemLaws
import TptAte.Secs.GemBodies
import TptAte.Secs.Replies
import TptAte.Secs.Dispatch
import TptAte.Secs.ReportAck
import TptAte.Secs.Serving
import TptAte.Secs.Acknowledged
import TptAte.Secs.Numbered
import TptAte.Secs.Parties
import TptAte.Secs.Panics
import TptAte.Assembly.Run
import TptAte.Assembly.Delivered
import TptAte.Assembly.Confirmed
import TptAte.Assembly.Executed
import TptAte.Assembly.Sound
import TptAte.Assembly.Exact
import TptAte.Assembly.Overflow
import TptAte.Assembly.Unmatched
import TptAte.Assembly.Validated
import TptAte.Assembly.Panics
import TptAte.Test.BinSort
import TptAte.Test.Frame
import TptAte.Test.WaferRun
import TptAte.Test.DieReport
import TptAte.Test.DieEvents
import TptAte.Test.RunOrder
import TptAte.Test.Synopsis
import TptAte.Test.Limits
import TptAte.Test.Summary
import TptAte.Test.RollUp
import TptAte.Test.Recordable
import TptAte.Test.Recovered
import TptAte.Test.Faults
import TptAte.Test.Panics
import TptAte.Test.Grid
import TptAte.Aggregate.Outcome
import TptAte.Aggregate.Cohort
import TptAte.Aggregate.File
import TptAte.Aggregate.Ingest
import TptAte.Aggregate.Published
import TptAte.Aggregate.Package
import TptAte.Comm.Transport
