import FundTrail.Word
import FundTrail.Overflow
import FundTrail.Bytes
import FundTrail.Span
import FundTrail.Text.Utf8
import FundTrail.Text.Blank
import FundTrail.Text.Ranges
import FundTrail.Text.Hidden
import FundTrail.Text.Letter
import FundTrail.Text.Quoted
import FundTrail.Text.Numeral
import FundTrail.Text.HexString
import FundTrail.NameSet
import FundTrail.Store.Rows
import FundTrail.Record
import FundTrail.Store.Error
import FundTrail.Store.Codec
import FundTrail.Store.Table
import FundTrail.Seed.Decimal
import FundTrail.Seed.Token
import FundTrail.Seed.Document
import FundTrail.Store.Books
import FundTrail.Store.Handle
import FundTrail.Chain.Basic
import FundTrail.Abi
import FundTrail.Swap.Call
import FundTrail.Swap.Price
import FundTrail.Classification
import FundTrail.Seed.Exchanges
import FundTrail.Store.Layout
import FundTrail.Store.Script
import FundTrail.Engine.Basic
import FundTrail.Engine.Resolution
import FundTrail.Engine.Booking
import FundTrail.Engine.Process
import FundTrail.Ingestion
import FundTrail.Stream.Backoff
import FundTrail.Stream.Streamer
import FundTrail.Session
import FundTrail.Config.Environment
import FundTrail.Config.Booking
import FundTrail.Config.Stream
import FundTrail.Config.NodeUrl
import FundTrail.Chain.Scripted
import FundTrail.Node.Value
import FundTrail.Node.Reader
import FundTrail.Disk.Path
import FundTrail.Disk.Basic
import FundTrail.Disk.Location
import FundTrail.Disk.Database
import FundTrail.Disk.Archive
import FundTrail.Command
import FundTrail.Main
import FundTrail.Conveyor
import FundTrail.Proofs.Store.Fields
import FundTrail.Proofs.Store.Records
import FundTrail.Proofs.Store.Listing
import FundTrail.Proofs.Chain.Asking
import FundTrail.Proofs.Engine.Sound
import FundTrail.Proofs.Engine.Entries
import FundTrail.Proofs.Engine.Tally
import FundTrail.Proofs.Engine.Commit
import FundTrail.Proofs.Engine.Journal
import FundTrail.Proofs.Engine.Atomic
import FundTrail.Proofs.Stream.Alike
import FundTrail.Proofs.Stream.Handover
import FundTrail.Proofs.Stream.Log
import FundTrail.Proofs.Stream.Course
import FundTrail.Proofs.Stream.Pursuit
import FundTrail.Proofs.Stream.Recount
import FundTrail.Proofs.Stream.Delays
import FundTrail.Proofs.Stream.Patience
import FundTrail.Proofs.Session.Belt
import FundTrail.Proofs.Session.History
import FundTrail.Proofs.Store.Readable
import FundTrail.Proofs.Store.Canonical
import FundTrail.Proofs.Store.Delimited
import FundTrail.Proofs.Store.Enumeration
import FundTrail.Proofs.Store.Maps
import FundTrail.Proofs.Disk.Reopening
import FundTrail.Proofs.Store.Refinement
import FundTrail.Proofs.Engine.Bookable
import FundTrail.Proofs.Engine.Steady
import FundTrail.Proofs.Engine.Onward
import FundTrail.Proofs.Engine.Split
import FundTrail.Proofs.Engine.Unfailing
import FundTrail.Proofs.Engine.Chronicle
import FundTrail.Proofs.Engine.Funding
import FundTrail.Proofs.Engine.Attribution
import FundTrail.Proofs.Engine.Growth
import FundTrail.Proofs.Engine.Quotation
import FundTrail.Proofs.Engine.Integrity
import FundTrail.Proofs.Engine.Interchange
import FundTrail.Proofs.Engine.Commuting
import FundTrail.Proofs.Engine.Frame
import FundTrail.Proofs.Engine.Traceless
import FundTrail.Proofs.Engine.Forgetful
import FundTrail.Proofs.Engine.Resumption
import FundTrail.Proofs.Swap.Conversion
import FundTrail.Proofs.Swap.Hops
import FundTrail.Proofs.Swap.Pools
import FundTrail.Proofs.Swap.Direction
import FundTrail.Proofs.Swap.Fees
import FundTrail.Proofs.Swap.Layout
import FundTrail.Proofs.Swap.Decoding
import FundTrail.Proofs.Classification
import FundTrail.Proofs.Engine.Reckoning
import FundTrail.Proofs.Text.Trimming
import FundTrail.Proofs.Config.Threshold
import FundTrail.Proofs.Store.Writes
import FundTrail.Proofs.Store.RowByRow
import FundTrail.Proofs.Store.Reporting
import FundTrail.Proofs.Seed.Seeding
import FundTrail.Proofs.Chain.Minutes
import FundTrail.Proofs.Engine.Mirrored
import FundTrail.Proofs.Engine.Inquiry
import FundTrail.Proofs.Engine.AtHand
import FundTrail.Proofs.Engine.Lookups
import FundTrail.Proofs.Config.Disclosure
import FundTrail.Proofs.Store.Amounts
import FundTrail.Proofs.Text.CodePoints
import FundTrail.Proofs.Store.KeyOrder
