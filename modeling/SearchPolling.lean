import SearchPolling.Redis.StateStore
import SearchPolling.Rehearsal.Run
import SearchPolling.Rehearsal.ScriptedServer
import SearchPolling.Search.Client
import SearchPolling.Settings
import SearchPolling.Proofs.Service.Basic
import SearchPolling.Proofs.Service.Effects
import SearchPolling.Proofs.Service.Turn
import SearchPolling.Proofs.Service.Launch
import SearchPolling.Proofs.Service.Record
import SearchPolling.Proofs.Service.Routine
import SearchPolling.Proofs.Service.Script
import SearchPolling.Proofs.Queries.Ledger
import SearchPolling.Proofs.Queries.Outstanding
import SearchPolling.Proofs.Queries.Settlement
import SearchPolling.Proofs.Queries.Publication
import SearchPolling.Proofs.Queries.Telling
import SearchPolling.Proofs.Queries.Overtaken
import SearchPolling.Proofs.Queries.Outward
import SearchPolling.Proofs.Queries.Noninterference
import SearchPolling.Proofs.Timers.Generation
import SearchPolling.Proofs.Timers.Effective
import SearchPolling.Proofs.Timers.Periods
import SearchPolling.Proofs.Timers.Clockwork
import SearchPolling.Proofs.Timers.Noninterference
import SearchPolling.Proofs.Timers.Grid
import SearchPolling.Proofs.Reading.Grammar
import SearchPolling.Proofs.Reading.Literals
import SearchPolling.Proofs.Reading.Characters
import SearchPolling.Proofs.Reading.Numbers
import SearchPolling.Proofs.Reading.Numerals
import SearchPolling.Proofs.Reading.Spelling
import SearchPolling.Proofs.Reading.Nesting
import SearchPolling.Proofs.Reading.Elements
import SearchPolling.Proofs.Reading.Reals
import SearchPolling.Proofs.Reading.Nodes
import SearchPolling.Proofs.Reading.Dictionaries
import SearchPolling.Proofs.Reading.Values
import SearchPolling.Proofs.Reading.Fields
import SearchPolling.Proofs.Reading.Record
import SearchPolling.Proofs.Reading.Skipping
import SearchPolling.Proofs.Reading.RecordTexts
import SearchPolling.Proofs.Reading.Responses
import SearchPolling.Proofs.Reading.Identifiers
import SearchPolling.Proofs.Reading.Timestamps
import SearchPolling.Proofs.Reading.Events
import SearchPolling.Proofs.Reading.Binary64
import SearchPolling.Proofs.Reading.WholeNumbers
import SearchPolling.Proofs.Writing.Desk
import SearchPolling.Proofs.Writing.Order
import SearchPolling.Proofs.Writing.Newest
import SearchPolling.Proofs.Writing.Recovery
import SearchPolling.Proofs.Writing.Skipped
import SearchPolling.Proofs.Resuming.Continuity
import SearchPolling.Proofs.Resuming.Configured
import SearchPolling.Proofs.Lifetime.Handles
import SearchPolling.Proofs.Lifetime.Release
import SearchPolling.Proofs.Queries.TickQueries
import SearchPolling.Proofs.Queries.Congestion
import SearchPolling.Proofs.Measuring.Meters
import SearchPolling.Proofs.Measuring.Measured
import SearchPolling.Proofs.Measuring.Balance
import SearchPolling.Proofs.Measuring.Overlap
import SearchPolling.Proofs.Measuring.Dials
import SearchPolling.Proofs.Measuring.LateGauges
import SearchPolling.Api.Reception
import SearchPolling.Proofs.Control.Answering
import SearchPolling.Proofs.Control.Refusals
import SearchPolling.Proofs.Measuring.Tallies
import SearchPolling.Proofs.Control.Traffic
import SearchPolling.Proofs.Control.Labels
import SearchPolling.Proofs.Control.Counting
import SearchPolling.Proofs.Searching.Course
import SearchPolling.Proofs.Searching.Causes
import SearchPolling.Proofs.Publishing.Receivers
import SearchPolling.Proofs.Publishing.Broadcast
import SearchPolling.Proofs.Resuming.Unattended
import SearchPolling.Proofs.Resuming.Restoring
import SearchPolling.Proofs.Publishing.Inboxes
import SearchPolling.Proofs.Publishing.Accounts
import SearchPolling.Proofs.Publishing.Encoded
import SearchPolling.Proofs.Keeping.Framing
import SearchPolling.Proofs.Keeping.Clones
import SearchPolling.Proofs.Keeping.Connections
import SearchPolling.Proofs.Keeping.Evictions
import SearchPolling.Proofs.Queries.Descriptors
import SearchPolling.Proofs.Reading.Requests
import SearchPolling.Proofs.Reading.Strays
import SearchPolling.Proofs.Reading.Marked
import SearchPolling.Proofs.Reading.Meanings
import SearchPolling.Proofs.Reading.Compounds
import SearchPolling.Proofs.Reading.Layouts
import SearchPolling.Proofs.Reading.ResponseTexts
import SearchPolling.Proofs.Searching.Answers
import SearchPolling.Proofs.Configuring.Numerals
import SearchPolling.Proofs.Configuring.Environments
import SearchPolling.Proofs.Exporting.Exposition
import SearchPolling.Proofs.Exporting.Written
import SearchPolling.Proofs.Exporting.Buckets
import SearchPolling.Proofs.Exporting.Rows
import SearchPolling.Proofs.Exporting.Families
import SearchPolling.Proofs.Exporting.Image
