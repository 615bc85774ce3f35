import CheckedFormat.Conformance.Log
import CheckedFormat.Conformance.Report
import CheckedFormat.Host.Formatted
import CheckedFormat.Json.Access
import CheckedFormat.Proofs.Reading
import CheckedFormat.Stream.Scripted
import CheckedFormat.Proofs.StreamScan
import CheckedFormat.Proofs.ArenaAccess
import CheckedFormat.Proofs.Destinations
import CheckedFormat.Proofs.Buffering
import CheckedFormat.Proofs.ByteClasses
import CheckedFormat.Proofs.WrittenDirective
import CheckedFormat.Proofs.FormatText
import CheckedFormat.Proofs.Numerals
import CheckedFormat.Proofs.PrintedFields
import CheckedFormat.Proofs.Record
import CheckedFormat.Proofs.RecordScan
import CheckedFormat.Proofs.CheckLevels
import CheckedFormat.Proofs.ScanOpening
import CheckedFormat.Proofs.PrintGrammar
import CheckedFormat.Proofs.FormatWriting
import CheckedFormat.Proofs.ScanGrammar
import CheckedFormat.Proofs.Demands
import CheckedFormat.Proofs.Indicators
import CheckedFormat.Proofs.Suppression
import CheckedFormat.Proofs.DoubleRoundTrip
import CheckedFormat.Proofs.FormatJoining
import CheckedFormat.Proofs.ListFamily
import CheckedFormat.Proofs.Rendering
import CheckedFormat.Proofs.ScanRuns
import CheckedFormat.Proofs.ScanJoining
import CheckedFormat.Proofs.PrintTargets
import CheckedFormat.Proofs.PrintJoining
import CheckedFormat.Proofs.FaultReports
import CheckedFormat.Proofs.CallForms
import CheckedFormat.Proofs.StreamHandles
import CheckedFormat.Proofs.SuiteAccounts
import CheckedFormat.Proofs.NumberFields
import CheckedFormat.Proofs.FloatFields
import CheckedFormat.Proofs.SetFields
import CheckedFormat.Proofs.FieldWidth
import CheckedFormat.Proofs.ShortestDigits
import CheckedFormat.Proofs.GeneralStyle
import CheckedFormat.Proofs.Positions
import CheckedFormat.Proofs.FailedStores
import CheckedFormat.Proofs.ReadErrors
import CheckedFormat.Proofs.FloatScale
import CheckedFormat.Proofs.HexNumbers
import CheckedFormat.Proofs.SingleRounding
import CheckedFormat.Proofs.CharacterFields
import CheckedFormat.Proofs.DrawnSlots
import CheckedFormat.Proofs.StarArguments
import CheckedFormat.Proofs.CountsLeftOut
import CheckedFormat.Proofs.LineReads
import CheckedFormat.Proofs.LatestFaults
import CheckedFormat.Proofs.PartialWrites
import CheckedFormat.Proofs.RefusedMoves
import CheckedFormat.Proofs.ArenaHistory
import CheckedFormat.Proofs.OversizedFields
import CheckedFormat.Proofs.MemoryImages
import CheckedFormat.Proofs.ReaderPairs
import CheckedFormat.Proofs.ScanPairs
import CheckedFormat.Proofs.SourceRecorder
import CheckedFormat.Proofs.TokenBuffer
