import DictionaryDdl.Batch
import DictionaryDdl.Collation.Basic
import DictionaryDdl.Collation.OfJson
import DictionaryDdl.Collation.ServerAddress
import DictionaryDdl.Collation.Snapshot
import DictionaryDdl.CommandLine.Arguments
import DictionaryDdl.CommandLine.Environment
import DictionaryDdl.CommandLine.Error
import DictionaryDdl.CommandLine.Notices
import DictionaryDdl.CommandLine.Run
import DictionaryDdl.CommandLine.Settings
import DictionaryDdl.Documents
import DictionaryDdl.Extraction
import DictionaryDdl.Files.AccessError
import DictionaryDdl.Files.Changes
import DictionaryDdl.Files.Discovery
import DictionaryDdl.Files.Path
import DictionaryDdl.Files.Tree
import DictionaryDdl.Json.Basic
import DictionaryDdl.Json.Lexeme
import DictionaryDdl.Json.Mismatch
import DictionaryDdl.Json.Printer
import DictionaryDdl.Json.Reader
import DictionaryDdl.Json.Record
import DictionaryDdl.Json.Skip
import DictionaryDdl.Main
import DictionaryDdl.Notice
import DictionaryDdl.Proofs.Batch.CompletionOrder
import DictionaryDdl.Proofs.Batch.Pool
import DictionaryDdl.Proofs.CommandLine.SecondRun
import DictionaryDdl.Proofs.Documents.EachOnce
import DictionaryDdl.Proofs.Documents.Isolation
import DictionaryDdl.Proofs.Documents.Rereading
import DictionaryDdl.Proofs.Extraction.Accounts
import DictionaryDdl.Proofs.Extraction.Copies
import DictionaryDdl.Proofs.Extraction.Isolation
import DictionaryDdl.Proofs.Extraction.Run
import DictionaryDdl.Proofs.Extraction.Site
import DictionaryDdl.Proofs.Extraction.Steps
import DictionaryDdl.Proofs.Files.Finding
import DictionaryDdl.Proofs.Files.Folders
import DictionaryDdl.Proofs.Files.Following
import DictionaryDdl.Proofs.Files.Listing
import DictionaryDdl.Proofs.Files.Locations
import DictionaryDdl.Proofs.Files.NewFolders
import DictionaryDdl.Proofs.Files.Outline
import DictionaryDdl.Proofs.Files.PathText
import DictionaryDdl.Proofs.Files.Sequences
import DictionaryDdl.Proofs.Files.Thinning
import DictionaryDdl.Proofs.Files.Writing
import DictionaryDdl.Proofs.Json.Fields
import DictionaryDdl.Proofs.Json.Layouts
import DictionaryDdl.Proofs.Json.Lexemes
import DictionaryDdl.Proofs.Json.Ordering
import DictionaryDdl.Proofs.Json.Reading
import DictionaryDdl.Proofs.Lookup
import DictionaryDdl.Proofs.Scripts.Contents
import DictionaryDdl.Proofs.Scripts.EmptyFolder
import DictionaryDdl.Proofs.Scripts.Plan
import DictionaryDdl.Proofs.Scripts.Running
import DictionaryDdl.Proofs.Sdi.Reading
import DictionaryDdl.Proofs.Sdi.Records
import DictionaryDdl.Proofs.Sql.ForeignKeyText
import DictionaryDdl.Proofs.Sql.NameReading
import DictionaryDdl.Proofs.Sql.PartitionClause
import DictionaryDdl.Proofs.Sql.Scanning
import DictionaryDdl.Proofs.Sql.StatementLines
import DictionaryDdl.Proofs.Table.Acceptance
import DictionaryDdl.Proofs.Table.Codes
import DictionaryDdl.Proofs.Table.Columns
import DictionaryDdl.Proofs.Table.Consistency
import DictionaryDdl.Proofs.Table.HiddenEntries
import DictionaryDdl.Proofs.Table.Partitions
import DictionaryDdl.Scripts
import DictionaryDdl.Sdi.Basic
import DictionaryDdl.Sdi.Document
import DictionaryDdl.Sdi.KeyValues
import DictionaryDdl.Sdi.OfJson
import DictionaryDdl.Sdi.ToJson
import DictionaryDdl.Sql.Column
import DictionaryDdl.Sql.ForeignKey
import DictionaryDdl.Sql.Index
import DictionaryDdl.Sql.Options
import DictionaryDdl.Sql.Partitioning
import DictionaryDdl.Sql.Quoting
import DictionaryDdl.Sql.Table
import DictionaryDdl.Table.Code
import DictionaryDdl.Table.Column
import DictionaryDdl.Table.Compiled
import DictionaryDdl.Table.DataType
import DictionaryDdl.Table.Definition
import DictionaryDdl.Table.Error
import DictionaryDdl.Table.ForeignKey
import DictionaryDdl.Table.Index
import DictionaryDdl.Table.Options
import DictionaryDdl.Table.Partitioning
import DictionaryDdl.Table.ToJson
import DictionaryDdl.Text.Blank
import DictionaryDdl.Text.CaseTables
import DictionaryDdl.Text.CodePoints
import DictionaryDdl.Text.Decimal
import DictionaryDdl.Text.DecimalDigit
import DictionaryDdl.Text.Displayed
import DictionaryDdl.Text.EscapedPoints
import DictionaryDdl.Text.Hexadecimal
import DictionaryDdl.Text.LowerCase
import DictionaryDdl.Text.Percent
import DictionaryDdl.Text.ShortestDouble
import DictionaryDdl.Text.Split
import DictionaryDdl.Text.Utf8
import DictionaryDdl.Proofs.Table.UsedCollations
import DictionaryDdl.Proofs.Sdi.KeyValues
import DictionaryDdl.Proofs.Table.OptionValues
import DictionaryDdl.Proofs.CommandLine.DatabaseFilter
import DictionaryDdl.Proofs.Collation.Reading
import DictionaryDdl.Proofs.Collation.Snapshot
import DictionaryDdl.Proofs.Table.IndexElements
import DictionaryDdl.Proofs.Table.OrdinalFaults
import DictionaryDdl.Proofs.Sql.PartitionLines
import DictionaryDdl.Proofs.Sql.DefaultText
import DictionaryDdl.Proofs.Sql.PrefixCodes
import DictionaryDdl.Proofs.Sql.IndexText
import DictionaryDdl.Proofs.Sql.OptionsText
import DictionaryDdl.Proofs.Sdi.KeyValueLists
import DictionaryDdl.Proofs.Text.Numerals
import DictionaryDdl.Proofs.Table.AutoIncrement
import DictionaryDdl.Proofs.Sdi.ExtractCells
import DictionaryDdl.Proofs.Files.Walk
import DictionaryDdl.Proofs.CommandLine.SettingsFile
import DictionaryDdl.Proofs.Extraction.AuxiliaryNames
