import RegistryGraph.Cli.Arguments
import RegistryGraph.Cli.Command
import RegistryGraph.Cli.Program
import RegistryGraph.Declaration.Basic
import RegistryGraph.Declaration.File
import RegistryGraph.Declaration.Record
import RegistryGraph.Digest.Sha256
import RegistryGraph.Document.Basic
import RegistryGraph.Document.Csv
import RegistryGraph.Entity
import RegistryGraph.Failure
import RegistryGraph.Files.Fault
import RegistryGraph.Files.Path
import RegistryGraph.Files.Reading
import RegistryGraph.Files.Tree
import RegistryGraph.Http.Message
import RegistryGraph.Index.Basic
import RegistryGraph.Index.Builder
import RegistryGraph.Index.Search
import RegistryGraph.Index.Uniqueness
import RegistryGraph.Json.Basic
import RegistryGraph.Json.Parser
import RegistryGraph.Json.Printer
import RegistryGraph.Json.Record
import RegistryGraph.Number.Binary64
import RegistryGraph.Rpc.Conversation
import RegistryGraph.Rpc.Dispatch
import RegistryGraph.Rpc.Message
import RegistryGraph.Rpc.Statistics
import RegistryGraph.Service.Answer
import RegistryGraph.Service.Basic
import RegistryGraph.Service.Loop
import RegistryGraph.Session.Event
import RegistryGraph.Session.Id
import RegistryGraph.Session.Registry
import RegistryGraph.Settings
import RegistryGraph.Store.IndexCache
import RegistryGraph.Store.Loading
import RegistryGraph.Store.RepoStore
import RegistryGraph.Store.Snapshot
import RegistryGraph.Text.Blank
import RegistryGraph.Text.CaseTable
import RegistryGraph.Text.Hex
import RegistryGraph.Text.Keyed
import RegistryGraph.Text.LowerCase
import RegistryGraph.Text.Percent
import RegistryGraph.Text.Pieces
import RegistryGraph.Text.Utf16
import RegistryGraph.Text.Utf8
import RegistryGraph.Toml.Scalar
import RegistryGraph.Toml.Table
import RegistryGraph.Tool.Arguments
import RegistryGraph.Tool.Call
import RegistryGraph.Tool.Catalog
import RegistryGraph.Tool.Context
import RegistryGraph.Tool.Query
import RegistryGraph.Tool.Result
import RegistryGraph.WellFormed
import RegistryGraph.Xml.Event
import RegistryGraph.Xml.Fault
import RegistryGraph.Xml.Lexeme
import RegistryGraph.Xml.Reference
import RegistryGraph.Xml.Tag
import RegistryGraph.Yaml.Glyph
import RegistryGraph.Yaml.Node
import RegistryGraph.Yaml.Scalar
import RegistryGraph.Yaml.Shape
import RegistryGraph.Yaml.Token
import RegistryGraph.Main
import RegistryGraph.Proofs.Tables
import RegistryGraph.Proofs.Xml.Content
import RegistryGraph.Proofs.Xml.Spelling
import RegistryGraph.Proofs.Xml.Lexing
import RegistryGraph.Proofs.Xml.Pieces
import RegistryGraph.Proofs.Xml.Documents
import RegistryGraph.Proofs.Xml.Prefixes
import RegistryGraph.Proofs.Index.Records
import RegistryGraph.Proofs.Index.Firsts
import RegistryGraph.Proofs.Index.Walk
import RegistryGraph.Proofs.Index.Run
import RegistryGraph.Proofs.Index.Simulation
import RegistryGraph.Proofs.Index.Consistency
import RegistryGraph.Proofs.Validation
import RegistryGraph.Proofs.Store.Revision
import RegistryGraph.Proofs.Store.IndexCalls
import RegistryGraph.Proofs.Files.Changes
import RegistryGraph.Proofs.Store.Loading
import RegistryGraph.Proofs.Store.Reuse
import RegistryGraph.Proofs.Store.Overtaking
import RegistryGraph.Proofs.Json.Members
import RegistryGraph.Proofs.Rpc.Answers
import RegistryGraph.Proofs.Rpc.Decisions
import RegistryGraph.Proofs.Rpc.Increments
import RegistryGraph.Proofs.Session.Registry
import RegistryGraph.Proofs.Session.Sharing
import RegistryGraph.Proofs.Session.Framing
import RegistryGraph.Proofs.Session.Inbox
import RegistryGraph.Proofs.Service.Requests
import RegistryGraph.Proofs.Service.Streams
import RegistryGraph.Proofs.Service.Delivery
import RegistryGraph.Proofs.Service.Isolation
import RegistryGraph.Proofs.Text.Utf8
import RegistryGraph.Proofs.Text.Trim
import RegistryGraph.Proofs.Text.Pieces
import RegistryGraph.Proofs.Json.Lines
import RegistryGraph.Proofs.Index.Descent
import RegistryGraph.Proofs.Document.Table
import RegistryGraph.Proofs.Document.Rows
import RegistryGraph.Proofs.Index.Visits
import RegistryGraph.Proofs.Document.Selection
import RegistryGraph.Proofs.Tool.Outcome
import RegistryGraph.Proofs.Tool.Addresses
import RegistryGraph.Proofs.Rpc.Boundary
import RegistryGraph.Proofs.Rpc.Silence
import RegistryGraph.Proofs.Rpc.Conversation
import RegistryGraph.Proofs.Index.Elements
import RegistryGraph.Proofs.Document.Codes
import RegistryGraph.Proofs.Index.Identity
import RegistryGraph.Proofs.Files.Components
import RegistryGraph.Proofs.Files.Inquiry
import RegistryGraph.Proofs.Store.Confinement
import RegistryGraph.Proofs.Service.Exchange
import RegistryGraph.Proofs.Service.Atomicity
import RegistryGraph.Proofs.Rpc.Counting
import RegistryGraph.Proofs.Service.Occupancy
import RegistryGraph.Proofs.Json.Reading
import RegistryGraph.Proofs.Json.RoundTrip
import RegistryGraph.Proofs.Rpc.RoundTrip
import RegistryGraph.Proofs.Validation.Alarms
import RegistryGraph.Proofs.Validation.Roots
import RegistryGraph.Proofs.Index.Violations
import RegistryGraph.Proofs.Tool.Validation
import RegistryGraph.Proofs.Index.Partitions
import RegistryGraph.Proofs.Tool.Agreement
import RegistryGraph.Proofs.Index.DocumentOrder
import RegistryGraph.Proofs.Index.Frames
import RegistryGraph.Proofs.Index.Namespaces
import RegistryGraph.Proofs.Tool.Model
import RegistryGraph.Proofs.Rpc.Names
import RegistryGraph.Proofs.Index.Search
import RegistryGraph.Proofs.Document.Cells
import RegistryGraph.Proofs.Document.Groups
import RegistryGraph.Proofs.Document.Reading
import RegistryGraph.Proofs.Index.Names
import RegistryGraph.Proofs.Document.Outline
import RegistryGraph.Proofs.Tool.Truncation
import RegistryGraph.Proofs.Tool.Objections
import RegistryGraph.Proofs.Service.Bodies
import RegistryGraph.Proofs.Service.Negotiation
