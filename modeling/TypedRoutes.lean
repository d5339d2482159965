import TypedRoutes.Calendar
import TypedRoutes.Client.Artifact
import TypedRoutes.Client.Declaration
import TypedRoutes.Client.Method
import TypedRoutes.Client.Rendering
import TypedRoutes.CommandLine.Argument
import TypedRoutes.CommandLine.Options
import TypedRoutes.CommandLine.Run
import TypedRoutes.CommandLine.Task
import TypedRoutes.Contract
import TypedRoutes.Contract.OfDocument
import TypedRoutes.Contract.OfFile
import TypedRoutes.Contract.Server
import TypedRoutes.Datum
import TypedRoutes.Datum.Display
import TypedRoutes.Datum.Fold
import TypedRoutes.Document
import TypedRoutes.Document.Display
import TypedRoutes.Document.Fold
import TypedRoutes.Entries
import TypedRoutes.FilePath
import TypedRoutes.FileTree
import TypedRoutes.Halt
import TypedRoutes.Json
import TypedRoutes.Json.OfDatum
import TypedRoutes.Json.Reader
import TypedRoutes.Json.Writer
import TypedRoutes.Limits
import TypedRoutes.Main
import TypedRoutes.Number.Binary64
import TypedRoutes.Number.Numeral
import TypedRoutes.Number.Power
import TypedRoutes.Number.Shortest
import TypedRoutes.Proofs.Client.Agreement
import TypedRoutes.Proofs.Client.Closed
import TypedRoutes.Proofs.Client.Header
import TypedRoutes.Proofs.Client.Indentation
import TypedRoutes.Proofs.Client.Interchange
import TypedRoutes.Proofs.Client.Interface
import TypedRoutes.Proofs.Client.Line
import TypedRoutes.Proofs.Client.Method
import TypedRoutes.Proofs.Client.Parts
import TypedRoutes.Proofs.Client.QuotedKeys
import TypedRoutes.Proofs.Client.Shown
import TypedRoutes.Proofs.Client.Skeleton
import TypedRoutes.Proofs.Client.Streaming
import TypedRoutes.Proofs.Client.Uncommented
import TypedRoutes.Proofs.Client.Unwritable
import TypedRoutes.Proofs.Client.Written
import TypedRoutes.Proofs.CommandLine.Agreement
import TypedRoutes.Proofs.CommandLine.Loading
import TypedRoutes.Proofs.CommandLine.Run
import TypedRoutes.Proofs.Contract.FirstFault
import TypedRoutes.Proofs.Contract.Parts
import TypedRoutes.Proofs.Datum.Display
import TypedRoutes.Proofs.Document.Contents
import TypedRoutes.Proofs.Document.Extension
import TypedRoutes.Proofs.Document.Keys
import TypedRoutes.Proofs.Document.Nodes
import TypedRoutes.Proofs.Document.OfFile
import TypedRoutes.Proofs.Document.OfServer
import TypedRoutes.Proofs.Document.Source
import TypedRoutes.Proofs.Document.Store
import TypedRoutes.Proofs.Entries
import TypedRoutes.Proofs.FileTree.Beside
import TypedRoutes.Proofs.FileTree.Path
import TypedRoutes.Proofs.FileTree.Publish
import TypedRoutes.Proofs.Json.Datum
import TypedRoutes.Proofs.Json.LineEnds
import TypedRoutes.Proofs.Json.Nesting
import TypedRoutes.Proofs.Json.NonFinite
import TypedRoutes.Proofs.Json.Number
import TypedRoutes.Proofs.Json.Numeral
import TypedRoutes.Proofs.Json.Parsed
import TypedRoutes.Proofs.Json.Parts
import TypedRoutes.Proofs.Json.Quoted
import TypedRoutes.Proofs.Json.ReadBack
import TypedRoutes.Proofs.Json.Step
import TypedRoutes.Proofs.Json.Stop
import TypedRoutes.Proofs.Number.Decimal
import TypedRoutes.Proofs.Number.Nearest
import TypedRoutes.Proofs.Number.Shortest
import TypedRoutes.Proofs.Outcome
import TypedRoutes.Proofs.PropertyKey
import TypedRoutes.Proofs.PropertyKey.Identifier
import TypedRoutes.Proofs.RouteTree.Alike
import TypedRoutes.Proofs.RouteTree.Index
import TypedRoutes.Proofs.RouteTree.Mount
import TypedRoutes.Proofs.RouteTree.Order
import TypedRoutes.Proofs.RouteTree.Path
import TypedRoutes.Proofs.RouteTree.Properties
import TypedRoutes.Proofs.RouteTree.Routes
import TypedRoutes.Proofs.RouteTree.Segmentation
import TypedRoutes.Proofs.RouteTree.Spelling
import TypedRoutes.Proofs.RouteTree.StreamKey
import TypedRoutes.Proofs.Schema.Acyclic
import TypedRoutes.Proofs.Schema.Alike
import TypedRoutes.Proofs.Schema.Decoded
import TypedRoutes.Proofs.Schema.Fields
import TypedRoutes.Proofs.Schema.Literal
import TypedRoutes.Proofs.Schema.Named
import TypedRoutes.Proofs.Schema.NonFinite
import TypedRoutes.Proofs.Schema.Parts
import TypedRoutes.Proofs.Schema.Phrase
import TypedRoutes.Proofs.Schema.Piece
import TypedRoutes.Proofs.Schema.ReadBack
import TypedRoutes.Proofs.Schema.Reading
import TypedRoutes.Proofs.Schema.Rule
import TypedRoutes.Proofs.Schema.Shown
import TypedRoutes.Proofs.Schema.Tree
import TypedRoutes.Proofs.Schema.Unfolding
import TypedRoutes.Proofs.Schema.Unshared
import TypedRoutes.Proofs.Schema.Values
import TypedRoutes.Proofs.Schema.View
import TypedRoutes.Proofs.Schema.Written
import TypedRoutes.Proofs.Text.Compositional
import TypedRoutes.Proofs.Text.Lexeme
import TypedRoutes.Proofs.Text.Line
import TypedRoutes.Proofs.Text.LowerCase
import TypedRoutes.Proofs.Text.Nesting
import TypedRoutes.Proofs.Text.Newline
import TypedRoutes.Proofs.Text.Run
import TypedRoutes.Proofs.Text.Scanner
import TypedRoutes.Proofs.Text.Splitter
import TypedRoutes.Proofs.Text.Uncommented
import TypedRoutes.Proofs.Text.Utf8
import TypedRoutes.Proofs.Text.Utf8Exact
import TypedRoutes.Proofs.Text.Words
import TypedRoutes.Proofs.TypeTree
import TypedRoutes.Proofs.TypeTree.Operand
import TypedRoutes.Proofs.TypeTree.Phrase
import TypedRoutes.Proofs.TypeTree.Reader
import TypedRoutes.Proofs.TypeTree.Reads
import TypedRoutes.Proofs.Yaml.Document
import TypedRoutes.Proofs.Yaml.Node
import TypedRoutes.Proofs.Yaml.Scalar
import TypedRoutes.Proofs.Yaml.Token
import TypedRoutes.PropertyKey
import TypedRoutes.RouteTree
import TypedRoutes.Schema
import TypedRoutes.Schema.Literal
import TypedRoutes.Schema.OfDocument
import TypedRoutes.Schema.Primitive
import TypedRoutes.Schema.TypeText
import TypedRoutes.Text.Base64
import TypedRoutes.Text.CharClass
import TypedRoutes.Text.Hex
import TypedRoutes.Text.LowerCase
import TypedRoutes.Text.Newline
import TypedRoutes.Text.Printable
import TypedRoutes.Text.Quoted
import TypedRoutes.Text.Split
import TypedRoutes.Text.Utf8
import TypedRoutes.Url
import TypedRoutes.Yaml.Cursor
import TypedRoutes.Yaml.Document
import TypedRoutes.Yaml.Fault
import TypedRoutes.Yaml.Graph
import TypedRoutes.Yaml.Merge
import TypedRoutes.Yaml.Node
import TypedRoutes.Yaml.Scalar
import TypedRoutes.Yaml.Tag
import TypedRoutes.Yaml.Token
import TypedRoutes.Yaml.Token.Block
import TypedRoutes.Yaml.Token.Name
import TypedRoutes.Yaml.Token.Plain
import TypedRoutes.Yaml.Token.Quoted
import TypedRoutes.Yaml.Token.Stream
