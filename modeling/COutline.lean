import COutline.Data.SortedMap
import COutline.Data.Bytes
import COutline.Text.Utf8
import COutline.Source.Position
import COutline.Source.Span
import COutline.Source.Map
import COutline.Config.Limits
import COutline.Token.Kind
import COutline.Token.Basic
import COutline.Lexeme.Scan
import COutline.Lexeme.Keyword
import COutline.Log.Event
import COutline.Text.Decimal
import COutline.Config.Preferences
import COutline.Lexer.Error
import COutline.Lexer.Metrics
import COutline.Lexer.Basic
import COutline.Json.Basic
import COutline.Json.Records
import COutline.Report.Code
import COutline.Source.Path
import COutline.Log.Collector
import COutline.Token.Stream
import COutline.Outline.Basic
import COutline.Analysis.Diagnostic
import COutline.Analysis.Body
import COutline.Analysis.Basic
import COutline.Source.File
import COutline.Compile.Basic
import COutline.Config.Overlay
import COutline.Text.Escaped
import COutline.Text.Quote
import COutline.Text.Float
import COutline.Text.Double
import COutline.Decode.Error
import COutline.Json.Reader
import COutline.Json.Shape
import COutline.Json.Value
import COutline.Json.Document
import COutline.Json.Schema
import COutline.Toml.Document
import COutline.Toml.Error
import COutline.Toml.Parser
import COutline.Toml.Decode
import COutline.Config.File
import COutline.Config.Build
import COutline.Log.Sink
import COutline.Cli.Options
import COutline.Cli.Run
import COutline.Text.Timestamp
import COutline.Main
import COutline.Proofs.Lexer.Trace
import COutline.Proofs.Lexer.Tiling
import COutline.Proofs.Source.Positions
import COutline.Proofs.Lexer.MaximalMunch
import COutline.Proofs.Lexer.Lookahead
import COutline.Proofs.Lexer.Relexing
import COutline.Proofs.Outline.Program
import COutline.Proofs.Analysis.Braces
import COutline.Proofs.Analysis.Scan
import COutline.Proofs.Analysis.Occurrences
import COutline.Proofs.Analysis.Modes
import COutline.Proofs.Analysis.Policies
import COutline.Proofs.Analysis.Offsets
import COutline.Proofs.Lexer.Blanking
import COutline.Proofs.Compile.Comments
import COutline.Proofs.Token.Cursor
import COutline.Proofs.Data.SortedMap
import COutline.Proofs.Log.Retention
import COutline.Proofs.Analysis.Blocks
import COutline.Proofs.Analysis.Depth
import COutline.Proofs.Lexer.Faults
import COutline.Proofs.Lexer.Metrics
import COutline.Proofs.Analysis.Findings
import COutline.Proofs.Lexer.Closing
import COutline.Proofs.Lexer.Progress
import COutline.Proofs.Analysis.Loop
import COutline.Proofs.Log.Startup
