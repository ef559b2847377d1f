import ScriptLex.Files.Tree
import ScriptLex.Lexer.Session
import ScriptLex.Main
import ScriptLex.Proofs.Decimal
import ScriptLex.Proofs.Passing
import ScriptLex.Proofs.Piece
import ScriptLex.Proofs.Stepping
import ScriptLex.Proofs.Calls
import ScriptLex.Proofs.Tiling
import ScriptLex.Proofs.Joining
import ScriptLex.Proofs.LockStep
import ScriptLex.Proofs.Acceptance
import ScriptLex.Proofs.Account
import ScriptLex.Proofs.RoundTrip
import ScriptLex.Proofs.Concatenation
import ScriptLex.Proofs.Location
import ScriptLex.Proofs.Lines
import ScriptLex.Proofs.Controls
import ScriptLex.Proofs.Rendering
import ScriptLex.Proofs.Quoting
import ScriptLex.Proofs.JsonReader
import ScriptLex.Proofs.Decoding
import ScriptLex.Proofs.Precedence
import ScriptLex.Proofs.Draining
import ScriptLex.Proofs.Machine.Cursor
import ScriptLex.Proofs.Machine.Report
import ScriptLex.Proofs.Machine.Lexer
import ScriptLex.Proofs.Machine.Run
import ScriptLex.Proofs.Numbers
import ScriptLex.Proofs.Machine.Walk
import ScriptLex.Proofs.LongestPrefix
import ScriptLex.Proofs.Settings
import ScriptLex.Proofs.Logging
import ScriptLex.Proofs.Toml.Strings
import ScriptLex.Proofs.Toml.Documents
import ScriptLex.Proofs.Configuration
import ScriptLex.Proofs.Agreement
import ScriptLex.Proofs.Snippets
import ScriptLex.Proofs.WarningLines
import ScriptLex.Proofs.WarningLines
