import ScriptScan.ByteScanner
import ScriptScan.FileTree
import ScriptScan.Main
import ScriptScan.Proofs.Causes
import ScriptScan.Proofs.Closing
import ScriptScan.Proofs.Integers
import ScriptScan.Proofs.LineFeed
import ScriptScan.Proofs.Lookahead
import ScriptScan.Proofs.MaximalMunch
import ScriptScan.Proofs.Positions
import ScriptScan.Proofs.Pulling
import ScriptScan.Proofs.Quoting
import ScriptScan.Proofs.Reprint
import ScriptScan.Proofs.SharedLog
import ScriptScan.Proofs.Tiling
import ScriptScan.Proofs.Advice
import ScriptScan.Proofs.Spelling
import ScriptScan.Proofs.Printing
import ScriptScan.Proofs.Lines
import ScriptScan.Proofs.Painting
import ScriptScan.Proofs.Carets
import ScriptScan.Proofs.Escapes
import ScriptScan.Proofs.Blocks
import ScriptScan.Proofs.Records
import ScriptScan.Proofs.Objects
import ScriptScan.Proofs.Inputs
import ScriptScan.Proofs.Loading
import ScriptScan.Proofs.Batches
import ScriptScan.Proofs.Agreement
import ScriptScan.Proofs.Configuration
import ScriptScan.Proofs.Zipper
import ScriptScan.Proofs.Dispatch
import ScriptScan.Proofs.Totality
