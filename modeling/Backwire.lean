import Backwire.Wire.Varint
import Backwire.Wire.Bin
import Backwire.Wire.Binary
import Backwire.Text.Blank
import Backwire.Text.LetterCase
import Backwire.Text.Identifier
import Backwire.Wire.Builtin
import Backwire.Wire.Buffer
import Backwire.Wire.Encode
import Backwire.Wire.Decode
import Backwire.Wire.Value
import Backwire.Wire.Record
import Backwire.Wire.Builder
import Backwire.Wire.Pool
import Backwire.Proofs.Wire.Grammar
import Backwire.Proofs.Wire.Access
import Backwire.Proofs.Wire.ReadBack
import Backwire.Proofs.Wire.Acceptance
import Backwire.Proofs.Wire.Agreement
import Backwire.Proofs.Wire.Bounds
import Backwire.Proofs.Wire.RoundTrip
import Backwire.Proofs.Wire.Relocation
import Backwire.Proofs.Wire.Skipping
import Backwire.Proofs.Wire.Rollback
import Backwire.Proofs.Wire.Assembly
import Backwire.Proofs.Wire.Ordering
import Backwire.Proofs.Wire.Struct
import Backwire.Proofs.Wire.Searching
import Backwire.Proofs.Wire.Closing
import Backwire.Proofs.Wire.Atomicity
import Backwire.Proofs.Wire.Widths
import Backwire.Proofs.Wire.Canonical
import Backwire.Proofs.Wire.Groups
import Backwire.Proofs.Text.Digits
import Backwire.Proofs.Wire.Opaque
import Backwire.Proofs.Wire.Nesting
import Backwire.Proofs.Wire.Pooling
import Backwire.Proofs.Package.Paths
import Backwire.Proofs.Package.Cleaning
import Backwire.Proofs.Package.Growth
import Backwire.Proofs.Package.Drafting
import Backwire.Proofs.Package.Declarations
import Backwire.Proofs.Package.Evaluation
import Backwire.Proofs.Package.Reachable
import Backwire.Proofs.Package.ImportGraph
import Backwire.Proofs.Package.Directories
import Backwire.Proofs.Package.Spelling
import Backwire.Proofs.Package.Occurrences
import Backwire.Proofs.Package.Resolution
import Backwire.Proofs.Package.Containment
import Backwire.Proofs.Package.Regularity
import Backwire.Proofs.Package.Enforcement
import Backwire.Proofs.Package.Walks
import Backwire.Proofs.Package.Words
import Backwire.Proofs.Package.Loops
import Backwire.Proofs.Bindings.StructCodec
import Backwire.Proofs.Bindings.Identifiers
import Backwire.Proofs.Bindings.TypePaths
import Backwire.Proofs.Bindings.Scopes
import Backwire.Proofs.Bindings.Clashes
import Backwire.Proofs.Bindings.References
import Backwire.Proofs.Bindings.ModuleNames
import Backwire.Proofs.Sample.Scene
import Backwire.Proofs.Command.Output
import Backwire.Sample.Scene
import Backwire.Sample.Painter
import Backwire.Schema.Parser
import Backwire.Schema.Layout
import Backwire.Package.Compile
import Backwire.Bindings.Generate
import Backwire.Bindings.SourceText
import Backwire.Main
import Backwire.Proofs.Schema.Names
import Backwire.Proofs.Schema.Lexing
import Backwire.Proofs.Schema.Gaps
import Backwire.Proofs.Schema.Spacing
import Backwire.Proofs.Schema.Grammar
import Backwire.Proofs.Schema.Parsing
import Backwire.Proofs.Schema.Formatting
import Backwire.Proofs.Schema.Rejection
