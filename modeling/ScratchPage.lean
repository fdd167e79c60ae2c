import ScratchPage.Archive
import ScratchPage.Archive.Bits
import ScratchPage.Archive.Checksum
import ScratchPage.Archive.Directory
import ScratchPage.Archive.Inflate
import ScratchPage.Arguments
import ScratchPage.Asset.Md5
import ScratchPage.Asset.Select
import ScratchPage.Block.Basic
import ScratchPage.Block.Decode
import ScratchPage.Block.Graph
import ScratchPage.Code.Descriptor
import ScratchPage.Code.Fragment
import ScratchPage.Code.Operand
import ScratchPage.Code.Script
import ScratchPage.Code.Statement
import ScratchPage.Code.Writer
import ScratchPage.Compile.Finding
import ScratchPage.Compile.Script
import ScratchPage.Compile.Statement
import ScratchPage.Compile.Target
import ScratchPage.Compile.Value
import ScratchPage.Conversion.Command
import ScratchPage.Conversion.Convert
import ScratchPage.Conversion.Error
import ScratchPage.Conversion.Host
import ScratchPage.Conversion.Progress
import ScratchPage.Decimal.Basic
import ScratchPage.Decimal.Binary
import ScratchPage.Decimal.Layout
import ScratchPage.Decimal.Numeral
import ScratchPage.Decimal.Shortest
import ScratchPage.Diagnostic
import ScratchPage.Disk.Basic
import ScratchPage.Disk.Host
import ScratchPage.Disk.Walk
import ScratchPage.Error
import ScratchPage.Input.Basic
import ScratchPage.Input.Decode
import ScratchPage.Json.Basic
import ScratchPage.Json.Numeric
import ScratchPage.Json.Reader
import ScratchPage.Json.Writer
import ScratchPage.Main
import ScratchPage.Opcode
import ScratchPage.Outcome
import ScratchPage.Page
import ScratchPage.Path
import ScratchPage.Project
import ScratchPage.Target
import ScratchPage.Template
import ScratchPage.Text.Blank
import ScratchPage.Text.Dump
import ScratchPage.Text.Escape
import ScratchPage.Text.Hidden
import ScratchPage.Text.Keyed
import ScratchPage.Proofs.Lexical.Token
import ScratchPage.Proofs.Lexical.Literal
import ScratchPage.Proofs.Lexical.Code
import ScratchPage.Proofs.Lexical.Context
import ScratchPage.Proofs.Lexical.Operand
import ScratchPage.Proofs.Lexical.Descriptor
import ScratchPage.Proofs.Compile.Outcome
import ScratchPage.Proofs.Lexical.Project
import ScratchPage.Proofs.Lexical.Markup
import ScratchPage.Proofs.Compile.Rules
import ScratchPage.Proofs.Block.Canvas
import ScratchPage.Proofs.Block.References
import ScratchPage.Proofs.Compile.Errors
import ScratchPage.Proofs.Compile.Tracked
import ScratchPage.Proofs.Compile.Likeness.Basic
import ScratchPage.Proofs.Compile.Likeness.Values
import ScratchPage.Proofs.Compile.Likeness.Scripts
import ScratchPage.Proofs.Compile.Wording
import ScratchPage.Proofs.Compile.Meaning
import ScratchPage.Proofs.Compile.Numeric
import ScratchPage.Proofs.Conversion.Steps
import ScratchPage.Proofs.Disk.Frame
import ScratchPage.Proofs.Conversion.Publication
import ScratchPage.Proofs.Compile.Isolation
import ScratchPage.Proofs.Conversion.Preparation
import ScratchPage.Proofs.Disk.Tree
import ScratchPage.Proofs.Conversion.Delivery
import ScratchPage.Proofs.Conversion.Assets
import ScratchPage.Proofs.Conversion.Interruption
import ScratchPage.Proofs.Compile.Liveness
import ScratchPage.Proofs.Compile.Unknown
import ScratchPage.Proofs.Json.Keys
import ScratchPage.Proofs.Compile.Renaming
import ScratchPage.Proofs.Lexical.Lines
import ScratchPage.Proofs.Lexical.Procedures
import ScratchPage.Proofs.Lexical.Marks
import ScratchPage.Proofs.Lexical.Texture
import ScratchPage.Proofs.Lexical.Integrity
import ScratchPage.Proofs.Compile.Linkage
import ScratchPage.Proofs.Lexical.Rows
import ScratchPage.Proofs.Lexical.Scopes
import ScratchPage.Proofs.Lexical.Loops
import ScratchPage.Proofs.Compile.Marks
import ScratchPage.Proofs.Lexical.Gaps
import ScratchPage.Proofs.Compile.Degradation
import ScratchPage.Proofs.Lexical.Arrays
import ScratchPage.Proofs.Lexical.Arguments
import ScratchPage.Proofs.Lexical.Hygiene
import ScratchPage.Proofs.Compile.Arguments
import ScratchPage.Proofs.Lexical.Strings
import ScratchPage.Proofs.Decimal.Grammar
import ScratchPage.Proofs.Decimal.Double
import ScratchPage.Proofs.Decimal.Parsing
import ScratchPage.Proofs.Decimal.Leading
import ScratchPage.Proofs.Json.Scalars
import ScratchPage.Proofs.Json.Reading
import ScratchPage.Proofs.Block.Chain
import ScratchPage.Proofs.Input.Encoding
import ScratchPage.Proofs.Decimal.Whole
import ScratchPage.Proofs.Compile.Random
import ScratchPage.Proofs.Template.Markers
import ScratchPage.Proofs.Text.Bytes
import ScratchPage.Proofs.Asset.Partition
import ScratchPage.Proofs.Lexical.Registrations
import ScratchPage.Proofs.Block.Precedence
import ScratchPage.Proofs.Compile.Registered
import ScratchPage.Proofs.Json.Texts
import ScratchPage.Proofs.Compile.ArgumentLists
import ScratchPage.Proofs.Decimal.Rounding
import ScratchPage.Proofs.Decimal.RoundTrip
import ScratchPage.Proofs.Lexical.Arithmetic
import ScratchPage.Proofs.Compile.Direction
import ScratchPage.Proofs.Lexical.Indentation
