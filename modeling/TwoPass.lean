import TwoPass.Assembly
import TwoPass.Command.Arguments
import TwoPass.Command.Run
import TwoPass.Diagnostic
import TwoPass.Dictionary
import TwoPass.Encoding
import TwoPass.FileTree
import TwoPass.InputFile
import TwoPass.Intermediate
import TwoPass.Journal
import TwoPass.Layout
import TwoPass.Main
import TwoPass.ObjectProgram
import TwoPass.OpcodeTable
import TwoPass.Operand
import TwoPass.Packing
import TwoPass.Printout
import TwoPass.Proofs.Acceptance
import TwoPass.Proofs.Addresses
import TwoPass.Proofs.Attribution
import TwoPass.Proofs.ByteConstants
import TwoPass.Proofs.Carets
import TwoPass.Proofs.CodeSizes
import TwoPass.Proofs.Codecs
import TwoPass.Proofs.Definitions
import TwoPass.Proofs.Effects
import TwoPass.Proofs.ErrorLimit
import TwoPass.Proofs.Extent
import TwoPass.Proofs.FileRuns
import TwoPass.Proofs.FileWrites
import TwoPass.Proofs.Hexadecimal
import TwoPass.Proofs.InputFaults
import TwoPass.Proofs.IntermediateFile
import TwoPass.Proofs.LineFields
import TwoPass.Proofs.Lines
import TwoPass.Proofs.Listing
import TwoPass.Proofs.Loading
import TwoPass.Proofs.ObjectFile
import TwoPass.Proofs.ObjectLines
import TwoPass.Proofs.OperandFaults
import TwoPass.Proofs.OutputFiles
import TwoPass.Proofs.Placement
import TwoPass.Proofs.Places
import TwoPass.Proofs.Readback
import TwoPass.Proofs.Redefinitions
import TwoPass.Proofs.Relocation
import TwoPass.Proofs.Reports
import TwoPass.Proofs.Resolution
import TwoPass.Proofs.Runs
import TwoPass.Proofs.Scanning
import TwoPass.Proofs.SourceText
import TwoPass.Proofs.Spellings
import TwoPass.Proofs.StartAddresses
import TwoPass.Proofs.Strictness
import TwoPass.Proofs.SymbolHistory
import TwoPass.Proofs.TextLines
import TwoPass.Proofs.TextRecords
import TwoPass.Proofs.Tokens
import TwoPass.Proofs.UnknownOpcodes
import TwoPass.Record
import TwoPass.Session
import TwoPass.Settings
import TwoPass.Statement
import TwoPass.SymbolTable
import TwoPass.Text.Blank
import TwoPass.Text.Digits
import TwoPass.Text.Escapes
import TwoPass.Text.Hex
import TwoPass.Text.Lines
import TwoPass.Text.Numeral
import TwoPass.Text.Printable
import TwoPass.Text.Quoted
import TwoPass.Text.Resemblance
import TwoPass.Text.Split
import TwoPass.Text.Utf8
import TwoPass.Token
