import IrAssembly.Main
import IrAssembly.Wire.Module
import IrAssembly.Builder.Operation
import IrAssembly.Proofs.Success
import IrAssembly.Proofs.Text.Digits
import IrAssembly.Proofs.Function.Coherence
import IrAssembly.Proofs.Function.Growth
import IrAssembly.Proofs.Function.Labels
import IrAssembly.Proofs.Function.Sequence
import IrAssembly.Proofs.Ty.Named
import IrAssembly.Proofs.Module.Completion
import IrAssembly.Proofs.Builder.Refusal
import IrAssembly.Proofs.Builder.Effect
import IrAssembly.Proofs.Builder.Outcome
import IrAssembly.Proofs.Builder.Acts
import IrAssembly.Proofs.Builder.Instructions
import IrAssembly.Proofs.Builder.Control
import IrAssembly.Proofs.Builder.Patterns
import IrAssembly.Proofs.Builder.Session
import IrAssembly.Proofs.Builder.Naming
import IrAssembly.Proofs.Builder.Sequence
import IrAssembly.Proofs.Builder.Construction
import IrAssembly.Proofs.Assembly.Printable
import IrAssembly.Proofs.Assembly.LocalNames
import IrAssembly.Proofs.Assembly.TypeNames
import IrAssembly.Proofs.Assembly.Script
import IrAssembly.Proofs.Assembly.Dialects
import IrAssembly.Proofs.Json.Scalar
import IrAssembly.Proofs.Json.Phrase
import IrAssembly.Proofs.Json.Printed
import IrAssembly.Proofs.Wire.Recovery
import IrAssembly.Proofs.Wire.Ty
import IrAssembly.Proofs.Wire.Value
import IrAssembly.Proofs.Wire.Instruction
import IrAssembly.Proofs.Wire.Module
import IrAssembly.Proofs.Wire.RoundTrip
import IrAssembly.Proofs.Assembly.InstructionLines
import IrAssembly.Proofs.Assembly.Spelling
import IrAssembly.Proofs.Assembly.LabelLines
import IrAssembly.Proofs.Assembly.Numbering
import IrAssembly.Proofs.Builder.Tables
import IrAssembly.Proofs.Builder.Tabulation
import IrAssembly.Proofs.Assembly.Vocabulary
import IrAssembly.Proofs.Assembly.Wording
import IrAssembly.Proofs.Module.Definitions
import IrAssembly.Proofs.Module.DefinedNames
import IrAssembly.Proofs.Function.Extension
import IrAssembly.Proofs.Builder.StraightLine
import IrAssembly.Proofs.Builder.Frame
import IrAssembly.Proofs.Builder.Labelling
import IrAssembly.Proofs.Builder.Insertion
import IrAssembly.Proofs.Layout.Alignment
import IrAssembly.Proofs.Builder.Alignment
import IrAssembly.Proofs.Builder.Parameters
import IrAssembly.Proofs.Builder.Comparison
import IrAssembly.Proofs.Function.Sealing
import IrAssembly.Proofs.Assembly.ModuleTitle
import IrAssembly.Proofs.Builder.Writing
import IrAssembly.Proofs.Builder.ArgumentFetch
import IrAssembly.Proofs.Builder.Leftovers
import IrAssembly.Proofs.Execution.Machine
import IrAssembly.Proofs.Execution.Code
import IrAssembly.Proofs.Execution.Instructions
import IrAssembly.Proofs.Builder.VectorFold
import IrAssembly.Proofs.Layout.Default
import IrAssembly.Proofs.Builder.ArgumentCopy
import IrAssembly.Proofs.Builder.ArgumentCursor
import IrAssembly.Proofs.Builder.ArgumentPaths
import IrAssembly.Proofs.Builder.ArgumentRuns
import IrAssembly.Proofs.Builder.ArgumentSlots
import IrAssembly.Proofs.Builder.ArgumentSteps
import IrAssembly.Proofs.Layout.Members
import IrAssembly.Proofs.Layout.Placement
import IrAssembly.Proofs.Layout.Grammar
import IrAssembly.Proofs.Layout.Settings
import IrAssembly.Proofs.Layout.Acceptance
import IrAssembly.Proofs.Builder.VectorFill
import IrAssembly.Proofs.FloatingPoint.Magnitude
import IrAssembly.Proofs.FloatingPoint.Rounding
import IrAssembly.Proofs.Ty.Occurrence
import IrAssembly.Proofs.FloatingPoint.Words
import IrAssembly.Proofs.FloatingPoint.Narrowing
import IrAssembly.Proofs.FloatingPoint.Widening
import IrAssembly.Proofs.FloatingPoint.Integers
import IrAssembly.Proofs.Constant.Wrapping
import IrAssembly.Proofs.Builder.Promotion
import IrAssembly.Proofs.Ty.Outline
import IrAssembly.Proofs.Assembly.Reader
import IrAssembly.Proofs.Assembly.TypeReading
import IrAssembly.Proofs.FloatingPoint.Notation
import IrAssembly.Proofs.Constant.Outline
import IrAssembly.Proofs.Assembly.ConstantReading
import IrAssembly.Proofs.Assembly.ConstantTexts
import IrAssembly.Proofs.Text.Hexadecimal
import IrAssembly.Proofs.Assembly.Quotation
import IrAssembly.Proofs.FloatingPoint.Literals
import IrAssembly.Proofs.Assembly.LineCount
import IrAssembly.Proofs.Builder.ReturnConversion
import IrAssembly.Proofs.Builder.MemberIndices
import IrAssembly.Proofs.Builder.AddressWalk
import IrAssembly.Proofs.Assembly.SwitchEncodings
