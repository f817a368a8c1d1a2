import EventScript.CallStack
import EventScript.Cast
import EventScript.CommandLine.Command
import EventScript.CommandLine.Execution
import EventScript.CommandLine.Grammar
import EventScript.Comparison
import EventScript.Decimal.Binary64
import EventScript.Decimal.Literal
import EventScript.Decimal.Shortest
import EventScript.Document
import EventScript.Event
import EventScript.FileSystem
import EventScript.Globals
import EventScript.Host
import EventScript.Http.Delivery
import EventScript.Http.Host
import EventScript.Http.Percent
import EventScript.Http.Punycode
import EventScript.Http.Request
import EventScript.Http.Url
import EventScript.Instruction.ArrayAccess
import EventScript.Instruction.Assignment
import EventScript.Instruction.Calculation
import EventScript.Instruction.Condition
import EventScript.Instruction.Decode
import EventScript.Instruction.JobOrder
import EventScript.Instruction.LogNote
import EventScript.Instruction.ObjectAccess
import EventScript.Instruction.Outcome
import EventScript.Instruction.SheetRow
import EventScript.Instruction.TemplateText
import EventScript.Instruction.TextTransform
import EventScript.Instruction.VariableReport
import EventScript.Instruction.Webhook
import EventScript.JobQueue
import EventScript.Json.Basic
import EventScript.Json.Decimal
import EventScript.Json.Number
import EventScript.Json.Path
import EventScript.Json.Printer
import EventScript.Json.Reader
import EventScript.Log
import EventScript.Machine.Action
import EventScript.Machine.Basic
import EventScript.Machine.Status
import EventScript.Machine.Walk
import EventScript.Main
import EventScript.Numeric.Arithmetic
import EventScript.Numeric.Basic
import EventScript.Program.Compile
import EventScript.Program.Error
import EventScript.Program.Registry
import EventScript.Program.Step
import EventScript.Proofs.Except
import EventScript.Proofs.Host.Operation
import EventScript.Proofs.Machine.DepthCut
import EventScript.Proofs.Machine.Effects
import EventScript.Proofs.Machine.Moments
import EventScript.Proofs.Machine.Success
import EventScript.Proofs.Program.Acceptance
import EventScript.Proofs.Program.Blame
import EventScript.Proofs.Program.BranchLimit
import EventScript.Proofs.Program.Builtin
import EventScript.Proofs.Program.Realization
import EventScript.Schema
import EventScript.Settings
import EventScript.Store.Basic
import EventScript.Store.File
import EventScript.Store.Memory
import EventScript.Store.Record
import EventScript.Table
import EventScript.Template
import EventScript.Text.Split
import EventScript.Text.Case
import EventScript.Text.Case.Tables
import EventScript.Text.Numeral
import EventScript.Text.Words
import EventScript.Timestamp
import EventScript.Yaml.Character
import EventScript.Yaml.Cursor
import EventScript.Yaml.Node
import EventScript.Yaml.Scalar
import EventScript.Yaml.Token
import EventScript.Yaml.Value
import EventScript.Proofs.Machine.Composition
import EventScript.Proofs.Machine.Inlining
import EventScript.Proofs.Machine.CallChain
import EventScript.Proofs.Numeric.Spelling
import EventScript.Proofs.Comparison.Integers
import EventScript.Proofs.Json.Assignment
import EventScript.Proofs.Globals
import EventScript.Proofs.Instruction.Taking
import EventScript.Proofs.Store.Laws
import EventScript.Proofs.Store.Memory
import EventScript.Proofs.Host.Soundness
import EventScript.Proofs.Machine.Timeless
import EventScript.Proofs.Host.Dispatch
import EventScript.Proofs.Json.Scanning
import EventScript.Proofs.Json.Reading
import EventScript.Proofs.Timestamp.Calendar
import EventScript.Proofs.Timestamp.Reading
import EventScript.Proofs.Store.Record
import EventScript.Proofs.Store.File
import EventScript.Proofs.Host.Stores
import EventScript.Proofs.Machine.WrittenOrder
import EventScript.Proofs.Machine.LifeCycle
import EventScript.Proofs.Host.Unreadable
import EventScript.Proofs.Json.Place
import EventScript.Proofs.Numeric.Exactness
import EventScript.Proofs.Machine.ExactChain
import EventScript.Proofs.Store.History
import EventScript.Proofs.FileSystem
import EventScript.Proofs.Store.Session
import EventScript.Proofs.Store.Agreement
import EventScript.Proofs.Http.Delivery
import EventScript.Proofs.Machine.Services
import EventScript.Proofs.Machine.Simulation
import EventScript.Proofs.Machine.Deliveries
import EventScript.Proofs.Machine.Moves
import EventScript.Proofs.Machine.SharedQueue
import EventScript.Proofs.Schema
import EventScript.Proofs.Machine.Ownership
import EventScript.Proofs.Instruction.Reading
import EventScript.Proofs.Instruction.Agreement
import EventScript.Proofs.Yaml.Blank
import EventScript.Proofs.Document
import EventScript.Proofs.Decimal.Rounding
import EventScript.Proofs.Machine.Retries
import EventScript.Proofs.Numeric.Arithmetic
import EventScript.Proofs.Numeric.Power
import EventScript.Proofs.Numeric.Radix
import EventScript.Proofs.Decimal.Nearest
import EventScript.Proofs.Decimal.Order
import EventScript.Proofs.Numeric.Order
import EventScript.Proofs.Comparison.Coherence
import EventScript.Proofs.Comparison.Doubles
import EventScript.Proofs.Numeric.Grammar
import EventScript.Proofs.Decimal.Shortest
import EventScript.Proofs.Decimal.Writing
import EventScript.Proofs.Numeric.RoundTrip
import EventScript.Proofs.Instruction.Transform
import EventScript.Proofs.Template
import EventScript.Proofs.Instruction.SheetAddress
import EventScript.Proofs.Instruction.Nulls
import EventScript.Proofs.Json.Truncation
import EventScript.Proofs.Store.Interruption
import EventScript.Proofs.Host.Creation
import EventScript.Proofs.CommandLine.Update
import EventScript.Proofs.Text.Case
import EventScript.Proofs.Text.Words
import EventScript.Proofs.Text.Lines
import EventScript.Proofs.Instruction.Removal
import EventScript.Proofs.Globals.Writing
import EventScript.Proofs.Json.Line
import EventScript.Proofs.Event
import EventScript.Proofs.Machine.Lines
