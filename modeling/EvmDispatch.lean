import EvmDispatch.Address
import EvmDispatch.Backend.Basic
import EvmDispatch.Backend.Echo
import EvmDispatch.Backend.Engine
import EvmDispatch.Backend.FastPath
import EvmDispatch.Backend.Interpreter
import EvmDispatch.Backend.Plugin
import EvmDispatch.Backend.Raw
import EvmDispatch.Backend.Scripted
import EvmDispatch.Call
import EvmDispatch.Command.Configure
import EvmDispatch.Command.List
import EvmDispatch.Command.Run
import EvmDispatch.CommandLine.Argument
import EvmDispatch.CommandLine.Grammar
import EvmDispatch.CommandLine.Program
import EvmDispatch.ConfigFile
import EvmDispatch.ConfigFile.Apply
import EvmDispatch.Factory
import EvmDispatch.FileTree
import EvmDispatch.HostConfig
import EvmDispatch.Instance
import EvmDispatch.IntegerRange
import EvmDispatch.Json.Basic
import EvmDispatch.Json.Fields
import EvmDispatch.Json.Printer
import EvmDispatch.Json.Reader
import EvmDispatch.Json.Token
import EvmDispatch.Library
import EvmDispatch.Log
import EvmDispatch.Machine.Code
import EvmDispatch.Machine.Execute
import EvmDispatch.Machine.Frugal
import EvmDispatch.Machine.Instruction
import EvmDispatch.Machine.Memory
import EvmDispatch.Machine.Run
import EvmDispatch.Machine.Settings
import EvmDispatch.Machine.Stack
import EvmDispatch.Machine.State
import EvmDispatch.Machine.Tariff
import EvmDispatch.Main
import EvmDispatch.Outcome
import EvmDispatch.Path
import EvmDispatch.Proofs.Machine.Effect
import EvmDispatch.Proofs.Machine.Trail
import EvmDispatch.Registry
import EvmDispatch.Report
import EvmDispatch.Revision
import EvmDispatch.Session
import EvmDispatch.Status
import EvmDispatch.Surroundings
import EvmDispatch.Text.Blank
import EvmDispatch.Text.Hex
import EvmDispatch.Text.Numeral
import EvmDispatch.Text.Paint
import EvmDispatch.Text.Printable
import EvmDispatch.Text.Quoted
import EvmDispatch.Trace
import EvmDispatch.Vm
import EvmDispatch.VmOption
import EvmDispatch.Word.Arithmetic
import EvmDispatch.Word.Basic
import EvmDispatch.Proofs.Machine.Accounting
import EvmDispatch.Proofs.Log
import EvmDispatch.Proofs.Machine.StraightLine
import EvmDispatch.Proofs.Plugin.Transparency
import EvmDispatch.Proofs.Vm.Dispatch
import EvmDispatch.Proofs.Vm.Interchange
import EvmDispatch.Proofs.Machine.Termination
import EvmDispatch.Proofs.Word.Bytes
import EvmDispatch.Proofs.Word.Arithmetic
import EvmDispatch.Proofs.Word.Bits
import EvmDispatch.Proofs.Machine.Replay
import EvmDispatch.Proofs.Machine.Contents
import EvmDispatch.Proofs.Checked.Word
import EvmDispatch.Proofs.Checked.Parts
import EvmDispatch.Proofs.Checked.Machine
import EvmDispatch.Proofs.Checked.Run
import EvmDispatch.Proofs.Vm.Answers
import EvmDispatch.Proofs.Vm.Refusal
import EvmDispatch.Proofs.Vm.Transcript
import EvmDispatch.Proofs.Vm.Creation
import EvmDispatch.Proofs.Vm.Rejection
import EvmDispatch.Proofs.Session.Lifecycle
import EvmDispatch.Proofs.Session.Operations
import EvmDispatch.Proofs.Vm.Metering
import EvmDispatch.Proofs.Host.Registration
import EvmDispatch.Proofs.Host.Configuration
import EvmDispatch.Proofs.Host.Layers
import EvmDispatch.Proofs.Machine.Lockstep
import EvmDispatch.Proofs.Machine.ControlFlow
import EvmDispatch.Proofs.Machine.Surplus
import EvmDispatch.Proofs.Machine.LaterRevision
import EvmDispatch.Proofs.Machine.StaticFrame
import EvmDispatch.Proofs.Backend.FastPath
import EvmDispatch.Proofs.Machine.Faults
import EvmDispatch.Proofs.Machine.Flat
import EvmDispatch.Proofs.Machine.StepStream
import EvmDispatch.Proofs.Machine.TrailingZeros
import EvmDispatch.Proofs.Text.Numeral
import EvmDispatch.Proofs.Machine.Cause
import EvmDispatch.Proofs.Backend.Options
import EvmDispatch.Proofs.Machine.StackLimit
import EvmDispatch.Proofs.Backend.Isolation
import EvmDispatch.Proofs.Machine.Endings
import EvmDispatch.Proofs.Vm.Endings
import EvmDispatch.Proofs.Checked.Limbs
import EvmDispatch.Proofs.Text.Blank
import EvmDispatch.Proofs.Text.Hex
import EvmDispatch.Proofs.Address
import EvmDispatch.Proofs.Backend.Echo
import EvmDispatch.Proofs.Trace
import EvmDispatch.Proofs.Checked.Growth
import EvmDispatch.Proofs.Checked.Bytes
