import CellMachine.Amplifier.Mode
import CellMachine.Amplifier.Ring
import CellMachine.Amplifier.Search
import CellMachine.Arrangement
import CellMachine.Cell
import CellMachine.Computer
import CellMachine.Console.Flag
import CellMachine.Console.LogLine
import CellMachine.Console.Perform
import CellMachine.Console.Prompt
import CellMachine.Console.Request
import CellMachine.Console.Session
import CellMachine.Console.Usage
import CellMachine.Failure
import CellMachine.Instruction
import CellMachine.Instruction.Decode
import CellMachine.Journal
import CellMachine.Machine
import CellMachine.Machine.Run
import CellMachine.Main
import CellMachine.Memory
import CellMachine.Memory.Dump
import CellMachine.Patch
import CellMachine.Proofs.Amplifier.Build
import CellMachine.Proofs.Amplifier.Chain
import CellMachine.Proofs.Amplifier.Ledger
import CellMachine.Proofs.Amplifier.Modes
import CellMachine.Proofs.Amplifier.Network
import CellMachine.Proofs.Amplifier.Padding
import CellMachine.Proofs.Amplifier.Progress
import CellMachine.Proofs.Amplifier.Rounds
import CellMachine.Proofs.Amplifier.Scheduling
import CellMachine.Proofs.Amplifier.Search
import CellMachine.Proofs.Amplifier.Signal
import CellMachine.Proofs.Amplifier.Stall
import CellMachine.Proofs.Amplifier.Steady
import CellMachine.Proofs.Arrangement.Order
import CellMachine.Proofs.Arrangement.Stop
import CellMachine.Proofs.Arrangement.Sweep
import CellMachine.Proofs.Arrangement.Visit
import CellMachine.Proofs.Computer.Padding
import CellMachine.Proofs.Console.Causality
import CellMachine.Proofs.Console.Prompt
import CellMachine.Proofs.Console.Session
import CellMachine.Proofs.Instruction.Decode
import CellMachine.Proofs.Instruction.Format
import CellMachine.Proofs.Instruction.Immediate
import CellMachine.Proofs.Instruction.Sums
import CellMachine.Proofs.Interpreter
import CellMachine.Proofs.LifeCycle
import CellMachine.Proofs.Machine.Addressing
import CellMachine.Proofs.Machine.Calls
import CellMachine.Proofs.Machine.Failing
import CellMachine.Proofs.Machine.LifeCycle
import CellMachine.Proofs.Machine.Padding
import CellMachine.Proofs.Machine.Run
import CellMachine.Proofs.Machine.Session
import CellMachine.Proofs.Machine.Steady
import CellMachine.Proofs.Memory.Address
import CellMachine.Proofs.Memory.Delivery
import CellMachine.Proofs.Memory.Dump
import CellMachine.Proofs.Patch
import CellMachine.Proofs.Patch.Order
import CellMachine.Proofs.Patch.Search
import CellMachine.Proofs.Source.Grammar
import CellMachine.Proofs.Source.Location
import CellMachine.Proofs.Source.Program
import CellMachine.Proofs.Source.Reading
import CellMachine.Proofs.Source.Recovery
import CellMachine.Proofs.Source.Report
import CellMachine.Proofs.Source.Scan
import CellMachine.Proofs.Text.Numeral
import CellMachine.Proofs.Text.Utf8
import CellMachine.Sink
import CellMachine.Source.Position
import CellMachine.Source.Program
import CellMachine.Source.Token
import CellMachine.Storage
import CellMachine.Text.Blank
import CellMachine.Text.Decimal
import CellMachine.Text.Numeral
import CellMachine.Text.Printable
import CellMachine.Text.Quoted
import CellMachine.Text.Utf8
