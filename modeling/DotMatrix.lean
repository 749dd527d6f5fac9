import DotMatrix.Device.Battery
import DotMatrix.Device.Run
import DotMatrix.Journal.Narrated
import DotMatrix.Files.Path
import DotMatrix.Files.Tree
import DotMatrix.Storage.Folder
import DotMatrix.Console.Transcript
import DotMatrix.Cartridge.Image
import DotMatrix.Console.Options
import DotMatrix.Console.Program
import DotMatrix.Main
import DotMatrix.Proofs.Grid.Arithmetic
import DotMatrix.Proofs.Grid.Basic
import DotMatrix.Proofs.Grid.Correspondence
import DotMatrix.Proofs.Grid.Tables
import DotMatrix.Proofs.Routine.Agreement
import DotMatrix.Proofs.Device.Fault
import DotMatrix.Proofs.Board.Memory
import DotMatrix.Proofs.Board.Run
import DotMatrix.Proofs.Timer.FallingEdge
import DotMatrix.Proofs.Board.Unwatched
import DotMatrix.Proofs.Device.Transparency
import DotMatrix.Proofs.Processor.Invariant
import DotMatrix.Proofs.Board.Cells
import DotMatrix.Proofs.Board.Clock
import DotMatrix.Proofs.Interrupt.Service
import DotMatrix.Proofs.Interrupt.Order
import DotMatrix.Proofs.Cartridge.Ram
import DotMatrix.Proofs.Cartridge.Windows
import DotMatrix.Proofs.Dma.Transfer
import DotMatrix.Proofs.Board.Footprint
import DotMatrix.Proofs.Console.Loop
import DotMatrix.Proofs.Device.Battery
import DotMatrix.Proofs.Cartridge.Calendar
import DotMatrix.Proofs.Device.Log
import DotMatrix.Proofs.Device.Meter
import DotMatrix.Proofs.Device.TimeBase
import DotMatrix.Proofs.Board.Image
import DotMatrix.Proofs.Interrupt.Enabling
import DotMatrix.Proofs.Device.Sampling
import DotMatrix.Proofs.Device.Sleep
import DotMatrix.Proofs.Timer.Clockwork
import DotMatrix.Proofs.Timer.Reload
import DotMatrix.Proofs.Timer.Delay
import DotMatrix.Proofs.Timer.Elapse
import DotMatrix.Proofs.Board.Interleaving
import DotMatrix.Proofs.Board.Wiring
import DotMatrix.Proofs.Board.Watching
import DotMatrix.Proofs.Device.Stops
import DotMatrix.Proofs.Cartridge.Wheels
import DotMatrix.Proofs.Cartridge.Latch
import DotMatrix.Proofs.Arithmetic.Chain
import DotMatrix.Proofs.Arithmetic.Binary
import DotMatrix.Proofs.Arithmetic.Decimal
import DotMatrix.Proofs.Cartridge.Reach
import DotMatrix.Proofs.Cartridge.NamedBank
import DotMatrix.Proofs.Cartridge.Checked
import DotMatrix.Proofs.Cartridge.Soundness
import DotMatrix.Proofs.Stack.Layout
import DotMatrix.Proofs.Stack.Simulation
import DotMatrix.Proofs.Stack.Return
import DotMatrix.Proofs.Header.Text
import DotMatrix.Proofs.Header.Checksum
import DotMatrix.Proofs.Notation.Reading
import DotMatrix.Proofs.Notation.Encoding
import DotMatrix.Proofs.Device.Poll
import DotMatrix.Proofs.Device.Polling
import DotMatrix.Proofs.Console.Hexadecimal
import DotMatrix.Proofs.Files.Walk
import DotMatrix.Proofs.Files.Making
import DotMatrix.Proofs.Storage.Agreement
