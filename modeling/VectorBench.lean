import VectorBench.Main
import VectorBench.Proofs.Binding.FailedCalls
import VectorBench.Proofs.Binding.FaultInjection
import VectorBench.Proofs.Binding.Reset
import VectorBench.Proofs.Binding.Sessions
import VectorBench.Proofs.Binding.UnmodelledCodes
import VectorBench.Proofs.Comparison.Agreement
import VectorBench.Proofs.Comparison.Exactness
import VectorBench.Proofs.Comparison.Progress
import VectorBench.Proofs.Comparison.Spans
import VectorBench.Proofs.Comparison.Steady
import VectorBench.Proofs.Console.Lines
import VectorBench.Proofs.Hart.Accounts
import VectorBench.Proofs.Hart.Aliasing
import VectorBench.Proofs.Hart.Background
import VectorBench.Proofs.Hart.Emit
import VectorBench.Proofs.Hart.FatalTraps
import VectorBench.Proofs.Hart.Interrupts
import VectorBench.Proofs.Hart.Refinement
import VectorBench.Proofs.Instruction.Encoding
import VectorBench.Proofs.Interrupt.Registration
import VectorBench.Proofs.Matrix.Charges
import VectorBench.Proofs.Matrix.Product
import VectorBench.Proofs.Suite.Lines
import VectorBench.Proofs.Suite.MatrixProduct
import VectorBench.Proofs.Suite.VectorSum
import VectorBench.Proofs.Suite.Verdicts
import VectorBench.Proofs.Sweep.Pairs
import VectorBench.Proofs.Sweep.Progression
import VectorBench.Proofs.Text.FixedPoint
import VectorBench.Proofs.Text.RoundTrip
import VectorBench.Proofs.Text.Slices
import VectorBench.Proofs.Trap.Captured
import VectorBench.Proofs.Trap.Decoding
import VectorBench.Proofs.Trap.Diagnostic
import VectorBench.Proofs.Trap.Handler
import VectorBench.Proofs.Trap.Readback
import VectorBench.Proofs.VRegFile.Bits
import VectorBench.Proofs.VRegFile.Bytes
import VectorBench.Proofs.VectorUnit.Atomicity
import VectorBench.Proofs.VectorUnit.Configuration
import VectorBench.Proofs.VectorUnit.Groups
import VectorBench.Proofs.VectorUnit.Loops
import VectorBench.Proofs.VectorUnit.MaskedSum
import VectorBench.Proofs.VectorUnit.Memory
import VectorBench.Proofs.VectorUnit.Packed
import VectorBench.Proofs.VectorUnit.Pointwise
import VectorBench.Proofs.VectorUnit.Sequences
import VectorBench.Proofs.VectorUnit.StripMining
import VectorBench.Text.Log
import VectorBench.Trap.Handler
import VectorBench.VRegFile.Strided
