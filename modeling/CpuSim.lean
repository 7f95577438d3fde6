import CpuSim.Lib.Chain
import CpuSim.Lib.Paced
import CpuSim.Lib.Triple
import CpuSim.Benchmarks.Blocks
import CpuSim.Benchmarks.Runner
import CpuSim.Benchmarks.Loops
import CpuSim.Benchmarks.Suite
import CpuSim.Pipelined.Timing
import CpuSim.MultiCycle.Timing
import CpuSim.Comparison.CycleCount
import CpuSim.SuperScalar.Datapath
import CpuSim.SuperScalar.InFlight
import CpuSim.SuperScalar.Stages
import CpuSim.SuperScalar.RenameDispatch
import CpuSim.SuperScalar.Sound
import CpuSim.SuperScalar.HaltFence
import CpuSim.SuperScalar.FrontendStream
import CpuSim.SuperScalar.BackPressure
import CpuSim.SuperScalar.StepWindow
import CpuSim.SuperScalar.Fetched
import CpuSim.SuperScalar.Followed
import CpuSim.Lib.Renaming
import CpuSim.SuperScalar.RenameMap
import CpuSim.SuperScalar.RenameStep
import CpuSim.SuperScalar.Recovery
import CpuSim.SuperScalar.Conservation
import CpuSim.SuperScalar.RenameFlow
import CpuSim.SuperScalar.MemoryQueues
import CpuSim.SuperScalar.StoreFlow
import CpuSim.SuperScalar.MemoryConsistency
import CpuSim.SuperScalar.Allocation
import CpuSim.SuperScalar.Operands
import CpuSim.SuperScalar.HeadProgress
import CpuSim.SuperScalar.Retirement
import CpuSim.SuperScalar.Unexecuted
import CpuSim.SuperScalar.Interpreter
import CpuSim.SuperScalar.Results
import CpuSim.Lib.Refinement
import CpuSim.SuperScalar.RobRefinement
import CpuSim.SuperScalar.Forwarding
import CpuSim.SuperScalar.FetchStream
import CpuSim.SuperScalar.Wakeup
import CpuSim.Lib.LineAddress
import CpuSim.SuperScalar.DataCache
import CpuSim.Components.Alu
import CpuSim.Logic.Storage
import CpuSim.Isa.Sequential
import CpuSim.MultiCycle.ControlUnit
import CpuSim.MultiCycle.Datapath
import CpuSim.MultiCycle.InstructionCycle
import CpuSim.SuperScalar.InstructionCache
import CpuSim.Components.ProgramCounter
import CpuSim.Pipelined.ControlUnit
import CpuSim.Pipelined.HazardUnit
import CpuSim.Pipelined.Datapath
import CpuSim.Pipelined.Cycle
import CpuSim.Pipelined.Forwarding
import CpuSim.Pipelined.Refinement
import CpuSim.SingleCycle.Datapath
import CpuSim.SingleCycle.InstructionCycle
import CpuSim.Comparison.Reset
import CpuSim.Lib.PythonText
import CpuSim.Assembler.Encoding
import CpuSim.Assembler.RoundTrip
import CpuSim.Assembler.Assembler
import CpuSim.Assembler.Labels
import CpuSim.Assembler.Correspondence
import CpuSim.Comparison.Agreement
import CpuSim.SuperScalar.ProgramOrder
import CpuSim.Assembler.Jumps
import CpuSim.SuperScalar.StoreHistory
import CpuSim.SuperScalar.MemoryExecution
import CpuSim.SuperScalar.LoadValue
import CpuSim.SuperScalar.OrderViolation
import CpuSim.SuperScalar.CheckpointStack
import CpuSim.Lib.Confluence
import CpuSim.SuperScalar.IntegerPipeline
import CpuSim.SuperScalar.IssueOrder
import CpuSim.SuperScalar.IntegerProgram
import CpuSim.Pipelined.ProgramCounterWrite
import CpuSim.SuperScalar.Speculation
import CpuSim.SuperScalar.Transparency
import CpuSim.Lib.WindowRank
import CpuSim.SuperScalar.Accounting
import CpuSim.SuperScalar.Progress
import CpuSim.SuperScalar.StraightLine
import CpuSim.Lib.Sweep
import CpuSim.SuperScalar.IssueQueueBag
import CpuSim.SuperScalar.RobSquash
import CpuSim.SuperScalar.WideDispatch
import CpuSim.Lib.IndexedFold
import CpuSim.SuperScalar.PredictorHistory
import CpuSim.SuperScalar.RenameStall
import CpuSim.SuperScalar.LineRefill
import CpuSim.Assembler.Operands
import CpuSim.Lib.TwoPhase
import CpuSim.Logic.FourValued
import CpuSim.Vector.Datapath
import CpuSim.Vector.MaskedExecution
import CpuSim.Vector.Initialization
import CpuSim.Vector.Configuration
