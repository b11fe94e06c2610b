import Brainfuck.Main
import Brainfuck.Structured.Evaluation
import Brainfuck.Proofs.Resolution
import Brainfuck.Proofs.LoopTrees
import Brainfuck.Proofs.LoopSemantics
import Brainfuck.Proofs.SessionSafety
import Brainfuck.Proofs.Devices
import Brainfuck.Proofs.Simulation
import Brainfuck.Proofs.TracedRuns
import Brainfuck.Proofs.Retry
import Brainfuck.Proofs.TimeSlices
import Brainfuck.Proofs.TornRows
import Brainfuck.Proofs.StepLimits
import Brainfuck.Proofs.Exchanges
import Brainfuck.Proofs.NormalInput
import Brainfuck.Proofs.TapeLengths
import Brainfuck.Proofs.SourceWindows
import Brainfuck.Proofs.TrueReports
import Brainfuck.Proofs.CharacterForms
import Brainfuck.Proofs.LossyDecoding
import Brainfuck.Proofs.TraceReading
import Brainfuck.Proofs.TraceTable
import Brainfuck.Proofs.SourcePlaces
import Brainfuck.Proofs.SettingLayers
import Brainfuck.Proofs.CutTraces
import Brainfuck.Proofs.CommandRuns
import Brainfuck.Proofs.Cycles
import Brainfuck.Proofs.Echo
import Brainfuck.Proofs.Reversal
import Brainfuck.Proofs.ColoredReports
import Brainfuck.Proofs.WindowBounds
import Brainfuck.Proofs.NumericVariables
import Brainfuck.Proofs.HexColors
import Brainfuck.Proofs.TomlIntegers
import Brainfuck.Proofs.TapeBounds
