import Brainfuck.Main
import Brainfuck.Proofs.Brackets.Verdict
import Brainfuck.Proofs.Brackets.Linking
import Brainfuck.Proofs.Execution.Session
import Brainfuck.Proofs.Execution.Modes
import Brainfuck.Proofs.Structured.Refinement
import Brainfuck.Proofs.Execution.Truncation
import Brainfuck.Proofs.Execution.Slices
import Brainfuck.Proofs.Execution.Delivery
import Brainfuck.Proofs.Execution.Resumption
import Brainfuck.Proofs.Execution.Stops
import Brainfuck.Proofs.Execution.Faults
import Brainfuck.Proofs.Execution.Lockstep
import Brainfuck.Proofs.Execution.Policies
import Brainfuck.Proofs.Execution.Tapes
import Brainfuck.Proofs.Execution.Visits
import Brainfuck.Proofs.Execution.Feeds
import Brainfuck.Proofs.Execution.Trace
import Brainfuck.Proofs.Execution.Comments
import Brainfuck.Proofs.Diagnostics.Culprit
import Brainfuck.Proofs.Diagnostics.Window
import Brainfuck.Proofs.Command.Agreement
import Brainfuck.Proofs.Command.Overriding
import Brainfuck.Proofs.Command.ExitStatus
import Brainfuck.Proofs.Command.Layering
