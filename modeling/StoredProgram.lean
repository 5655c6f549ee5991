import StoredProgram.Main
import StoredProgram.Proofs.Ascent
import StoredProgram.Proofs.Branching
import StoredProgram.Proofs.ExitStatus
import StoredProgram.Proofs.FinalState
import StoredProgram.Proofs.Layers
import StoredProgram.Proofs.Locality
import StoredProgram.Proofs.Permanence
import StoredProgram.Proofs.RoundTrip
import StoredProgram.Proofs.StraightLine
import StoredProgram.Proofs.TraceLog
import StoredProgram.Proofs.Verbosity
import StoredProgram.Proofs.Piecewise
import StoredProgram.Proofs.Tiling
import StoredProgram.Proofs.Rendering
import StoredProgram.Proofs.Concatenation
import StoredProgram.Proofs.Readback
import StoredProgram.Proofs.Precedence
import StoredProgram.Proofs.LineEndings
import StoredProgram.Proofs.Window
import StoredProgram.Proofs.Invocation
