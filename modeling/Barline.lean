import Barline.CommandLine.Directory
import Barline.Main
import Barline.Proofs.CommandLine.Agreement
import Barline.Proofs.CommandLine.Ending
import Barline.Proofs.CommandLine.Precedence
import Barline.Proofs.Literal.Canonical
import Barline.Proofs.Literal.Grammar
import Barline.Proofs.Program.Distinct
import Barline.Proofs.Program.LoopCount
import Barline.Proofs.Run.NormalForm
import Barline.Proofs.Score.Coverage
import Barline.Proofs.Score.Instant
import Barline.Proofs.Score.Order
import Barline.Proofs.Score.ReadBack
import Barline.Proofs.Score.Repeats
import Barline.Proofs.Snapshot.Counts
import Barline.Proofs.Snapshot.FirstError
import Barline.Proofs.Snapshot.Misfit
import Barline.Proofs.Snapshot.OwnNote
import Barline.Proofs.Snapshot.Rewriting
import Barline.Proofs.Snapshot.Soundness
import Barline.Proofs.Snapshot.TypedNumber
import Barline.Proofs.Timeline.Account
import Barline.Proofs.Timeline.Causality
import Barline.Proofs.Timeline.Replay
import Barline.Proofs.Timeline.Seam
import Barline.Proofs.Timeline.Shape
import Barline.Proofs.Voice.HeldRoot
