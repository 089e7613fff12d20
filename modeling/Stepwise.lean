import Stepwise.Fitness.Schedule
import Stepwise.Game.Recorder
import Stepwise.Game.Tripwire
import Stepwise.Machine.Meaning
import Stepwise.Machine.Replay
import Stepwise.Main
import Stepwise.Proofs.Fitness.Batch
import Stepwise.Proofs.Fitness.Schedule
import Stepwise.Proofs.Fitness.Sharing
import Stepwise.Proofs.Machine.Overlay
import Stepwise.Proofs.Machine.Picture
import Stepwise.Proofs.Machine.Replay
import Stepwise.Proofs.Tree.Reading
import Stepwise.Proofs.Trial
import Stepwise.Tree.Digest
import Stepwise.Trial
import Stepwise.Proofs.Machine.Accounts
import Stepwise.Proofs.Machine.Plays
import Stepwise.Proofs.Fitness.Budget
import Stepwise.Proofs.Game.Course
import Stepwise.Proofs.Fitness.Duel
import Stepwise.Proofs.Command.Play
import Stepwise.Proofs.Fitness.Cancellation
import Stepwise.Proofs.Game.Outcome
import Stepwise.Proofs.Game.Field
import Stepwise.Proofs.Game.Start
import Stepwise.Proofs.Command.Overrun
import Stepwise.Proofs.Tree.Defects
import Stepwise.Proofs.Machine.Erasure
import Stepwise.Proofs.Machine.Failure
import Stepwise.Proofs.Machine.Observation
import Stepwise.Proofs.Tree.Equality
import Stepwise.Proofs.Command.Tracing
import Stepwise.Proofs.Fitness.Breakdown
