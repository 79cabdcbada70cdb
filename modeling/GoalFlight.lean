import GoalFlight.Ledger.Terminalize
import GoalFlight.Messages.Post
import GoalFlight.Messages.Ingestion
import GoalFlight.Projector.Terminal
import GoalFlight.Projector.BornRead
import GoalFlight.Projector.FailedPost
import GoalFlight.Tasks.Legacy
import GoalFlight.Dispatch.Withdraw
import GoalFlight.Dispatch.Abandoned
import GoalFlight.Dispatch.Claimer
import GoalFlight.Dispatch.RecoveryProbe
import GoalFlight.Dispatch.DrainTurns
import GoalFlight.Ledger.Archive
import GoalFlight.Wake.Settlement
import GoalFlight.Wake.Probes
import GoalFlight.Wake.Ring
import GoalFlight.Mailbox.Outcomes
import GoalFlight.Mailbox.Exemption
import GoalFlight.Mailbox.Renewal
import GoalFlight.Mailbox.Projection
import GoalFlight.Worktrees.Growth
import GoalFlight.Watch.Polls
import GoalFlight.Fleet.Holders
import GoalFlight.Output.Capture
import GoalFlight.Output.Streaming
import GoalFlight.Watch.Binding
import GoalFlight.DeathCause
import GoalFlight.Watch.Spared
import GoalFlight.Acp.Ghosts
import GoalFlight.Acp.Answers
import GoalFlight.Acp.PoolOwnership
import GoalFlight.Acp.Frames
import GoalFlight.RemoteCi.Requests
import GoalFlight.RemoteCi.Reuse
import GoalFlight.Journal.Drain
import GoalFlight.Journal.Notice
import GoalFlight.Fleet.Release
import GoalFlight.Fleet.Ferry
import GoalFlight.Wake.Suppression
import GoalFlight.Journal.Sweep
import GoalFlight.Projector.Retries
import GoalFlight.Wake.Doorbell
import GoalFlight.Tasks.Registry
import GoalFlight.Tasks.Derived
import GoalFlight.Capacity.Counted
import GoalFlight.Capacity.Agreement
import GoalFlight.Tasks.Idempotent
import GoalFlight.Tasks.Cycles
import GoalFlight.Worktrees.Guard
import GoalFlight.Worktrees.Cleaning
import GoalFlight.Ledger.OneStory
import GoalFlight.Ledger.Scan
import GoalFlight.Mailbox.Projection
