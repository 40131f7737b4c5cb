import Batty.Dispatch.OneTask
import Batty.Dispatch.Routing
import Batty.Dispatch.Escalations
import Batty.Dispatch.Backoff
import Batty.Dispatch.Cron
import Batty.Shim.Channel
import Batty.Shim.Order
import Batty.Delivery.Duplicates
import Batty.Delivery.Pending
import Batty.Delivery.Handoff
import Batty.Health.ClaimTtl
import Batty.Delivery.Retry
import Batty.Config.Reload
import Batty.Health.Starvation
import Batty.Health.Escalation
import Batty.Health.Replenishment
import Batty.Merge.Rebase
import Batty.Delivery.Legacy
import Batty.Merge.Handover
import Batty.Merge.Retries
import Batty.Discord.Commands
import Batty.Dispatch.AutoUnblock
import Batty.Board.Processes
import Batty.Dispatch.Explain
import Batty.Dispatch.Allocation
import Batty.Dispatch.Globs
import Batty.Board.Compat
import Batty.Board.Aging
import Batty.Board.Rotation
import Batty.Shim.Usage
import Batty.Shim.Tracker
import Batty.Tact.Dedupe
import Batty.Delivery.Limits
import Batty.Dispatch.Rendering
import Batty.Shim.Completions
import Batty.Merge.AutoMerge
import Batty.Delivery.Fifo
import Batty.Delivery.Refs
import Batty.Delivery.Suppression
import Batty.Delivery.Digest
import Batty.Delivery.Capped
import Batty.Merge.Packets
import Batty.Merge.DiffStat
import Batty.Merge.TestRuns
import Batty.Telegram.Splitting
import Batty.Discord.Embeds
import Batty.Config.ActiveProjects
import Batty.Merge.TaskReferences
import Batty.Health.Subsystems
import Batty.Health.FailurePatterns
import Batty.Board.Parity
import Batty.Merge.Preservation
import Batty.Config.EnvFile
import Batty.Config.Registration
import Batty.Merge.Waits
