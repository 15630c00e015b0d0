import Chola.Properties.AccessRights
import Chola.Properties.Allocation
import Chola.Properties.Answers
import Chola.Properties.ArchiveAfterPurge
import Chola.Properties.AtMostOnce
import Chola.Properties.Blacklists
import Chola.Properties.BuildLimit
import Chola.Properties.CancelSignals
import Chola.Properties.CommandMasking
import Chola.Properties.Counters
import Chola.Properties.DefaultCommand
import Chola.Properties.DeliveryPaths
import Chola.Properties.DependencyOrder
import Chola.Properties.DispatchOrder
import Chola.Properties.FailedReservations
import Chola.Properties.FilePaths
import Chola.Properties.FinishedGroups
import Chola.Properties.GroupLists
import Chola.Properties.IdempotencyKeys
import Chola.Properties.JobIdentity
import Chola.Properties.JobLogs
import Chola.Properties.JobViews
import Chola.Properties.LogMemory
import Chola.Properties.LogWatching
import Chola.Properties.Masking
import Chola.Properties.PipelineRows
import Chola.Properties.ProcessTree
import Chola.Properties.PurgeStamps
import Chola.Properties.QueryColumns
import Chola.Properties.QueryMeaning
import Chola.Properties.Rejection
import Chola.Properties.RepoCap
import Chola.Properties.RowMirror
import Chola.Properties.ScheduleSpacing
import Chola.Properties.SoundSuccess
import Chola.Properties.StageOrder
import Chola.Properties.StreamOwnership
import Chola.Properties.TerminalGroups
import Chola.Properties.TerminalJobs
import Chola.Properties.TierOrder
import Chola.Properties.Timeouts
import Chola.Properties.TokenUses
import Chola.Properties.TokenValidity
import Chola.Properties.UniqueJobs
import Chola.Properties.UnusedRelease
import Chola.Properties.VariableValues
import Chola.Properties.WorkerDeath
import Chola.Properties.WorkerIdentity
