import Loopx.Authority.StateLogReplay
import Loopx.Authority.Transactions
import Loopx.Authority.FileJournalIntegrity
import Loopx.Authority.FileJournalBytes
import Loopx.Authority.StoreLog
import Loopx.Authority.FileStoreRuns
import Loopx.Authority.SqliteStoreReads
import Loopx.Authority.StoreAgreement
import Loopx.Authority.CommandReceipt
import Loopx.Authority.ScanPages
import Loopx.Authority.StrictJson
import Loopx.Authority.ReplayEncoding
import Loopx.Lease.Generations
import Loopx.Turn.RecoveryRuns
import Loopx.Turn.JournalProgress
import Loopx.Turn.SettlementRuns
import Loopx.Authority.NokvRuns
import Loopx.Authority.SqliteMigrated
import Loopx.Quota.CadenceRuns
import Loopx.Scheduler.PlannerAgreement
import Loopx.Todos.MonitorRuns
import Loopx.Goals.AcceptanceRuns
import Loopx.Goals.DirectionRuns
import Loopx.Lease.TerminalDecision
import Loopx.Lease.WriteScopeSound
import Loopx.Todos.ResumeEvidence
import Loopx.Collaboration.ControlRecovery
import Loopx.Collaboration.SourceGrantRuns
import Loopx.Lib.FunctionalGraph
import Loopx.Lib.Utf16
import Loopx.Todos.CompletionDependency
import Loopx.Todos.ResumeEvaluation
import Loopx.Turn.SettlementIdentity
import Loopx.WorkItems.TaskGraph
import Loopx.WorkItems.GoalTaskGraph
import Loopx.Coordination.SnapshotPaging
import Loopx.Todos.ValidationHistory
import Loopx.Todos.PriorityRuns
import Loopx.Todos.StandingOrder
import Loopx.WorkItems.ReplanLanes
import Loopx.Authority.StateDeltaReach
import Loopx.Todos.TimestampRoundTrip
