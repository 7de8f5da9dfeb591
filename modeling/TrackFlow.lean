import TrackFlow.ReadCommitted.System
import TrackFlow.Python.Time
import TrackFlow.Pipelines.RunStore
import TrackFlow.Pipelines.Fencing
import TrackFlow.Pipelines.QualityGate
import TrackFlow.Pipelines.PublishedRows
import TrackFlow.Pipelines.FailedRuns
import TrackFlow.Pipelines.StoppedFlows
import TrackFlow.Pipelines.Additivity
import TrackFlow.Pipelines.PublishableBatches
import TrackFlow.Pipelines.CountedIdentities
import TrackFlow.Pipelines.RowOrder
import TrackFlow.Pipelines.StagedDiff
import TrackFlow.Pipelines.OutboxRelay
import TrackFlow.Pipelines.DrainedOutbox
import TrackFlow.Pipelines.UntrustedRows
import TrackFlow.Pipelines.CoverageSoundness
import TrackFlow.Pipelines.RunLifecycle
import TrackFlow.Pipelines.WeekAttribution
import TrackFlow.Pipelines.Recovery
import TrackFlow.Jobs.Exclusivity
import TrackFlow.Jobs.NightlyRun
import TrackFlow.Auth.ResetTokens
import TrackFlow.Inventory.FreshReads
import TrackFlow.Inventory.CommandLocks
import TrackFlow.Inventory.BulkStock
import TrackFlow.Inventory.OrderExits
import TrackFlow.Inventory.Retries
import TrackFlow.Inventory.Commits
import TrackFlow.Inventory.Idempotence
import TrackFlow.Inventory.RelayedWeeks
import TrackFlow.Inventory.WeeklyKpis
import TrackFlow.Jobs.ChildCleanup
import TrackFlow.Jobs.CsvArtifact
import TrackFlow.TaskQueue.AtMostOnce
import TrackFlow.TaskQueue.DeadLetters
import TrackFlow.TaskQueue.Progress
import TrackFlow.TaskQueue.Agreement
import TrackFlow.TaskQueue.UrlPasswords
import TrackFlow.TaskQueue.Publications
import TrackFlow.Backoffice.Telemetry
import TrackFlow.Forecast.Gini
import TrackFlow.Incidents.SharedLabels
import TrackFlow.Reporting.WeeklyJson
